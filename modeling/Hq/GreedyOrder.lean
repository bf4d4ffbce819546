/-
Greedy traversal of a finite set under a relation of precedence: an element is
ready when no pending element precedes it, and the least ready element is
listed next.
-/
import Mathlib

namespace Hq

universe u

section Paths

variable {α : Type u}

/-- A pending element that no pending element precedes. -/
structure Unpreceded (edge : α → α → Prop) (pending : Finset α) (v : α) :
    Prop where
  mem : v ∈ pending
  free : ∀ p ∈ pending, ¬ edge p v

/-- Precedence between two members of a set. -/
def EdgeWithin (edge : α → α → Prop) (pending : Finset α) (p c : α) : Prop :=
  edge p c ∧ p ∈ pending ∧ c ∈ pending

variable {edge : α → α → Prop} {pending : Finset α}

/-- No path inside the pending set ends at a ready element. -/
theorem Unpreceded.not_path {v : α} (h : Unpreceded edge pending v) (x : α) :
    ¬ Relation.TransGen (EdgeWithin edge pending) x v := by
  intro hpath
  obtain ⟨p, -, hedge, hp, -⟩ := Relation.TransGen.tail'_iff.1 hpath
  exact h.free p hp hedge

/-- A set without cycles has a ready element unless it is empty. -/
theorem exists_ready (hne : pending.Nonempty)
    (hacyclic : ∀ v ∈ pending,
      ¬ Relation.TransGen (EdgeWithin edge pending) v v) :
    ∃ v, Unpreceded edge pending v := by
  let past : pending → pending → Prop :=
    fun p c => Relation.TransGen (EdgeWithin edge pending) p.1 c.1
  have : IsTrans pending past := ⟨fun _ _ _ h1 h2 => h1.trans h2⟩
  have : Std.Irrefl past := ⟨fun v hv => hacyclic v.1 v.2 hv⟩
  have hwf : WellFounded past := Finite.wellFounded_of_trans_of_irrefl past
  obtain ⟨start, hstart⟩ := hne
  obtain ⟨⟨v, hv⟩, -, hmin⟩ := hwf.has_min Set.univ ⟨⟨start, hstart⟩, trivial⟩
  exact ⟨v, hv, fun p hp hedge =>
    hmin ⟨p, hp⟩ trivial (.single ⟨hedge, hp, hv⟩)⟩

end Paths

variable {α : Type u} [LinearOrder α]

/-- A traversal that lists the least ready element until none is ready, with
what it leaves unlisted. -/
inductive GreedyRun (edge : α → α → Prop) :
    Finset α → List α → Finset α → Prop
  | stuck {pending : Finset α} (hstuck : ∀ v, ¬ Unpreceded edge pending v) :
      GreedyRun edge pending [] pending
  | emit {pending left : Finset α} {v : α} {rest : List α}
      (hready : Unpreceded edge pending v)
      (hleast : ∀ w, Unpreceded edge pending w → v ≤ w)
      (hrest : GreedyRun edge (pending.erase v) rest left) :
      GreedyRun edge pending (v :: rest) left

/-- A traversal that lists the whole set. -/
def GreedyOrder (edge : α → α → Prop) (pending : Finset α)
    (order : List α) : Prop :=
  GreedyRun edge pending order ∅

variable {edge : α → α → Prop} {pending left : Finset α} {order : List α}

/-- A path that starts elsewhere does not meet a ready element. -/
theorem Unpreceded.path_erase {v x y : α} (h : Unpreceded edge pending v)
    (hx : x ≠ v)
    (hpath : Relation.TransGen (EdgeWithin edge pending) x y) :
    Relation.TransGen (EdgeWithin edge (pending.erase v)) x y := by
  have hstep : ∀ {p c}, p ≠ v → EdgeWithin edge pending p c →
      EdgeWithin edge (pending.erase v) p c := by
    rintro p c hp ⟨hedge, hpending, hchild⟩
    have hc : c ≠ v := by
      rintro rfl
      exact h.free p hpending hedge
    exact ⟨hedge, Finset.mem_erase.2 ⟨hp, hpending⟩,
      Finset.mem_erase.2 ⟨hc, hchild⟩⟩
  induction hpath with
  | single hedge => exact .single (hstep hx hedge)
  | tail hpath hedge ih =>
      refine ih.tail (hstep ?_ hedge)
      rintro rfl
      exact h.not_path x hpath

namespace GreedyRun

/-- The traversal is determined by the set. -/
theorem unique {other : List α} {remaining : Finset α}
    (h : GreedyRun edge pending order left)
    (hother : GreedyRun edge pending other remaining) :
    order = other ∧ left = remaining := by
  induction h generalizing other with
  | stuck hstuck =>
      cases hother with
      | stuck _ => exact ⟨rfl, rfl⟩
      | emit hready _ _ => exact absurd hready (hstuck _)
  | emit hready hleast _ ih =>
      cases hother with
      | stuck hstuck => exact absurd hready (hstuck _)
      | emit hready' hleast' hrest' =>
          obtain rfl := le_antisymm (hleast _ hready') (hleast' _ hready)
          obtain ⟨rfl, rfl⟩ := ih hrest'
          exact ⟨rfl, rfl⟩

theorem left_stuck (h : GreedyRun edge pending order left) (v : α) :
    ¬ Unpreceded edge left v := by
  induction h with
  | stuck hstuck => exact hstuck v
  | emit _ _ _ ih => exact ih

theorem left_subset (h : GreedyRun edge pending order left) :
    left ⊆ pending := by
  induction h with
  | stuck _ => exact Finset.Subset.refl _
  | emit _ _ _ ih => exact ih.trans (Finset.erase_subset _ _)

/-- What is listed is what was pending and is not left. -/
theorem mem_iff (h : GreedyRun edge pending order left) (v : α) :
    v ∈ order ↔ v ∈ pending ∧ v ∉ left := by
  induction h with
  | stuck _ => simp
  | @emit pending left first rest hready _ hrest ih =>
      have hfirst : first ∉ left := fun hmem =>
        Finset.notMem_erase first pending (hrest.left_subset hmem)
      rw [List.mem_cons, ih, Finset.mem_erase]
      constructor
      · rintro (rfl | ⟨⟨-, hmem⟩, hleft⟩)
        · exact ⟨hready.mem, hfirst⟩
        · exact ⟨hmem, hleft⟩
      · rintro ⟨hmem, hleft⟩
        by_cases hsame : v = first
        · exact Or.inl hsame
        · exact Or.inr ⟨⟨hsame, hmem⟩, hleft⟩

theorem nodup (h : GreedyRun edge pending order left) : order.Nodup := by
  induction h with
  | stuck _ => exact List.nodup_nil
  | emit _ _ hrest ih =>
      refine List.nodup_cons.2 ⟨fun hmem => ?_, ih⟩
      exact Finset.notMem_erase _ _ ((hrest.mem_iff _).1 hmem).1

theorem length_eq (h : GreedyRun edge pending order left) :
    order.length + left.card = pending.card := by
  induction h with
  | stuck _ => simp
  | emit hready _ _ ih =>
      rw [Finset.card_erase_of_mem hready.mem] at ih
      have hpos := Finset.card_pos.2 ⟨_, hready.mem⟩
      rw [List.length_cons]
      omega

theorem left_eq_empty_iff_length (h : GreedyRun edge pending order left) :
    left = ∅ ↔ order.length = pending.card := by
  rw [← Finset.card_eq_zero, ← h.length_eq]
  omega

/-- Nothing listed later leads to what is listed before it. -/
theorem pairwise (h : GreedyRun edge pending order left) :
    order.Pairwise fun before after =>
      ¬ Relation.TransGen (EdgeWithin edge pending) after before := by
  induction h with
  | stuck _ => exact List.Pairwise.nil
  | emit hready _ hrest ih =>
      refine List.pairwise_cons.2 ⟨fun after _ => hready.not_path after, ?_⟩
      refine ih.imp_of_mem fun {before after} _ hafter hnone hpath => ?_
      exact hnone (hready.path_erase
        (Finset.ne_of_mem_erase ((hrest.mem_iff after).1 hafter).1) hpath)

theorem not_cycle (h : GreedyRun edge pending order left) {v : α}
    (hv : v ∈ order) : ¬ Relation.TransGen (EdgeWithin edge pending) v v := by
  induction h with
  | stuck _ => cases hv
  | emit hready _ hrest ih =>
      rcases List.mem_cons.1 hv with rfl | hv
      · exact hready.not_path v
      · intro hcycle
        have hne := Finset.ne_of_mem_erase ((hrest.mem_iff v).1 hv).1
        exact ih hv (hready.path_erase hne hcycle)

/-- The traversal lists everything exactly when there is no cycle. -/
theorem left_eq_empty_iff (h : GreedyRun edge pending order left) :
    left = ∅ ↔ ∀ v ∈ pending,
      ¬ Relation.TransGen (EdgeWithin edge pending) v v := by
  constructor
  · rintro rfl v hv
    exact h.not_cycle ((h.mem_iff v).2 ⟨hv, Finset.notMem_empty v⟩)
  · intro hacyclic
    by_contra hleft
    have hinside : ∀ v ∈ left,
        ¬ Relation.TransGen (EdgeWithin edge left) v v := by
      intro v hv hcycle
      refine hacyclic v (h.left_subset hv)
        (Relation.TransGen.mono (fun p c hstep => ?_) _ _ hcycle)
      exact ⟨hstep.1, h.left_subset hstep.2.1, h.left_subset hstep.2.2⟩
    obtain ⟨v, hready⟩ :=
      exists_ready (Finset.nonempty_iff_ne_empty.2 hleft) hinside
    exact h.left_stuck v hready

/-- Only precedence between pending elements matters. -/
theorem congr {other : α → α → Prop} (h : GreedyRun edge pending order left)
    (hsame : ∀ p ∈ pending, ∀ c ∈ pending, edge p c ↔ other p c) :
    GreedyRun other pending order left := by
  have hready : ∀ {pending : Finset α} {v : α},
      (∀ p ∈ pending, ∀ c ∈ pending, edge p c ↔ other p c) →
      (Unpreceded edge pending v ↔ Unpreceded other pending v) := by
    intro pending v hsame
    constructor
    · exact fun hv => ⟨hv.mem, fun p hp hedge =>
        hv.free p hp ((hsame p hp v hv.mem).2 hedge)⟩
    · exact fun hv => ⟨hv.mem, fun p hp hedge =>
        hv.free p hp ((hsame p hp v hv.mem).1 hedge)⟩
  induction h with
  | stuck hstuck => exact .stuck fun v hv => hstuck v ((hready hsame).2 hv)
  | emit hv hleast _ ih =>
      exact .emit ((hready hsame).1 hv)
        (fun w hw => hleast w ((hready hsame).2 hw))
        (ih fun p hp c hc => hsame p (Finset.mem_of_mem_erase hp) c
          (Finset.mem_of_mem_erase hc))

/-- Dropping an element that precedes nothing drops it from the list. -/
theorem erase_sink {x : α} (h : GreedyRun edge pending order left)
    (hleft : x ∉ left) (hsink : ∀ w ∈ pending, ¬ edge x w) :
    GreedyRun edge (pending.erase x) (order.erase x) left := by
  induction h with
  | stuck hstuck =>
      rw [Finset.erase_eq_of_notMem hleft]
      exact .stuck hstuck
  | @emit pending left v rest hready hleast hrest ih =>
      by_cases hsame : v = x
      · subst hsame
        simpa using hrest
      · rw [List.erase_cons_tail (by simpa using hsame)]
        refine .emit ⟨Finset.mem_erase.2 ⟨hsame, hready.mem⟩,
          fun p hp => hready.free p (Finset.mem_of_mem_erase hp)⟩ ?_ ?_
        · rintro w ⟨hw, hfree⟩
          have hpending := Finset.mem_of_mem_erase hw
          refine hleast w ⟨hpending, fun p hp => ?_⟩
          by_cases hpx : p = x
          · exact hpx ▸ hsink w hpending
          · exact hfree p (Finset.mem_erase.2 ⟨hpx, hp⟩)
        · rw [Finset.erase_right_comm]
          exact ih hleft fun w hw => hsink w (Finset.mem_of_mem_erase hw)

end GreedyRun

/-- A list of a whole set in which nothing stands before an element that
precedes it. -/
structure LinearExtension (edge : α → α → Prop) (pending : Finset α)
    (order : List α) : Prop where
  nodup : order.Nodup
  mem_iff : ∀ v, v ∈ order ↔ v ∈ pending
  forward : order.Pairwise fun before after => ¬ edge after before

namespace LinearExtension

variable {first : α} {rest : List α}

omit [LinearOrder α] in
/-- What is listed first is ready, unless it precedes itself. -/
theorem head_unpreceded (h : LinearExtension edge pending (first :: rest))
    (hself : ¬ edge first first) : Unpreceded edge pending first := by
  refine ⟨(h.mem_iff first).1 List.mem_cons_self, fun p hp hedge => ?_⟩
  rcases List.mem_cons.1 ((h.mem_iff p).2 hp) with rfl | hrest
  · exact hself hedge
  · exact (List.pairwise_cons.1 h.forward).1 p hrest hedge

theorem tail (h : LinearExtension edge pending (first :: rest)) :
    LinearExtension edge (pending.erase first) rest := by
  obtain ⟨hfirst, hnodup⟩ := List.nodup_cons.1 h.nodup
  refine ⟨hnodup, fun v => ?_, (List.pairwise_cons.1 h.forward).2⟩
  rw [Finset.mem_erase, ← h.mem_iff, List.mem_cons]
  constructor
  · intro hv
    exact ⟨fun heq => hfirst (heq ▸ hv), Or.inr hv⟩
  · rintro ⟨hne, hv⟩
    exact hv.resolve_left hne

end LinearExtension

namespace GreedyRun

theorem linearExtension (h : GreedyRun edge pending order ∅) :
    LinearExtension edge pending order := by
  have hmem : ∀ v, v ∈ order ↔ v ∈ pending := by
    intro v
    simp [h.mem_iff]
  refine ⟨h.nodup, hmem, h.pairwise.imp_of_mem ?_⟩
  intro before after hbefore hafter hnone hedge
  exact hnone (.single ⟨hedge, (hmem after).1 hafter, (hmem before).1 hbefore⟩)

/-- Listing the least ready element each time gives the lexicographically least
list. -/
theorem not_lex_linearExtension (h : GreedyRun edge pending order left)
    (hself : ∀ v ∈ pending, ¬ edge v v) {other : List α}
    (hother : LinearExtension edge pending other) :
    ¬ List.Lex (· < ·) other order := by
  induction h generalizing other with
  | stuck _ =>
      intro hlex
      cases hlex
  | emit hready hleast _ ih =>
      intro hlex
      cases hlex with
      | nil => exact List.not_mem_nil ((hother.mem_iff _).2 hready.mem)
      | rel hlt =>
          have hhead := (hother.mem_iff _).1 List.mem_cons_self
          have hle := hleast _ (hother.head_unpreceded (hself _ hhead))
          exact absurd hlt (not_lt.2 hle)
      | cons htail =>
          refine ih (fun v hv => ?_) hother.tail htail
          exact hself v (Finset.mem_of_mem_erase hv)

end GreedyRun

end Hq
