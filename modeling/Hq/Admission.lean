/-
Rounds of admission over a finite set: a member stays admitted only while its
parents are, its own test may look at all it descends from, it may wait for
targets among its own descendants and it may ask for one of several sources.
The tests need not be monotone, yet the rounds settle after a bounded number
of steps when no source depends on the member that asks for it.
-/
import Mathlib

namespace Hq

universe u

section Within

variable {α : Type u} {step : α → α → Prop} {base : Set α}

/-- What a relation reaches from a base set within a number of steps. -/
def within (step : α → α → Prop) (base : Set α) : Nat → Set α
  | 0 => base
  | k + 1 => within step base k ∪ {x | ∃ y ∈ within step base k, step y x}

theorem within_succ_of_step {k : Nat} {x y : α} (hy : y ∈ within step base k)
    (hstep : step y x) : x ∈ within step base (k + 1) :=
  Or.inr ⟨y, hy, hstep⟩

/-- A member first reached after `k` steps has a predecessor at every earlier
step. -/
theorem within_level {k : Nat} {x : α} {U : Finset α}
    (hU : ∀ {y z j}, Relation.ReflTransGen step z x → z ∈ U → z ∉ base →
      y ∈ within step base j → step y z → y ∈ U)
    (hx : x ∈ within step base k)
    (hfirst : ∀ j < k, x ∉ within step base j) (hmem : x ∈ U) :
    ∀ i ≤ k, ∃ y ∈ U, y ∈ within step base i ∧
      ∀ j < i, y ∉ within step base j := by
  induction k generalizing x with
  | zero =>
      intro i hi
      obtain rfl : i = 0 := by omega
      exact ⟨x, hmem, hx, hfirst⟩
  | succ k ih =>
      intro i hi
      by_cases hik : i = k + 1
      · subst hik
        exact ⟨x, hmem, hx, hfirst⟩
      rcases hx with hx | ⟨y, hy, hstep⟩
      · exact absurd hx (hfirst k (by omega))
      have hyfirst : ∀ j < k, y ∉ within step base j := fun j hj hyj =>
        hfirst (j + 1) (by omega) (within_succ_of_step hyj hstep)
      have hbase : x ∉ base := hfirst 0 (by omega)
      exact ih (fun hz => hU (hz.tail hstep)) hy hyfirst
        (hU .refl hmem hbase hy hstep) i (by omega)

/-- Inside a finite set the number of steps stays below its size. -/
theorem exists_within_lt_card {k : Nat} {x : α} {U : Finset α}
    (hU : ∀ {y z j}, Relation.ReflTransGen step z x → z ∈ U → z ∉ base →
      y ∈ within step base j → step y z → y ∈ U)
    (hx : x ∈ within step base k) (hmem : x ∈ U) :
    ∃ j < U.card, x ∈ within step base j := by
  classical
  have hreached : ∃ k, x ∈ within step base k := ⟨k, hx⟩
  let n := Nat.find hreached
  have hlevels := within_level hU (Nat.find_spec hreached)
    (fun j hj => Nat.find_min hreached hj) hmem
  have : Nonempty α := ⟨x⟩
  choose! witness hwitness using hlevels
  refine ⟨n, ?_, Nat.find_spec hreached⟩
  have hinj : Set.InjOn witness (Finset.range (n + 1)) := by
    intro i hi j hj heq
    simp only [Finset.coe_range, Set.mem_Iio] at hi hj
    obtain ⟨-, hini, hfirsti⟩ := hwitness i (by omega)
    obtain ⟨-, hinj, hfirstj⟩ := hwitness j (by omega)
    rcases lt_trichotomy i j with h | h | h
    · exact absurd (heq ▸ hini) (hfirstj i h)
    · exact h
    · exact absurd (heq ▸ hinj) (hfirsti j h)
  have hcard := Finset.card_le_card_of_injOn witness
    (fun i hi => (hwitness i (Nat.lt_succ_iff.1 (Finset.mem_range.1 hi))).1)
    hinj
  rw [Finset.card_range] at hcard
  omega

end Within

/-- Rounds of admission.  `good` is the verdict on a member whose causal past
is admitted; a member with targets is admitted only while each of them is and
never returns from two rounds of absence; each source set of a member must
hold an admitted one. -/
structure Admission (α : Type u) where
  members : Finset α
  candidates : Set α
  parent : α → α → Prop
  target : α → α → Prop
  source : α → Set α → Prop
  good : α → Prop
  round : Nat → Set α
  mem_members : ∀ {x}, x ∈ candidates → x ∈ members
  acyclic : ∀ {x}, x ∈ candidates → ¬ Relation.TransGen parent x x
  round_zero : round 0 = candidates
  candidate_of_round : ∀ {t x}, x ∈ round t → x ∈ candidates
  parent_of_round : ∀ {t x p}, x ∈ round (t + 1) → parent p x → p ∈ round t
  target_of_round : ∀ {t x r}, x ∈ round (t + 1) → target r x → r ∈ round t
  source_of_round : ∀ {t x B}, x ∈ round (t + 1) → source x B →
    ∃ c ∈ B, c ∈ round t
  return_of_round : ∀ {t x r}, target r x → x ∈ round (t + 2) → x ∈ round t
  good_of_round : ∀ {t x}, x ∈ round (t + 1) →
    (∀ z, Relation.TransGen parent z x → z ∈ round t ∧ good z) → good x
  round_of_good : ∀ {t x}, x ∈ candidates → good x →
    (∀ z, Relation.TransGen parent z x → z ∈ round t ∧ good z) →
    (∀ r, target r x → r ∈ round t ∧
      ∀ z, Relation.TransGen parent z r → z ∈ round t) →
    (∀ B, source x B → ∃ c ∈ B, c ∈ round t) → x ∈ round (t + 1)

namespace Admission

variable {α : Type u} (A : Admission α)

/-- The members that every round admits. -/
def settled : Set α := {x | ∀ t, x ∈ A.round t}

/-- A set of candidates that supports itself. -/
structure Closed (S : Set α) : Prop where
  candidate : ∀ {x}, x ∈ S → x ∈ A.candidates
  good : ∀ {x}, x ∈ S → A.good x
  parent : ∀ {x p}, x ∈ S → A.parent p x → p ∈ S
  target : ∀ {x r}, x ∈ S → A.target r x → r ∈ S
  source : ∀ {x B}, x ∈ S → A.source x B → ∃ c ∈ B, c ∈ S

/-- A member depends on its parents, its targets and its sources. -/
def Depends (y x : α) : Prop :=
  A.parent y x ∨ A.target y x ∨ ∃ B, A.source x B ∧ y ∈ B

/-- No source depends on the member that asks for it. -/
def Independent : Prop :=
  ∀ {x B c}, A.source x B → c ∈ B → ¬ Relation.ReflTransGen A.Depends x c

variable {A}

theorem Closed.ancestor {S : Set α} (hS : A.Closed S) {x z : α} (hx : x ∈ S)
    (hz : Relation.TransGen A.parent z x) : z ∈ S := by
  induction hz using Relation.TransGen.head_induction_on with
  | single h => exact hS.parent hx h
  | head h _ ih => exact hS.parent ih h

/-- A closed set is admitted by every round. -/
theorem Closed.subset_round {S : Set α} (hS : A.Closed S) (t : Nat) :
    S ⊆ A.round t := by
  induction t with
  | zero =>
      rw [A.round_zero]
      exact fun x hx => hS.candidate hx
  | succ t ih =>
      intro x hx
      refine A.round_of_good (hS.candidate hx) (hS.good hx) ?_ ?_ ?_
      · intro z hz
        have hmem := hS.ancestor hx hz
        exact ⟨ih hmem, hS.good hmem⟩
      · intro r hr
        have hmem := hS.target hx hr
        exact ⟨ih hmem, fun z hz => ih (hS.ancestor hmem hz)⟩
      · intro B hB
        obtain ⟨c, hc, hmem⟩ := hS.source hx hB
        exact ⟨c, hc, ih hmem⟩

theorem Closed.subset_settled {S : Set α} (hS : A.Closed S) : S ⊆ A.settled :=
  fun _ hx t => hS.subset_round t hx

/-! A member that two consecutive early rounds refuse is lost, and so is
everything that depends on a lost member. -/

/-- A member cannot do without its parents and its targets. -/
def Requires (A : Admission α) (y x : α) : Prop := A.parent y x ∨ A.target y x

/-- The members lost within a number of propagation steps. -/
def lost (A : Admission α) : Nat → Set α :=
  within A.Requires {x | x ∉ A.round 1 ∧ x ∉ A.round 2}

theorem mem_round_of_dependency {t : Nat} {x y : α} (hx : x ∈ A.round (t + 1))
    (hy : A.Requires y x) : y ∈ A.round t := by
  rcases hy with hp | ht
  · exact A.parent_of_round hx hp
  · exact A.target_of_round hx ht

/-- A lost member is refused by two consecutive rounds. -/
theorem refused_of_lost {k : Nat} {x : α} (hx : x ∈ A.lost k) :
    ∃ j ≤ k, x ∉ A.round (j + 1) ∧ x ∉ A.round (j + 2) := by
  induction k generalizing x with
  | zero => exact ⟨0, le_rfl, hx⟩
  | succ k ih =>
      rcases hx with hx | ⟨y, hy, hdep⟩
      · obtain ⟨j, hj, hrefused⟩ := ih hx
        exact ⟨j, by omega, hrefused⟩
      · obtain ⟨j, hj, h1, h2⟩ := ih hy
        exact ⟨j + 1, by omega, fun h => h1 (mem_round_of_dependency h hdep),
          fun h => h2 (mem_round_of_dependency h hdep)⟩

theorem not_settled_of_lost {k : Nat} {x : α} (hx : x ∈ A.lost k) :
    x ∉ A.settled := by
  obtain ⟨j, _, hrefused, _⟩ := refused_of_lost hx
  exact fun h => hrefused (h (j + 1))

/-- The members that are never lost. -/
def kept (A : Admission α) : Set α := {x | ∀ k, x ∉ A.lost k}

theorem kept_dependency {x y : α} (hx : x ∈ A.kept)
    (hy : A.Requires y x) : y ∈ A.kept :=
  fun k hk => hx (k + 1) (within_succ_of_step hk hy)

theorem kept_ancestor {x z : α} (hx : x ∈ A.kept)
    (hz : Relation.TransGen A.parent z x) : z ∈ A.kept := by
  induction hz using Relation.TransGen.head_induction_on with
  | single h => exact kept_dependency hx (Or.inl h)
  | head h _ ih => exact kept_dependency ih (Or.inl h)

theorem kept_early {x : α} (hx : x ∈ A.kept) :
    x ∈ A.round 1 ∨ x ∈ A.round 2 := by
  have h := hx 0
  simp only [lost, within, Set.mem_ofPred_eq] at h
  tauto

theorem kept_candidate {x : α} (hx : x ∈ A.kept) : x ∈ A.candidates := by
  rcases kept_early hx with h | h <;> exact A.candidate_of_round h

/-- Induction over the causal past of candidates. -/
theorem candidate_induction {P : α → Prop}
    (h : ∀ x ∈ A.candidates, (∀ z ∈ A.candidates,
      Relation.TransGen A.parent z x → P z) → P x) :
    ∀ x ∈ A.candidates, P x := by
  have hfinite : Finite A.candidates :=
    (A.members.finite_toSet.subset fun x hx => A.mem_members hx).to_subtype
  let past : A.candidates → A.candidates → Prop :=
    fun z x => Relation.TransGen A.parent z.1 x.1
  have : IsTrans A.candidates past := ⟨fun _ _ _ h1 h2 => h1.trans h2⟩
  have : Std.Irrefl past := ⟨fun x hx => A.acyclic x.2 hx⟩
  have hwf : WellFounded past := Finite.wellFounded_of_trans_of_irrefl past
  intro x hx
  have hall := hwf.induction (C := fun x => P x.1) ⟨x, hx⟩
    fun y ih => h y.1 y.2 fun z hz hzy => ih ⟨z, hz⟩ hzy
  exact hall

/-- A member with a target that two consecutive rounds refuse never returns. -/
theorem refused_forever {x r : α} (hr : A.target r x) {j : Nat}
    (h1 : x ∉ A.round (j + 1)) (h2 : x ∉ A.round (j + 2)) :
    ∀ t, j < t → x ∉ A.round t := by
  have hpair : ∀ i, x ∉ A.round (j + 1 + i) ∧ x ∉ A.round (j + 2 + i) := by
    intro i
    induction i with
    | zero => exact ⟨h1, h2⟩
    | succ i ih =>
        have hshift : j + 1 + (i + 1) = j + 2 + i := by omega
        refine ⟨by rw [hshift]; exact ih.2, fun hx => ih.1 ?_⟩
        refine A.return_of_round hr ?_
        rw [show j + 1 + i + 2 = j + 2 + (i + 1) by omega]
        exact hx
  intro t ht
  obtain ⟨i, rfl⟩ : ∃ i, t = j + 1 + i := ⟨t - (j + 1), by omega⟩
  exact (hpair i).1

open Classical in
/-- The members outside the settled set. -/
noncomputable def unsettled (A : Admission α) : Finset α :=
  A.members.filter fun x => x ∉ A.settled

theorem mem_unsettled {x : α} :
    x ∈ A.unsettled ↔ x ∈ A.members ∧ x ∉ A.settled := by
  classical
  simp [unsettled]

open Classical in
/-- The unsettled members a member descends from. -/
noncomputable def unsettledPast (A : Admission α) (x : α) : Finset α :=
  A.unsettled.filter fun z => Relation.TransGen A.parent z x

theorem mem_unsettledPast {x z : α} :
    z ∈ A.unsettledPast x ↔
      z ∈ A.unsettled ∧ Relation.TransGen A.parent z x := by
  classical
  simp [unsettledPast]

theorem unsettledPast_card_lt {x p : α} (hp : p ∈ A.candidates)
    (hunsettled : p ∉ A.settled) (hparent : A.parent p x) :
    (A.unsettledPast p).card < (A.unsettledPast x).card := by
  refine Finset.card_lt_card (Finset.ssubset_iff_of_subset ?_ |>.2 ?_)
  · intro z hz
    rw [mem_unsettledPast] at hz ⊢
    exact ⟨hz.1, hz.2.tail hparent⟩
  · refine ⟨p, mem_unsettledPast.2 ⟨mem_unsettled.2
      ⟨A.mem_members hp, hunsettled⟩, .single hparent⟩, fun h => ?_⟩
    exact A.acyclic hp (mem_unsettledPast.1 h).2

/-! Without sources the rounds settle on the members that are never lost. -/

section Sourceless

variable (hnone : ∀ x B, ¬ A.source x B)

include hnone

theorem kept_good {x : α} (hx : x ∈ A.kept) : A.good x := by
  refine candidate_induction (A := A) (P := fun x => x ∈ A.kept → A.good x)
    ?_ x (kept_candidate hx) hx
  intro x _ ih hx
  have hpast : ∀ z, Relation.TransGen A.parent z x → z ∈ A.kept ∧ A.good z := by
    intro z hz
    have hmem := kept_ancestor hx hz
    exact ⟨hmem, ih z (kept_candidate hmem) hz hmem⟩
  have hstart : ∀ {z}, z ∈ A.kept → z ∈ A.round 0 := fun hz => by
    rw [A.round_zero]
    exact kept_candidate hz
  -- The past of `x` is good, so the first round admits all of it.
  have hfirst : ∀ z, Relation.TransGen A.parent z x → z ∈ A.round 1 := by
    intro z hz
    obtain ⟨hkept, hgood⟩ := hpast z hz
    refine A.round_of_good (kept_candidate hkept) hgood ?_ ?_
      fun B hB => absurd hB (hnone z B)
    · intro w hw
      exact ⟨hstart (kept_ancestor hkept hw), (hpast w (hw.trans hz)).2⟩
    · intro r hr
      have hmem := kept_dependency hkept (Or.inr hr)
      exact ⟨hstart hmem, fun w hw => hstart (kept_ancestor hmem hw)⟩
  rcases kept_early hx with hround | hround
  · exact A.good_of_round hround fun z hz =>
      ⟨hstart (hpast z hz).1, (hpast z hz).2⟩
  · exact A.good_of_round hround fun z hz => ⟨hfirst z hz, (hpast z hz).2⟩

theorem kept_closed : A.Closed A.kept where
  candidate := kept_candidate
  good := kept_good hnone
  parent hx hp := kept_dependency hx (Or.inl hp)
  target hx hr := kept_dependency hx (Or.inr hr)
  source _ hB := absurd hB (hnone _ _)

/-- Without sources the settled members are exactly those never lost. -/
theorem settled_eq_kept : A.settled = A.kept :=
  Set.Subset.antisymm (fun _ hx _ hk => not_settled_of_lost hk hx)
    (kept_closed hnone).subset_settled

theorem settled_closed_of_sourceless : A.Closed A.settled := by
  rw [settled_eq_kept hnone]
  exact kept_closed hnone

theorem lost_before_card {x : α} (hmem : x ∈ A.members)
    (hx : x ∉ A.settled) : ∃ k < A.unsettled.card, x ∈ A.lost k := by
  obtain ⟨k, hk⟩ : ∃ k, x ∈ A.lost k := by
    rw [settled_eq_kept hnone] at hx
    simpa [kept] using hx
  refine exists_within_lt_card (fun {y z j} _ _ hbase hy hstep => ?_) hk
    (mem_unsettled.2 ⟨hmem, hx⟩)
  have hearly : z ∈ A.round 1 ∨ z ∈ A.round 2 := by
    simp only [Set.mem_ofPred_eq] at hbase
    tauto
  have hcandidate : y ∈ A.candidates := by
    rcases hearly with h | h <;>
      exact A.candidate_of_round (mem_round_of_dependency h hstep)
  exact mem_unsettled.2 ⟨A.mem_members hcandidate, not_settled_of_lost hy⟩

/-- A member whose parents are settled and that waits for nothing is refused
by every round after the first. -/
theorem refused_of_settled_past {x : α} (hx : x ∉ A.settled)
    (hpast : ∀ p, A.parent p x → p ∈ A.settled)
    (htarget : ∀ r, ¬ A.target r x) (t : Nat) : x ∉ A.round (t + 1) := by
  intro hround
  have hanc : ∀ z, Relation.TransGen A.parent z x → z ∈ A.settled := by
    intro z hz
    obtain ⟨w, hzw, hwx⟩ := Relation.TransGen.tail'_iff.1 hz
    have hw := hpast w hwx
    rcases Relation.reflTransGen_iff_eq_or_transGen.1 hzw with rfl | htrans
    · exact hw
    · exact (settled_closed_of_sourceless hnone).ancestor hw htrans
  have hclosed := settled_closed_of_sourceless hnone
  have hgood : A.good x := A.good_of_round hround fun z hz =>
    ⟨hanc z hz t, hclosed.good (hanc z hz)⟩
  have hinsert : A.Closed (insert x A.settled) := by
    refine ⟨?_, ?_, ?_, ?_, fun _ hB => absurd hB (hnone _ _)⟩
    · rintro y (rfl | hy)
      · exact A.candidate_of_round hround
      · exact hclosed.candidate hy
    · rintro y (rfl | hy)
      · exact hgood
      · exact hclosed.good hy
    · rintro y p (rfl | hy) hp
      · exact Or.inr (hpast p hp)
      · exact Or.inr (hclosed.parent hy hp)
    · rintro y r (rfl | hy) hr
      · exact absurd hr (htarget r)
      · exact Or.inr (hclosed.target hy hr)
  exact hx (hinsert.subset_settled (Or.inl rfl))

/-- An unsettled candidate is refused once its lost past has died out. -/
theorem refused_late (x : α) (hx : x ∈ A.candidates) (hunsettled : x ∉ A.settled)
    (t : Nat) (ht : A.unsettled.card + (A.unsettledPast x).card ≤ t) :
    x ∉ A.round t := by
  revert t hunsettled
  refine candidate_induction (A := A) (P := fun x => x ∉ A.settled → ∀ t,
    A.unsettled.card + (A.unsettledPast x).card ≤ t → x ∉ A.round t) ?_ x hx
  intro x hx ih hunsettled t ht
  obtain ⟨k, hk, hlost⟩ :=
    lost_before_card hnone (A.mem_members hx) hunsettled
  by_cases htarget : ∃ r, A.target r x
  · obtain ⟨r, hr⟩ := htarget
    obtain ⟨j, hj, h1, h2⟩ := refused_of_lost hlost
    exact refused_forever hr h1 h2 t (by omega)
  · obtain ⟨t, rfl⟩ : ∃ s, t = s + 1 := ⟨t - 1, by omega⟩
    by_cases hpast : ∀ p, A.parent p x → p ∈ A.settled
    · exact refused_of_settled_past hnone hunsettled hpast
        (fun r hr => htarget ⟨r, hr⟩) t
    · push Not at hpast
      obtain ⟨p, hparent, hp⟩ := hpast
      intro hround
      have hpround : p ∈ A.round t := A.parent_of_round hround hparent
      have hpcand := A.candidate_of_round hpround
      have hlt := unsettledPast_card_lt hpcand hp hparent
      exact ih p hpcand (.single hparent) hp t (by omega) hpround

/-- From the round after twice the number of unsettled members on, exactly the
settled members are admitted. -/
theorem round_eq_settled_of_sourceless {t : Nat} (ht : 2 * A.unsettled.card ≤ t + 1) :
    A.round t = A.settled := by
  refine Set.Subset.antisymm (fun x hx => ?_) (fun x hx => hx t)
  by_contra hunsettled
  have hcand := A.candidate_of_round hx
  have hproper : (A.unsettledPast x).card < A.unsettled.card := by
    refine Finset.card_lt_card (Finset.ssubset_iff_of_subset ?_ |>.2 ?_)
    · exact fun z hz => (mem_unsettledPast.1 hz).1
    · refine ⟨x, mem_unsettled.2 ⟨A.mem_members hcand, hunsettled⟩, fun h => ?_⟩
      exact A.acyclic hcand (mem_unsettledPast.1 h).2
  exact refused_late hnone x hcand hunsettled t (by omega) hx

end Sourceless

theorem unsettled_card_le : A.unsettled.card ≤ A.members.card := by
  classical
  exact Finset.card_filter_le _ _

end Admission

end Hq
