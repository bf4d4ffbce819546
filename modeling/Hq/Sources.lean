/-
Rounds of admission in which members ask for sources.  A member no source can
feed dies out, together with all that requires it; the rounds on the others
are rounds of admission without sources.
-/
import Hq.Admission

namespace Hq

namespace Admission

universe u

variable {α : Type u} {A : Admission α}

/-- The largest closed set. -/
def core (A : Admission α) : Set α := {x | ∃ S, A.Closed S ∧ x ∈ S}

theorem core_closed : A.Closed A.core where
  candidate := fun ⟨_, hS, hx⟩ => hS.candidate hx
  good := fun ⟨_, hS, hx⟩ => hS.good hx
  parent := fun ⟨S, hS, hx⟩ hp => ⟨S, hS, hS.parent hx hp⟩
  target := fun ⟨S, hS, hx⟩ hr => ⟨S, hS, hS.target hx hr⟩
  source := fun ⟨S, hS, hx⟩ hB => by
    obtain ⟨c, hc, hmem⟩ := hS.source hx hB
    exact ⟨c, hc, S, hS, hmem⟩

theorem core_subset_round (t : Nat) : A.core ⊆ A.round t :=
  core_closed.subset_round t

theorem not_core_of_refused {t : Nat} {x : α} (hx : x ∉ A.round t) :
    x ∉ A.core :=
  fun h => hx (core_subset_round t h)

/-! The rounds on a set of members whose sources are secured. -/

/-- A set that holds what its members require and whose members find their
sources in the core. -/
structure Fed (A : Admission α) (N : Set α) : Prop where
  requires : ∀ {x y}, x ∈ N → A.Requires y x → y ∈ N
  source : ∀ {x B}, x ∈ N → A.source x B → ∃ c ∈ B, c ∈ A.core

open Classical in
/-- The rounds seen on a fed set. -/
noncomputable def restrict (A : Admission α) {N : Set α} (hN : A.Fed N) :
    Admission α where
  members := A.members.filter (· ∈ N)
  candidates := A.candidates ∩ N
  parent := A.parent
  target := A.target
  source _ _ := False
  good := A.good
  round t := A.round t ∩ N
  mem_members hx := Finset.mem_filter.2 ⟨A.mem_members hx.1, hx.2⟩
  acyclic hx := A.acyclic hx.1
  round_zero := by rw [A.round_zero]
  candidate_of_round hx := ⟨A.candidate_of_round hx.1, hx.2⟩
  parent_of_round hx hp :=
    ⟨A.parent_of_round hx.1 hp, hN.requires hx.2 (Or.inl hp)⟩
  target_of_round hx hr :=
    ⟨A.target_of_round hx.1 hr, hN.requires hx.2 (Or.inr hr)⟩
  source_of_round _ hB := hB.elim
  return_of_round hr hx := ⟨A.return_of_round hr hx.1, hx.2⟩
  good_of_round hx hpast := A.good_of_round hx.1 fun z hz =>
    ⟨(hpast z hz).1.1, (hpast z hz).2⟩
  round_of_good {t x} hx hgood hpast htarget _ := by
    refine ⟨A.round_of_good hx.1 hgood ?_ ?_ ?_, hx.2⟩
    · exact fun z hz => ⟨(hpast z hz).1.1, (hpast z hz).2⟩
    · exact fun r hr => ⟨(htarget r hr).1.1, fun z hz => ((htarget r hr).2 z hz).1⟩
    · intro B hB
      obtain ⟨c, hc, hcore⟩ := hN.source hx.2 hB
      exact ⟨c, hc, core_subset_round t hcore⟩

theorem mem_members_restrict {N : Set α} (hN : A.Fed N) {x : α} :
    x ∈ (A.restrict hN).members ↔ x ∈ A.members ∧ x ∈ N := by
  classical
  exact Finset.mem_filter

theorem settled_restrict {N : Set α} (hN : A.Fed N) :
    (A.restrict hN).settled = A.core ∩ N := by
  have hclosed := settled_closed_of_sourceless (A := A.restrict hN)
    fun _ _ => id
  refine Set.Subset.antisymm (fun x hx => ⟨⟨(A.restrict hN).settled ∪ A.core,
    ?_, Or.inl hx⟩, (hx 0).2⟩) fun x hx t => ⟨core_subset_round t hx.1, hx.2⟩
  refine ⟨?_, ?_, ?_, ?_, ?_⟩
  · rintro y (hy | hy)
    · exact (hclosed.candidate hy).1
    · exact core_closed.candidate hy
  · rintro y (hy | hy)
    · exact hclosed.good hy
    · exact core_closed.good hy
  · rintro y p (hy | hy) hp
    · exact Or.inl (hclosed.parent hy hp)
    · exact Or.inr (core_closed.parent hy hp)
  · rintro y r (hy | hy) hr
    · exact Or.inl (hclosed.target hy hr)
    · exact Or.inr (core_closed.target hy hr)
  · rintro y B (hy | hy) hB
    · obtain ⟨c, hc, hcore⟩ := hN.source (hy 0).2 hB
      exact ⟨c, hc, Or.inr hcore⟩
    · obtain ⟨c, hc, hcore⟩ := core_closed.source hy hB
      exact ⟨c, hc, Or.inr hcore⟩

/-! Members that die out. -/

/-- What requires members refused from a round on is refused later. -/
theorem refused_within {base : Set α} {d : Nat}
    (hbase : ∀ x ∈ base, ∀ t, d ≤ t → x ∉ A.round t) {k : Nat} {x : α}
    (hx : x ∈ within A.Requires base k) :
    ∀ t, d + k ≤ t → x ∉ A.round t := by
  induction k generalizing x with
  | zero => exact fun t ht => hbase x hx t (by omega)
  | succ k ih =>
      intro t ht hround
      rcases hx with hx | ⟨y, hy, hstep⟩
      · exact ih hx t (by omega) hround
      · obtain ⟨t, rfl⟩ : ∃ s, t = s + 1 := ⟨t - 1, by omega⟩
        exact ih hy t (by omega) (mem_round_of_dependency hround hstep)

open Classical in
/-- The candidates outside the core that a member depends on, itself
included. -/
noncomputable def unsettledBelow (A : Admission α) (z : α) : Finset α :=
  A.members.filter fun w => w ∈ A.candidates ∧ w ∉ A.core ∧
    Relation.ReflTransGen A.Depends w z

theorem mem_unsettledBelow {w z : α} : w ∈ A.unsettledBelow z ↔
    w ∈ A.candidates ∧ w ∉ A.core ∧ Relation.ReflTransGen A.Depends w z := by
  classical
  simp only [unsettledBelow, Finset.mem_filter, and_iff_right_iff_imp]
  exact fun h => A.mem_members h.1

theorem unsettledBelow_pos {z : α} (hz : z ∈ A.candidates)
    (hcore : z ∉ A.core) : 0 < (A.unsettledBelow z).card :=
  Finset.card_pos.2 ⟨z, mem_unsettledBelow.2 ⟨hz, hcore, .refl⟩⟩

theorem depends_of_requires {y x : α} (h : A.Requires y x) : A.Depends y x :=
  h.elim Or.inl fun h => Or.inr (Or.inl h)

theorem reflTransGen_depends {y x : α}
    (h : Relation.ReflTransGen A.Requires y x) :
    Relation.ReflTransGen A.Depends y x :=
  Relation.ReflTransGen.mono (fun _ _ => depends_of_requires) _ _ h

/-- The candidates that require something that is no candidate. -/
def orphans (A : Admission α) : Set α :=
  {x | ∃ p, p ∉ A.candidates ∧ A.Requires p x}

theorem refused_of_mem_orphans {x : α} (hx : x ∈ A.orphans) :
    ∀ t, 1 ≤ t → x ∉ A.round t := by
  obtain ⟨p, hp, hstep⟩ := hx
  intro t ht hround
  obtain ⟨t, rfl⟩ : ∃ s, t = s + 1 := ⟨t - 1, by omega⟩
  exact hp (A.candidate_of_round (mem_round_of_dependency hround hstep))

theorem refused_of_orphans {z : α} (hz : z ∈ A.candidates) {k : Nat}
    (hwithin : z ∈ within A.Requires A.orphans k) {t : Nat}
    (ht : (A.unsettledBelow z).card ≤ t) : z ∉ A.round t := by
  have hrefused : ∀ {j y}, y ∈ within A.Requires A.orphans j →
      ∀ t, 1 + j ≤ t → y ∉ A.round t :=
    refused_within fun _ => refused_of_mem_orphans
  have hcore : ∀ {j y}, y ∈ within A.Requires A.orphans j → y ∉ A.core :=
    fun hy => not_core_of_refused (hrefused hy _ le_rfl)
  obtain ⟨j, hj, hwithin⟩ := exists_within_lt_card (U := A.unsettledBelow z)
    (fun {y w _} hpath _ hbase hy hstep => by
      refine mem_unsettledBelow.2 ⟨?_, hcore hy, ?_⟩
      · by_contra hnot
        exact hbase ⟨y, hnot, hstep⟩
      · exact .head (depends_of_requires hstep) (reflTransGen_depends hpath))
    hwithin (mem_unsettledBelow.2 ⟨hz, hcore hwithin, .refl⟩)
  exact hrefused hwithin t (by omega)

/-- The candidates with a source set that misses the core. -/
def starved (A : Admission α) : Set α :=
  {x | x ∈ A.candidates ∧ ∃ B, A.source x B ∧ ∀ c ∈ B, c ∉ A.core}

open Classical in
/-- The candidates outside the core that some source depends on. -/
noncomputable def feeders (A : Admission α) (B : Set α) : Finset α :=
  A.members.filter fun w => ∃ c ∈ B, w ∈ A.unsettledBelow c

theorem mem_feeders {B : Set α} {w : α} :
    w ∈ A.feeders B ↔ ∃ c ∈ B, w ∈ A.unsettledBelow c := by
  classical
  simp only [feeders, Finset.mem_filter, and_iff_right_iff_imp]
  exact fun ⟨_, _, hw⟩ => A.mem_members (mem_unsettledBelow.1 hw).1

theorem unsettledBelow_subset_feeders {B : Set α} {c : α} (hc : c ∈ B) :
    A.unsettledBelow c ⊆ A.feeders B :=
  fun _ hw => mem_feeders.2 ⟨c, hc, hw⟩

theorem feeders_subset {B : Set α} {x z : α} (hB : A.source x B)
    (hpath : Relation.ReflTransGen A.Depends x z) :
    A.feeders B ⊆ A.unsettledBelow z := by
  intro w hw
  obtain ⟨c, hc, hw⟩ := mem_feeders.1 hw
  obtain ⟨hcandidate, hcore, hbelow⟩ := mem_unsettledBelow.1 hw
  have hedge : A.Depends c x := Or.inr (Or.inr ⟨B, hB, hc⟩)
  exact mem_unsettledBelow.2 ⟨hcandidate, hcore, (hbelow.tail hedge).trans hpath⟩

/-- What depends on a member feeds none of its sources. -/
theorem not_mem_feeders (hfree : A.Independent) {B : Set α} {x w : α}
    (hB : A.source x B) (hpath : Relation.ReflTransGen A.Depends x w) :
    w ∉ A.feeders B := by
  intro hw
  obtain ⟨c, hc, hw⟩ := mem_feeders.1 hw
  exact hfree hB hc (hpath.trans (mem_unsettledBelow.1 hw).2.2)

theorem reflTransGen_of_mem_within {step : α → α → Prop} {x y : α} {k : Nat}
    (hy : y ∈ within step {x} k) : Relation.ReflTransGen step x y := by
  induction k generalizing y with
  | zero =>
      cases hy
      exact .refl
  | succ k ih =>
      rcases hy with hy | ⟨w, hw, hstep⟩
      · exact ih hy
      · exact (ih hw).tail hstep

section Starved

variable {B : Set α} {x z : α}

/-- A starved member is refused once its sources are. -/
theorem refused_of_starved (hB : A.source x B)
    (hsources : ∀ c ∈ B, c ∈ A.candidates →
      ∀ t, 2 * (A.unsettledBelow c).card ≤ t + 1 → c ∉ A.round t) :
    ∀ t, 2 * (A.feeders B).card + 1 ≤ t → x ∉ A.round t := by
  intro t ht hround
  obtain ⟨t, rfl⟩ : ∃ s, t = s + 1 := ⟨t - 1, by omega⟩
  obtain ⟨c, hc, hadmitted⟩ := A.source_of_round hround hB
  have hcard := Finset.card_le_card (unsettledBelow_subset_feeders (A := A) hc)
  exact hsources c hc (A.candidate_of_round hadmitted) t (by omega) hadmitted

theorem refused_above_starved (hfree : A.Independent) (hB : A.source x B)
    (hsources : ∀ c ∈ B, c ∈ A.candidates →
      ∀ t, 2 * (A.unsettledBelow c).card ≤ t + 1 → c ∉ A.round t)
    (hz : z ∈ A.candidates) {k : Nat} (hwithin : z ∈ within A.Requires {x} k)
    (hclean : ∀ k, z ∉ within A.Requires A.orphans k) {t : Nat}
    (ht : 2 * (A.unsettledBelow z).card ≤ t + 1) : z ∉ A.round t := by
  classical
  have hrefused : ∀ {j y}, y ∈ within A.Requires {x} j →
      ∀ t, 2 * (A.feeders B).card + 1 + j ≤ t → y ∉ A.round t :=
    refused_within fun y hy => by
      cases hy
      exact refused_of_starved hB hsources
  have hcore : ∀ {j y}, y ∈ within A.Requires {x} j → y ∉ A.core :=
    fun hy => not_core_of_refused (hrefused hy _ le_rfl)
  have hpath : ∀ {j y}, y ∈ within A.Requires {x} j →
      Relation.ReflTransGen A.Depends x y :=
    fun hy => reflTransGen_depends (reflTransGen_of_mem_within hy)
  have hmem : ∀ {j y}, y ∈ within A.Requires {x} j → y ∈ A.candidates →
      Relation.ReflTransGen A.Depends y z →
      y ∈ A.unsettledBelow z \ A.feeders B := fun hy hcandidate hbelow =>
    Finset.mem_sdiff.2 ⟨mem_unsettledBelow.2 ⟨hcandidate, hcore hy, hbelow⟩,
      not_mem_feeders hfree hB (hpath hy)⟩
  -- A member on the way that is no candidate would leave an orphan below `z`.
  have hcandidate : ∀ {y w}, Relation.ReflTransGen A.Requires w z →
      A.Requires y w → y ∈ A.candidates := by
    intro y w hw hstep
    by_contra hnot
    have horphan : ∃ k, z ∈ within A.Requires A.orphans k := by
      clear hz hwithin hclean ht hmem
      induction hw with
      | refl => exact ⟨0, y, hnot, hstep⟩
      | tail _ hlast ih =>
          obtain ⟨k, hk⟩ := ih
          exact ⟨k + 1, within_succ_of_step hk hlast⟩
    obtain ⟨k, hk⟩ := horphan
    exact hclean k hk
  obtain ⟨j, hj, hreached⟩ := exists_within_lt_card
    (U := A.unsettledBelow z \ A.feeders B)
    (fun hw _ _ hy hstep => hmem hy (hcandidate hw hstep)
      (.head (depends_of_requires hstep) (reflTransGen_depends hw)))
    hwithin (hmem hwithin hz .refl)
  have hsub := feeders_subset hB (hpath hwithin)
  have hcard := Finset.card_sdiff_of_subset hsub
  have hle := Finset.card_le_card hsub
  exact hrefused hreached t (by omega)

end Starved

/-- A candidate outside the core is refused from the round after twice the
number of unsettled candidates it depends on. -/
theorem refused_of_not_core (hfree : A.Independent) {z : α}
    (hz : z ∈ A.candidates) (hcore : z ∉ A.core) {t : Nat}
    (ht : 2 * (A.unsettledBelow z).card ≤ t + 1) : z ∉ A.round t := by
  induction hn : (A.unsettledBelow z).card using Nat.strong_induction_on
    generalizing z t with
  | _ n ih =>
  subst hn
  have hpos := unsettledBelow_pos hz hcore
  by_cases horphan : ∃ k, z ∈ within A.Requires A.orphans k
  · obtain ⟨k, hk⟩ := horphan
    exact refused_of_orphans hz hk (by omega)
  by_cases hstarved : ∃ x ∈ A.starved, ∃ k, z ∈ within A.Requires {x} k
  · obtain ⟨x, ⟨hx, B, hB, hmiss⟩, k, hk⟩ := hstarved
    have hpath := reflTransGen_depends (reflTransGen_of_mem_within hk)
    have hlt : (A.feeders B).card < (A.unsettledBelow z).card := by
      refine Finset.card_lt_card (Finset.ssubset_iff_of_subset
        (feeders_subset hB hpath) |>.2 ⟨x, ?_, not_mem_feeders hfree hB .refl⟩)
      refine mem_unsettledBelow.2 ⟨hx, fun h => ?_, hpath⟩
      obtain ⟨c, hc, hmem⟩ := core_closed.source h hB
      exact hmiss c hc hmem
    refine refused_above_starved hfree hB (fun c hc hcandidate s hs => ?_) hz
      hk (fun k h => horphan ⟨k, h⟩) ht
    have hle := Finset.card_le_card (unsettledBelow_subset_feeders (A := A) hc)
    exact ih _ (by omega) hcandidate (hmiss c hc) hs rfl
  · -- What is left below `z` finds its sources in the core.
    let N : Set α := {y | y ∈ A.candidates ∧
      Relation.ReflTransGen A.Depends y z ∧
      (∀ k, y ∉ within A.Requires A.orphans k) ∧
      ∀ x ∈ A.starved, ∀ k, y ∉ within A.Requires {x} k}
    have hN : A.Fed N := by
      constructor
      · rintro x y ⟨-, hbelow, hclean, hfed⟩ hstep
        refine ⟨?_, .head (depends_of_requires hstep) hbelow,
          fun k hk => hclean (k + 1) (within_succ_of_step hk hstep),
          fun w hw k hk => hfed w hw (k + 1) (within_succ_of_step hk hstep)⟩
        by_contra hnot
        exact hclean 0 ⟨y, hnot, hstep⟩
      · rintro x B ⟨hx, -, -, hfed⟩ hB
        by_contra hmiss
        push Not at hmiss
        exact hfed x ⟨hx, B, hB, hmiss⟩ 0 rfl
    have hzN : z ∈ N := ⟨hz, .refl, fun k h => horphan ⟨k, h⟩,
      fun x hx k h => hstarved ⟨x, hx, k, h⟩⟩
    have hsub : (A.restrict hN).unsettled ⊆ A.unsettledBelow z := by
      intro w hw
      rw [mem_unsettled, settled_restrict hN] at hw
      have hwN : w ∈ N := ((mem_members_restrict hN).1 hw.1).2
      exact mem_unsettledBelow.2 ⟨hwN.1, fun h => hw.2 ⟨h, hwN⟩, hwN.2.1⟩
    have hcard := Finset.card_le_card hsub
    have hround := round_eq_settled_of_sourceless (A := A.restrict hN)
      (fun _ _ => id) (t := t) (by omega)
    rw [settled_restrict hN] at hround
    intro hadmitted
    have hmem : z ∈ (A.restrict hN).round t := ⟨hadmitted, hzN⟩
    rw [hround] at hmem
    exact hcore hmem.1

/-! What the rounds settle on. -/

theorem settled_eq_core (hfree : A.Independent) : A.settled = A.core := by
  refine Set.Subset.antisymm (fun x hx => ?_) fun x hx t =>
    core_subset_round t hx
  by_contra hcore
  exact refused_of_not_core hfree (A.candidate_of_round (hx 0)) hcore
    (t := 2 * (A.unsettledBelow x).card) (by omega) (hx _)

/-- From the round after twice the number of unsettled members on, exactly the
settled members are admitted. -/
theorem round_eq_settled (hfree : A.Independent) {t : Nat}
    (ht : 2 * A.unsettled.card ≤ t + 1) : A.round t = A.settled := by
  refine Set.Subset.antisymm (fun x hx => ?_) fun x hx => hx t
  by_contra hsettled
  rw [settled_eq_core hfree] at hsettled
  have hsub : A.unsettledBelow x ⊆ A.unsettled := by
    intro w hw
    obtain ⟨hcandidate, hcore, -⟩ := mem_unsettledBelow.1 hw
    rw [mem_unsettled, settled_eq_core hfree]
    exact ⟨A.mem_members hcandidate, hcore⟩
  have hcard := Finset.card_le_card hsub
  exact refused_of_not_core hfree (A.candidate_of_round hx) hsettled
    (by omega) hx

end Admission

end Hq
