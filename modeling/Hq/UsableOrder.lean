/-
The projected facts of settled decisions: a set that contains the parents of
its members and neither a cycle member nor a collision, and on which usable
reachability is a partial order.
-/
import Hq.Views

namespace Hq

/-- Statuses whose projected facts are graph-ready and have projected
parents. -/
def UsablyClosed (facts : FactSet)
    (statuses : OrderedMap FactId DecisionStatus) : Prop :=
  ∀ id, (snapshot facts statuses).isProjected id = true →
    ∃ fact, GraphReady facts fact ∧ fact.id = id ∧
      ∀ parent ∈ fact.causal.parents,
        (snapshot facts statuses).isProjected parent = true

/-- Decisions that a round leaves alone are usably closed, whatever the domain
policy is. -/
theorem usablyClosed_of_fixed {A K V R : Type} {domain : DomainReducer A K V R}
    {facts : FactSet} {decisions : Decisions R}
    (hfix : nextDecisions domain facts facts.graph decisions = decisions) :
    UsablyClosed facts (statusesIn decisions) := by
  intro id hid
  obtain ⟨fact, hready, hfact, hparents, -⟩ := (stable_projected hfix).1 hid
  exact ⟨fact, hready, hfact, hparents⟩

namespace UsablyClosed

variable {facts : FactSet} {statuses : OrderedMap FactId DecisionStatus}

theorem parent (h : UsablyClosed facts statuses) {parent child : FactId}
    (hchild : (snapshot facts statuses).isProjected child = true)
    (hedge : facts.graph.Child parent child) :
    (snapshot facts statuses).isProjected parent = true := by
  obtain ⟨fact, hready, rfl, hparents⟩ := h child hchild
  exact hparents parent ((child_iff_of_get? hready.retained).1 hedge)

/-- Everything above a projected identity is projected. -/
theorem above (h : UsablyClosed facts statuses) {ancestor id : FactId}
    (hid : (snapshot facts statuses).isProjected id = true)
    (hpath : Relation.TransGen facts.graph.Child ancestor id) :
    (snapshot facts statuses).isProjected ancestor = true := by
  induction hpath using Relation.TransGen.head_induction_on with
  | single hedge => exact h.parent hid hedge
  | head hedge _ ih => exact h.parent ih hedge

theorem acyclic (h : UsablyClosed facts statuses) {id : FactId}
    (hid : (snapshot facts statuses).isProjected id = true) :
    ¬ Relation.TransGen facts.graph.Child id id := by
  obtain ⟨fact, hready, rfl, -⟩ := h id hid
  exact hready.acyclic

theorem mem_ids (h : UsablyClosed facts statuses) {id : FactId}
    (hid : (snapshot facts statuses).isProjected id = true) :
    id ∈ facts.ids := by
  obtain ⟨fact, hready, rfl, -⟩ := h id hid
  exact hready.mem_ids

theorem not_mem_cycleMembers (h : UsablyClosed facts statuses) {id : FactId}
    (hid : (snapshot facts statuses).isProjected id = true) :
    id ∉ facts.graph.cycleMembers :=
  fun hcycle => h.acyclic hid (facts.mem_cycleMembers.1 hcycle).2

theorem isCollision_eq_false (h : UsablyClosed facts statuses) {id : FactId}
    (hid : (snapshot facts statuses).isProjected id = true) :
    facts.isCollision id = false := by
  obtain ⟨fact, hready, rfl, -⟩ := h id hid
  have hunique := FactSet.get?_eq_some_iff.1 hready.retained
  rw [Bool.eq_false_iff]
  intro hcollision
  rw [FactSet.isCollision_iff, hunique] at hcollision
  cases hcollision

/-- Among projected facts usable reachability is reachability. -/
theorem usablyReaches_iff (h : UsablyClosed facts statuses)
    {ancestor descendant : FactId}
    (hancestor : (snapshot facts statuses).isProjected ancestor = true)
    (hdescendant : (snapshot facts statuses).isProjected descendant = true) :
    (snapshot facts statuses).usablyReaches ancestor descendant = true ↔
      ancestor = descendant ∨
        Relation.TransGen facts.graph.Child ancestor descendant := by
  rw [ReductionContext.usablyReaches_iff]
  constructor
  · rintro ⟨-, -, hsame | hpath⟩
    · exact Or.inl hsame
    · exact Or.inr (CausalIndex.transGen_child hpath)
  · rintro (hsame | hpath)
    · exact ⟨hancestor, hdescendant, Or.inl hsame⟩
    · refine ⟨hancestor, hdescendant, Or.inr ?_⟩
      induction hpath using Relation.TransGen.head_induction_on with
      | single hedge => exact .single ⟨hedge, hdescendant⟩
      | head hedge hrest ih =>
          have hmiddle := h.above hdescendant hrest
          exact .head ⟨hedge, hmiddle⟩ (ih hmiddle)

/-- What a projected fact usably reaches is what it structurally reaches among
the projected facts. -/
theorem usablyReaches_iff_structural (h : UsablyClosed facts statuses)
    {ancestor descendant : FactId}
    (hancestor : (snapshot facts statuses).isProjected ancestor = true) :
    (snapshot facts statuses).usablyReaches ancestor descendant = true ↔
      (snapshot facts statuses).isProjected descendant = true ∧
        facts.graph.structurallyReaches ancestor descendant = true := by
  constructor
  · intro hreach
    have hdescendant := (ReductionContext.usablyReaches_iff.1 hreach).2.1
    exact ⟨hdescendant, structurallyReaches_of_path (h.mem_ids hancestor)
      (h.mem_ids hdescendant) (usablyReaches_path hreach)⟩
  · rintro ⟨hdescendant, hreach⟩
    have hpath := ((CausalIndex.structurallyReaches_iff _).1 hreach).2.2
    rw [h.usablyReaches_iff hancestor hdescendant]
    rcases Relation.reflTransGen_iff_eq_or_transGen.1 hpath with hsame | hpath
    · exact Or.inl hsame.symm
    · exact Or.inr hpath

end UsablyClosed

/-- One projected fact strictly below another. -/
def StrictlyReaches (context : ReductionContext) (left right : FactId) : Prop :=
  left ≠ right ∧ context.usablyReaches left right = true

namespace UsablyClosed

variable {facts : FactSet} {statuses : OrderedMap FactId DecisionStatus}

theorem strictlyReaches_iff (h : UsablyClosed facts statuses)
    {left right : FactId}
    (hleft : (snapshot facts statuses).isProjected left = true)
    (hright : (snapshot facts statuses).isProjected right = true) :
    StrictlyReaches (snapshot facts statuses) left right ↔
      Relation.TransGen facts.graph.Child left right := by
  rw [StrictlyReaches, h.usablyReaches_iff hleft hright]
  constructor
  · rintro ⟨hne, hsame | hpath⟩
    · exact absurd hsame hne
    · exact hpath
  · intro hpath
    refine ⟨?_, Or.inr hpath⟩
    rintro rfl
    exact h.acyclic hleft hpath

/-- Usable reachability orders the projected facts strictly. -/
theorem isStrictOrder (h : UsablyClosed facts statuses) :
    IsStrictOrder {id // (snapshot facts statuses).isProjected id = true}
      fun left right =>
        StrictlyReaches (snapshot facts statuses) left.1 right.1 where
  irrefl id hid := hid.1 rfl
  trans left middle right hleft hright := by
    rw [h.strictlyReaches_iff left.2 middle.2] at hleft
    rw [h.strictlyReaches_iff middle.2 right.2] at hright
    exact (h.strictlyReaches_iff left.2 right.2).2 (hleft.trans hright)

/-- The maximal members of a set of projected facts. -/
theorem mem_maximalMembers (h : UsablyClosed facts statuses)
    {members : OrderedSet FactId}
    (hprojected : ∀ id ∈ members,
      (snapshot facts statuses).isProjected id = true) {id : FactId} :
    id ∈ maximalMembers (snapshot facts statuses) members ↔
      id ∈ members ∧ ∀ other ∈ members,
        ¬ Relation.TransGen facts.graph.Child id other := by
  rw [maximalMembers, OrderedSet.mem_filter, Bool.not_eq_true',
    List.any_eq_false]
  refine and_congr_right fun hid => forall_congr' fun other => ?_
  rw [OrderedSet.mem_toList]
  refine forall_congr' fun hother => not_congr ?_
  rw [Bool.and_eq_true, decide_eq_true_eq,
    ← h.strictlyReaches_iff (hprojected id hid) (hprojected other hother)]
  exact and_congr_left fun _ => ne_comm

theorem maximalMembers_ne_empty (h : UsablyClosed facts statuses)
    {members : OrderedSet FactId} (hne : members ≠ ∅)
    (hprojected : ∀ id ∈ members,
      (snapshot facts statuses).isProjected id = true) :
    maximalMembers (snapshot facts statuses) members ≠ ∅ :=
  Hq.maximalMembers_ne_empty hne fun id hid => h.acyclic (hprojected id hid)

end UsablyClosed

/-- The settled decisions of a reduction under any policy: the projected facts
contain their parents and neither cycle members nor collisions, and usable
reachability on them is structural reachability and a strict order. -/
theorem stabilizeDecisions_usable_closure {A K V R : Type} [DecidableEq R]
    (domain : DomainReducer A K V R) (facts : FactSet) (decisions : Decisions R)
    (hsettled : stabilizeDecisions domain facts facts.graph = .ok decisions) :
    let context := contextOf facts facts.graph decisions
    (∀ id parent, context.isProjected id = true →
        parent ∈ facts.graph.parents id → context.isProjected parent = true) ∧
      (∀ id, context.isProjected id = true →
        id ∉ facts.graph.cycleMembers ∧ facts.isCollision id = false) ∧
      (∀ ancestor descendant, context.isProjected ancestor = true →
        (context.usablyReaches ancestor descendant = true ↔
          context.isProjected descendant = true ∧
            facts.graph.structurallyReaches ancestor descendant = true)) ∧
      IsStrictOrder {id // context.isProjected id = true}
        fun left right => StrictlyReaches context left.1 right.1 := by
  have h := usablyClosed_of_fixed (stabilizeFrom_ok hsettled).1
  rw [contextOf_eq]
  exact ⟨fun id parent hid hparent => h.parent hid (child_iff.2 hparent),
    fun id hid => ⟨h.not_mem_cycleMembers hid, h.isCollision_eq_false hid⟩,
    fun ancestor descendant hancestor =>
      h.usablyReaches_iff_structural hancestor,
    h.isStrictOrder⟩

/-- A policy that admits every graph-ready fact and derives nothing. -/
def admitEvery : DomainReducer Unit Unit Unit Unit :=
  ⟨fun _ _ => .projected, fun _ _ => [], fun _ => [], fun _ => [],
    fun _ => []⟩

/-- A cancellation of a numbered thread. -/
def cancellation (id : Nat) (causal : CausalReferences) : Fact where
  id := .ofNat id
  author := ⟨.ofNat 1, .ofNat 101⟩
  authoredAt := ⟨0⟩
  scope := .peerAddressed ⟨.ofNat 1, .ofNat 10⟩
  causal
  payload := .threadCancelled (.ofNat id) none
  protocol_scope := rfl
  admissible := rfl

/-- Three cancellations, each citing the one before it; the third also cites
a fact that is not there. -/
def cancellations : FactSet :=
  FactSet.fromFacts
    [cancellation 1 .none, cancellation 2 (citing [] [1]),
      cancellation 3 (citing [] [2, 9])]

/-- Of the three cancellations the first two are projected, one below the
other, and the third is not reached. -/
theorem stabilizeDecisions_usable_closure_cancellations :
    ∃ decisions, stabilizeDecisions admitEvery cancellations
        cancellations.graph = .ok decisions ∧
      let context := contextOf cancellations cancellations.graph decisions
      context.isProjected (.ofNat 2) = true ∧
        context.isProjected (.ofNat 1) = true ∧
        context.usablyReaches (.ofNat 1) (.ofNat 2) = true ∧
        context.usablyReaches (.ofNat 1) (.ofNat 3) = false := by
  have hread : (stabilizeDecisions admitEvery cancellations
      cancellations.graph).toOption.map (fun decisions =>
        let context := contextOf cancellations cancellations.graph decisions
        (context.isProjected (.ofNat 2), context.isProjected (.ofNat 3))) =
      some (true, false) := by
    decide +kernel
  cases hsettled : stabilizeDecisions admitEvery cancellations
      cancellations.graph with
  | error error =>
      rw [hsettled] at hread
      cases hread
  | ok decisions =>
      rw [hsettled] at hread
      simp only [Except.toOption, Option.map_some, Option.some.injEq,
        Prod.mk.injEq] at hread
      obtain ⟨hsecond, hthird⟩ := hread
      obtain ⟨hparents, -, hreach, -⟩ := stabilizeDecisions_usable_closure
        admitEvery cancellations decisions hsettled
      have hfirst := hparents _ (.ofNat 1) hsecond (by decide +kernel)
      refine ⟨decisions, rfl, hsecond, hfirst,
        (hreach _ _ hfirst).2 ⟨hsecond, by decide +kernel⟩, ?_⟩
      rw [Bool.eq_false_iff]
      intro hfar
      rw [((hreach _ _ hfirst).1 hfar).1] at hthird
      cases hthird

end Hq
