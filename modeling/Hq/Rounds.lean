/-
The decision rounds of a reduction seen as rounds of admission: what a round
admits, and when the rounds settle within their bound.
-/
import Hq.Reduce
import Hq.Sources

namespace Hq

/-- The snapshot of a fact set under given statuses. -/
def snapshot (facts : FactSet)
    (statuses : OrderedMap FactId DecisionStatus) : ReductionContext :=
  ⟨facts, facts.graph, statuses⟩

/-- A retained fact outside every cycle whose parents are all known. -/
structure GraphReady (facts : FactSet) (fact : Fact) : Prop where
  retained : facts.get? fact.id = some fact
  acyclic : ¬ Relation.TransGen facts.graph.Child fact.id fact.id
  known : ∀ parent ∈ fact.causal.parents, parent ∈ facts.ids

variable {facts : FactSet} {fact : Fact} {t : Nat}

theorem GraphReady.mem_ids (h : GraphReady facts fact) : fact.id ∈ facts.ids :=
  FactSet.mem_ids_of_get? h.retained

theorem GraphReady.parents_eq (h : GraphReady facts fact) :
    facts.graph.parents fact.id = fact.causal.parents :=
  facts.graph_parents_of_get? h.retained

theorem child_iff {parent child : FactId} :
    facts.graph.Child parent child ↔ parent ∈ facts.graph.parents child :=
  facts.mem_graph_children

theorem child_iff_of_get? {parent : FactId}
    (hget : facts.get? fact.id = some fact) :
    facts.graph.Child parent fact.id ↔ parent ∈ fact.causal.parents := by
  rw [child_iff, facts.graph_parents_of_get? hget]

section Decisions

variable {A K V R : Type}

theorem structuralDecision_status {id : FactId}
    (hid : id ∈ facts.ids) :
    (structuralDecision facts facts.graph id : FactDecision R).status =
      .projected ↔ ∃ fact, GraphReady facts fact ∧ fact.id = id := by
  unfold structuralDecision
  by_cases hcollision : facts.isCollision id = true
  · simp only [hcollision, if_true, reduceCtorEq, false_iff, not_exists]
    rintro fact ⟨hready, rfl⟩
    have hunique := FactSet.get?_eq_some_iff.1 hready.retained
    rw [FactSet.isCollision_iff, hunique] at hcollision
    simp at hcollision
  · obtain ⟨fact, hget⟩ :=
      FactSet.get?_isSome_of_mem_ids hid (by simpa using hcollision)
    obtain rfl := FactSet.id_of_get? hget
    simp only [hcollision]
    by_cases hcycle : fact.id ∈ facts.graph.cycleMembers
    · simp only [hcycle, if_true, Bool.false_eq_true, if_false, reduceCtorEq,
        false_iff, not_exists]
      rintro other ⟨hready, hsame⟩
      exact hready.acyclic (hsame ▸ (facts.mem_cycleMembers.1 hcycle).2)
    · have hacyclic : ¬ Relation.TransGen facts.graph.Child fact.id fact.id :=
        fun h => hcycle (facts.mem_cycleMembers.2 ⟨hid, h⟩)
      have hmissing : ((facts.graph.parents fact.id).filter fun parent =>
          !facts.contains parent).isEmpty = true ↔
            ∀ parent ∈ fact.causal.parents, parent ∈ facts.ids := by
        rw [OrderedSet.isEmpty_iff, OrderedSet.eq_empty_iff,
          facts.graph_parents_of_get? hget]
        simp [FactSet.contains_iff]
      simp only [hcycle, Bool.false_eq_true, if_false]
      split
      next hempty =>
        simp only [true_iff]
        exact ⟨fact, ⟨hget, hacyclic, hmissing.1 hempty⟩, rfl⟩
      next hempty =>
        simp only [unresolvedDecision, reduceCtorEq, false_iff, not_exists]
        rintro other ⟨hready, hsame⟩
        have hother : other = fact := by
          have := hready.retained
          rw [hsame, hget] at this
          exact (Option.some.inj this).symm
        exact hempty (hmissing.2 (hother ▸ hready.known))

@[simp] theorem domainDecision_status {decision : DomainDecision R}
    {reverseDependants : OrderedSet FactId} :
    (domainDecision decision reverseDependants).status = .projected ↔
      decision = .projected := by
  cases decision <;> simp [domainDecision]

/-- The identities a decision map projects. -/
def projectedSet (decisions : Decisions R) : Set FactId :=
  {id | ∃ decision, decisions.get? id = some decision ∧
    decision.status = .projected}

theorem contextOf_isProjected {graph : CausalGraph}
    {decisions : Decisions R} {id : FactId} :
    (contextOf facts graph decisions).isProjected id = true ↔
      id ∈ projectedSet decisions := by
  simp only [ReductionContext.isProjected, contextOf,
    OrderedMap.get?_mapValues, decide_eq_true_eq, Option.map_eq_some_iff,
    projectedSet, Set.mem_ofPred_eq]

/-- Every identity of the set carries a status. -/
def Covers (facts : FactSet)
    (statuses : OrderedMap FactId DecisionStatus) : Prop :=
  ∀ id ∈ facts.ids, (statuses.get? id).isSome = true

theorem unusableDependencies_isEmpty
    {statuses : OrderedMap FactId DecisionStatus} (hcovers : Covers facts statuses)
    (hready : GraphReady facts fact) :
    (unusableDependencies (snapshot facts statuses) fact.id).entries.isEmpty =
      true ↔ ∀ parent ∈ fact.causal.parents,
        (snapshot facts statuses).isProjected parent = true := by
  unfold unusableDependencies
  rw [List.isEmpty_iff, OrderedMap.ofList_eq_empty, List.filterMap_eq_nil_iff]
  change (∀ parent ∈ (facts.graph.parents fact.id).toList, _) ↔ _
  rw [hready.parents_eq]
  refine forall₂_congr fun parent hparent => ?_
  obtain ⟨status, hstatus⟩ := Option.isSome_iff_exists.1
    (hcovers parent (hready.known parent hparent))
  simp [snapshot, ReductionContext.isProjected, hstatus]

theorem GraphReady.eq_of_id_eq {left right : Fact}
    (hleft : GraphReady facts left) (hright : GraphReady facts right)
    (hid : left.id = right.id) : left = right := by
  have h := hleft.retained
  rw [hid, hright.retained] at h
  exact (Option.some.inj h).symm

/-- The decision about a graph-ready fact. -/
theorem nextDecision_of_ready (domain : DomainReducer A K V R)
    (statuses : OrderedMap FactId DecisionStatus)
    (hready : GraphReady facts fact) :
    nextDecision domain (snapshot facts statuses) fact.id =
      if (unusableDependencies (snapshot facts statuses)
          fact.id).entries.isEmpty then
        domainDecision (domain.classify fact (snapshot facts statuses))
          (facts.graph.children fact.id)
      else unresolvedDecision ∅
        (unusableDependencies (snapshot facts statuses) fact.id)
        (facts.graph.children fact.id) := by
  have hstructural := (structuralDecision_status (R := R) hready.mem_ids).2
    ⟨fact, hready, rfl⟩
  simp only [nextDecision, snapshot, hstructural, hready.retained]

/-- The graph alone decides every other identity. -/
theorem nextDecision_of_not_ready (domain : DomainReducer A K V R)
    (statuses : OrderedMap FactId DecisionStatus)
    {id : FactId} (hid : id ∈ facts.ids)
    (hready : ¬ ∃ fact, GraphReady facts fact ∧ fact.id = id) :
    nextDecision domain (snapshot facts statuses) id =
      structuralDecision facts facts.graph id := by
  have hstructural := (structuralDecision_status (R := R) hid).not.2 hready
  simp only [nextDecision, snapshot]
  split
  next hprojected _ => exact absurd hprojected hstructural
  next => rfl

/-- What the decision about an identity being projected says. -/
theorem nextDecision_status {domain : DomainReducer A K V R}
    {statuses : OrderedMap FactId DecisionStatus} (hcovers : Covers facts statuses)
    {id : FactId} (hid : id ∈ facts.ids) :
    (nextDecision domain (snapshot facts statuses) id).status = .projected ↔
      ∃ fact, GraphReady facts fact ∧ fact.id = id ∧
        (∀ parent ∈ fact.causal.parents,
          (snapshot facts statuses).isProjected parent = true) ∧
        domain.classify fact (snapshot facts statuses) = .projected := by
  by_cases hready : ∃ fact, GraphReady facts fact ∧ fact.id = id
  · obtain ⟨fact, hready, rfl⟩ := hready
    rw [nextDecision_of_ready domain statuses hready]
    have hempty := unusableDependencies_isEmpty hcovers hready
    constructor
    · intro h
      split at h
      next hyes =>
        exact ⟨fact, hready, rfl, hempty.1 hyes, domainDecision_status.1 h⟩
      next => cases h
    · rintro ⟨other, hother, hsame, hparents, hclassify⟩
      obtain rfl := hother.eq_of_id_eq hready hsame
      rw [if_pos (hempty.2 hparents)]
      exact domainDecision_status.2 hclassify
  · rw [nextDecision_of_not_ready domain statuses hid hready,
      structuralDecision_status hid]
    exact ⟨fun h => absurd h hready,
      fun ⟨fact, h, hsame, _⟩ => ⟨fact, h, hsame⟩⟩

/-! The loop that repeats rounds. -/

variable [DecidableEq R] {domain : DomainReducer A K V R} {facts : FactSet}
  {graph : CausalGraph}

/-- A result of the loop is a fixed point that the rounds reached. -/
theorem stabilizeFrom_ok {rounds : Nat} {start result : Decisions R}
    (h : stabilizeFrom domain facts graph rounds start = .ok result) :
    nextDecisions domain facts graph result = result ∧
      ∃ t, result = (nextDecisions domain facts graph)^[t] start := by
  induction rounds generalizing start with
  | zero => cases h
  | succ rounds ih =>
      simp only [stabilizeFrom] at h
      split at h
      next heq =>
        cases h
        exact ⟨by rw [heq, heq], 0, heq⟩
      next =>
        obtain ⟨hfix, t, ht⟩ := ih h
        exact ⟨hfix, t + 1, ht⟩

/-- The loop returns when the rounds reach a fixed point in time. -/
theorem stabilizeFrom_of_fixed {rounds : Nat} {start : Decisions R}
    (ht : t < rounds)
    (hfix : (nextDecisions domain facts graph)^[t + 1] start =
      (nextDecisions domain facts graph)^[t] start) :
    stabilizeFrom domain facts graph rounds start =
      .ok ((nextDecisions domain facts graph)^[t] start) := by
  induction rounds generalizing start t with
  | zero => omega
  | succ rounds ih =>
      simp only [stabilizeFrom]
      split
      next heq =>
        rw [heq, Function.iterate_fixed heq]
      next hne =>
        cases t with
        | zero => exact absurd hfix hne
        | succ t => exact ih (by omega) hfix

end Decisions

/-! Rounds as admission. -/

/-- The statuses that project exactly the given identities of a set. -/
noncomputable def statusesOf (facts : FactSet) (projected : Set FactId) :
    OrderedMap FactId DecisionStatus :=
  open Classical in
  facts.entries.mapValues fun id _ =>
    if id ∈ projected then .projected else .unresolved

theorem snapshot_statusesOf {projected : Set FactId}
    {id : FactId} :
    (snapshot facts (statusesOf facts projected)).isProjected id = true ↔
      id ∈ facts.ids ∧ id ∈ projected := by
  classical
  simp only [ReductionContext.isProjected, snapshot, statusesOf,
    OrderedMap.get?_mapValues, decide_eq_true_eq, Option.map_eq_some_iff,
    FactSet.mem_ids, Option.isSome_iff_exists]
  constructor
  · rintro ⟨stored, hstored, hstatus⟩
    by_contra hnot
    have hmem : id ∉ projected := fun h => hnot ⟨⟨stored, hstored⟩, h⟩
    simp [hmem] at hstatus
  · rintro ⟨⟨stored, hstored⟩, hmem⟩
    exact ⟨stored, hstored, by simp [hmem]⟩

/-- The snapshot in which every known identity is projected. -/
def idealContext (facts : FactSet) : ReductionContext :=
  snapshot facts (facts.entries.mapValues fun _ _ => .projected)

theorem idealContext_isProjected {id : FactId} :
    (idealContext facts).isProjected id = true ↔ id ∈ facts.ids := by
  rw [FactSet.mem_ids, Option.isSome_iff_exists]
  unfold ReductionContext.isProjected idealContext snapshot
  rw [decide_eq_true_iff, OrderedMap.get?_mapValues]
  simp

section Judged

variable {A K V R : Type}

/-- A graph-ready fact that the domain admits when all facts are projected. -/
def IdeallyAdmitted (domain : DomainReducer A K V R) (facts : FactSet)
    (id : FactId) : Prop :=
  ∃ fact, GraphReady facts fact ∧ fact.id = id ∧
    domain.classify fact (idealContext facts) = .projected

/-- A fact depends on its parents, its targets and its sources. -/
def FactDepends (facts : FactSet) (target : FactId → FactId → Prop)
    (source : FactId → Set FactId → Prop) (y x : FactId) : Prop :=
  facts.graph.Child y x ∨ target y x ∨ ∃ B, source x B ∧ y ∈ B

/-- A domain that judges the facts of a set by their causal past, by targets
among their descendants and by sources that do not depend on them. -/
structure CausallyJudged (domain : DomainReducer A K V R) (facts : FactSet)
    (target : FactId → FactId → Prop)
    (source : FactId → Set FactId → Prop) : Prop where
  congr : ∀ {fact left right}, GraphReady facts fact →
    (∀ id, (snapshot facts left).isProjected id =
      (snapshot facts right).isProjected id) →
    domain.classify fact (snapshot facts left) =
      domain.classify fact (snapshot facts right)
  target_of_admitted : ∀ {fact statuses r}, GraphReady facts fact →
    domain.classify fact (snapshot facts statuses) = .projected →
    target r fact.id → (snapshot facts statuses).isProjected r = true ∧
      ∃ child, (snapshot facts statuses).isProjected child = true ∧
        facts.graph.Child fact.id child
  source_of_admitted : ∀ {fact statuses B}, GraphReady facts fact →
    domain.classify fact (snapshot facts statuses) = .projected →
    source fact.id B → ∃ c ∈ B, (snapshot facts statuses).isProjected c = true
  ideal_of_admitted : ∀ {fact statuses}, GraphReady facts fact →
    domain.classify fact (snapshot facts statuses) = .projected →
    (∀ z, Relation.TransGen facts.graph.Child z fact.id →
      (snapshot facts statuses).isProjected z = true ∧
        IdeallyAdmitted domain facts z) →
    domain.classify fact (idealContext facts) = .projected
  admitted_of_ideal : ∀ {fact statuses}, GraphReady facts fact →
    domain.classify fact (idealContext facts) = .projected →
    (∀ z, Relation.TransGen facts.graph.Child z fact.id →
      (snapshot facts statuses).isProjected z = true ∧
        IdeallyAdmitted domain facts z) →
    (∀ r, target r fact.id → (snapshot facts statuses).isProjected r = true ∧
      ∀ z, Relation.TransGen facts.graph.Child z r →
        (snapshot facts statuses).isProjected z = true) →
    (∀ B, source fact.id B →
      ∃ c ∈ B, (snapshot facts statuses).isProjected c = true) →
    domain.classify fact (snapshot facts statuses) = .projected
  independent : ∀ {x B c}, source x B → c ∈ B →
    ¬ Relation.ReflTransGen (FactDepends facts target source) x c

/-- The decisions after a number of rounds. -/
def roundDecisions (domain : DomainReducer A K V R) (facts : FactSet)
    (t : Nat) : Decisions R :=
  (nextDecisions domain facts facts.graph)^[t]
    (structuralDecisions facts facts.graph)

theorem roundDecisions_succ (domain : DomainReducer A K V R) (facts : FactSet)
    (t : Nat) :
    roundDecisions domain facts (t + 1) =
      nextDecisions domain facts facts.graph (roundDecisions domain facts t) :=
  Function.iterate_succ_apply' _ _ _

/-- The statuses of a decision map. -/
def statusesIn (decisions : Decisions R) : OrderedMap FactId DecisionStatus :=
  decisions.mapValues fun _ decision => decision.status

theorem contextOf_eq (facts : FactSet) (decisions : Decisions R) :
    contextOf facts facts.graph decisions =
      snapshot facts (statusesIn decisions) := rfl

theorem nextDecisions_congr (domain : DomainReducer A K V R)
    {left right : Decisions R}
    (h : statusesIn left = statusesIn right) :
    nextDecisions domain facts facts.graph left =
      nextDecisions domain facts facts.graph right := by
  unfold nextDecisions
  rw [contextOf_eq, contextOf_eq, h]

theorem get?_roundDecisions_isSome (domain : DomainReducer A K V R)
    (facts : FactSet) (t : Nat) (id : FactId) :
    ((roundDecisions domain facts t).get? id).isSome = true ↔
      id ∈ facts.ids := by
  cases t with
  | zero => simp [roundDecisions, structuralDecisions]
  | succ t => simp [roundDecisions_succ, nextDecisions]

section Next

variable {domain : DomainReducer A K V R} {facts : FactSet}
  {before after : Decisions R}

theorem next_get? (hnext : nextDecisions domain facts facts.graph before =
      after) {id : FactId} (hid : id ∈ facts.ids) :
    after.get? id = some (nextDecision domain
      (snapshot facts (statusesIn before)) id) := by
  obtain ⟨stored, hstored⟩ :=
    Option.isSome_iff_exists.1 (FactSet.mem_ids.1 hid)
  rw [← hnext, nextDecisions, OrderedMap.get?_mapValues, hstored]
  rfl

variable {fact : Fact}

/-- A retained fact inside a cycle is decided by the graph. -/
theorem next_cyclic (hnext : nextDecisions domain facts facts.graph before =
      after) (hfact : facts.get? fact.id = some fact)
    (hcycle : fact.id ∈ facts.graph.cycleMembers) :
    after.get? fact.id = some ⟨.invalid, some .causalCycle, ∅, ∅, ∅, ∅,
      facts.graph.children fact.id⟩ := by
  have hid := FactSet.mem_ids_of_get? hfact
  rw [next_get? hnext hid, nextDecision_of_not_ready domain _ hid]
  · rw [structuralDecision, FactSet.isCollision_eq_false hfact]
    simp [hcycle]
  · rintro ⟨other, hready, hsame⟩
    exact hready.acyclic (hsame ▸ (facts.mem_cycleMembers.1 hcycle).2)

/-- A fact outside every cycle waits for a parent that is not projected. -/
theorem next_waiting (hnext : nextDecisions domain facts facts.graph before =
      after) (hcovers : Covers facts (statusesIn before))
    (hfact : facts.get? fact.id = some fact)
    (hcycle : fact.id ∉ facts.graph.cycleMembers)
    (hwaits : ¬ (GraphReady facts fact ∧ ∀ parent ∈ fact.causal.parents,
      (snapshot facts (statusesIn before)).isProjected parent = true)) :
    ∃ decision, after.get? fact.id = some decision ∧
      decision.status = .unresolved := by
  have hid := FactSet.mem_ids_of_get? hfact
  refine ⟨_, next_get? hnext hid, ?_⟩
  by_cases hready : GraphReady facts fact
  · rw [nextDecision_of_ready domain _ hready, if_neg]
    · rfl
    · rw [unusableDependencies_isEmpty hcovers hready]
      exact fun hparents => hwaits ⟨hready, hparents⟩
  · have hstructural : ¬ ∃ other, GraphReady facts other ∧
        other.id = fact.id := by
      rintro ⟨other, hother, hsame⟩
      have hretained := hother.retained
      rw [hsame, hfact] at hretained
      exact hready (Option.some.inj hretained ▸ hother)
    have hunready := (structuralDecision_status (R := R) hid).not.2 hstructural
    rw [nextDecision_of_not_ready domain _ hid hstructural]
    rw [structuralDecision, FactSet.isCollision_eq_false hfact] at hunready ⊢
    simp only [hcycle, Bool.false_eq_true, if_false] at hunready ⊢
    split at hunready
    · exact absurd rfl hunready
    · rw [if_neg ‹_›]
      rfl

/-- A fact whose past is usable is decided by the domain. -/
theorem next_judged (hnext : nextDecisions domain facts facts.graph before =
      after) (hcovers : Covers facts (statusesIn before))
    (hready : GraphReady facts fact)
    (hparents : ∀ parent ∈ fact.causal.parents,
      (snapshot facts (statusesIn before)).isProjected parent = true) :
    after.get? fact.id = some (domainDecision
      (domain.classify fact (snapshot facts (statusesIn before)))
      (facts.graph.children fact.id)) := by
  rw [next_get? hnext hready.mem_ids, nextDecision_of_ready domain _ hready,
    if_pos]
  exact (unusableDependencies_isEmpty hcovers hready).2 hparents

end Next

theorem get?_roundDecisions_succ (domain : DomainReducer A K V R)
    (facts : FactSet) (t : Nat) {id : FactId} (hid : id ∈ facts.ids) :
    (roundDecisions domain facts (t + 1)).get? id =
      some (nextDecision domain (snapshot facts
        (statusesIn (roundDecisions domain facts t))) id) :=
  next_get? (roundDecisions_succ domain facts t).symm hid

theorem covers_roundDecisions (domain : DomainReducer A K V R)
    (facts : FactSet) (t : Nat) :
    Covers facts (statusesIn (roundDecisions domain facts t)) := by
  intro id hid
  simpa [statusesIn] using
    (get?_roundDecisions_isSome domain facts t id).2 hid

theorem mem_ids_of_mem_projectedSet {domain : DomainReducer A K V R}
    {id : FactId}
    (h : id ∈ projectedSet (roundDecisions domain facts t)) :
    id ∈ facts.ids := by
  obtain ⟨decision, hdecision, -⟩ := h
  exact (get?_roundDecisions_isSome domain facts t id).1 (by simp [hdecision])

section Stable

variable {domain : DomainReducer A K V R} {facts : FactSet}
  {decisions : Decisions R}

theorem stable_get? (hfix : nextDecisions domain facts facts.graph decisions =
      decisions) {id : FactId} (hid : id ∈ facts.ids) :
    decisions.get? id = some (nextDecision domain
      (snapshot facts (statusesIn decisions)) id) :=
  next_get? hfix hid

theorem stable_mem_ids (hfix : nextDecisions domain facts facts.graph
      decisions = decisions) {id : FactId} {decision : FactDecision R}
    (hget : decisions.get? id = some decision) : id ∈ facts.ids := by
  rw [← hfix, nextDecisions, OrderedMap.get?_mapValues,
    Option.map_eq_some_iff] at hget
  obtain ⟨stored, hstored, -⟩ := hget
  simp [hstored]

theorem stable_covers (hfix : nextDecisions domain facts facts.graph
      decisions = decisions) : Covers facts (statusesIn decisions) := by
  intro id hid
  simp [statusesIn, stable_get? hfix hid]

/-- At a fixed point the projected identities are the graph-ready facts whose
parents are projected and which the domain admits. -/
theorem stable_projected (hfix : nextDecisions domain facts facts.graph
      decisions = decisions) {id : FactId} :
    (snapshot facts (statusesIn decisions)).isProjected id = true ↔
      ∃ fact, GraphReady facts fact ∧ fact.id = id ∧
        (∀ parent ∈ fact.causal.parents,
          (snapshot facts (statusesIn decisions)).isProjected parent = true) ∧
        domain.classify fact (snapshot facts (statusesIn decisions)) =
          .projected := by
  rw [← contextOf_eq, contextOf_isProjected, contextOf_eq]
  constructor
  · rintro ⟨decision, hget, hstatus⟩
    have hid := stable_mem_ids hfix hget
    rw [stable_get? hfix hid, Option.some.injEq] at hget
    exact (nextDecision_status (stable_covers hfix) hid).1 (hget ▸ hstatus)
  · rintro ⟨fact, hready, rfl, hrest⟩
    exact ⟨_, stable_get? hfix hready.mem_ids,
      (nextDecision_status (stable_covers hfix) hready.mem_ids).2
        ⟨fact, hready, rfl, hrest⟩⟩

/-- A retained fact outside every cycle whose parents are projected. -/
theorem stable_ready (hfix : nextDecisions domain facts facts.graph decisions =
      decisions) (hfact : facts.get? fact.id = some fact)
    (hcycle : fact.id ∉ facts.graph.cycleMembers)
    (hparents : ∀ parent ∈ fact.causal.parents,
      (snapshot facts (statusesIn decisions)).isProjected parent = true) :
    GraphReady facts fact := by
  refine ⟨hfact, fun h => hcycle (facts.mem_cycleMembers.2
    ⟨FactSet.mem_ids_of_get? hfact, h⟩), fun parent hparent => ?_⟩
  obtain ⟨found, hfound, rfl, -⟩ :=
    (stable_projected hfix).1 (hparents parent hparent)
  exact hfound.mem_ids

end Stable

/-- A loop that returns has reached its decisions in some round. -/
theorem exists_final_round [DecidableEq R] {domain : DomainReducer A K V R}
    {decisions : Decisions R}
    (hstable : stabilizeDecisions domain facts facts.graph = .ok decisions) :
    ∃ last, ∀ round, last ≤ round →
      roundDecisions domain facts round = decisions := by
  obtain ⟨hfix, last, hlast⟩ := stabilizeFrom_ok hstable
  refine ⟨last, fun round hround => ?_⟩
  induction round, hround using Nat.le_induction with
  | base => exact hlast.symm
  | succ round _ ih => rw [roundDecisions_succ, ih, hfix]

/-- The status of a next decision reads the snapshot through what it
projects. -/
theorem nextDecision_status_congr {domain : DomainReducer A K V R}
    {target : FactId → FactId → Prop}
    {source : FactId → Set FactId → Prop}
    (h : CausallyJudged domain facts target source)
    {left right : OrderedMap FactId DecisionStatus}
    (hleft : Covers facts left) (hright : Covers facts right)
    (hsame : ∀ id, (snapshot facts left).isProjected id =
      (snapshot facts right).isProjected id) {id : FactId}
    (hid : id ∈ facts.ids) :
    (nextDecision domain (snapshot facts left) id).status =
      (nextDecision domain (snapshot facts right) id).status := by
  by_cases hready : ∃ fact, GraphReady facts fact ∧ fact.id = id
  · obtain ⟨fact, hready, rfl⟩ := hready
    have hempty : (unusableDependencies (snapshot facts left)
        fact.id).entries.isEmpty = (unusableDependencies (snapshot facts right)
        fact.id).entries.isEmpty := by
      rw [Bool.eq_iff_iff, unusableDependencies_isEmpty hleft hready,
        unusableDependencies_isEmpty hright hready]
      simp only [hsame]
    rw [nextDecision_of_ready domain left hready,
      nextDecision_of_ready domain right hready, hempty,
      h.congr hready hsame]
    split <;> rfl
  · rw [nextDecision_of_not_ready domain left hid hready,
      nextDecision_of_not_ready domain right hid hready]

theorem isProjected_roundDecisions {domain : DomainReducer A K V R}
    {id : FactId} :
    (snapshot facts (statusesIn
      (roundDecisions domain facts t))).isProjected id = true ↔
      id ∈ projectedSet (roundDecisions domain facts t) := by
  rw [← contextOf_eq, contextOf_isProjected]

theorem mem_projectedSet_zero {domain : DomainReducer A K V R}
    {id : FactId} :
    id ∈ projectedSet (roundDecisions domain facts 0) ↔
      ∃ fact, GraphReady facts fact ∧ fact.id = id := by
  constructor
  · intro hmem
    have hid := mem_ids_of_mem_projectedSet hmem
    obtain ⟨decision, hdecision, hstatus⟩ := hmem
    refine (structuralDecision_status (R := R) hid).1 ?_
    obtain ⟨stored, hstored⟩ :=
      Option.isSome_iff_exists.1 (FactSet.mem_ids.1 hid)
    simp [roundDecisions, structuralDecisions, hstored] at hdecision
    rw [hdecision, hstatus]
  · rintro ⟨fact, hready, rfl⟩
    obtain ⟨stored, hstored⟩ :=
      Option.isSome_iff_exists.1 (FactSet.mem_ids.1 hready.mem_ids)
    refine ⟨structuralDecision facts facts.graph fact.id, ?_,
      (structuralDecision_status hready.mem_ids).2 ⟨fact, hready, rfl⟩⟩
    simp [roundDecisions, structuralDecisions, hstored]

/-- The identities a round projects are the graph-ready facts whose parents
the round before projects and which the domain admits there. -/
theorem mem_projectedSet_succ {domain : DomainReducer A K V R}
    {id : FactId} :
    id ∈ projectedSet (roundDecisions domain facts (t + 1)) ↔
      ∃ fact, GraphReady facts fact ∧ fact.id = id ∧
        (∀ parent ∈ fact.causal.parents,
          parent ∈ projectedSet (roundDecisions domain facts t)) ∧
        domain.classify fact (snapshot facts
          (statusesIn (roundDecisions domain facts t))) = .projected := by
  have hcovers := covers_roundDecisions domain facts t
  simp only [← isProjected_roundDecisions (t := t)]
  constructor
  · intro hmem
    have hid := mem_ids_of_mem_projectedSet hmem
    obtain ⟨decision, hdecision, hstatus⟩ := hmem
    rw [get?_roundDecisions_succ domain facts t hid] at hdecision
    cases hdecision
    exact (nextDecision_status hcovers hid).1 hstatus
  · rintro ⟨fact, hready, rfl, hrest⟩
    exact ⟨_, get?_roundDecisions_succ domain facts t hready.mem_ids,
      (nextDecision_status hcovers hready.mem_ids).2
        ⟨fact, hready, rfl, hrest⟩⟩

namespace CausallyJudged

variable {domain : DomainReducer A K V R} {facts : FactSet}
  {target : FactId → FactId → Prop} {source : FactId → Set FactId → Prop}

/-- The rounds of a causally judged domain are rounds of admission. -/
noncomputable def admission (h : CausallyJudged domain facts target source) :
    Admission FactId where
  members := facts.ids.toList.toFinset
  candidates := {id | ∃ fact, GraphReady facts fact ∧ fact.id = id}
  parent := facts.graph.Child
  target := target
  source := source
  good := IdeallyAdmitted domain facts
  round t := projectedSet (roundDecisions domain facts t)
  mem_members := by
    rintro id ⟨fact, hready, rfl⟩
    simpa using hready.mem_ids
  acyclic := by
    rintro id ⟨fact, hready, rfl⟩
    exact hready.acyclic
  round_zero := Set.ext fun _ => mem_projectedSet_zero
  candidate_of_round := by
    intro t id hid
    cases t with
    | zero => exact mem_projectedSet_zero.1 hid
    | succ t =>
        obtain ⟨fact, hready, hid, -⟩ := mem_projectedSet_succ.1 hid
        exact ⟨fact, hready, hid⟩
  parent_of_round := by
    intro t id p hid hp
    obtain ⟨fact, hready, rfl, hparents, -⟩ := mem_projectedSet_succ.1 hid
    exact hparents p ((child_iff_of_get? hready.retained).1 hp)
  target_of_round := by
    intro t id r hid hr
    obtain ⟨fact, hready, rfl, -, hclassify⟩ := mem_projectedSet_succ.1 hid
    exact isProjected_roundDecisions.1
      (h.target_of_admitted hready hclassify hr).1
  source_of_round := by
    intro t id B hid hB
    obtain ⟨fact, hready, rfl, -, hclassify⟩ := mem_projectedSet_succ.1 hid
    obtain ⟨c, hc, hprojected⟩ := h.source_of_admitted hready hclassify hB
    exact ⟨c, hc, isProjected_roundDecisions.1 hprojected⟩
  return_of_round := by
    intro t id r hr hid
    obtain ⟨fact, hready, rfl, -, hclassify⟩ := mem_projectedSet_succ.1 hid
    obtain ⟨-, child, hchild, hedge⟩ :=
      h.target_of_admitted hready hclassify hr
    obtain ⟨other, hother, rfl, hparents, -⟩ :=
      mem_projectedSet_succ.1 (isProjected_roundDecisions.1 hchild)
    exact hparents _ ((child_iff_of_get? hother.retained).1 hedge)
  good_of_round := by
    intro t id hid hpast
    obtain ⟨fact, hready, rfl, -, hclassify⟩ := mem_projectedSet_succ.1 hid
    exact ⟨fact, hready, rfl, h.ideal_of_admitted hready hclassify fun z hz =>
      ⟨isProjected_roundDecisions.2 (hpast z hz).1, (hpast z hz).2⟩⟩
  round_of_good := by
    rintro t id - ⟨fact, hready, rfl, hideal⟩ hpast htargets hsources
    refine mem_projectedSet_succ.2 ⟨fact, hready, rfl, fun parent hparent => ?_,
      h.admitted_of_ideal hready hideal ?_ ?_ ?_⟩
    · exact (hpast parent (.single
        ((child_iff_of_get? hready.retained).2 hparent))).1
    · exact fun z hz =>
        ⟨isProjected_roundDecisions.2 (hpast z hz).1, (hpast z hz).2⟩
    · exact fun r hr => ⟨isProjected_roundDecisions.2 (htargets r hr).1,
        fun z hz => isProjected_roundDecisions.2 ((htargets r hr).2 z hz)⟩
    · intro B hB
      obtain ⟨c, hc, hmem⟩ := hsources B hB
      exact ⟨c, hc, isProjected_roundDecisions.2 hmem⟩

theorem admission_independent (h : CausallyJudged domain facts target source) :
    h.admission.Independent :=
  h.independent

/-- Equal projections in consecutive rounds give equal statuses next. -/
theorem statusesIn_succ_eq (h : CausallyJudged domain facts target source)
    {s : Nat} (hset : projectedSet (roundDecisions domain facts s) =
      projectedSet (roundDecisions domain facts t)) :
    statusesIn (roundDecisions domain facts (s + 1)) =
      statusesIn (roundDecisions domain facts (t + 1)) := by
  ext id
  simp only [statusesIn, OrderedMap.get?_mapValues]
  by_cases hid : id ∈ facts.ids
  · rw [get?_roundDecisions_succ domain facts s hid,
      get?_roundDecisions_succ domain facts t hid, Option.map_some,
      Option.map_some, nextDecision_status_congr h
        (covers_roundDecisions domain facts s)
        (covers_roundDecisions domain facts t) ?_ hid]
    intro other
    rw [Bool.eq_iff_iff, ← contextOf_eq, contextOf_isProjected,
      ← contextOf_eq, contextOf_isProjected, hset]
  · have hnone : ∀ u, (roundDecisions domain facts u).get? id = none := by
      intro u
      rw [← get?_roundDecisions_isSome domain facts u] at hid
      simpa using hid
    rw [hnone, hnone]

theorem statusesIn_eq_of_all_projected {s : Nat}
    (hs : ∀ id ∈ facts.ids, id ∈ projectedSet (roundDecisions domain facts s))
    (ht : ∀ id ∈ facts.ids, id ∈ projectedSet (roundDecisions domain facts t)) :
    statusesIn (roundDecisions domain facts s) =
      statusesIn (roundDecisions domain facts t) := by
  ext id
  simp only [statusesIn, OrderedMap.get?_mapValues]
  by_cases hid : id ∈ facts.ids
  · obtain ⟨left, hleft, hleftStatus⟩ := hs id hid
    obtain ⟨right, hright, hrightStatus⟩ := ht id hid
    simp [hleft, hright, hleftStatus, hrightStatus]
  · have hnone : ∀ u, (roundDecisions domain facts u).get? id = none := by
      intro u
      rw [← get?_roundDecisions_isSome domain facts u] at hid
      simpa using hid
    rw [hnone, hnone]

/-- The settled identities are projected in every round. -/
theorem mem_projectedSet_of_settled (h : CausallyJudged domain facts target source)
    {id : FactId} (hid : id ∈ h.admission.settled) (t : Nat) :
    id ∈ projectedSet (roundDecisions domain facts t) := by
  exact hid t

theorem roundDecisions_fixed (h : CausallyJudged domain facts target source) :
    roundDecisions domain facts (2 * h.admission.unsettled.card + 2) =
      roundDecisions domain facts (2 * h.admission.unsettled.card + 1) := by
  have hstatuses :
      statusesIn (roundDecisions domain facts
        (2 * h.admission.unsettled.card + 1)) =
      statusesIn (roundDecisions domain facts
        (2 * h.admission.unsettled.card)) := by
    rcases Nat.eq_zero_or_pos h.admission.unsettled.card with hzero | hpos
    · have hall : ∀ t, ∀ id ∈ facts.ids,
          id ∈ projectedSet (roundDecisions domain facts t) := by
        intro t id hid
        refine h.mem_projectedSet_of_settled ?_ t
        by_contra hnot
        have hmem : id ∈ h.admission.unsettled :=
          Admission.mem_unsettled.2 ⟨by simpa [admission] using hid, hnot⟩
        rw [Finset.card_eq_zero.1 hzero] at hmem
        simp at hmem
      exact statusesIn_eq_of_all_projected (hall _) (hall _)
    · obtain ⟨t, ht⟩ : ∃ t, 2 * h.admission.unsettled.card = t + 1 :=
        ⟨2 * h.admission.unsettled.card - 1, by omega⟩
      rw [ht]
      refine h.statusesIn_succ_eq ?_
      exact (Admission.round_eq_settled h.admission_independent
        (by omega)).trans (Admission.round_eq_settled h.admission_independent
          (by omega)).symm
  exact (roundDecisions_succ domain facts _).trans
    ((nextDecisions_congr domain hstatuses).trans
      (roundDecisions_succ domain facts _).symm)

theorem unsettled_card_le (h : CausallyJudged domain facts target source) :
    h.admission.unsettled.card ≤ facts.entries.size := by
  refine Admission.unsettled_card_le.trans ?_
  refine (List.toFinset_card_le _).trans_eq ?_
  simp [FactSet.ids, OrderedMap.keys, OrderedMap.size]

/-- A causally judged domain settles within the bound, on exactly the settled
identities. -/
theorem stabilizes [DecidableEq R] (h : CausallyJudged domain facts target source) :
    ∃ decisions, stabilizeDecisions domain facts facts.graph = .ok decisions ∧
      projectedSet decisions = h.admission.settled := by
  have hsize : (structuralDecisions facts facts.graph : Decisions R).size =
      facts.entries.size := by
    simp [structuralDecisions, OrderedMap.size, OrderedMap.mapValues]
  refine ⟨_, stabilizeFrom_of_fixed
    (t := 2 * h.admission.unsettled.card + 1) ?_ h.roundDecisions_fixed, ?_⟩
  · have := h.unsettled_card_le
    omega
  · change projectedSet (roundDecisions domain facts _) = _
    exact Admission.round_eq_settled h.admission_independent (by omega)

/-- The identities of a set whose parents are in the set and which the domain
admits when exactly the set is projected. -/
def SelfSupporting (domain : DomainReducer A K V R) (facts : FactSet)
    (projected : Set FactId) : Prop :=
  ∀ id ∈ projected, ∃ fact, GraphReady facts fact ∧ fact.id = id ∧
    (∀ parent ∈ fact.causal.parents, parent ∈ projected) ∧
    domain.classify fact (snapshot facts (statusesOf facts projected)) =
      .projected

/-- The settled identities hold every self-supporting set. -/
theorem subset_settled (h : CausallyJudged domain facts target source)
    {projected : Set FactId}
    (hself : SelfSupporting domain facts projected) :
    projected ⊆ h.admission.settled := by
  have hmem : ∀ {id}, (snapshot facts (statusesOf facts projected)).isProjected
      id = true → id ∈ projected := fun hid => (snapshot_statusesOf.1 hid).2
  have hparent : ∀ {x p}, x ∈ projected → facts.graph.Child p x →
      p ∈ projected := by
    intro x p hx hp
    obtain ⟨fact, hready, rfl, hparents, -⟩ := hself x hx
    exact hparents p ((child_iff_of_get? hready.retained).1 hp)
  have hcandidate : ∀ {x}, x ∈ projected → x ∈ h.admission.candidates := by
    intro x hx
    obtain ⟨fact, hready, hfact, -⟩ := hself x hx
    exact ⟨fact, hready, hfact⟩
  have hancestor : ∀ {x z}, x ∈ projected →
      Relation.TransGen facts.graph.Child z x → z ∈ projected := by
    intro x z hx hz
    induction hz using Relation.TransGen.head_induction_on with
    | single hedge => exact hparent hx hedge
    | head hedge _ ih => exact hparent ih hedge
  refine Admission.Closed.subset_settled ⟨hcandidate, ?_, hparent, ?_, ?_⟩
  · intro x hx
    refine Admission.candidate_induction (A := h.admission)
      (P := fun x => x ∈ projected → IdeallyAdmitted domain facts x) ?_ x
      (hcandidate hx) hx
    intro x _ ih hx
    obtain ⟨fact, hready, rfl, -, hclassify⟩ := hself x hx
    refine ⟨fact, hready, rfl, h.ideal_of_admitted hready hclassify
      fun z hz => ?_⟩
    have hz' := hancestor hx hz
    obtain ⟨other, hother, rfl⟩ := hcandidate hz'
    exact ⟨snapshot_statusesOf.2 ⟨hother.mem_ids, hz'⟩,
      ih _ ⟨other, hother, rfl⟩ hz hz'⟩
  · intro x r hx hr
    obtain ⟨fact, hready, rfl, -, hclassify⟩ := hself x hx
    exact hmem (h.target_of_admitted hready hclassify hr).1
  · intro x B hx hB
    obtain ⟨fact, hready, rfl, -, hclassify⟩ := hself x hx
    obtain ⟨c, hc, hprojected⟩ := h.source_of_admitted hready hclassify hB
    exact ⟨c, hc, hmem hprojected⟩

end CausallyJudged

end Judged

end Hq
