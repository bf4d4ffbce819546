/-
The frontiers of a reduction: of each aggregate, the projected members with no
other projected member below them in the order of usable reachability.
-/
import Hq.UsableOrder

namespace Hq

section Report

variable {A K V R : Type} [LinearOrder A] [LinearOrder K] [DecidableEq V]
  [DecidableEq R] [FieldCoded R] {domain : DomainReducer A K V R}
  {facts : FactSet} {report : ReductionReport A K V R}

omit [DecidableEq R] in
/-- The frontiers of a report are derived from its own decisions. -/
theorem deriveReport_frontiers {decisions : Decisions R}
    (h : deriveReport domain facts facts.graph decisions = .ok report) :
    report.decisions = decisions ∧ report.frontiers =
      deriveFrontiers (snapshot facts (statusesIn decisions))
        (deriveAggregateMembers domain
          (snapshot facts (statusesIn decisions))) := by
  simp only [deriveReport, contextOf_eq] at h
  split at h
  · cases h
  · split at h
    · cases h
    · split at h
      · cases h
      · cases h
        exact ⟨rfl, rfl⟩

theorem frontiers_of_reduceSet (h : reduceSet domain facts = .ok report) :
    report.frontiers =
      deriveFrontiers (snapshot facts (statusesIn report.decisions))
        (deriveAggregateMembers domain
          (snapshot facts (statusesIn report.decisions))) := by
  unfold reduceSet at h
  split at h
  · cases h
  next decisions _ =>
    obtain ⟨rfl, hfrontiers⟩ := deriveReport_frontiers h
    exact hfrontiers

end Report

/-- A projected fact that the domain files under an aggregate. -/
def ProjectedMember {A K V R : Type} (domain : DomainReducer A K V R)
    (context : ReductionContext) (key : A) (id : FactId) : Prop :=
  (∃ fact ∈ context.facts.facts,
      key ∈ domain.aggregateKeys fact context ∧ fact.id = id) ∧
    context.isProjected id = true

section Aggregate

variable {A K V R : Type} [LinearOrder A] {domain : DomainReducer A K V R}
  {context : ReductionContext} {key : A}

theorem mem_projectedMembers {id : FactId} :
    id ∈ ((deriveAggregateMembers domain context).members key).filter
        context.isProjected ↔ ProjectedMember domain context key id := by
  rw [OrderedSet.mem_filter, mem_deriveAggregateMembers, ProjectedMember]

theorem members_deriveFrontiers :
    (deriveFrontiers context (deriveAggregateMembers domain context)).members
        key = maximalMembers context
      (((deriveAggregateMembers domain context).members key).filter
        context.isProjected) := by
  cases hget : (deriveFrontiers context
      (deriveAggregateMembers domain context)).get? key with
  | some frontier =>
      rw [OrderedMap.members, hget]
      exact (get?_deriveFrontiers.1 hget).2
  | none =>
      by_cases hempty : ((deriveAggregateMembers domain context).members
          key).filter context.isProjected = ∅
      · rw [OrderedMap.members, hget, hempty]
        rfl
      · rw [get?_deriveFrontiers.2 ⟨hempty, rfl⟩] at hget
        cases hget

theorem isSome_deriveFrontiers :
    ((deriveFrontiers context (deriveAggregateMembers domain context)).get?
        key).isSome = true ↔ ∃ id, ProjectedMember domain context key id := by
  rw [Option.isSome_iff_exists]
  constructor
  · rintro ⟨frontier, hget⟩
    obtain ⟨id, hid⟩ :=
      OrderedSet.exists_mem_of_ne_empty (get?_deriveFrontiers.1 hget).1
    exact ⟨id, mem_projectedMembers.1 hid⟩
  · rintro ⟨id, hid⟩
    refine ⟨_, get?_deriveFrontiers.2 ⟨fun hempty => ?_, rfl⟩⟩
    exact OrderedSet.eq_empty_iff.1 hempty id (mem_projectedMembers.2 hid)

theorem mem_maximalMembers_iff_reaches {members : OrderedSet FactId}
    {id : FactId} :
    id ∈ maximalMembers context members ↔ id ∈ members ∧ ∀ other ∈ members,
      other ≠ id → context.usablyReaches id other = false := by
  rw [maximalMembers, OrderedSet.mem_filter, Bool.not_eq_true',
    List.any_eq_false]
  simp

end Aggregate

/-- Among projected facts every member is usably below or equal to a maximal
one. -/
theorem UsablyClosed.exists_maximal {facts : FactSet}
    {statuses : OrderedMap FactId DecisionStatus}
    (h : UsablyClosed facts statuses) {members : OrderedSet FactId}
    (hprojected : ∀ id ∈ members,
      (snapshot facts statuses).isProjected id = true) {id : FactId}
    (hid : id ∈ members) :
    ∃ top ∈ maximalMembers (snapshot facts statuses) members,
      (snapshot facts statuses).usablyReaches id top = true := by
  -- A maximal member of what is reached from the fact is maximal.
  let above := members.filter ((snapshot facts statuses).usablyReaches id)
  have habove : ∀ other ∈ above, other ∈ members ∧
      (snapshot facts statuses).usablyReaches id other = true :=
    fun other hother => OrderedSet.mem_filter.1 hother
  have hself : id ∈ above := OrderedSet.mem_filter.2 ⟨hid,
    (h.usablyReaches_iff (hprojected id hid) (hprojected id hid)).2
      (Or.inl rfl)⟩
  have hne : above ≠ ∅ := fun hempty =>
    OrderedSet.eq_empty_iff.1 hempty id hself
  have haboveProjected : ∀ other ∈ above,
      (snapshot facts statuses).isProjected other = true :=
    fun other hother => hprojected other (habove other hother).1
  obtain ⟨top, htop⟩ := OrderedSet.exists_mem_of_ne_empty
    (h.maximalMembers_ne_empty hne haboveProjected)
  obtain ⟨htopAbove, hmax⟩ := (h.mem_maximalMembers haboveProjected).1 htop
  obtain ⟨htopMem, hreach⟩ := habove top htopAbove
  refine ⟨top, (h.mem_maximalMembers hprojected).2 ⟨htopMem, ?_⟩, hreach⟩
  intro other hother hpath
  refine hmax other (OrderedSet.mem_filter.2 ⟨hother, ?_⟩) hpath
  rw [h.usablyReaches_iff (hprojected id hid) (hprojected other hother)]
  rcases (h.usablyReaches_iff (hprojected id hid)
    (hprojected top htopMem)).1 hreach with rfl | hbelow
  · exact Or.inr hpath
  · exact Or.inr (hbelow.trans hpath)

/-- The frontier of every aggregate of a reduction: exactly the projected
members from which no other projected member is usably reached, an antichain
that lies above every projected member. -/
theorem reduceSet_frontiers_exact {A K V R : Type} [LinearOrder A]
    [LinearOrder K] [DecidableEq V] [DecidableEq R] [FieldCoded R]
    (domain : DomainReducer A K V R) (facts : FactSet)
    (report : ReductionReport A K V R)
    (hreduce : reduceSet domain facts = .ok report) (key : A) :
    let context := contextOf report.facts report.graph report.decisions
    let member := ProjectedMember domain context key
    let frontier := report.frontiers.members key
    (∀ id, id ∈ frontier ↔ member id ∧ ∀ other, member other → other ≠ id →
        context.usablyReaches id other = false) ∧
      ((report.frontiers.get? key).isSome = true ↔ ∃ id, member id) ∧
      ((∃ id, member id) → frontier ≠ ∅) ∧
      (∀ left ∈ frontier, ∀ right ∈ frontier, left ≠ right →
        context.usablyReaches left right = false) ∧
      ∀ id, member id →
        ∃ top ∈ frontier, context.usablyReaches id top = true := by
  have hreduced := reduced_of_reduceSet hreduce
  have hclosed := usablyClosed_of_fixed hreduced.fixed
  rw [hreduced.facts_eq, hreduced.graph_eq, contextOf_eq,
    frontiers_of_reduceSet hreduce]
  intro context member frontier
  have hfrontier : frontier = maximalMembers context
      (((deriveAggregateMembers domain context).members key).filter
        context.isProjected) := members_deriveFrontiers
  have hmem : ∀ id, id ∈ frontier ↔ member id ∧ ∀ other, member other →
      other ≠ id → context.usablyReaches id other = false := by
    intro id
    rw [hfrontier, mem_maximalMembers_iff_reaches]
    simp only [mem_projectedMembers]
    rfl
  have hcover : ∀ id, member id →
      ∃ top ∈ frontier, context.usablyReaches id top = true := by
    intro id hid
    rw [hfrontier]
    exact hclosed.exists_maximal
      (fun other hother => (OrderedSet.mem_filter.1 hother).2)
      (mem_projectedMembers.2 hid)
  refine ⟨hmem, isSome_deriveFrontiers, ?_, ?_, hcover⟩
  · rintro ⟨id, hid⟩ hempty
    obtain ⟨top, htop, -⟩ := hcover id hid
    exact OrderedSet.eq_empty_iff.1 hempty top htop
  · intro left hleft right hright hne
    exact ((hmem left).1 hleft).2 right ((hmem right).1 hright).1 hne.symm

instance : FieldCoded Unit := ⟨fun _ => [], fun _ _ _ => rfl⟩

/-- The same policy with every fact in one aggregate. -/
def admitTogether : DomainReducer Unit Unit Unit Unit :=
  { admitEvery with aggregateKeys := fun _ _ => [()] }

/-- Of two projected cancellations in one aggregate, the later one is the
frontier. -/
theorem reduceSet_frontiers_exact_cancellations :
    ∃ report, reduceSet admitTogether cancellations = .ok report ∧
      let context := contextOf report.facts report.graph report.decisions
      report.frontiers.members () = OrderedSet.ofList [.ofNat 2] ∧
        ProjectedMember admitTogether context () (.ofNat 1) ∧
        context.usablyReaches (.ofNat 1) (.ofNat 2) = true := by
  have hread : (reduceSet admitTogether cancellations).toOption.map
      (fun report =>
        let context := contextOf report.facts report.graph report.decisions
        (report.frontiers.members (), context.isProjected (.ofNat 1),
          (context.facts.facts.map Fact.id).contains (.ofNat 1))) =
      some (OrderedSet.ofList [.ofNat 2], true, true) := by
    decide +kernel
  cases hreduce : reduceSet admitTogether cancellations with
  | error error =>
      rw [hreduce] at hread
      cases hread
  | ok report =>
      rw [hreduce] at hread
      simp only [Except.toOption, Option.map_some, Option.some.injEq,
        Prod.mk.injEq] at hread
      obtain ⟨hfrontier, hprojected, hpresent⟩ := hread
      obtain ⟨fact, hfact, hid⟩ :=
        List.mem_map.1 (List.contains_iff_mem.1 hpresent)
      have hmember : ProjectedMember admitTogether
          (contextOf report.facts report.graph report.decisions) ()
          (.ofNat 1) :=
        ⟨⟨fact, hfact, List.mem_singleton.2 rfl, hid⟩, hprojected⟩
      obtain ⟨-, -, -, -, hcover⟩ := reduceSet_frontiers_exact admitTogether
        cancellations report hreduce ()
      obtain ⟨top, htop, hreach⟩ := hcover _ hmember
      rw [hfrontier, OrderedSet.mem_ofList, List.mem_singleton] at htop
      exact ⟨report, rfl, hfrontier, hmember, htop ▸ hreach⟩

end Hq
