/-
One more fact in a reduction: when no fact cites it and no decision about
another fact reads it, the rounds over the larger set are the rounds over the
smaller one with a status for the new fact.
-/
import Hq.Rounds

namespace Hq

namespace FactSet

variable {facts : FactSet} {fact : Fact}

theorem entries_insert_of_ne (facts : FactSet) {id : FactId} (hne : id ≠ fact.id) :
    (facts.insert fact).entries.get? id = facts.entries.get? id := by
  rw [get?_insert, slot, if_neg hne.symm]
  exact sup_bot_eq _

theorem get?_insert_of_ne (facts : FactSet) {id : FactId} (hne : id ≠ fact.id) :
    (facts.insert fact).get? id = facts.get? id := by
  unfold get?
  rw [entries_insert_of_ne facts hne]

theorem get?_insert_self (hfresh : fact.id ∉ facts.ids) :
    (facts.insert fact).get? fact.id = some fact := by
  have hnone : facts.entries.get? fact.id = none := by
    simpa [mem_ids] using hfresh
  rw [get?_eq_some_iff, get?_insert, hnone, slot, if_pos rfl]
  exact bot_sup_eq _

theorem mem_ids_insert_of_ne (facts : FactSet) {id : FactId} (hne : id ≠ fact.id) :
    id ∈ (facts.insert fact).ids ↔ id ∈ facts.ids := by
  rw [mem_ids, mem_ids, entries_insert_of_ne facts hne]

end FactSet

/-- No fact of the set cites a further fact, nor does it cite itself. -/
structure Uncited (facts : FactSet) (fact : Fact) : Prop where
  fresh : fact.id ∉ facts.ids
  others : ∀ stored ∈ facts.facts, fact.id ∉ stored.causal.parents
  own : fact.id ∉ fact.causal.parents

namespace Uncited

variable {facts : FactSet} {fact : Fact} (h : Uncited facts fact)
include h

theorem ne_of_mem_ids {id : FactId} (hid : id ∈ facts.ids) : id ≠ fact.id :=
  fun heq => h.fresh (heq ▸ hid)

omit h in
theorem parents_eq (facts : FactSet) {id : FactId} (hne : id ≠ fact.id) :
    (facts.insert fact).graph.parents id = facts.graph.parents id := by
  ext parent
  rw [FactSet.mem_graph_parents, FactSet.mem_graph_parents,
    FactSet.get?_insert_of_ne facts hne]

theorem not_mem_parents {id : FactId} : fact.id ∉ facts.graph.parents id := by
  intro hparent
  obtain ⟨stored, hstored, hparent⟩ := (facts.mem_graph_parents).1 hparent
  exact h.others stored (FactSet.mem_facts_of_get? hstored) hparent

theorem not_child (id : FactId) :
    ¬ (facts.insert fact).graph.Child fact.id id := by
  rw [child_iff]
  by_cases heq : id = fact.id
  · rw [heq, FactSet.graph_parents_of_get? _ (FactSet.get?_insert_self h.fresh)]
    exact h.own
  · rw [parents_eq facts heq]
    exact h.not_mem_parents

/-- A path that ends at another fact never passes the new one. -/
theorem transGen_iff {ancestor id : FactId} (hne : id ≠ fact.id) :
    Relation.TransGen (facts.insert fact).graph.Child ancestor id ↔
      Relation.TransGen facts.graph.Child ancestor id := by
  have hchild {parent child : FactId} (hne : child ≠ fact.id) :
      (facts.insert fact).graph.Child parent child ↔
        facts.graph.Child parent child := by
    rw [child_iff, child_iff, parents_eq facts hne]
  constructor
  · intro hpath
    induction hpath with
    | single hedge => exact .single ((hchild hne).1 hedge)
    | tail _ hedge ih =>
        refine .tail (ih ?_) ((hchild hne).1 hedge)
        rintro rfl
        exact h.not_child _ hedge
  · intro hpath
    induction hpath with
    | single hedge => exact .single ((hchild hne).2 hedge)
    | @tail middle last _ hedge ih =>
        refine .tail (ih ?_) ((hchild hne).2 hedge)
        rintro rfl
        exact h.not_mem_parents (child_iff.1 hedge)

theorem graphReady_iff {other : Fact} (hne : other.id ≠ fact.id) :
    GraphReady (facts.insert fact) other ↔ GraphReady facts other := by
  have hretained := FactSet.get?_insert_of_ne facts hne
  have hknown (hget : facts.get? other.id = some other) :
      (∀ parent ∈ other.causal.parents, parent ∈ (facts.insert fact).ids) ↔
        ∀ parent ∈ other.causal.parents, parent ∈ facts.ids := by
    refine forall₂_congr fun parent hparent => ?_
    refine FactSet.mem_ids_insert_of_ne facts ?_
    rintro rfl
    exact h.others other (FactSet.mem_facts_of_get? hget) hparent
  constructor
  · rintro ⟨hget, hacyclic, hparents⟩
    rw [hretained] at hget
    exact ⟨hget, (h.transGen_iff hne).not.1 hacyclic, (hknown hget).1 hparents⟩
  · rintro ⟨hget, hacyclic, hparents⟩
    exact ⟨hretained.trans hget, (h.transGen_iff hne).not.2 hacyclic,
      (hknown hget).2 hparents⟩

/-- The graph alone gives another fact the same status. -/
theorem structuralDecision_status_eq {R : Type} {id : FactId}
    (hid : id ∈ facts.ids) :
    (structuralDecision (facts.insert fact) (facts.insert fact).graph id :
      FactDecision R).status =
        (structuralDecision facts facts.graph id : FactDecision R).status := by
  have hne := h.ne_of_mem_ids hid
  have hcollision : (facts.insert fact).isCollision id =
      facts.isCollision id := by
    unfold FactSet.isCollision
    rw [FactSet.entries_insert_of_ne facts hne]
  have hcycle : id ∈ (facts.insert fact).graph.cycleMembers ↔
      id ∈ facts.graph.cycleMembers := by
    rw [FactSet.mem_cycleMembers, FactSet.mem_cycleMembers,
      FactSet.mem_ids_insert_of_ne facts hne, h.transGen_iff hne]
  have hmissing : ((facts.insert fact).graph.parents id).filter (fun parent =>
      !(facts.insert fact).contains parent) =
        (facts.graph.parents id).filter fun parent =>
          !facts.contains parent := by
    rw [parents_eq facts hne]
    refine OrderedSet.filter_congr fun parent hparent => ?_
    have hother : parent ≠ fact.id := by
      rintro rfl
      exact h.not_mem_parents hparent
    rw [Bool.eq_iff_iff, Bool.not_eq_true', Bool.not_eq_true',
      ← Bool.not_eq_true, ← Bool.not_eq_true, FactSet.contains_iff,
      FactSet.contains_iff, FactSet.mem_ids_insert_of_ne facts hother]
  unfold structuralDecision
  simp only [hcollision, hcycle, hmissing]
  split
  · rfl
  · split
    · rfl
    · split <;> rfl

end Uncited

theorem isProjected_insert_of_ne {facts larger : FactSet}
    {statuses : OrderedMap FactId DecisionStatus} {status : DecisionStatus}
    {id key : FactId} (hne : id ≠ key) :
    (snapshot larger (statuses.insert key status)).isProjected id =
      (snapshot facts statuses).isProjected id := by
  unfold ReductionContext.isProjected snapshot
  rw [Bool.eq_iff_iff, decide_eq_true_iff, decide_eq_true_iff,
    OrderedMap.get?_insert, if_neg hne]

section Unread

variable {A K V R : Type}

/-- In no round over the smaller set does the decision about a fact read the
further fact, whatever its status. -/
structure Unread (domain : DomainReducer A K V R) (facts : FactSet)
    (fact : Fact) : Prop extends Uncited facts fact where
  unread : ∀ round status, ∀ stored ∈ facts.facts,
    domain.classify stored (snapshot (facts.insert fact)
      ((statusesIn (roundDecisions domain facts round)).insert fact.id
        status)) =
      domain.classify stored
        (snapshot facts (statusesIn (roundDecisions domain facts round)))

namespace Unread

variable {domain : DomainReducer A K V R} {facts : FactSet} {fact : Fact}
  (h : Unread domain facts fact)
include h

/-- Statuses of the larger set that agree on the smaller one differ from its
statuses at the new fact alone. -/
theorem statusesIn_eq {larger smaller : Decisions R}
    (hlarger : ∀ id, (larger.get? id).isSome = true ↔
      id ∈ (facts.insert fact).ids)
    (hsmaller : ∀ id, (smaller.get? id).isSome = true ↔ id ∈ facts.ids)
    (hsame : ∀ id ∈ facts.ids, (larger.get? id).map FactDecision.status =
      (smaller.get? id).map FactDecision.status) :
    ∃ status, statusesIn larger = (statusesIn smaller).insert fact.id status := by
  obtain ⟨decision, hdecision⟩ := Option.isSome_iff_exists.1
    ((hlarger fact.id).2 (FactSet.mem_ids_of_get?
      (FactSet.get?_insert_self h.fresh)))
  refine ⟨decision.status, OrderedMap.ext fun id => ?_⟩
  simp only [statusesIn, OrderedMap.get?_insert, OrderedMap.get?_mapValues]
  split
  next heq => rw [heq, hdecision]; rfl
  next hne =>
    by_cases hid : id ∈ facts.ids
    · exact hsame id hid
    · have hleft := (hlarger id).not.2
        ((FactSet.mem_ids_insert_of_ne facts hne).not.2 hid)
      have hright := (hsmaller id).not.2 hid
      simp only [Option.not_isSome_iff_eq_none] at hleft hright
      rw [hleft, hright]

/-- A round of the larger set gives the other facts their statuses of the
smaller set. -/
theorem status_eq (round : Nat) {id : FactId} (hid : id ∈ facts.ids) :
    ((roundDecisions domain (facts.insert fact) round).get? id).map
        FactDecision.status =
      ((roundDecisions domain facts round).get? id).map
        FactDecision.status := by
  induction round generalizing id with
  | zero =>
      have hne := h.ne_of_mem_ids hid
      obtain ⟨stored, hstored⟩ :=
        Option.isSome_iff_exists.1 (FactSet.mem_ids.1 hid)
      have hlarger := (FactSet.entries_insert_of_ne facts hne).trans hstored
      simp only [roundDecisions, Function.iterate_zero, id_eq,
        structuralDecisions, OrderedMap.get?_mapValues, hstored, hlarger,
        Option.map_some]
      rw [h.toUncited.structuralDecision_status_eq hid]
  | succ round ih =>
      have hne := h.ne_of_mem_ids hid
      have hlarger := (FactSet.mem_ids_insert_of_ne facts hne).2 hid
      obtain ⟨status, hstatus⟩ := h.statusesIn_eq
        (get?_roundDecisions_isSome domain _ round)
        (get?_roundDecisions_isSome domain _ round) fun id hid => ih hid
      rw [get?_roundDecisions_succ domain _ round hlarger,
        get?_roundDecisions_succ domain _ round hid, Option.map_some,
        Option.map_some]
      refine congrArg some ?_
      by_cases hready : ∃ other, GraphReady facts other ∧ other.id = id
      · obtain ⟨other, hready, rfl⟩ := hready
        have hreadyLarger := (h.toUncited.graphReady_iff hne).2 hready
        have hempty : (unusableDependencies (snapshot (facts.insert fact)
            (statusesIn (roundDecisions domain (facts.insert fact) round)))
              other.id).entries.isEmpty =
            (unusableDependencies (snapshot facts
              (statusesIn (roundDecisions domain facts round)))
              other.id).entries.isEmpty := by
          rw [Bool.eq_iff_iff, unusableDependencies_isEmpty
            (covers_roundDecisions domain _ round) hreadyLarger,
            unusableDependencies_isEmpty
              (covers_roundDecisions domain _ round) hready]
          refine forall₂_congr fun parent hparent => ?_
          have hother := h.ne_of_mem_ids (hready.known parent hparent)
          rw [hstatus, isProjected_insert_of_ne hother]
        rw [nextDecision_of_ready domain _ hreadyLarger,
          nextDecision_of_ready domain _ hready, hempty, hstatus,
          h.unread round status other
            (FactSet.mem_facts.2 hready.retained)]
        split
        · cases domain.classify other _ <;> rfl
        · rfl
      · have hunready : ¬ ∃ other, GraphReady (facts.insert fact) other ∧
            other.id = id := by
          rintro ⟨other, hother, rfl⟩
          exact hready ⟨other, (h.toUncited.graphReady_iff hne).1 hother, rfl⟩
        rw [nextDecision_of_not_ready domain _ hlarger hunready,
          nextDecision_of_not_ready domain _ hid hready,
          h.toUncited.structuralDecision_status_eq hid]

/-- The loops over both sets end in the same statuses beside the new fact. -/
theorem stable_statuses [DecidableEq R] {before after : Decisions R}
    (hbefore : stabilizeDecisions domain facts facts.graph = .ok before)
    (hafter : stabilizeDecisions domain (facts.insert fact)
      (facts.insert fact).graph = .ok after) :
    ∃ status, statusesIn after = (statusesIn before).insert fact.id status := by
  obtain ⟨first, hfirst⟩ := exists_final_round hbefore
  obtain ⟨second, hsecond⟩ := exists_final_round hafter
  rw [← hfirst (max first second) (le_max_left _ _),
    ← hsecond (max first second) (le_max_right _ _)]
  exact h.statusesIn_eq (get?_roundDecisions_isSome domain _ _)
    (get?_roundDecisions_isSome domain _ _) fun id hid => h.status_eq _ hid

end Unread

end Unread

end Hq
