/-
The orders read off the causal graph of a fact set whose parents may be
missing, cyclic or the fact itself: the cycle members, the dependency order
of the other known facts and the closure under reverse dependants.
-/
import Hq.UsableOrder

namespace Hq

/-- A parent that the retained fact of an identity declares. -/
def FactSet.DeclaresParent (facts : FactSet) (child parent : FactId) : Prop :=
  ∃ fact, facts.get? child = some fact ∧ parent ∈ fact.causal.parents

namespace FactSet

variable {facts : FactSet}

theorem child_iff_declaresParent {parent child : FactId} :
    facts.graph.Child parent child ↔ facts.DeclaresParent child parent := by
  rw [child_iff, facts.mem_graph_parents, DeclaresParent]

theorem DeclaresParent.mem_ids {child parent : FactId}
    (h : facts.DeclaresParent child parent) : child ∈ facts.ids := by
  obtain ⟨fact, hget, -⟩ := h
  rw [FactSet.get?_eq_some_iff] at hget
  rw [FactSet.ids, OrderedMap.mem_keys, hget]
  rfl

/-- A path down the children is a path up the declared parents. -/
theorem path_iff_declaresParent {ancestor descendant : FactId} :
    Relation.ReflTransGen facts.graph.Child ancestor descendant ↔
      Relation.ReflTransGen facts.DeclaresParent descendant ancestor := by
  rw [← Relation.reflTransGen_swap]
  have hswap : Function.swap facts.graph.Child = facts.DeclaresParent := by
    funext child parent
    exact propext child_iff_declaresParent
  rw [hswap]

theorem cycle_iff_declaresParent {id : FactId} :
    Relation.TransGen facts.graph.Child id id ↔
      Relation.TransGen facts.DeclaresParent id id := by
  rw [← Relation.transGen_swap]
  have hswap : Function.swap facts.graph.Child = facts.DeclaresParent := by
    funext child parent
    exact propext child_iff_declaresParent
  rw [hswap]

/-- The closure holds the roots and what reaches one through parents. -/
theorem mem_reverseDependantClosure {roots : List FactId} {id : FactId} :
    id ∈ facts.graph.reverseDependantClosure roots ↔
      ∃ root ∈ roots, Relation.ReflTransGen facts.graph.Child root id := by
  let next : FactId → List FactId := fun id =>
    (facts.graph.children id).toList.filter (· ∈ facts.graph.known)
  have hedge : Edge next = facts.graph.Child := by
    funext parent child
    refine propext ⟨fun hmem => ?_, fun hchild => List.mem_filter.2 ⟨?_, ?_⟩⟩
    · exact OrderedSet.mem_toList.1 (List.mem_filter.1 hmem).1
    · exact OrderedSet.mem_toList.2 hchild
    · rw [graph_known, decide_eq_true_eq]
      exact (child_iff_declaresParent.1 hchild).mem_ids
  rw [CausalIndex.reverseDependantClosure, OrderedSet.mem_ofList, ← hedge]
  constructor
  · intro hmem
    exact (reachable_sound hmem).resolve_left List.not_mem_nil
  · rintro ⟨root, hroot, hpath⟩
    refine @mem_reachable _ _ next facts.graph.childIndex.keys.toList ?_ _ _ _
      ?_ (fun v hv => absurd hv List.not_mem_nil) _ _ (Or.inr hroot) hpath
    · intro v hv
      change List.filter _ (facts.graph.children v).toList = []
      rw [CausalIndex.children_eq_empty _ hv]
      rfl
    · have htotal := facts.graph.filteredCounts_le (· ∈ facts.graph.known)
        facts.graph.childIndex.keys.toList
      rw [CausalIndex.keyCounts_eq] at htotal
      have hunexpanded : unexpandedEdges next
          facts.graph.childIndex.keys.toList [] =
          (facts.graph.childIndex.keys.toList.map fun id =>
            (next id).length).sum := by
        simp [unexpandedEdges]
      rw [hunexpanded, CausalIndex.searchFuel]
      change _ + (List.map (fun id => (List.filter _ _).length) _).sum < _
      omega

/-- The known facts outside every cycle. -/
def orderable (facts : FactSet) : OrderedSet FactId :=
  facts.ids.filter fun id => id ∉ facts.graph.cycleMembers

theorem mem_orderable {id : FactId} : id ∈ facts.orderable ↔
    id ∈ facts.ids ∧ ¬ Relation.TransGen facts.graph.Child id id := by
  rw [orderable, OrderedSet.mem_filter, decide_eq_true_eq, mem_cycleMembers]
  tauto

/-- The traversal starts with every orderable fact pending. -/
theorem dependency_counts (facts : FactSet) :
    KahnCounts id some
      (fun id => ((facts.graph.children id).filter fun child =>
        child ∈ facts.orderable).toList)
      facts.orderable.toList.toFinset
      (OrderedMap.ofList (facts.orderable.toList.map fun id =>
        (id, ((facts.graph.parents id).filter fun parent =>
          parent ∈ facts.orderable).size)))
      (facts.orderable.filter fun id =>
        (OrderedMap.ofList (facts.orderable.toList.map fun id =>
          (id, ((facts.graph.parents id).filter fun parent =>
            parent ∈ facts.orderable).size))).get? id = some 0) := by
  have hchildren : ∀ p c, c ∈ ((facts.graph.children p).filter fun child =>
      child ∈ facts.orderable).toList ↔
      facts.graph.Child p c ∧ c ∈ facts.orderable := by
    intro p c
    rw [OrderedSet.mem_toList, OrderedSet.mem_filter, decide_eq_true_eq]
    rfl
  have hpending : ∀ v, v ∈ facts.orderable.toList.toFinset ↔
      v ∈ facts.orderable := by
    intro v
    rw [List.mem_toFinset, OrderedSet.mem_toList]
  refine KahnCounts.of_parents (fun id => (facts.graph.parents id).filter
    fun parent => parent ∈ facts.orderable) ?_ ?_ ?_ ?_ ?_ ?_ ?_
  · intro v hv p
    rw [hpending] at hv
    rw [OrderedSet.mem_filter, hchildren, child_iff, decide_eq_true_eq,
      hpending]
    tauto
  · intro v hv
    refine OrderedMap.get?_ofList_of_unique (List.mem_map.2
      ⟨v, OrderedSet.mem_toList.2 ((hpending v).1 hv), rfl⟩) ?_
    intro other hother
    obtain ⟨id, -, heq⟩ := List.mem_map.1 hother
    cases heq
    rfl
  · intro v
    rw [OrderedSet.mem_filter, decide_eq_true_eq, hpending]
    exact and_congr_right fun _ => (and_iff_right rfl).symm
  · exact fun v _ => ⟨v, rfl, rfl⟩
  · exact fun v _ => OrderedSet.sorted _ |>.imp fun hlt => hlt.ne
  · intro v _ c hc
    rw [hpending]
    exact ((hchildren v c).1 hc).2
  · exact fun v k hkey => Option.some.inj hkey.symm

/-- The dependency order is the greedy one of the orderable facts. -/
theorem dependencyOrder_greedy (facts : FactSet) :
    GreedyRun facts.graph.Child facts.orderable.toList.toFinset
      facts.graph.dependencyOrder ∅ := by
  have hcounts := facts.dependency_counts
  obtain ⟨keys, left, hkahn, hrun⟩ := hcounts.greedyRun
  have hcard : facts.orderable.toList.toFinset.card = facts.orderable.size :=
    List.toFinset_card_of_nodup (facts.orderable.sorted.imp fun hlt => hlt.ne)
  have hkeys : pendingKeys some facts.orderable.toList.toFinset =
      facts.orderable.toList.toFinset := by
    ext v
    rw [hcounts.mem_pendingKeys]
    exact and_iff_left rfl
  have horder : facts.graph.dependencyOrder = keys := by
    rw [hcard, List.map_id] at hkahn
    rw [← hkahn, CausalGraph.dependencyOrder, graph_known]
    rfl
  rw [hkeys] at hrun
  have hrun : GreedyRun facts.graph.Child facts.orderable.toList.toFinset
      keys left := by
    refine hrun.congr fun p _ c hc => ?_
    rw [keyEdge, OrderedSet.mem_toList, OrderedSet.mem_filter,
      decide_eq_true_eq]
    rw [List.mem_toFinset, OrderedSet.mem_toList] at hc
    exact and_iff_left hc
  have hleft : left = ∅ := by
    refine hrun.left_eq_empty_iff.2 fun v hv hcycle => ?_
    rw [List.mem_toFinset, OrderedSet.mem_toList, mem_orderable] at hv
    exact hv.2 (Relation.TransGen.mono (fun p c hstep => hstep.1) _ _ hcycle)
  rw [horder, ← hleft]
  exact hrun

end FactSet

/-- The three orders of the causal graph of any fact set.  The detected cycle
members are the known facts on a cycle of declared parents.  The dependency
order lists the other known facts, each once and none before a parent of its
own, and no such list is lexicographically smaller.  The closure of some roots
holds them and every fact from which one is reached through parents. -/
theorem graph_orders_exact (facts : FactSet) (roots : List FactId) :
    (∀ id, id ∈ facts.graph.detectCycleMembers ↔
        id ∈ facts.ids ∧ Relation.TransGen facts.DeclaresParent id id) ∧
      (let least := facts.graph.dependencyOrder
        let lists := fun order : List FactId =>
          order.Nodup ∧
            (∀ id, id ∈ order ↔
              id ∈ facts.ids ∧ id ∉ facts.graph.detectCycleMembers) ∧
            order.Pairwise fun before after =>
              ¬ facts.DeclaresParent before after
        lists least ∧ ∀ other, lists other → ¬ List.Lex (· < ·) other least) ∧
      ∀ id, id ∈ facts.graph.reverseDependantClosure roots ↔
        ∃ root ∈ roots, Relation.ReflTransGen facts.DeclaresParent id root := by
  have hcycle : ∀ id, id ∈ facts.graph.detectCycleMembers ↔
      id ∈ facts.ids ∧ Relation.TransGen facts.DeclaresParent id id := by
    intro id
    rw [CausalIndex.mem_detectCycleMembers, facts.graph_known,
      FactSet.cycle_iff_declaresParent]
  have hlists : ∀ order : List FactId,
      LinearExtension facts.graph.Child facts.orderable.toList.toFinset order ↔
      order.Nodup ∧
        (∀ id, id ∈ order ↔
          id ∈ facts.ids ∧ id ∉ facts.graph.detectCycleMembers) ∧
        order.Pairwise fun before after =>
          ¬ facts.DeclaresParent before after := by
    intro order
    have hmem : ∀ id, id ∈ facts.orderable.toList.toFinset ↔
        id ∈ facts.ids ∧ id ∉ facts.graph.detectCycleMembers := by
      intro id
      rw [List.mem_toFinset, OrderedSet.mem_toList, FactSet.mem_orderable,
        CausalIndex.mem_detectCycleMembers, facts.graph_known]
      tauto
    have hforward : (fun before after => ¬ facts.graph.Child after before) =
        fun before after => ¬ facts.DeclaresParent before after := by
      funext before after
      rw [FactSet.child_iff_declaresParent]
    constructor
    · intro h
      refine ⟨h.nodup, fun id => (h.mem_iff id).trans (hmem id), ?_⟩
      exact hforward ▸ h.forward
    · rintro ⟨hnodup, hlisted, hpairwise⟩
      refine ⟨hnodup, fun id => (hlisted id).trans (hmem id).symm, ?_⟩
      exact hforward ▸ hpairwise
  refine ⟨hcycle, ⟨?_, fun other hother => ?_⟩, fun id => ?_⟩
  · exact (hlists _).1 facts.dependencyOrder_greedy.linearExtension
  · refine facts.dependencyOrder_greedy.not_lex_linearExtension ?_
      ((hlists other).2 hother)
    intro v hv hself
    rw [List.mem_toFinset, OrderedSet.mem_toList, FactSet.mem_orderable] at hv
    exact hv.2 (.single hself)
  · rw [FactSet.mem_reverseDependantClosure]
    simp only [FactSet.path_iff_declaresParent]

/-- A cancellation that cites itself, and one that cites it. -/
def selfCited : FactSet :=
  FactSet.fromFacts
    [cancellation 1 (citing [] [1]), cancellation 2 (citing [] [1])]

/-- A known parent on a cycle does not come before its child: the child is
listed and the parent is not. -/
theorem cyclic_parent_unordered :
    selfCited.graph.dependencyOrder = [.ofNat 2] ∧
      selfCited.DeclaresParent (.ofNat 2) (.ofNat 1) ∧
      .ofNat 1 ∈ selfCited.ids ∧
      .ofNat 1 ∉ selfCited.graph.dependencyOrder := by
  refine ⟨by decide +kernel, ?_, by decide +kernel, by decide +kernel⟩
  exact selfCited.mem_graph_parents.1 (by decide +kernel)

end Hq
