/-
The structural graph of a fact set: declared parents, reverse dependants and
the known identities on a causal cycle.  A declared parent that is not
present is a vertex without parents of its own.
-/
import Hq.FactSet
import Hq.Search
import Hq.Kahn

namespace Hq

/-- Parent and reverse-dependant indexes of a fact set. -/
structure CausalIndex where
  known : OrderedSet FactId
  vertices : OrderedSet FactId
  parentIndex : OrderedMap FactId (OrderedSet FactId)
  childIndex : OrderedMap FactId (OrderedSet FactId)
deriving DecidableEq

namespace CausalIndex

def parents (index : CausalIndex) (id : FactId) : OrderedSet FactId :=
  index.parentIndex.members id

def children (index : CausalIndex) (id : FactId) : OrderedSet FactId :=
  index.childIndex.members id

/-- Enough steps for one search: the pending children and every edge. -/
def searchFuel (index : CausalIndex) : Nat :=
  2 * (index.childIndex.entries.map fun entry => entry.2.toList.length).sum + 1

def reachesNonReflexive (index : CausalIndex)
    (ancestor descendant : FactId) : Bool :=
  search (fun id => (index.children id).toList) descendant index.searchFuel []
    (index.children ancestor).toList

/-- The same search through children admitted by a test. -/
def reachesThrough (index : CausalIndex) (usable : FactId → Bool)
    (ancestor descendant : FactId) : Bool :=
  search (fun id => (index.children id).toList.filter usable) descendant
    index.searchFuel [] ((index.children ancestor).toList.filter usable)

def structurallyReaches (index : CausalIndex)
    (ancestor descendant : FactId) : Bool :=
  if ancestor ∉ index.vertices ∨ descendant ∉ index.vertices then false
  else if ancestor = descendant then true
  else index.reachesNonReflexive ancestor descendant

/-- The roots and every known fact that depends on one of them. -/
def reverseDependantClosure (index : CausalIndex)
    (roots : List FactId) : OrderedSet FactId :=
  OrderedSet.ofList (reachable
    (fun id => (index.children id).toList.filter (· ∈ index.known))
    (roots.length + index.searchFuel) [] roots)

def detectCycleMembers (index : CausalIndex) : OrderedSet FactId :=
  index.known.filter fun candidate =>
    index.reachesNonReflexive candidate candidate

end CausalIndex

/-- The indexes together with the detected cycle members. -/
structure CausalGraph extends CausalIndex where
  cycleMembers : OrderedSet FactId
deriving DecidableEq

/-- Every declared edge, as a child and one of its parents. -/
def FactSet.edges (facts : FactSet) : List (FactId × FactId) :=
  facts.facts.flatMap fun fact =>
    fact.causal.parents.toList.map fun parent => (fact.id, parent)

/-- File the empty set under an absent key. -/
def ensureKey (map : OrderedMap FactId (OrderedSet FactId)) (key : FactId) :
    OrderedMap FactId (OrderedSet FactId) :=
  if map.contains key then map else map.insert key ∅

namespace CausalIndex

/-- Index one declared edge. -/
def addEdge (index : CausalIndex) (edge : FactId × FactId) : CausalIndex :=
  { index with
    vertices := index.vertices.insert edge.2
    parentIndex :=
      (ensureKey index.parentIndex edge.2).insertMember edge.1 edge.2
    childIndex := index.childIndex.insertMember edge.2 edge.1 }

def fromFactSet (facts : FactSet) : CausalIndex :=
  let known := facts.ids
  let isolated := known.toList.foldl ensureKey ∅
  let index := facts.edges.foldl addEdge ⟨known, known, isolated, isolated⟩
  { index with
    parentIndex := index.vertices.toList.foldl ensureKey index.parentIndex
    childIndex := index.vertices.toList.foldl ensureKey index.childIndex }

end CausalIndex

def CausalGraph.fromFactSet (facts : FactSet) : CausalGraph :=
  let index := CausalIndex.fromFactSet facts
  { index with cycleMembers := index.detectCycleMembers }

def FactSet.graph (facts : FactSet) : CausalGraph :=
  CausalGraph.fromFactSet facts

/-- Known acyclic identities, parents before children, smallest first. -/
def CausalGraph.dependencyOrder (graph : CausalGraph) : List FactId :=
  let eligible := graph.known.filter fun id => id ∉ graph.cycleMembers
  let indegree := OrderedMap.ofList (eligible.toList.map fun id =>
    (id, ((graph.parents id).filter fun parent => parent ∈ eligible).size))
  let ready := eligible.filter fun id => indegree.get? id = some 0
  kahn id some
    (fun id => ((graph.children id).filter fun child => child ∈ eligible).toList)
    eligible.size indegree ready

namespace CausalIndex

/-- A declared edge from a parent to a child. -/
def Child (index : CausalIndex) (parent child : FactId) : Prop :=
  child ∈ index.children parent

/-- An edge whose child passes a test. -/
def UsableChild (index : CausalIndex) (usable : FactId → Bool)
    (parent child : FactId) : Prop :=
  child ∈ index.children parent ∧ usable child = true

theorem children_eq_empty (index : CausalIndex) {id : FactId}
    (hid : id ∉ index.childIndex.keys) : index.children id = ∅ := by
  rw [OrderedMap.mem_keys, Bool.not_eq_true, Option.isSome_eq_false_iff,
    Option.isNone_iff_eq_none] at hid
  simp [children, OrderedMap.members, hid]

theorem childCount_le (index : CausalIndex) (id : FactId) :
    (index.children id).toList.length ≤
      (index.childIndex.entries.map fun entry =>
        entry.2.toList.length).sum := by
  cases hget : index.childIndex.get? id with
  | none => simp [children, OrderedMap.members, hget, EmptyCollection.emptyCollection]
  | some members =>
      refine List.single_le_sum (fun _ _ => Nat.zero_le _) _ ?_
      refine List.mem_map.2 ⟨(id, members), OrderedMap.get?_eq_some_iff.1 hget, ?_⟩
      simp [children, OrderedMap.members, hget]

theorem keyCounts_eq (index : CausalIndex) :
    (index.childIndex.keys.toList.map fun id =>
      (index.children id).toList.length).sum =
      (index.childIndex.entries.map fun entry =>
        entry.2.toList.length).sum := by
  unfold OrderedMap.keys
  rw [List.map_map]
  congr 1
  refine List.map_congr_left fun entry hentry => ?_
  have hget := OrderedMap.get?_eq_some_iff.2 hentry
  simp [children, OrderedMap.members, hget]

theorem filteredCounts_le (index : CausalIndex) (usable : FactId → Bool)
    (ids : List FactId) :
    (ids.map fun id =>
      ((index.children id).toList.filter usable).length).sum ≤
      (ids.map fun id => (index.children id).toList.length).sum :=
  List.sum_le_sum fun _ _ => List.length_filter_le _ _

/-- The filtered search decides usable paths of at least one edge. -/
theorem reachesThrough_iff (index : CausalIndex) (usable : FactId → Bool)
    (ancestor descendant : FactId) :
    index.reachesThrough usable ancestor descendant = true ↔
      Relation.TransGen (index.UsableChild usable) ancestor descendant := by
  unfold reachesThrough
  rw [search_successors_iff index.childIndex.keys.toList]
  · have hedge : Edge (fun id => (index.children id).toList.filter usable) =
        index.UsableChild usable := by
      funext parent child
      simp [Edge, UsableChild]
    rw [hedge]
  · intro id hid
    rw [index.children_eq_empty hid]
    rfl
  · have hsource := (List.length_filter_le usable
      (index.children ancestor).toList).trans (index.childCount_le ancestor)
    have htotal := index.filteredCounts_le usable index.childIndex.keys.toList
    rw [index.keyCounts_eq] at htotal
    unfold searchFuel
    omega

theorem reachesNonReflexive_eq (index : CausalIndex)
    (ancestor descendant : FactId) :
    index.reachesNonReflexive ancestor descendant =
      index.reachesThrough (fun _ => true) ancestor descendant := by
  simp [reachesNonReflexive, reachesThrough]

/-- The structural search decides paths of at least one edge. -/
theorem reachesNonReflexive_iff (index : CausalIndex)
    (ancestor descendant : FactId) :
    index.reachesNonReflexive ancestor descendant = true ↔
      Relation.TransGen index.Child ancestor descendant := by
  rw [reachesNonReflexive_eq, reachesThrough_iff]
  have hedge : index.UsableChild (fun _ => true) = index.Child := by
    funext parent child
    simp [UsableChild, Child]
  rw [hedge]

theorem structurallyReaches_iff (index : CausalIndex)
    {ancestor descendant : FactId} :
    index.structurallyReaches ancestor descendant = true ↔
      ancestor ∈ index.vertices ∧ descendant ∈ index.vertices ∧
        Relation.ReflTransGen index.Child ancestor descendant := by
  unfold structurallyReaches
  split
  next hout => tauto
  next hin =>
    push Not at hin
    split
    next heq => simp [heq, hin.2, Relation.ReflTransGen.refl]
    next hne =>
      rw [reachesNonReflexive_iff, Relation.reflTransGen_iff_eq_or_transGen]
      simp [hin, Ne.symm hne]

theorem mem_detectCycleMembers (index : CausalIndex) {id : FactId} :
    id ∈ index.detectCycleMembers ↔
      id ∈ index.known ∧ Relation.TransGen index.Child id id := by
  rw [detectCycleMembers, OrderedSet.mem_filter, reachesNonReflexive_iff]

end CausalIndex

theorem members_ensureKey (map : OrderedMap FactId (OrderedSet FactId))
    (key other : FactId) :
    (ensureKey map key).members other = map.members other := by
  unfold ensureKey
  split
  · rfl
  next hnone =>
    unfold OrderedMap.members
    rw [OrderedMap.get?_insert]
    split
    next heq =>
      subst heq
      simp [OrderedMap.contains] at hnone
      simp [hnone]
    next => rfl

theorem members_foldl_ensureKey (keys : List FactId)
    (map : OrderedMap FactId (OrderedSet FactId)) (other : FactId) :
    (keys.foldl ensureKey map).members other = map.members other := by
  induction keys generalizing map with
  | nil => rfl
  | cons head tail ih => rw [List.foldl_cons, ih, members_ensureKey]

namespace CausalIndex

theorem foldl_addEdge_known (edges : List (FactId × FactId))
    (index : CausalIndex) :
    (edges.foldl addEdge index).known = index.known := by
  induction edges generalizing index with
  | nil => rfl
  | cons head tail ih => rw [List.foldl_cons, ih]; rfl

theorem mem_foldl_addEdge_vertices (edges : List (FactId × FactId))
    (index : CausalIndex) {id : FactId} :
    id ∈ (edges.foldl addEdge index).vertices ↔
      id ∈ index.vertices ∨ ∃ child, (child, id) ∈ edges := by
  induction edges generalizing index with
  | nil => simp
  | cons head tail ih =>
      obtain ⟨child, parent⟩ := head
      rw [List.foldl_cons, ih]
      simp only [addEdge, OrderedSet.mem_insert, List.mem_cons,
        Prod.mk.injEq, exists_or, exists_eq_left]
      tauto

theorem mem_foldl_addEdge_parents (edges : List (FactId × FactId))
    (index : CausalIndex) {id parent : FactId} :
    parent ∈ (edges.foldl addEdge index).parents id ↔
      parent ∈ index.parents id ∨ (id, parent) ∈ edges := by
  induction edges generalizing index with
  | nil => simp
  | cons head tail ih =>
      rw [List.foldl_cons, ih]
      unfold parents addEdge
      rw [OrderedMap.mem_members_insertMember, members_ensureKey,
        List.mem_cons, Prod.ext_iff]
      tauto

theorem mem_foldl_addEdge_children (edges : List (FactId × FactId))
    (index : CausalIndex) {id child : FactId} :
    child ∈ (edges.foldl addEdge index).children id ↔
      child ∈ index.children id ∨ (child, id) ∈ edges := by
  induction edges generalizing index with
  | nil => simp
  | cons head tail ih =>
      rw [List.foldl_cons, ih]
      unfold children addEdge
      rw [OrderedMap.mem_members_insertMember, List.mem_cons, Prod.ext_iff]
      tauto

end CausalIndex

theorem FactSet.mem_edges {facts : FactSet} {child parent : FactId} :
    (child, parent) ∈ facts.edges ↔
      ∃ fact, facts.get? child = some fact ∧ parent ∈ fact.causal.parents := by
  unfold FactSet.edges
  rw [List.mem_flatMap]
  constructor
  · rintro ⟨fact, hfact, hmem⟩
    obtain ⟨found, hfound, heq⟩ := List.mem_map.1 hmem
    cases heq
    exact ⟨fact, FactSet.mem_facts.1 hfact, hfound⟩
  · rintro ⟨fact, hget, hparent⟩
    refine ⟨fact, FactSet.mem_facts_of_get? hget, List.mem_map.2 ?_⟩
    exact ⟨parent, hparent, by rw [FactSet.id_of_get? hget]⟩

namespace FactSet

variable (facts : FactSet)

@[simp] theorem graph_known : facts.graph.known = facts.ids := by
  change (facts.edges.foldl CausalIndex.addEdge _).known = _
  rw [CausalIndex.foldl_addEdge_known]

theorem mem_graph_vertices {id : FactId} :
    id ∈ facts.graph.vertices ↔
      id ∈ facts.ids ∨ ∃ child, (child, id) ∈ facts.edges := by
  change id ∈ (facts.edges.foldl CausalIndex.addEdge _).vertices ↔ _
  rw [CausalIndex.mem_foldl_addEdge_vertices]

/-- The graph's parents are the declared parents of the retained fact. -/
theorem mem_graph_parents {id parent : FactId} :
    parent ∈ facts.graph.parents id ↔
      ∃ fact, facts.get? id = some fact ∧ parent ∈ fact.causal.parents := by
  rw [← mem_edges]
  change parent ∈ (OrderedMap.members (List.foldl ensureKey _ _) id) ↔ _
  rw [members_foldl_ensureKey]
  change parent ∈ (facts.edges.foldl CausalIndex.addEdge _).parents id ↔ _
  rw [CausalIndex.mem_foldl_addEdge_parents]
  simp [CausalIndex.parents, members_foldl_ensureKey]

/-- Reverse dependants are the converse of the declared parents. -/
theorem mem_graph_children {id child : FactId} :
    child ∈ facts.graph.children id ↔ id ∈ facts.graph.parents child := by
  rw [mem_graph_parents, ← mem_edges]
  change child ∈ (OrderedMap.members (List.foldl ensureKey _ _) id) ↔ _
  rw [members_foldl_ensureKey]
  change child ∈ (facts.edges.foldl CausalIndex.addEdge _).children id ↔ _
  rw [CausalIndex.mem_foldl_addEdge_children]
  simp [CausalIndex.children, members_foldl_ensureKey]

theorem mem_cycleMembers {id : FactId} :
    id ∈ facts.graph.cycleMembers ↔
      id ∈ facts.ids ∧ Relation.TransGen facts.graph.Child id id := by
  rw [← graph_known]
  exact CausalIndex.mem_detectCycleMembers _

theorem graph_parents_of_get? {id : FactId} {fact : Fact}
    (hget : facts.get? id = some fact) :
    facts.graph.parents id = fact.causal.parents := by
  ext parent
  rw [mem_graph_parents, hget]
  simp

end FactSet

end Hq
