/-
When the derivations after stable decisions succeed: the presentation order
of distinct acyclic facts, the collection of agreeing contributions and the
closure of projected support.
-/
import Hq.Rounds

namespace Hq

/-! The presentation order. -/

section Presentation

variable {facts : FactSet}

/-- Selecting distinct known entries files each of them. -/
theorem selectEntries_ok {graph : CausalGraph} {entries : List PresentationEntry}
    {selected : OrderedMap FactId PresentationKey}
    (hknown : ∀ entry ∈ entries, entry.factId ∈ graph.vertices)
    (hnodup : (entries.map PresentationEntry.factId).Nodup)
    (hfresh : ∀ entry ∈ entries, selected.get? entry.factId = none) :
    ∃ result, selectEntries graph entries selected = .ok result ∧
      ∀ id, (result.get? id).isSome = true ↔
        (selected.get? id).isSome = true ∨
          ∃ entry ∈ entries, entry.factId = id := by
  induction entries generalizing selected with
  | nil => exact ⟨selected, rfl, by simp⟩
  | cons head tail ih =>
      simp only [List.map_cons, List.nodup_cons, List.mem_map, not_exists,
        not_and] at hnodup
      obtain ⟨hhead, htail⟩ := hnodup
      obtain ⟨result, hresult, hmem⟩ :=
        @ih (selected.insert head.factId head.key)
          (fun entry hentry => hknown entry (List.mem_cons_of_mem _ hentry))
          htail (fun entry hentry => by
            rw [OrderedMap.get?_insert, if_neg (hhead entry hentry)]
            exact hfresh entry (List.mem_cons_of_mem _ hentry))
      refine ⟨result, ?_, fun id => ?_⟩
      · have hvertex := hknown head List.mem_cons_self
        have hnew := hfresh head List.mem_cons_self
        simp [selectEntries, hvertex, OrderedMap.contains, hnew, hresult]
      · rw [hmem id, OrderedMap.get?_insert]
        by_cases hid : id = head.factId
        · simp [hid]
        · simp [hid, Ne.symm hid]

theorem readyKey_eq_some {selected : OrderedMap FactId PresentationKey}
    {id : FactId} {entry : PresentationEntry} :
    readyKey selected id = some entry ↔
      entry.factId = id ∧ selected.get? id = some entry.key := by
  unfold readyKey
  rw [Option.map_eq_some_iff]
  constructor
  · rintro ⟨key, hkey, rfl⟩
    exact ⟨rfl, hkey⟩
  · rintro ⟨rfl, hkey⟩
    exact ⟨entry.key, hkey, rfl⟩

theorem mem_pending {selected : OrderedMap FactId PresentationKey}
    {id : FactId} : id ∈ selected.keys.toList.toFinset ↔
      (selected.get? id).isSome = true := by
  rw [List.mem_toFinset, OrderedSet.mem_toList, OrderedMap.mem_keys]

theorem mem_selected_children {selected : OrderedMap FactId PresentationKey}
    {parent child : FactId} :
    child ∈ ((facts.graph.children parent).filter
      selected.contains).toList ↔
      parent ∈ facts.graph.parents child ∧
        (selected.get? child).isSome = true := by
  rw [OrderedSet.mem_toList, OrderedSet.mem_filter, facts.mem_graph_children]
  rfl

/-- The traversal starts with every selected fact pending. -/
theorem presentation_counts (facts : FactSet)
    (selected : OrderedMap FactId PresentationKey) :
    KahnCounts PresentationEntry.factId (readyKey selected)
      (fun id => ((facts.graph.children id).filter selected.contains).toList)
      selected.keys.toList.toFinset
      (selected.mapValues fun id _ =>
        ((facts.graph.parents id).filter selected.contains).size)
      (OrderedSet.ofList ((selected.keys.toList.filter fun id =>
        (selected.mapValues fun id _ => ((facts.graph.parents id).filter
          selected.contains).size).get? id = some 0).filterMap
            (readyKey selected))) := by
  have hdegree : ∀ v, (selected.get? v).isSome = true →
      (selected.mapValues fun id _ => ((facts.graph.parents id).filter
        selected.contains).size).get? v =
      some ((facts.graph.parents v).filter selected.contains).size := by
    intro v hv
    obtain ⟨key, hkey⟩ := Option.isSome_iff_exists.1 hv
    simp [hkey]
  refine KahnCounts.of_parents
    (fun id => (facts.graph.parents id).filter selected.contains)
    ?_ ?_ ?_ ?_ ?_ ?_ ?_
  · intro v hv p
    rw [mem_pending] at hv
    rw [mem_pending, mem_selected_children, OrderedSet.mem_filter]
    simp only [OrderedMap.contains, hv, and_true]
    exact and_comm
  · exact fun v hv => hdegree v (mem_pending.1 hv)
  · intro entry
    rw [OrderedSet.mem_ofList, List.mem_filterMap, mem_pending]
    constructor
    · rintro ⟨id, hid, hready⟩
      obtain ⟨rfl, hkey⟩ := readyKey_eq_some.1 hready
      obtain ⟨-, hzero⟩ := List.mem_filter.1 hid
      exact ⟨by simp [hkey], hready, of_decide_eq_true hzero⟩
    · rintro ⟨hsome, hready, hzero⟩
      refine ⟨entry.factId, List.mem_filter.2 ⟨?_, ?_⟩, hready⟩
      · rwa [OrderedSet.mem_toList, OrderedMap.mem_keys]
      · exact decide_eq_true hzero
  · intro v hv
    rw [mem_pending] at hv
    obtain ⟨key, hkey⟩ := Option.isSome_iff_exists.1 hv
    exact ⟨⟨v, key⟩, readyKey_eq_some.2 ⟨rfl, hkey⟩, rfl⟩
  · intro v _
    exact ((facts.graph.children v).filter
      selected.contains).sorted.imp fun hlt => hlt.ne
  · intro v _ c hc
    exact mem_pending.2 (mem_selected_children.1 hc).2
  · exact fun v entry hkey => (readyKey_eq_some.1 hkey).1

theorem presentation_invariant (facts : FactSet)
    (selected : OrderedMap FactId PresentationKey)
    (hacyclic : ∀ id, (selected.get? id).isSome = true →
      ¬ Relation.TransGen facts.graph.Child id id) :
    KahnInvariant PresentationEntry.factId (readyKey selected)
      (fun id => ((facts.graph.children id).filter selected.contains).toList)
      selected.keys.toList.toFinset
      (selected.mapValues fun id _ =>
        ((facts.graph.parents id).filter selected.contains).size)
      (OrderedSet.ofList ((selected.keys.toList.filter fun id =>
        (selected.mapValues fun id _ => ((facts.graph.parents id).filter
          selected.contains).size).get? id = some 0).filterMap
            (readyKey selected))) := by
  refine ⟨presentation_counts facts selected, fun v hv hcycle => ?_⟩
  refine hacyclic v (mem_pending.1 hv)
    (Relation.TransGen.mono (fun p c hedge => ?_) _ _ hcycle)
  exact child_iff.2 (mem_selected_children.1 hedge).1

/-- Distinct known facts outside cycles have a presentation order that lists
each of them once. -/
theorem canonicalPresentationOrder_ok {entries : List PresentationEntry}
    (hknown : ∀ entry ∈ entries, entry.factId ∈ facts.ids)
    (hnodup : (entries.map PresentationEntry.factId).Nodup)
    (hacyclic : ∀ entry ∈ entries,
      ¬ Relation.TransGen facts.graph.Child entry.factId entry.factId) :
    ∃ ordered, canonicalPresentationOrder facts.graph entries = .ok ordered ∧
      ∀ id, id ∈ ordered ↔ ∃ entry ∈ entries, entry.factId = id := by
  have hvertices : ∀ entry ∈ entries, entry.factId ∈ facts.graph.vertices :=
    fun entry hentry =>
      facts.mem_graph_vertices.2 (Or.inl (hknown entry hentry))
  obtain ⟨selected, hselected, hmem⟩ := selectEntries_ok hvertices hnodup
    (fun entry _ => OrderedMap.get?_empty entry.factId)
  simp only [OrderedMap.get?_empty, Option.isSome_none, Bool.false_eq_true,
    false_or] at hmem
  have hinvariant := presentation_invariant facts selected (by
      intro id hid
      obtain ⟨entry, hentry, rfl⟩ := (hmem id).1 hid
      exact hacyclic entry hentry)
  have hcard : selected.keys.toList.toFinset.card = selected.size := by
    rw [List.toFinset_card_of_nodup
      (selected.keys.sorted.imp fun hlt => hlt.ne)]
    simp [OrderedMap.keys, OrderedMap.size]
  have hcomplete := hinvariant.kahn_complete
  rw [hcard] at hcomplete
  have hlistNodup : (presentationTraversal facts.graph selected).Nodup :=
    hcomplete.1
  have hlistMem : ∀ id, id ∈ presentationTraversal facts.graph selected ↔
      id ∈ selected.keys.toList.toFinset := hcomplete.2
  have hlength : (presentationTraversal facts.graph selected).length =
      selected.size := by
    rw [← hcard, ← List.toFinset_card_of_nodup hlistNodup]
    congr 1
    ext id
    rw [List.mem_toFinset]
    exact hlistMem id
  refine ⟨presentationTraversal facts.graph selected, ?_, fun id => ?_⟩
  · simp [canonicalPresentationOrder, hselected, hlength]
  · rw [hlistMem id, List.mem_toFinset, OrderedSet.mem_toList,
      OrderedMap.mem_keys, hmem id]

end Presentation

/-! Projections and their support. -/

section Projections

variable {K V : Type} [LinearOrder K] [DecidableEq V]

/-- Contributions with support that agree on every key. -/
structure Consistent (contributions : List (ProjectionContribution K V)) :
    Prop where
  supported : ∀ contribution ∈ contributions,
    contribution.directSupport ≠ ∅
  agree : ∀ left ∈ contributions, ∀ right ∈ contributions,
    left.key = right.key → left.value = right.value

/-- What a collection has filed after some contributions. -/
structure Files (contributions : List (ProjectionContribution K V))
    (before after : OrderedMap K V × OrderedMap K (OrderedSet FactId)) :
    Prop where
  value : ∀ key value, after.1.get? key = some value ↔
    before.1.get? key = some value ∨
      ∃ contribution ∈ contributions, contribution.key = key ∧
        contribution.value = value
  supported : ∀ key, (after.2.get? key).isSome = true ↔
    (before.2.get? key).isSome = true ∨
      ∃ contribution ∈ contributions, contribution.key = key
  support : ∀ key id, id ∈ after.2.members key ↔ id ∈ before.2.members key ∨
    ∃ contribution ∈ contributions, contribution.key = key ∧
      id ∈ contribution.directSupport

omit [DecidableEq V] in
theorem Files.trans {first : ProjectionContribution K V}
    {rest : List (ProjectionContribution K V)}
    {before middle after : OrderedMap K V × OrderedMap K (OrderedSet FactId)}
    (hfirst : Files [first] before middle) (hrest : Files rest middle after) :
    Files (first :: rest) before after where
  value key value := by
    rw [hrest.value, hfirst.value]
    simp [or_assoc]
  supported key := by
    rw [hrest.supported, hfirst.supported]
    simp [or_assoc]
  support key id := by
    rw [hrest.support, hfirst.support]
    simp [or_assoc]

/-- One supported contribution that agrees with what is filed is filed. -/
theorem collectContributions_cons {head : ProjectionContribution K V}
    {rest : List (ProjectionContribution K V)}
    {before : OrderedMap K V × OrderedMap K (OrderedSet FactId)}
    (hsupported : head.directSupport ≠ ∅)
    (hagree : ∀ value, before.1.get? head.key = some value →
      value = head.value) :
    ∃ middle, collectContributions (head :: rest) before =
        collectContributions rest middle ∧ Files [head] before middle := by
  obtain ⟨projections, support⟩ := before
  have hempty : head.directSupport.isEmpty = false := by
    rw [Bool.eq_false_iff]
    exact fun h => hsupported (OrderedSet.isEmpty_iff.1 h)
  let extended := support.insert head.key
    ((support.members head.key).extend head.directSupport.toList)
  have hmembers : ∀ key id, id ∈ extended.members key ↔
      id ∈ support.members key ∨ head.key = key ∧ id ∈ head.directSupport := by
    intro key id
    by_cases hkey : key = head.key
    · subst hkey
      simp [extended, OrderedMap.members, or_comm]
    · simp [extended, OrderedMap.members, OrderedMap.get?_insert, hkey,
        Ne.symm hkey]
  have hkeys : ∀ key, (extended.get? key).isSome = true ↔
      (support.get? key).isSome = true ∨ head.key = key := by
    intro key
    by_cases hkey : key = head.key
    · subst hkey
      simp [extended]
    · simp [extended, OrderedMap.get?_insert, hkey, Ne.symm hkey]
  cases hget : projections.get? head.key with
  | some existing =>
      have hsame := hagree existing hget
      refine ⟨(projections, extended), ?_, ?_, by simpa using hkeys,
        by simpa using hmembers⟩
      · simp [collectContributions, hempty, hget, hsame, extended]
      · intro key value
        simp only [List.mem_singleton, exists_eq_left]
        constructor
        · exact Or.inl
        · rintro (h | ⟨rfl, rfl⟩)
          · exact h
          · rw [hget, hsame]
  | none =>
      refine ⟨(projections.insert head.key head.value, extended), ?_, ?_,
        by simpa using hkeys, by simpa using hmembers⟩
      · simp [collectContributions, hempty, hget, extended]
      · intro key value
        by_cases hkey : key = head.key
        · subst hkey
          simp [hget]
        · simp [OrderedMap.get?_insert, hkey, Ne.symm hkey]

/-- Collecting consistent contributions files the value and the whole support
of every key. -/
theorem collectContributions_ok
    {contributions : List (ProjectionContribution K V)}
    {before : OrderedMap K V × OrderedMap K (OrderedSet FactId)}
    (h : Consistent contributions)
    (hfiled : ∀ contribution ∈ contributions, ∀ value,
      before.1.get? contribution.key = some value →
        value = contribution.value) :
    ∃ after, collectContributions contributions before = .ok after ∧
      Files contributions before after := by
  induction contributions generalizing before with
  | nil => exact ⟨before, rfl, by simp, by simp, by simp⟩
  | cons head tail ih =>
      obtain ⟨middle, hstep, hhead⟩ := collectContributions_cons
        (h.supported head List.mem_cons_self) (hfiled head List.mem_cons_self)
      have htail : Consistent tail :=
        ⟨fun c hc => h.supported c (List.mem_cons_of_mem _ hc),
          fun left hleft right hright => h.agree left
            (List.mem_cons_of_mem _ hleft) right (List.mem_cons_of_mem _ hright)⟩
      have hmiddle : ∀ contribution ∈ tail, ∀ value,
          middle.1.get? contribution.key = some value →
            value = contribution.value := by
        intro contribution hmem value hvalue
        rcases (hhead.value _ _).1 hvalue with hold | ⟨found, hfound, hkey, rfl⟩
        · exact hfiled contribution (List.mem_cons_of_mem _ hmem) value hold
        · obtain rfl := List.mem_singleton.1 hfound
          exact h.agree _ List.mem_cons_self contribution
            (List.mem_cons_of_mem _ hmem) hkey
      obtain ⟨after, hok, hrest⟩ := ih htail hmiddle
      exact ⟨after, hstep.trans hok, hhead.trans hrest⟩

/-- A collection that succeeds has filed every contribution. -/
theorem files_of_collectContributions
    {contributions : List (ProjectionContribution K V)}
    {before after : OrderedMap K V × OrderedMap K (OrderedSet FactId)}
    (h : collectContributions contributions before = .ok after) :
    Files contributions before after ∧
      ∀ contribution ∈ contributions, contribution.directSupport ≠ ∅ := by
  induction contributions generalizing before with
  | nil =>
      cases h
      exact ⟨⟨by simp, by simp, by simp⟩, by simp⟩
  | cons head tail ih =>
      have hsupported : head.directSupport ≠ ∅ := by
        intro hempty
        rw [← OrderedSet.isEmpty_iff] at hempty
        simp [collectContributions, hempty] at h
      have hagree : ∀ value, before.1.get? head.key = some value →
          value = head.value := by
        intro value hvalue
        by_contra hne
        simp [collectContributions, hvalue, hne] at h
        split at h <;> cases h
      obtain ⟨middle, hstep, hhead⟩ :=
        @collectContributions_cons K V _ _ head tail _ hsupported hagree
      rw [hstep] at h
      obtain ⟨htail, hrest⟩ := ih h
      refine ⟨hhead.trans htail, ?_⟩
      intro contribution hmem
      rcases List.mem_cons.1 hmem with rfl | hmem
      · exact hsupported
      · exact hrest contribution hmem

/-- A collection that succeeds files the values of consistent contributions. -/
theorem consistent_of_collectContributions
    {contributions : List (ProjectionContribution K V)}
    {after : OrderedMap K V × OrderedMap K (OrderedSet FactId)}
    (h : collectContributions contributions (∅, ∅) = .ok after) :
    Consistent contributions ∧ ∀ key value,
      after.1.get? key = some value ↔ ∃ contribution ∈ contributions,
        contribution.key = key ∧ contribution.value = value := by
  obtain ⟨hfiles, hsupported⟩ := files_of_collectContributions h
  have hvalue : ∀ key value, after.1.get? key = some value ↔
      ∃ contribution ∈ contributions,
        contribution.key = key ∧ contribution.value = value := by
    intro key value
    simpa using hfiles.value key value
  refine ⟨⟨hsupported, ?_⟩, hvalue⟩
  intro left hleft right hright hkey
  have hleftGet := (hvalue left.key left.value).2 ⟨left, hleft, rfl, rfl⟩
  have hrightGet := (hvalue right.key right.value).2 ⟨right, hright, rfl, rfl⟩
  rw [hkey] at hleftGet
  exact Option.some.inj (hleftGet.symm.trans hrightGet)

/-- Supported contributions fail to be collected only by unequal values. -/
theorem collectContributions_error
    {contributions : List (ProjectionContribution K V)}
    {before : OrderedMap K V × OrderedMap K (OrderedSet FactId)}
    {error : ReduceError}
    (hsupported : ∀ contribution ∈ contributions,
      contribution.directSupport ≠ ∅)
    (h : collectContributions contributions before = .error error) :
    error = .projectionValueConflict := by
  induction contributions generalizing before with
  | nil => cases h
  | cons head tail ih =>
      have htail : ∀ contribution ∈ tail, contribution.directSupport ≠ ∅ :=
        fun contribution hmem =>
          hsupported contribution (List.mem_cons_of_mem _ hmem)
      have hhead : ¬ head.directSupport.isEmpty = true :=
        fun hempty => hsupported head List.mem_cons_self
          (OrderedSet.isEmpty_iff.1 hempty)
      unfold collectContributions at h
      rw [if_neg hhead] at h
      simp only at h
      split at h
      · split at h
        · cases h
          rfl
        · exact ih htail h
      · exact ih htail h

end Projections

/-! The closure of support under causal parents. -/

section Support

variable {facts : FactSet} {statuses : OrderedMap FactId DecisionStatus}

theorem parents_eq_empty_of_not_key {id : FactId}
    (hid : id ∉ facts.graph.parentIndex.keys) :
    (facts.graph.parents id).toList = [] := by
  rw [OrderedMap.mem_keys, Bool.not_eq_true, Option.isSome_eq_false_iff,
    Option.isNone_iff_eq_none] at hid
  simp [CausalIndex.parents, OrderedMap.members, hid,
    EmptyCollection.emptyCollection]

/-- The causal past of an expanded identity is expanded or pending. -/
theorem past_of_expanded {transitive : OrderedSet FactId}
    {pending : List FactId}
    (hexpanded : ∀ id ∈ transitive, ∀ parent ∈ facts.graph.parents id,
      parent ∈ transitive ∨ parent ∈ pending) {id z : FactId}
    (hid : id ∈ transitive)
    (hz : Relation.ReflTransGen facts.graph.Child z id) :
    z ∈ transitive ∨
      ∃ other ∈ pending, Relation.ReflTransGen facts.graph.Child z other := by
  induction hz using Relation.ReflTransGen.head_induction_on with
  | refl => exact Or.inl hid
  | head hedge _ ih =>
      rcases ih with hmem | ⟨other, hother, hpath⟩
      · rcases hexpanded _ hmem _ (child_iff.1 hedge) with h | h
        · exact Or.inl h
        · exact Or.inr ⟨_, h, .refl⟩
      · exact Or.inr ⟨other, hother, .head hedge hpath⟩

theorem unexpanded_insert (facts : FactSet) {transitive : OrderedSet FactId} {id : FactId}
    (hnew : id ∉ transitive) :
    (facts.graph.parents id).toList.length +
      unexpandedEdges (fun id => (facts.graph.parents id).toList)
        facts.graph.parentIndex.keys.toList (transitive.insert id).toList ≤
      unexpandedEdges (fun id => (facts.graph.parents id).toList)
        facts.graph.parentIndex.keys.toList transitive.toList := by
  have hsame : ∀ v, v ∈ (transitive.insert id).toList ↔
      v ∈ id :: transitive.toList := by simp
  rw [unexpandedEdges_congr _ _ hsame]
  by_cases hkey : id ∈ facts.graph.parentIndex.keys
  · exact unexpandedEdges_expand (fun id => (facts.graph.parents id).toList)
      hkey hnew
  · rw [parents_eq_empty_of_not_key hkey, List.length_nil, Nat.zero_add]
    exact unexpandedEdges_cons_le _ _ _ _

/-- The traversal of projected support returns the causal past of the pending
facts. -/
theorem transitiveSupport_ok
    (hclosed : ∀ id, (snapshot facts statuses).isProjected id = true →
      ∀ parent ∈ facts.graph.parents id,
        (snapshot facts statuses).isProjected parent = true)
    {fuel : Nat} {transitive : OrderedSet FactId} {pending : List FactId}
    (hpending : ∀ id ∈ pending,
      (snapshot facts statuses).isProjected id = true)
    (hexpanded : ∀ id ∈ transitive, ∀ parent ∈ facts.graph.parents id,
      parent ∈ transitive ∨ parent ∈ pending)
    (hfuel : pending.length + unexpandedEdges
      (fun id => (facts.graph.parents id).toList)
      facts.graph.parentIndex.keys.toList transitive.toList < fuel) :
    ∃ result, transitiveSupport (snapshot facts statuses) fuel transitive
        pending = .ok result ∧
      ∀ z, z ∈ result ↔ z ∈ transitive ∨
        ∃ id ∈ pending, Relation.ReflTransGen facts.graph.Child z id := by
  induction fuel generalizing transitive pending with
  | zero => omega
  | succ fuel ih =>
      cases pending with
      | nil => exact ⟨transitive, rfl, by simp⟩
      | cons id pending =>
          have hid := hpending id List.mem_cons_self
          have hrest : ∀ other ∈ pending,
              (snapshot facts statuses).isProjected other = true :=
            fun other hother => hpending other (List.mem_cons_of_mem _ hother)
          simp only [List.length_cons] at hfuel
          by_cases hseen : id ∈ transitive
          · have hexpanded' : ∀ v ∈ transitive,
                ∀ parent ∈ facts.graph.parents v,
                  parent ∈ transitive ∨ parent ∈ pending := by
              intro v hv parent hparent
              rcases hexpanded v hv parent hparent with h | h
              · exact Or.inl h
              · rcases List.mem_cons.1 h with rfl | h
                · exact Or.inl hseen
                · exact Or.inr h
            obtain ⟨result, hresult, hmem⟩ := ih hrest hexpanded' (by omega)
            refine ⟨result, by simp [transitiveSupport, hid, hseen, hresult],
              fun z => ?_⟩
            rw [hmem z]
            constructor
            · rintro (h | ⟨other, hother, hpath⟩)
              · exact Or.inl h
              · exact Or.inr ⟨other, List.mem_cons_of_mem _ hother, hpath⟩
            · rintro (h | ⟨other, hother, hpath⟩)
              · exact Or.inl h
              · rcases List.mem_cons.1 hother with rfl | hother
                · exact past_of_expanded hexpanded' hseen hpath
                · exact Or.inr ⟨other, hother, hpath⟩
          · have hcost := unexpanded_insert facts hseen
            have hexpanded' : ∀ v ∈ transitive.insert id,
                ∀ parent ∈ facts.graph.parents v,
                  parent ∈ transitive.insert id ∨
                    parent ∈ pending ++ (facts.graph.parents id).toList := by
              intro v hv parent hparent
              rcases OrderedSet.mem_insert.1 hv with rfl | hv
              · exact Or.inr (List.mem_append_right _ hparent)
              · rcases hexpanded v hv parent hparent with h | h
                · exact Or.inl (OrderedSet.mem_insert.2 (Or.inr h))
                · rcases List.mem_cons.1 h with rfl | h
                  · exact Or.inl (OrderedSet.mem_insert.2 (Or.inl rfl))
                  · exact Or.inr (List.mem_append_left _ h)
            have hpending' : ∀ other ∈
                pending ++ (facts.graph.parents id).toList,
                (snapshot facts statuses).isProjected other = true := by
              intro other hother
              rcases List.mem_append.1 hother with h | h
              · exact hrest other h
              · exact hclosed id hid other h
            obtain ⟨result, hresult, hmem⟩ := ih hpending' hexpanded'
              (by rw [List.length_append]; omega)
            refine ⟨result, ?_, fun z => ?_⟩
            · simp only [transitiveSupport, hid, hseen, Bool.not_true,
                Bool.false_eq_true, if_false]
              exact hresult
            · rw [hmem z]
              constructor
              · rintro (h | ⟨other, hother, hpath⟩)
                · rcases OrderedSet.mem_insert.1 h with rfl | h
                  · exact Or.inr ⟨_, List.mem_cons_self, .refl⟩
                  · exact Or.inl h
                · rcases List.mem_append.1 hother with h | h
                  · exact Or.inr ⟨other, List.mem_cons_of_mem _ h, hpath⟩
                  · exact Or.inr ⟨id, List.mem_cons_self,
                      .tail hpath (child_iff.2 h)⟩
              · rintro (h | ⟨other, hother, hpath⟩)
                · exact Or.inl (OrderedSet.mem_insert.2 (Or.inr h))
                · rcases List.mem_cons.1 hother with rfl | h
                  · exact past_of_expanded hexpanded'
                      (OrderedSet.mem_insert.2 (Or.inl rfl)) hpath
                  · exact Or.inr ⟨other, List.mem_append_left _ h, hpath⟩

theorem unexpanded_empty (facts : FactSet) :
    unexpandedEdges (fun id => (facts.graph.parents id).toList)
      facts.graph.parentIndex.keys.toList (∅ : OrderedSet FactId).toList =
      (facts.graph.parentIndex.entries.map fun entry =>
        entry.2.toList.length).sum := by
  unfold unexpandedEdges OrderedMap.keys
  rw [List.map_map]
  congr 1
  refine List.map_congr_left fun entry hentry => ?_
  have hget := OrderedMap.get?_eq_some_iff.2 hentry
  simp [CausalIndex.parents, OrderedMap.members, hget,
    EmptyCollection.emptyCollection]

/-- Projected direct support closes to its causal past. -/
theorem transitiveSupport_direct
    (hclosed : ∀ id, (snapshot facts statuses).isProjected id = true →
      ∀ parent ∈ facts.graph.parents id,
        (snapshot facts statuses).isProjected parent = true)
    {direct : OrderedSet FactId}
    (hdirect : ∀ id ∈ direct, (snapshot facts statuses).isProjected id = true) :
    ∃ result, transitiveSupport (snapshot facts statuses)
        (supportFuel (snapshot facts statuses) direct) ∅ direct.toList =
        .ok result ∧
      ∀ z, z ∈ result ↔
        ∃ id ∈ direct, Relation.ReflTransGen facts.graph.Child z id := by
  obtain ⟨result, hresult, hmem⟩ := transitiveSupport_ok hclosed hdirect
    (fun id hid => absurd hid (OrderedSet.not_mem_empty id))
    (by
      rw [unexpanded_empty]
      exact Nat.lt_succ_self _)
  refine ⟨result, hresult, fun z => ?_⟩
  rw [hmem z]
  simp

variable {K : Type} [LinearOrder K]

theorem closeSupport_ok
    (hclosed : ∀ id, (snapshot facts statuses).isProjected id = true →
      ∀ parent ∈ facts.graph.parents id,
        (snapshot facts statuses).isProjected parent = true)
    {entries : List (K × OrderedSet FactId)}
    (hsorted : entries.Pairwise fun left right => left.1 < right.1)
    (hdirect : ∀ entry ∈ entries, ∀ id ∈ entry.2,
      (snapshot facts statuses).isProjected id = true)
    (support : OrderedMap K (OrderedSet FactId)) :
    ∃ result, closeSupport (snapshot facts statuses) entries support =
        .ok result ∧
      (∀ key, (∀ entry ∈ entries, entry.1 ≠ key) →
        result.get? key = support.get? key) ∧
      ∀ entry ∈ entries, ∃ closed, result.get? entry.1 = some closed ∧
        ∀ z, z ∈ closed ↔
          ∃ id ∈ entry.2, Relation.ReflTransGen facts.graph.Child z id := by
  induction entries generalizing support with
  | nil => exact ⟨support, rfl, by simp, by simp⟩
  | cons head tail ih =>
      obtain ⟨key, direct⟩ := head
      obtain ⟨hhead, htail⟩ := List.pairwise_cons.1 hsorted
      obtain ⟨closed, hclosure, hmem⟩ := transitiveSupport_direct hclosed
        (hdirect (key, direct) List.mem_cons_self)
      obtain ⟨result, hresult, hother, hfiled⟩ := ih htail
        (fun entry hentry => hdirect entry (List.mem_cons_of_mem _ hentry))
        (support.insert key closed)
      refine ⟨result, by simp [closeSupport, hclosure, hresult], ?_, ?_⟩
      · intro other hnot
        rw [hother other fun entry hentry =>
          hnot entry (List.mem_cons_of_mem _ hentry), OrderedMap.get?_insert,
          if_neg (Ne.symm (hnot (key, direct) List.mem_cons_self))]
      · intro entry hentry
        rcases List.mem_cons.1 hentry with rfl | hentry
        · refine ⟨closed, ?_, hmem⟩
          rw [hother key fun entry hentry => (hhead entry hentry).ne',
            OrderedMap.get?_insert_self]
        · exact hfiled entry hentry

end Support

/-- Projections and support derived from contributions. -/
structure Derives {K V : Type} [LinearOrder K] (facts : FactSet)
    (contributions : List (ProjectionContribution K V))
    (projections : OrderedMap K V) (support : OrderedMap K (OrderedSet FactId)) :
    Prop where
  value : ∀ key value, projections.get? key = some value ↔
    ∃ contribution ∈ contributions, contribution.key = key ∧
      contribution.value = value
  supported : ∀ key, (support.get? key).isSome = true ↔
    ∃ contribution ∈ contributions, contribution.key = key
  support : ∀ key z, z ∈ support.members key ↔
    ∃ contribution ∈ contributions, contribution.key = key ∧
      ∃ id ∈ contribution.directSupport,
        Relation.ReflTransGen facts.graph.Child z id

/-- Consistent contributions with projected support derive. -/
theorem deriveProjections_ok {A K V R : Type} [LinearOrder K] [DecidableEq V]
    {domain : DomainReducer A K V R} {facts : FactSet}
    {statuses : OrderedMap FactId DecisionStatus}
    (hclosed : ∀ id, (snapshot facts statuses).isProjected id = true →
      ∀ parent ∈ facts.graph.parents id,
        (snapshot facts statuses).isProjected parent = true)
    (hconsistent : Consistent (domain.projections (snapshot facts statuses)))
    (hsupport : ∀ contribution ∈ domain.projections (snapshot facts statuses),
      ∀ id ∈ contribution.directSupport,
        (snapshot facts statuses).isProjected id = true) :
    ∃ projections support, deriveProjections domain (snapshot facts statuses) =
        .ok (projections, support) ∧
      Derives facts (domain.projections (snapshot facts statuses)) projections
        support := by
  obtain ⟨⟨projections, direct⟩, hcollect, hfiles⟩ :=
    @collectContributions_ok K V _ _ _ (∅, ∅) hconsistent
      (fun _ _ _ h => by simp at h)
  have hdirect : ∀ entry ∈ direct.entries, ∀ id ∈ entry.2,
      (snapshot facts statuses).isProjected id = true := by
    rintro ⟨key, set⟩ hentry id hid
    have hget := OrderedMap.get?_eq_some_iff.2 hentry
    have hmember : id ∈ direct.members key := by
      simpa [OrderedMap.members, hget] using hid
    rcases (hfiles.support key id).1 hmember with h |
      ⟨contribution, hmem, -, hcontribution⟩
    · exact absurd h (by simp)
    · exact hsupport contribution hmem id hcontribution
  obtain ⟨support, hclose, hother, hfiled⟩ :=
    closeSupport_ok hclosed direct.sorted hdirect ∅
  refine ⟨projections, support,
    by simp [deriveProjections, hcollect, hclose], ?_, ?_, ?_⟩
  · intro key value
    simpa using hfiles.value key value
  · intro key
    have hkeys := hfiles.supported key
    simp only [OrderedMap.get?_empty, Option.isSome_none, Bool.false_eq_true,
      false_or] at hkeys
    rw [← hkeys]
    cases hget : direct.get? key with
    | none =>
        rw [hother key fun entry hentry heq => ?_]
        · simp
        · subst heq
          exact OrderedMap.get?_eq_none_iff.1 hget entry.2 hentry
    | some set =>
        obtain ⟨closed, hclosedGet, -⟩ :=
          hfiled (key, set) (OrderedMap.get?_eq_some_iff.1 hget)
        simp [hclosedGet]
  · intro key z
    have hmembers : ∀ id, id ∈ direct.members key ↔
        ∃ contribution ∈ domain.projections (snapshot facts statuses),
          contribution.key = key ∧ id ∈ contribution.directSupport := by
      intro id
      simpa using hfiles.support key id
    have hclosure : z ∈ support.members key ↔ ∃ id ∈ direct.members key,
        Relation.ReflTransGen facts.graph.Child z id := by
      cases hget : direct.get? key with
      | none =>
          have hnone : support.get? key = none := by
            rw [hother key fun entry hentry heq => ?_]
            · rfl
            · subst heq
              exact OrderedMap.get?_eq_none_iff.1 hget entry.2 hentry
          simp [OrderedMap.members, hget, hnone]
      | some set =>
          obtain ⟨closed, hclosedGet, hmem⟩ :=
            hfiled (key, set) (OrderedMap.get?_eq_some_iff.1 hget)
          simpa [OrderedMap.members, hget, hclosedGet] using hmem z
    rw [hclosure]
    constructor
    · rintro ⟨id, hid, hpath⟩
      obtain ⟨contribution, hmem, hkey, hsupported⟩ := (hmembers id).1 hid
      exact ⟨contribution, hmem, hkey, id, hsupported, hpath⟩
    · rintro ⟨contribution, hmem, hkey, id, hsupported, hpath⟩
      exact ⟨id, (hmembers id).2 ⟨contribution, hmem, hkey, hsupported⟩, hpath⟩

section Frontiers

variable {A K V R : Type} [LinearOrder A]

/-- The members of an aggregate are the facts filed under its key. -/
theorem mem_deriveAggregateMembers {domain : DomainReducer A K V R}
    {context : ReductionContext} {key : A} {id : FactId} :
    id ∈ (deriveAggregateMembers domain context).members key ↔
      ∃ fact ∈ context.facts.facts,
        key ∈ domain.aggregateKeys fact context ∧ fact.id = id := by
  unfold deriveAggregateMembers
  rw [OrderedMap.mem_members_foldl, List.mem_flatMap]
  simp

/-- The frontier of a key: the maxima of its projected members. -/
theorem get?_deriveFrontiers {context : ReductionContext}
    {members : OrderedMap A (OrderedSet FactId)} {key : A}
    {frontier : OrderedSet FactId} :
    (deriveFrontiers context members).get? key = some frontier ↔
      (members.members key).filter context.isProjected ≠ ∅ ∧
        frontier = maximalMembers context
          ((members.members key).filter context.isProjected) := by
  unfold deriveFrontiers
  have hentry : ∀ found : OrderedSet FactId, (key, found) ∈
      members.entries.filterMap (fun entry =>
        let candidates := entry.2.filter context.isProjected
        if candidates.isEmpty then none
        else some (entry.1, maximalMembers context candidates)) ↔
      (members.members key).filter context.isProjected ≠ ∅ ∧
        found = maximalMembers context
          ((members.members key).filter context.isProjected) := by
    intro found
    rw [List.mem_filterMap]
    constructor
    · rintro ⟨entry, hmem, hread⟩
      simp only at hread
      split at hread
      · cases hread
      next hne =>
        rw [OrderedSet.isEmpty_iff] at hne
        cases hread
        have hget := OrderedMap.get?_eq_some_iff.2 hmem
        simp only [OrderedMap.members, hget, Option.getD_some]
        exact ⟨hne, trivial⟩
    · rintro ⟨hne, rfl⟩
      cases hget : members.get? key with
      | none =>
          refine absurd ?_ hne
          simp only [OrderedMap.members, hget, Option.getD_none]
          rfl
      | some set =>
          refine ⟨(key, set), OrderedMap.get?_eq_some_iff.1 hget, ?_⟩
          simp only [OrderedMap.members, hget, Option.getD_some] at hne ⊢
          rw [if_neg (by simpa [OrderedSet.isEmpty_iff] using hne)]
  constructor
  · intro hget
    exact (hentry frontier).1 (OrderedMap.mem_of_get?_ofList hget)
  · intro h
    exact OrderedMap.get?_ofList_of_unique ((hentry frontier).2 h)
      fun other hother => ((hentry other).1 hother).2.trans h.2.symm

end Frontiers

section Report

variable {A K V R : Type} [LinearOrder A] [LinearOrder K] [DecidableEq V]
  [FieldCoded R] {domain : DomainReducer A K V R} {facts : FactSet}
  {decisions : Decisions R}

/-- What a report says about the decisions it was derived from. -/
structure ReportsOn (domain : DomainReducer A K V R) (facts : FactSet)
    (decisions : Decisions R) (report : ReductionReport A K V R) : Prop where
  facts_eq : report.facts = facts
  graph_eq : report.graph = facts.graph
  decisions_eq : report.decisions = decisions
  derives : Derives facts
    (domain.projections (snapshot facts (statusesIn decisions)))
    report.projections report.support
  frontiers_eq : report.frontiers =
    deriveFrontiers (snapshot facts (statusesIn decisions))
      (deriveAggregateMembers domain (snapshot facts (statusesIn decisions)))

/-- Stable decisions whose contributions are consistent and whose presented
facts are distinct and projected have a report. -/
theorem deriveReport_ok
    (hfix : nextDecisions domain facts facts.graph decisions = decisions)
    (hconsistent : Consistent
      (domain.projections (snapshot facts (statusesIn decisions))))
    (hsupport : ∀ contribution ∈
      domain.projections (snapshot facts (statusesIn decisions)),
      ∀ id ∈ contribution.directSupport,
        (snapshot facts (statusesIn decisions)).isProjected id = true)
    (hpresented : ∀ entry ∈
      domain.presentationEntries (snapshot facts (statusesIn decisions)),
      (snapshot facts (statusesIn decisions)).isProjected entry.factId = true)
    (hnodup : ((domain.presentationEntries
      (snapshot facts (statusesIn decisions))).map
        PresentationEntry.factId).Nodup) :
    ∃ report, deriveReport domain facts facts.graph decisions = .ok report ∧
      ReportsOn domain facts decisions report := by
  have hready : ∀ id,
      (snapshot facts (statusesIn decisions)).isProjected id = true →
      ∃ fact, GraphReady facts fact ∧ fact.id = id ∧
        ∀ parent ∈ fact.causal.parents,
          (snapshot facts (statusesIn decisions)).isProjected parent = true := by
    intro id hid
    obtain ⟨fact, hfact, hfactId, hparents, -⟩ := (stable_projected hfix).1 hid
    exact ⟨fact, hfact, hfactId, hparents⟩
  obtain ⟨projections, support, hderive, hderives⟩ :=
    deriveProjections_ok (fun id hid parent hparent => by
      obtain ⟨fact, hfact, rfl, hparents⟩ := hready id hid
      rw [hfact.parents_eq] at hparent
      exact hparents parent hparent) hconsistent hsupport
  obtain ⟨ordered, hordered, -⟩ := canonicalPresentationOrder_ok
    (fun entry hentry => by
      obtain ⟨fact, hfact, hid, -⟩ := hready _ (hpresented entry hentry)
      exact hid ▸ hfact.mem_ids) hnodup
    (fun entry hentry => by
      obtain ⟨fact, hfact, hid, -⟩ := hready _ (hpresented entry hentry)
      exact hid ▸ hfact.acyclic)
  have hfind : (domain.presentationEntries
      (snapshot facts (statusesIn decisions))).find? (fun entry =>
        !(snapshot facts (statusesIn decisions)).isProjected entry.factId) =
      none := by
    rw [List.find?_eq_none]
    intro entry hentry
    simp [hpresented entry hentry]
  refine ⟨⟨facts, facts.graph, decisions, facts.graph.dependencyOrder,
    deriveAggregateMembers domain (snapshot facts (statusesIn decisions)),
    deriveFrontiers (snapshot facts (statusesIn decisions))
      (deriveAggregateMembers domain (snapshot facts (statusesIn decisions))),
    projections, support,
    deriveConflicts domain (snapshot facts (statusesIn decisions)) decisions,
    ordered⟩, ?_, rfl, rfl, rfl, hderives, rfl⟩
  simp only [deriveReport, contextOf_eq, hderive, hfind, hordered]

/-- What a reduction that succeeds says about its report. -/
structure Reduced (domain : DomainReducer A K V R) (facts : FactSet)
    (report : ReductionReport A K V R) : Prop where
  facts_eq : report.facts = facts
  graph_eq : report.graph = facts.graph
  fixed : nextDecisions domain facts facts.graph report.decisions =
    report.decisions
  consistent : Consistent
    (domain.projections (snapshot facts (statusesIn report.decisions)))
  value : ∀ key value, report.projections.get? key = some value ↔
    ∃ contribution ∈
      domain.projections (snapshot facts (statusesIn report.decisions)),
      contribution.key = key ∧ contribution.value = value

theorem reduced_of_reduceSet [DecidableEq R]
    {report : ReductionReport A K V R}
    (h : reduceSet domain facts = .ok report) : Reduced domain facts report := by
  unfold reduceSet at h
  split at h
  · cases h
  next decisions hstable =>
    have hfix := (stabilizeFrom_ok hstable).1
    simp only [deriveReport, contextOf_eq, deriveProjections] at h
    cases hcollect : collectContributions
        (domain.projections (snapshot facts (statusesIn decisions)))
        (∅, ∅) with
    | error error => simp [hcollect] at h
    | ok collected =>
        obtain ⟨hconsistent, hvalue⟩ :=
          consistent_of_collectContributions hcollect
        simp only [hcollect] at h
        split at h
        · cases h
        next projections support hclose =>
          split at hclose
          · cases hclose
          · cases hclose
            split at h
            · cases h
            split at h
            · cases h
            · cases h
              exact ⟨rfl, rfl, hfix, hconsistent, hvalue⟩

end Report

end Hq
