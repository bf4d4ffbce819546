/-
The canonical presentation order as a greedy traversal of the selected
entries: which selections have an order, what it lists and how it changes
with the selection.
-/
import Hq.UsableOrder

namespace Hq

/-- Direct precedence of entries: one entry's fact is a parent of the
other's. -/
def Precedes (graph : CausalGraph) (left right : PresentationEntry) : Prop :=
  graph.Child left.factId right.factId

instance (graph : CausalGraph) (left right : PresentationEntry) :
    Decidable (Precedes graph left right) :=
  inferInstanceAs (Decidable (right.factId ∈ graph.children left.factId))

/-- What a successful selection files. -/
theorem selectEntries_spec {graph : CausalGraph}
    {entries : List PresentationEntry}
    {selected result : OrderedMap FactId PresentationKey}
    (h : selectEntries graph entries selected = .ok result) :
    (∀ entry ∈ entries, entry.factId ∈ graph.vertices ∧
        selected.get? entry.factId = none) ∧
      (entries.map PresentationEntry.factId).Nodup ∧
      ∀ id key, result.get? id = some key ↔
        selected.get? id = some key ∨ ⟨id, key⟩ ∈ entries := by
  induction entries generalizing selected with
  | nil =>
      cases h
      exact ⟨fun entry hentry => absurd hentry List.not_mem_nil,
        List.nodup_nil, by simp⟩
  | cons head tail ih =>
      rw [selectEntries] at h
      split at h
      · cases h
      next hvertex =>
        split at h
        · cases h
        next hfresh =>
          rw [Decidable.not_not] at hvertex
          rw [OrderedMap.contains, Bool.not_eq_true, Option.isSome_eq_false_iff,
            Option.isNone_iff_eq_none] at hfresh
          obtain ⟨htail, hnodup, hget⟩ := ih h
          have hother : ∀ entry ∈ tail, entry.factId ≠ head.factId ∧
              selected.get? entry.factId = none := by
            intro entry hentry
            have hnone := (htail entry hentry).2
            rw [OrderedMap.get?_insert] at hnone
            split at hnone
            · cases hnone
            next hne => exact ⟨hne, hnone⟩
          refine ⟨?_, ?_, fun id key => ?_⟩
          · intro entry hentry
            rcases List.mem_cons.1 hentry with rfl | hentry
            · exact ⟨hvertex, hfresh⟩
            · exact ⟨(htail entry hentry).1, (hother entry hentry).2⟩
          · rw [List.map_cons, List.nodup_cons]
            refine ⟨fun hmem => ?_, hnodup⟩
            obtain ⟨entry, hentry, hsame⟩ := List.mem_map.1 hmem
            exact (hother entry hentry).1 hsame
          · rw [hget, OrderedMap.get?_insert, List.mem_cons]
            by_cases hid : id = head.factId
            · subst hid
              rw [if_pos rfl, hfresh, Option.some.injEq]
              have hhead : (⟨head.factId, key⟩ : PresentationEntry) = head ↔
                  head.key = key := by
                constructor
                · intro heq
                  rw [← heq]
                · rintro rfl
                  rfl
              rw [hhead]
              simp
            · rw [if_neg hid]
              have hne : (⟨id, key⟩ : PresentationEntry) ≠ head := by
                rintro rfl
                exact hid rfl
              simp [hne]

section Traversal

variable {facts : FactSet} {entries : List PresentationEntry}
  {selected : OrderedMap FactId PresentationKey}

theorem get?_selected
    (h : selectEntries facts.graph entries ∅ = .ok selected) {id : FactId}
    {key : PresentationKey} :
    selected.get? id = some key ↔ ⟨id, key⟩ ∈ entries := by
  rw [(selectEntries_spec h).2.2]
  simp

theorem isSome_selected
    (h : selectEntries facts.graph entries ∅ = .ok selected) {id : FactId} :
    (selected.get? id).isSome = true ↔ ∃ entry ∈ entries, entry.factId = id := by
  rw [Option.isSome_iff_exists]
  constructor
  · rintro ⟨key, hkey⟩
    exact ⟨_, (get?_selected h).1 hkey, rfl⟩
  · rintro ⟨entry, hentry, rfl⟩
    exact ⟨entry.key, (get?_selected h).2 hentry⟩

theorem pendingKeys_selected
    (h : selectEntries facts.graph entries ∅ = .ok selected) :
    pendingKeys (readyKey selected) selected.keys.toList.toFinset =
      entries.toFinset := by
  ext entry
  rw [(presentation_counts facts selected).mem_pendingKeys, mem_pending,
    readyKey_eq_some, get?_selected h, List.mem_toFinset]
  constructor
  · exact fun hentry => hentry.2.2
  · exact fun hentry => ⟨by rw [(get?_selected h).2 hentry]; rfl, rfl, hentry⟩

/-- The traversal is the greedy one of the selected entries. -/
theorem presentationTraversal_greedy
    (h : selectEntries facts.graph entries ∅ = .ok selected) :
    ∃ ordered left, presentationTraversal facts.graph selected =
        ordered.map PresentationEntry.factId ∧
      GreedyRun (Precedes facts.graph) entries.toFinset ordered left := by
  have hcounts := presentation_counts facts selected
  obtain ⟨ordered, left, hkahn, hrun⟩ := hcounts.greedyRun
  have hcard : selected.keys.toList.toFinset.card = selected.size := by
    rw [List.toFinset_card_of_nodup
      (selected.keys.sorted.imp fun hlt => hlt.ne)]
    simp [OrderedMap.keys, OrderedMap.size]
  rw [hcard] at hkahn
  refine ⟨ordered, left, hkahn, ?_⟩
  rw [pendingKeys_selected h] at hrun
  refine hrun.congr fun p _ c hc => ?_
  rw [keyEdge, mem_selected_children, Precedes, child_iff]
  exact and_iff_left ((isSome_selected h).2 ⟨c, List.mem_toFinset.1 hc, rfl⟩)

theorem size_selected
    (h : selectEntries facts.graph entries ∅ = .ok selected) :
    selected.size = entries.toFinset.card := by
  rw [← pendingKeys_selected h,
    (presentation_counts facts selected).card_pendingKeys,
    List.toFinset_card_of_nodup (selected.keys.sorted.imp fun hlt => hlt.ne)]
  simp [OrderedMap.keys, OrderedMap.size]

end Traversal

/-- Entries of distinct facts of a graph without a cycle among them. -/
structure Presentable (graph : CausalGraph)
    (entries : List PresentationEntry) : Prop where
  distinct : (entries.map PresentationEntry.factId).Nodup
  known : ∀ entry ∈ entries, entry.factId ∈ graph.vertices
  acyclic : ∀ entry ∈ entries, ¬ Relation.TransGen
    (EdgeWithin (Precedes graph) entries.toFinset) entry entry

/-- The order of a selection is its whole greedy traversal. -/
theorem canonicalPresentationOrder_iff {facts : FactSet}
    {entries : List PresentationEntry} {order : List FactId} :
    canonicalPresentationOrder facts.graph entries = .ok order ↔
      Presentable facts.graph entries ∧
        ∃ ordered, order = ordered.map PresentationEntry.factId ∧
          GreedyOrder (Precedes facts.graph) entries.toFinset ordered := by
  rw [canonicalPresentationOrder]
  cases hselect : selectEntries facts.graph entries ∅ with
  | error error =>
      simp only [reduceCtorEq, false_iff]
      rintro ⟨hpresentable, -⟩
      obtain ⟨selected, hselected, -⟩ := selectEntries_ok hpresentable.known
        hpresentable.distinct fun entry _ => OrderedMap.get?_empty entry.factId
      rw [hselect] at hselected
      cases hselected
  | ok selected =>
      obtain ⟨hknown, hdistinct, -⟩ := selectEntries_spec hselect
      obtain ⟨ordered, left, htraversal, hrun⟩ :=
        presentationTraversal_greedy hselect
      have hlength : (presentationTraversal facts.graph selected).length =
          selected.size ↔ left = ∅ := by
        rw [htraversal, List.length_map, size_selected hselect,
          hrun.left_eq_empty_iff_length]
      simp only
      constructor
      · intro h
        split at h
        next hcomplete =>
          cases h
          obtain rfl := hlength.1 hcomplete
          refine ⟨⟨hdistinct, fun entry hentry => (hknown entry hentry).1, ?_⟩,
            ordered, htraversal, hrun⟩
          exact fun entry hentry =>
            hrun.left_eq_empty_iff.1 rfl entry (List.mem_toFinset.2 hentry)
        next => cases h
      · rintro ⟨-, other, rfl, hother⟩
        obtain ⟨rfl, rfl⟩ := hrun.unique hother
        rw [if_pos (hlength.2 rfl), htraversal]

theorem Presentable.nodup {graph : CausalGraph}
    {entries : List PresentationEntry} (h : Presentable graph entries) :
    entries.Nodup :=
  List.Nodup.of_map _ h.distinct

theorem Presentable.perm {graph : CausalGraph}
    {entries other : List PresentationEntry} (h : Presentable graph entries)
    (hperm : other.Perm entries) : Presentable graph other := by
  have hset : other.toFinset = entries.toFinset := List.toFinset_eq_of_perm _ _ hperm
  refine ⟨(hperm.map _).nodup_iff.2 h.distinct,
    fun entry hentry => h.known entry (hperm.mem_iff.1 hentry), ?_⟩
  rw [hset]
  exact fun entry hentry => h.acyclic entry (hperm.mem_iff.1 hentry)

theorem Presentable.erase {graph : CausalGraph}
    {entries : List PresentationEntry} (h : Presentable graph entries)
    (removed : PresentationEntry) :
    Presentable graph (entries.erase removed) := by
  refine ⟨(List.erase_sublist.map _).nodup h.distinct,
    fun entry hentry => h.known entry (List.mem_of_mem_erase hentry), ?_⟩
  intro entry hentry hcycle
  refine h.acyclic entry (List.mem_of_mem_erase hentry)
    (Relation.TransGen.mono (fun p c hstep => ?_) _ _ hcycle)
  have hmem : ∀ {x}, x ∈ (entries.erase removed).toFinset →
      x ∈ entries.toFinset := fun hx =>
    List.mem_toFinset.2 (List.mem_of_mem_erase (List.mem_toFinset.1 hx))
  exact ⟨hstep.1, hmem hstep.2.1, hmem hstep.2.2⟩

/-- Removing an element removes its image when images are distinct. -/
theorem erase_map_of_nodup {α β : Type} [DecidableEq α] [DecidableEq β]
    {f : α → β} {list : List α} (hnodup : (list.map f).Nodup) {x : α}
    (hx : x ∈ list) : (list.map f).erase (f x) = (list.erase x).map f := by
  induction list with
  | nil => cases hx
  | cons head tail ih =>
      obtain ⟨hhead, htail⟩ := List.nodup_cons.1 hnodup
      by_cases hsame : head = x
      · subst hsame
        simp
      · have hmem := (List.mem_cons.1 hx).resolve_left (Ne.symm hsame)
        have hne : f head ≠ f x := fun heq =>
          hhead (heq ▸ List.mem_map_of_mem hmem)
        rw [List.map_cons, List.erase_cons_tail (by simpa using hne),
          List.erase_cons_tail (by simpa using hsame), List.map_cons,
          ih htail hmem]

/-- A traversal of a selection rearranges it. -/
theorem GreedyOrder.perm_entries {graph : CausalGraph}
    {entries ordered : List PresentationEntry} (h : Presentable graph entries)
    (hordered : GreedyOrder (Precedes graph) entries.toFinset ordered) :
    ordered.Perm entries := by
  refine (List.perm_ext_iff_of_nodup hordered.nodup h.nodup).2 fun entry => ?_
  rw [hordered.mem_iff, List.mem_toFinset]
  simp

/-- Selections with a canonical order are those of distinct facts of the graph
without a cycle of direct parents among them.  The order rearranges the
selection, lists every entry after those that lead to it through selected
facts, takes the least entry among the ready ones, ignores how the selection
is arranged, and merely loses an entry that is no selected entry's parent when
that entry is removed. -/
theorem canonicalPresentationOrder_greedy (facts : FactSet)
    (entries : List PresentationEntry) :
    ((∃ order, canonicalPresentationOrder facts.graph entries = .ok order) ↔
      Presentable facts.graph entries) ∧
    ∀ order, canonicalPresentationOrder facts.graph entries = .ok order →
      (∃ ordered, order = ordered.map PresentationEntry.factId ∧
        ordered.Perm entries ∧
        (ordered.Pairwise fun before after => ¬ Relation.TransGen
          (EdgeWithin (Precedes facts.graph) entries.toFinset) after before) ∧
        GreedyOrder (Precedes facts.graph) entries.toFinset ordered) ∧
      (∀ other, other.Perm entries →
        canonicalPresentationOrder facts.graph other = .ok order) ∧
      ∀ removed ∈ entries,
        (∀ entry ∈ entries, ¬ Precedes facts.graph removed entry) →
        canonicalPresentationOrder facts.graph (entries.erase removed) =
          .ok (order.erase removed.factId) := by
  constructor
  · constructor
    · rintro ⟨order, horder⟩
      exact (canonicalPresentationOrder_iff.1 horder).1
    · intro hpresentable
      obtain ⟨selected, hselected, -⟩ := selectEntries_ok hpresentable.known
        hpresentable.distinct fun entry _ => OrderedMap.get?_empty entry.factId
      obtain ⟨ordered, left, -, hrun⟩ := presentationTraversal_greedy hselected
      have hleft : left = ∅ := hrun.left_eq_empty_iff.2 fun entry hentry =>
        hpresentable.acyclic entry (List.mem_toFinset.1 hentry)
      subst hleft
      exact ⟨_, canonicalPresentationOrder_iff.2
        ⟨hpresentable, ordered, rfl, hrun⟩⟩
  · intro order horder
    obtain ⟨hpresentable, ordered, rfl, hgreedy⟩ :=
      canonicalPresentationOrder_iff.1 horder
    have hperm := hgreedy.perm_entries hpresentable
    refine ⟨⟨ordered, rfl, hperm, hgreedy.pairwise, hgreedy⟩, ?_, ?_⟩
    · intro other hother
      refine canonicalPresentationOrder_iff.2
        ⟨hpresentable.perm hother, ordered, rfl, ?_⟩
      rwa [List.toFinset_eq_of_perm _ _ hother]
    · intro removed hremoved hsink
      refine canonicalPresentationOrder_iff.2
        ⟨hpresentable.erase removed, ordered.erase removed, ?_, ?_⟩
      · refine erase_map_of_nodup ?_ (hperm.mem_iff.2 hremoved)
        exact (hperm.map _).nodup_iff.2 hpresentable.distinct
      · have hset : (entries.erase removed).toFinset =
            entries.toFinset.erase removed := by
          ext entry
          rw [List.mem_toFinset, hpresentable.nodup.mem_erase_iff,
            Finset.mem_erase, List.mem_toFinset]
        rw [hset]
        exact hgreedy.erase_sink (Finset.notMem_empty _) fun entry hentry =>
          hsink entry (List.mem_toFinset.1 hentry)

/-- A key with empty correlations. -/
def PresentationKey.minimal (authoredAt : Timestamp)
    (family : PresentationFamily) : PresentationKey :=
  ⟨authoredAt, authoredAt, family, .ofNat 0, none, none, none, none, none,
    none, none, none⟩

/-- A message entry of a numbered fact. -/
def messageEntry (id : Nat) (authoredAt : Int) : PresentationEntry :=
  ⟨.ofNat id, .minimal ⟨authoredAt⟩ .message⟩

/-- A numbered cancellation that cites another. -/
def cancellationAfter (id parent : Nat) : Fact :=
  cancellation id (citing [] [parent])

/-- Three cancellations in a row and two that cite each other. -/
def rowAndCycle : FactSet :=
  FactSet.fromFacts
    [cancellation 1 .none, cancellationAfter 2 1, cancellationAfter 3 2,
      cancellationAfter 4 5, cancellationAfter 5 4]

/-- The first and the third of the row: the third comes first, and without it
the first remains. -/
theorem canonicalPresentationOrder_greedy_row :
    Presentable rowAndCycle.graph [messageEntry 1 100, messageEntry 3 0] ∧
      canonicalPresentationOrder rowAndCycle.graph [messageEntry 1 100] =
        .ok [.ofNat 1] := by
  obtain ⟨hpresentable, horder⟩ := canonicalPresentationOrder_greedy rowAndCycle
    [messageEntry 1 100, messageEntry 3 0]
  have hok : canonicalPresentationOrder rowAndCycle.graph
      [messageEntry 1 100, messageEntry 3 0] = .ok [.ofNat 3, .ofNat 1] := by
    decide +kernel
  exact ⟨hpresentable.1 ⟨_, hok⟩,
    (horder _ hok).2.2 (messageEntry 3 0) (by decide +kernel)
      (by decide +kernel)⟩

/-- An ancestor through a fact outside the selection does not come first, and
a cycle through such a fact is not refused. -/
theorem presentation_order_skips_unselected :
    canonicalPresentationOrder rowAndCycle.graph
        [messageEntry 1 100, messageEntry 3 0] = .ok [.ofNat 3, .ofNat 1] ∧
      rowAndCycle.graph.structurallyReaches (.ofNat 1) (.ofNat 3) = true ∧
      canonicalPresentationOrder rowAndCycle.graph [messageEntry 4 0] =
        .ok [.ofNat 4] ∧
      .ofNat 4 ∈ rowAndCycle.graph.cycleMembers := by
  decide +kernel

end Hq
