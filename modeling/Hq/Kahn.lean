/-
Kahn's topological traversal with a keyed ready set: the smallest ready key
is emitted next, and emitting a vertex releases the children whose remaining
indegree drops to zero.
-/
import Hq.GreedyOrder
import Hq.OrderedMap

namespace Hq

universe u v

variable {α : Type u} {κ : Type v} [LinearOrder α] [LinearOrder κ]

/-- Count one emitted parent of a child and release it at zero. -/
def releaseChild (key : α → Option κ) (state : OrderedMap α Nat × OrderedSet κ)
    (child : α) : OrderedMap α Nat × OrderedSet κ :=
  match state.1.get? child with
  | none => state
  | some degree =>
      (state.1.insert child (degree - 1),
        if degree - 1 = 0 then
          match key child with
          | none => state.2
          | some ready => state.2.insert ready
        else state.2)

/-- The traversal loop: emit the smallest ready key and release its children. -/
def kahn (node : κ → α) (key : α → Option κ) (next : α → List α) :
    Nat → OrderedMap α Nat → OrderedSet κ → List α
  | 0, _, _ => []
  | fuel + 1, indegree, ready =>
      match ready.popFirst with
      | none => []
      | some (first, rest) =>
          let state := (next (node first)).foldl (releaseChild key)
            (indegree, rest)
          node first :: kahn node key next fuel state.1 state.2

/-- Releasing distinct children lowers each of them by one and makes ready
those that reach zero. -/
theorem foldl_releaseChild (key : α → Option κ) (children : List α)
    (hnodup : children.Nodup) (state : OrderedMap α Nat × OrderedSet κ) :
    (∀ v, (children.foldl (releaseChild key) state).1.get? v =
      if v ∈ children then (state.1.get? v).map (· - 1)
      else state.1.get? v) ∧
    ∀ k, k ∈ (children.foldl (releaseChild key) state).2 ↔
      k ∈ state.2 ∨ ∃ v ∈ children, key v = some k ∧
        ∃ degree, state.1.get? v = some degree ∧ degree - 1 = 0 := by
  induction children generalizing state with
  | nil => simp
  | cons head tail ih =>
      obtain ⟨hhead, htail⟩ := List.nodup_cons.1 hnodup
      obtain ⟨hdegree, hready⟩ := ih htail (releaseChild key state head)
      have hother : ∀ v, v ≠ head →
          (releaseChild key state head).1.get? v = state.1.get? v := by
        intro v hv
        unfold releaseChild
        split
        · rfl
        · simp [OrderedMap.get?_insert, hv]
      have hself : (releaseChild key state head).1.get? head =
          (state.1.get? head).map (· - 1) := by
        unfold releaseChild
        split
        next hnone => simp [hnone]
        next hsome => simp [hsome]
      have hnew : ∀ k, k ∈ (releaseChild key state head).2 ↔
          k ∈ state.2 ∨ (key head = some k ∧
            ∃ degree, state.1.get? head = some degree ∧ degree - 1 = 0) := by
        intro k
        unfold releaseChild
        split
        next hnone => simp [hnone]
        next degree hsome =>
          simp only [hsome]
          split
          next hzero =>
            split
            next hkey => simp [hkey]
            next ready hkey =>
              simp only [OrderedSet.mem_insert, hkey, Option.some.injEq]
              constructor
              · rintro (rfl | h)
                · exact Or.inr ⟨rfl, degree, rfl, hzero⟩
                · exact Or.inl h
              · rintro (h | ⟨rfl, -⟩)
                · exact Or.inr h
                · exact Or.inl rfl
          next hpos =>
            constructor
            · exact Or.inl
            · rintro (h | ⟨-, found, hfound, hzero⟩)
              · exact h
              · cases hfound
                exact absurd hzero hpos
      rw [List.foldl_cons]
      constructor
      · intro v
        rw [hdegree v]
        by_cases hv : v = head
        · subst hv
          simp [hhead, hself]
        · simp [hv, hother v hv]
      · intro k
        rw [hready k, hnew k]
        constructor
        · rintro ((h | ⟨hkey, hzero⟩) | ⟨v, hv, hkey, hzero⟩)
          · exact Or.inl h
          · exact Or.inr ⟨head, List.mem_cons_self, hkey, hzero⟩
          · have hne : v ≠ head := fun heq => hhead (heq ▸ hv)
            rw [hother v hne] at hzero
            exact Or.inr ⟨v, List.mem_cons_of_mem _ hv, hkey, hzero⟩
        · rintro (h | ⟨v, hv, hkey, hzero⟩)
          · exact Or.inl (Or.inl h)
          · rcases List.mem_cons.1 hv with rfl | hv
            · exact Or.inl (Or.inr ⟨hkey, hzero⟩)
            · have hne : v ≠ head := fun heq => hhead (heq ▸ hv)
              refine Or.inr ⟨v, hv, hkey, ?_⟩
              rwa [hother v hne]

section Correctness

variable {node : κ → α} {key : α → Option κ} {next : α → List α}

/-- The pending vertices that lead to a vertex. -/
noncomputable def pendingParents (next : α → List α) (pending : Finset α)
    (v : α) : Finset α :=
  haveI := Classical.decPred fun p => v ∈ next p
  pending.filter fun p => v ∈ next p

omit [LinearOrder α] in
theorem mem_pendingParents {pending : Finset α} {p v : α} :
    p ∈ pendingParents next pending v ↔ p ∈ pending ∧ v ∈ next p := by
  simp only [pendingParents, Finset.mem_filter]

/-- What holds between two emissions: degrees count pending parents, and the
ready keys are those of the pending vertices without one. -/
structure KahnCounts (node : κ → α) (key : α → Option κ)
    (next : α → List α) (pending : Finset α) (indegree : OrderedMap α Nat)
    (ready : OrderedSet κ) : Prop where
  degree : ∀ v ∈ pending,
    indegree.get? v = some (pendingParents next pending v).card
  ready_iff : ∀ k, k ∈ ready ↔ node k ∈ pending ∧ key (node k) = some k ∧
    pendingParents next pending (node k) = ∅
  keyed : ∀ v ∈ pending, ∃ k, key v = some k ∧ node k = v
  nodup : ∀ v ∈ pending, (next v).Nodup
  closed : ∀ v ∈ pending, ∀ c ∈ next v, c ∈ pending
  key_node : ∀ v k, key v = some k → node k = v

/-- Counts of the parents that each vertex has among the pending ones. -/
theorem KahnCounts.of_parents {pending : Finset α} {indegree : OrderedMap α Nat}
    {ready : OrderedSet κ} (parents : α → OrderedSet α)
    (hparents : ∀ v ∈ pending, ∀ p, p ∈ parents v ↔ p ∈ pending ∧ v ∈ next p)
    (hdegree : ∀ v ∈ pending, indegree.get? v = some (parents v).size)
    (hready : ∀ k, k ∈ ready ↔ node k ∈ pending ∧ key (node k) = some k ∧
      indegree.get? (node k) = some 0)
    (hkeyed : ∀ v ∈ pending, ∃ k, key v = some k ∧ node k = v)
    (hnodup : ∀ v ∈ pending, (next v).Nodup)
    (hclosed : ∀ v ∈ pending, ∀ c ∈ next v, c ∈ pending)
    (hkey : ∀ v k, key v = some k → node k = v) :
    KahnCounts node key next pending indegree ready := by
  have hcard : ∀ v ∈ pending,
      (pendingParents next pending v).card = (parents v).size := by
    intro v hv
    have heq : pendingParents next pending v = (parents v).toList.toFinset := by
      ext p
      rw [mem_pendingParents, ← hparents v hv, List.mem_toFinset,
        OrderedSet.mem_toList]
    rw [heq]
    exact List.toFinset_card_of_nodup
      ((parents v).sorted.imp fun hlt => hlt.ne)
  refine ⟨?_, fun k => ?_, hkeyed, hnodup, hclosed, hkey⟩
  · intro v hv
    rw [hdegree v hv, hcard v hv]
  · rw [hready]
    refine and_congr_right fun hk => and_congr_right fun _ => ?_
    rw [hdegree _ hk, ← hcard _ hk, Option.some.injEq, Finset.card_eq_zero]

/-- The same for a pending set without cycles. -/
structure KahnInvariant (node : κ → α) (key : α → Option κ)
    (next : α → List α) (pending : Finset α) (indegree : OrderedMap α Nat)
    (ready : OrderedSet κ) : Prop
    extends KahnCounts node key next pending indegree ready where
  acyclic : ∀ v ∈ pending, ¬ Relation.TransGen (fun p c => c ∈ next p) v v

/-- One emission keeps the invariant for the remaining vertices. -/
theorem KahnCounts.emit {pending : Finset α} {indegree : OrderedMap α Nat}
    {ready rest : OrderedSet κ} {first : κ}
    (h : KahnCounts node key next pending indegree ready)
    (hpop : ready.popFirst = some (first, rest)) :
    node first ∈ pending ∧
      KahnCounts node key next (pending.erase (node first))
        ((next (node first)).foldl (releaseChild key) (indegree, rest)).1
        ((next (node first)).foldl (releaseChild key) (indegree, rest)).2 := by
  obtain ⟨hfirst, hrest⟩ := OrderedSet.popFirst_eq_some hpop
  obtain ⟨hnode, hkey, hfree⟩ := (h.ready_iff first).1 hfirst
  obtain ⟨hdegree, hready⟩ := foldl_releaseChild key (next (node first))
    (h.nodup _ hnode) (indegree, rest)
  -- Emitting the vertex removes it from the pending parents of its children.
  have hparents : ∀ v, pendingParents next (pending.erase (node first)) v =
      (pendingParents next pending v).erase (node first) := by
    intro v
    ext p
    simp only [mem_pendingParents, Finset.mem_erase]
    tauto
  have hchild : ∀ v, v ∈ next (node first) →
      (pendingParents next (pending.erase (node first)) v).card =
        (pendingParents next pending v).card - 1 := by
    intro v hv
    rw [hparents, Finset.card_erase_of_mem]
    exact mem_pendingParents.2 ⟨hnode, hv⟩
  have hunchanged : ∀ v, v ∉ next (node first) →
      pendingParents next (pending.erase (node first)) v =
        pendingParents next pending v := by
    intro v hv
    rw [hparents, Finset.erase_eq_of_notMem]
    exact fun hmem => hv (mem_pendingParents.1 hmem).2
  have hself : node first ∉ next (node first) := by
    intro hmem
    have hparent : node first ∈ pendingParents next pending (node first) :=
      mem_pendingParents.2 ⟨hnode, hmem⟩
    rw [hfree] at hparent
    simp at hparent
  refine ⟨hnode, ?_, ?_, ?_, ?_, ?_, h.key_node⟩
  · intro v hv
    rw [hdegree v, h.degree v (Finset.mem_of_mem_erase hv)]
    split
    next hmem => rw [hchild v hmem]; rfl
    next hmem => rw [hunchanged v hmem]
  · intro k
    rw [hready k, hrest k, h.ready_iff k]
    constructor
    · rintro (⟨⟨hk, hkk, hkfree⟩, hne⟩ | ⟨v, hv, hkv, degree, hget, hzero⟩)
      · have hother : node k ≠ node first := by
          intro heq
          rw [heq, hkey] at hkk
          exact hne (Option.some.inj hkk).symm
        refine ⟨Finset.mem_erase.2 ⟨hother, hk⟩, hkk, ?_⟩
        rw [hparents, hkfree, Finset.erase_empty]
      · have hnodek := h.key_node v k hkv
        subst hnodek
        have hpending := h.closed _ hnode _ hv
        rw [h.degree _ hpending] at hget
        cases hget
        refine ⟨Finset.mem_erase.2 ⟨fun heq => hself (heq ▸ hv), hpending⟩,
          hkv, Finset.card_eq_zero.1 ?_⟩
        rw [hchild _ hv, hzero]
    · rintro ⟨hmem, hkk, hkfree⟩
      obtain ⟨hne, hpending⟩ := Finset.mem_erase.1 hmem
      by_cases hv : node k ∈ next (node first)
      · refine Or.inr ⟨node k, hv, hkk, _, h.degree _ hpending, ?_⟩
        rw [← hchild _ hv, hkfree, Finset.card_empty]
      · refine Or.inl ⟨⟨hpending, hkk, ?_⟩, fun heq => hne (by rw [heq])⟩
        rw [← hunchanged _ hv, hkfree]
  · exact fun v hv => h.keyed v (Finset.mem_of_mem_erase hv)
  · exact fun v hv => h.nodup v (Finset.mem_of_mem_erase hv)
  · intro v hv c hc
    obtain ⟨-, hpending⟩ := Finset.mem_erase.1 hv
    refine Finset.mem_erase.2 ⟨fun heq => ?_, h.closed v hpending c hc⟩
    have hparent : v ∈ pendingParents next pending (node first) :=
      mem_pendingParents.2 ⟨hpending, heq ▸ hc⟩
    rw [hfree] at hparent
    simp at hparent

/-- Precedence between keys, as their vertices precede each other. -/
def keyEdge (node : κ → α) (next : α → List α) (p c : κ) : Prop :=
  node c ∈ next (node p)

/-- The keys of the pending vertices. -/
def pendingKeys (key : α → Option κ) (pending : Finset α) : Finset κ :=
  pending.biUnion fun v => (key v).toFinset

namespace KahnCounts

variable {pending : Finset α} {indegree : OrderedMap α Nat}
  {ready : OrderedSet κ}

theorem mem_pendingKeys (h : KahnCounts node key next pending indegree ready)
    {k : κ} : k ∈ pendingKeys key pending ↔
      node k ∈ pending ∧ key (node k) = some k := by
  simp only [pendingKeys, Finset.mem_biUnion, Option.mem_toFinset,
    Option.mem_def]
  constructor
  · rintro ⟨v, hv, hkey⟩
    obtain rfl := h.key_node v k hkey
    exact ⟨hv, hkey⟩
  · exact fun hk => ⟨node k, hk⟩

theorem ready_iff_unpreceded
    (h : KahnCounts node key next pending indegree ready) (k : κ) : k ∈ ready ↔
      Unpreceded (keyEdge node next) (pendingKeys key pending) k := by
  rw [h.ready_iff, ← and_assoc, ← h.mem_pendingKeys]
  constructor
  · rintro ⟨hk, hfree⟩
    refine ⟨hk, fun p hp hedge => ?_⟩
    have hparent : node p ∈ pendingParents next pending (node k) :=
      mem_pendingParents.2 ⟨(h.mem_pendingKeys.1 hp).1, hedge⟩
    rw [hfree] at hparent
    simp at hparent
  · rintro ⟨hk, hfree⟩
    refine ⟨hk, Finset.eq_empty_of_forall_notMem fun v hv => ?_⟩
    obtain ⟨hpending, hedge⟩ := mem_pendingParents.1 hv
    obtain ⟨p, hkey, rfl⟩ := h.keyed v hpending
    exact hfree p (h.mem_pendingKeys.2 ⟨hpending, hkey⟩) hedge

theorem pendingKeys_erase (h : KahnCounts node key next pending indegree ready)
    {first : κ} (hfirst : first ∈ pendingKeys key pending) :
    pendingKeys key (pending.erase (node first)) =
      (pendingKeys key pending).erase first := by
  obtain ⟨hpending, hkey⟩ := h.mem_pendingKeys.1 hfirst
  ext k
  rw [Finset.mem_erase, h.mem_pendingKeys]
  simp only [pendingKeys, Finset.mem_biUnion, Option.mem_toFinset,
    Option.mem_def, Finset.mem_erase]
  constructor
  · rintro ⟨v, ⟨hne, hv⟩, hk⟩
    obtain rfl := h.key_node v k hk
    exact ⟨fun heq => hne (by rw [heq]), hv, hk⟩
  · rintro ⟨hne, hv, hk⟩
    refine ⟨node k, ⟨fun heq => hne ?_, hv⟩, hk⟩
    rw [heq, hkey] at hk
    exact (Option.some.inj hk).symm

theorem card_pendingKeys
    (h : KahnCounts node key next pending indegree ready) :
    (pendingKeys key pending).card = pending.card := by
  refine Finset.card_bij (fun k _ => node k)
    (fun k hk => (h.mem_pendingKeys.1 hk).1) (fun k hk k' hk' heq => ?_) ?_
  · have hkey := (h.mem_pendingKeys.1 hk).2
    rw [heq, (h.mem_pendingKeys.1 hk').2] at hkey
    exact (Option.some.inj hkey).symm
  · intro v hv
    obtain ⟨k, hkey, rfl⟩ := h.keyed v hv
    exact ⟨k, h.mem_pendingKeys.2 ⟨hv, hkey⟩, rfl⟩

/-- The loop is the greedy traversal of the pending keys. -/
theorem greedyRun (h : KahnCounts node key next pending indegree ready) :
    ∃ keys left, kahn node key next pending.card indegree ready =
        keys.map node ∧
      GreedyRun (keyEdge node next) (pendingKeys key pending) keys left := by
  induction hcard : pending.card generalizing pending indegree ready with
  | zero =>
      refine ⟨[], _, rfl, .stuck fun v hready => ?_⟩
      rw [Finset.card_eq_zero.1 hcard] at hready
      simpa [pendingKeys] using hready.mem
  | succ fuel ih =>
      cases hpop : ready.popFirst with
      | none =>
          refine ⟨[], _, by simp [kahn, hpop], .stuck fun v hready => ?_⟩
          rw [← h.ready_iff_unpreceded,
            OrderedSet.popFirst_eq_none.1 hpop] at hready
          exact OrderedSet.not_mem_empty v hready
      | some popped =>
          obtain ⟨first, rest⟩ := popped
          obtain ⟨hfirst, hnext⟩ := h.emit hpop
          have hsmaller : (pending.erase (node first)).card = fuel := by
            rw [Finset.card_erase_of_mem hfirst]
            omega
          obtain ⟨keys, left, hkahn, hrun⟩ := ih hnext hsmaller
          have hready := (h.ready_iff_unpreceded first).1
            (OrderedSet.popFirst_eq_some hpop).1
          rw [h.pendingKeys_erase hready.mem] at hrun
          refine ⟨first :: keys, left, by simp [kahn, hpop, hkahn],
            .emit hready (fun w hw => ?_) hrun⟩
          exact OrderedSet.popFirst_le hpop ((h.ready_iff_unpreceded w).2 hw)

end KahnCounts

/-- The traversal emits every pending vertex once. -/
theorem KahnInvariant.kahn_complete {pending : Finset α}
    {indegree : OrderedMap α Nat} {ready : OrderedSet κ}
    (h : KahnInvariant node key next pending indegree ready) :
    (kahn node key next pending.card indegree ready).Nodup ∧
      ∀ v, v ∈ kahn node key next pending.card indegree ready ↔
        v ∈ pending := by
  obtain ⟨keys, left, hkahn, hrun⟩ := h.greedyRun
  have hleft : left = ∅ := by
    refine hrun.left_eq_empty_iff.2 fun k hk hcycle => ?_
    refine h.acyclic (node k) (h.mem_pendingKeys.1 hk).1 ?_
    exact Relation.TransGen.lift node (fun p c hstep => hstep.1) _ _ hcycle
  have hmem : ∀ k, k ∈ keys ↔ k ∈ pendingKeys key pending := by
    intro k
    simp [hrun.mem_iff, hleft]
  rw [hkahn]
  refine ⟨(List.nodup_map_iff_inj_on hrun.nodup).2 ?_, fun v => ?_⟩
  · intro k hk k' hk' heq
    have hkey := (h.mem_pendingKeys.1 ((hmem k).1 hk)).2
    rw [heq, (h.mem_pendingKeys.1 ((hmem k').1 hk')).2] at hkey
    exact (Option.some.inj hkey).symm
  · rw [List.mem_map]
    constructor
    · rintro ⟨k, hk, rfl⟩
      exact (h.mem_pendingKeys.1 ((hmem k).1 hk)).1
    · intro hv
      obtain ⟨k, hkey, rfl⟩ := h.keyed v hv
      exact ⟨k, (hmem k).2 (h.mem_pendingKeys.2 ⟨hv, hkey⟩), rfl⟩

end Correctness

end Hq
