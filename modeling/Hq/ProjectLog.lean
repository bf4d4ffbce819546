/-
The log of a project: its projected facts form one chain of previous states
from its only creation, and the final state is the replay of the whole chain.
-/
import Hq.AuthorityChains
import Hq.ProjectHistory

namespace Hq

/-- A fact continues the log at another one. -/
def Continues (before after : Fact) : Prop :=
  after.causal.authority .previousState = some before.id

/-- One more fact applied to a replayed state. -/
def replayStep (context : ReductionContext)
    (state : Option InternalProjectState) (fact : Fact) :
    Option InternalProjectState :=
  state.bind fun state => (applyPayload state fact context).toOption

/-- The left fold of the transitions of a chain over its first state. -/
def replay (context : ReductionContext) :
    List Fact → Option InternalProjectState
  | [] => none
  | root :: rest => rest.foldl (replayStep context) (creationState root)

variable {conflicts : ResourceLocator → ResourceLocator → Bool}
  {chain : List Fact} {project : ProjectId} {policy : AuthorityPolicy}
  {facts : FactSet}

theorem replay_snoc (context : ReductionContext)
    (hchain : chain ≠ []) (fact : Fact) :
    replay context (chain ++ [fact]) =
      replayStep context (replay context chain) fact := by
  cases chain with
  | nil => exact absurd rfl hchain
  | cons root rest => simp [replay]

/-- A chain of projected facts of a project from its creation. -/
structure LogChain (context : ReductionContext) (project : ProjectId)
    (chain : List Fact) : Prop where
  starts : ∃ root rest, chain = root :: rest ∧
    createsProject project root = true ∧
    ∀ fact ∈ rest, isCreation fact.payload = false
  linked : chain.IsChain Continues
  members : ∀ fact ∈ chain, InLog context project fact

namespace LogChain

variable {context : ReductionContext} {project : ProjectId}
  {chain : List Fact} {fact last : Fact}

theorem ne_nil (h : LogChain context project chain) : chain ≠ [] := by
  obtain ⟨root, rest, rfl, -⟩ := h.starts
  exact List.cons_ne_nil root rest

theorem single (hcreates : createsProject project fact = true)
    (hlog : InLog context project fact) : LogChain context project [fact] :=
  ⟨⟨fact, [], rfl, hcreates, by simp⟩, List.isChain_singleton fact,
    by simpa using hlog⟩

theorem snoc (h : LogChain context project chain)
    (hlast : chain.getLast? = some last) (hcontinues : Continues last fact)
    (htransition : isCreation fact.payload = false)
    (hlog : InLog context project fact) :
    LogChain context project (chain ++ [fact]) := by
  constructor
  · obtain ⟨root, rest, rfl, hcreates, hrest⟩ := h.starts
    refine ⟨root, rest ++ [fact], rfl, hcreates, ?_⟩
    intro other hother
    rcases List.mem_append.1 hother with hother | hother
    · exact hrest other hother
    · rwa [List.mem_singleton.1 hother]
  · refine List.isChain_append.2 ⟨h.linked, List.isChain_singleton fact, ?_⟩
    intro before hbefore after hafter
    obtain rfl := Option.some.inj (hlast.symm.trans hbefore)
    obtain rfl := Option.some.inj hafter
    exact hcontinues
  · intro other hother
    rcases List.mem_append.1 hother with hother | hother
    · exact h.members other hother
    · rwa [List.mem_singleton.1 hother]

/-- Every initial part that is not empty is a chain as well. -/
theorem initial {before after : List Fact}
    (h : LogChain context project (before ++ fact :: after)) :
    LogChain context project (before ++ [fact]) := by
  have hsplit : before ++ fact :: after = (before ++ [fact]) ++ after := by simp
  constructor
  · obtain ⟨root, rest, heq, hcreates, hrest⟩ := h.starts
    cases before with
    | nil =>
        obtain ⟨rfl, rfl⟩ := List.cons.inj heq
        exact ⟨fact, [], rfl, hcreates, by simp⟩
    | cons first before =>
        obtain ⟨rfl, rfl⟩ := List.cons.inj heq
        refine ⟨first, before ++ [fact], rfl, hcreates, ?_⟩
        intro other hother
        apply hrest other
        rcases List.mem_append.1 hother with hother | hother
        · exact List.mem_append_left _ hother
        · rw [List.mem_singleton.1 hother]
          exact List.mem_append_right _ List.mem_cons_self
  · have hlinked := h.linked
    rw [hsplit] at hlinked
    exact (List.isChain_append.1 hlinked).1
  · intro other hother
    apply h.members other
    rw [hsplit]
    exact List.mem_append_left _ hother

end LogChain

namespace ProjectStable

variable {policy : AuthorityPolicy}
  {conflicts : ResourceLocator → ResourceLocator → Bool} {facts : FactSet}
  {statuses : OrderedMap FactId DecisionStatus} {project : ProjectId}
  {fact : Fact} {id : FactId} {state : InternalProjectState}

/-- A fact with a state is in the log of the project of that state. -/
theorem inLog_of_stateOf (h : ProjectStable policy conflicts facts statuses)
    (hstate : StateOf (snapshot facts statuses) id state) :
    ∃ fact, fact.id = id ∧
      InLog (snapshot facts statuses) state.projectId fact := by
  have hhome : ∃ fact, fact.id = id ∧
      fact ∈ (snapshot facts statuses).projectedFacts ∧
      isHomeFact fact.payload = true := by
    cases hstate with
    | root hget hprojected hcreation =>
        exact ⟨_, rfl, mem_projectedFacts.2
          ⟨FactSet.mem_facts.2 hget, hprojected⟩,
          isHomeFact_of_isCreation hcreation⟩
    | step hget hprojected _ hhome =>
        exact ⟨_, rfl, mem_projectedFacts.2
          ⟨FactSet.mem_facts.2 hget, hprojected⟩, hhome⟩
  obtain ⟨fact, rfl, hadmitted, hhome⟩ := hhome
  obtain ⟨project, hproject⟩ : ∃ project, projectIdOf fact = some project := by
    rw [← Option.isSome_iff_exists]
    exact (Bool.and_eq_true_iff.1 hhome).1
  have hlog : InLog (snapshot facts statuses) project fact :=
    ⟨hadmitted, hhome, hproject⟩
  obtain ⟨other, hother, rfl⟩ := h.stateOf hlog
  obtain rfl := hother.unique hstate
  exact ⟨fact, rfl, hlog⟩

/-- The chain that leads to a state. -/
theorem exists_logChain (h : ProjectStable policy conflicts facts statuses)
    (hstate : StateOf (snapshot facts statuses) id state) :
    ∃ chain last, LogChain (snapshot facts statuses) state.projectId chain ∧
      chain.getLast? = some last ∧ last.id = id := by
  induction hstate with
  | @root fact state hget hprojected hcreation hstarts =>
      have hcreates := (creationState_eq_some hstarts).1
      have hlog : InLog (snapshot facts statuses) state.projectId fact :=
        ⟨mem_projectedFacts.2 ⟨FactSet.mem_facts.2 hget, hprojected⟩,
          isHomeFact_of_isCreation hcreation, (createsProject_iff.1 hcreates).2⟩
      exact ⟨[fact], fact, .single hcreates hlog, rfl, rfl⟩
  | @step fact previous state next hget hprojected htransition hhome hcites
      hbefore happly ih =>
      obtain ⟨chain, last, hchain, hlast, rfl⟩ := ih
      obtain ⟨other, hid, hlog⟩ :=
        h.inLog_of_stateOf (.step hget hprojected htransition hhome hcites
          hbefore happly)
      obtain rfl := FactSet.eq_of_mem_facts_of_id_eq
        (mem_projectedFacts.1 hlog.admitted).1 (FactSet.mem_facts.2 hget) hid
      rw [(applyPayload_sameProject happly).1.projectId] at hlog ⊢
      exact ⟨chain ++ [other], other,
        hchain.snoc hlast hcites htransition hlog, by simp, rfl⟩

/-- The fold over a chain gives the state of its last fact. -/
theorem replay_eq (h : ProjectStable policy conflicts facts statuses)
    {last : Fact}
    (hchain : LogChain (snapshot facts statuses) project (chain ++ [last])) :
    ∃ state, StateOf (snapshot facts statuses) last.id state ∧
      replay (snapshot facts statuses) (chain ++ [last]) = some state := by
  -- Induction on the number of facts before the last one.
  induction chain using List.reverseRecOn generalizing last with
  | nil =>
      obtain ⟨root, rest, heq, hcreates, -⟩ := hchain.starts
      obtain ⟨rfl, rfl⟩ := List.cons.inj heq
      have hlog := hchain.members last (by simp)
      have hmem := (mem_projectedFacts.1 hlog.admitted).1
      obtain ⟨⟨state, hstarts, -⟩, -⟩ := validateCreation_ok hmem hcreates
        (h.admitted hlog.admitted)
      exact ⟨state, .root (FactSet.mem_facts.1 hmem)
        (mem_projectedFacts.1 hlog.admitted).2
        (isCreation_of_createsProject hcreates) hstarts, hstarts⟩
  | append_singleton chain previous ih =>
      have hinitial : LogChain (snapshot facts statuses) project
          (chain ++ [previous]) := by
        apply LogChain.initial
        rwa [List.append_assoc] at hchain
      obtain ⟨state, hstate, hreplay⟩ := ih hinitial
      have hlog := hchain.members last (by simp)
      have htransition : isCreation last.payload = false := by
        obtain ⟨root, rest, heq, -, hrest⟩ := hchain.starts
        obtain ⟨root', rest', heq', -⟩ := hinitial.starts
        rw [heq'] at heq
        obtain ⟨rfl, rfl⟩ := List.cons.inj heq
        exact hrest last (by simp)
      have hcontinues : Continues previous last := by
        have hlinked := hchain.linked
        rw [List.append_assoc] at hlinked
        exact (List.isChain_append_cons_cons.1 hlinked).2.1
      obtain ⟨cited, found, next, hhead, -, happly, -⟩ :=
        h.transition hlog htransition
      obtain rfl := Option.some.inj (hhead.cites.symm.trans hcontinues)
      obtain rfl := (h.stateAt_eq_some.1 hhead.replays).unique hstate
      obtain ⟨hmem, hprojected⟩ := mem_projectedFacts.1 hlog.admitted
      refine ⟨next, .step (FactSet.mem_facts.1 hmem) hprojected htransition
        hlog.home hhead.cites hstate happly, ?_⟩
      rw [replay_snoc _ (by simp), hreplay]
      simp [replayStep, happly, Except.toOption]

/-- Along a chain of previous states every fact is above the later ones. -/
theorem continues_pairwise (hlinked : chain.IsChain Continues)
    (hmem : ∀ fact ∈ chain, fact ∈ facts.facts) :
    chain.Pairwise fun before after =>
      Relation.TransGen facts.graph.Child before.id after.id := by
  have hbelow : chain.IsChain fun before after =>
      Relation.TransGen facts.graph.Child before.id after.id := by
    refine List.IsChain.imp_of_mem_imp ?_ hlinked
    intro before after _ hafter hcontinues
    exact .single ((child_iff_of_get? (FactSet.mem_facts.1
      (hmem after hafter))).2 (Fact.mem_parents_of_authority hcontinues))
  exact List.isChain_iff_pairwise.1 hbelow

/-- No fact stands twice in a chain. -/
theorem logChain_nodup (h : ProjectStable policy conflicts facts statuses)
    (hchain : LogChain (snapshot facts statuses) project chain) :
    chain.Nodup := by
  have hpairwise := continues_pairwise hchain.linked fun fact hfact =>
    (mem_projectedFacts.1 (hchain.members fact hfact).admitted).1
  refine List.Pairwise.imp_of_mem ?_ hpairwise
  rintro before after hbefore - hreach rfl
  exact h.acyclic before.id
    (mem_projectedFacts.1 (hchain.members before hbefore).admitted).2 hreach

/-- A fact of the log continues at most one fact, and nothing else of the
project does. -/
theorem projectChildren_of_continues
    (h : ProjectStable policy conflicts facts statuses)
    (hlog : InLog (snapshot facts statuses) state.projectId fact)
    (htransition : isCreation fact.payload = false)
    (hcites : fact.causal.authority .previousState = some state.head) :
    projectChildren (snapshot facts statuses) state = [fact] := by
  have hmem : fact ∈ projectChildren (snapshot facts statuses) state := by
    obtain ⟨hmem, hprojected⟩ := mem_projectedFacts.1 hlog.admitted
    refine List.mem_filter.2 ⟨hmem, ?_⟩
    simp [hprojected, hcites, hlog.project]
  have hunique : ∀ other ∈ projectChildren (snapshot facts statuses) state,
      other = fact := by
    intro other hother
    obtain ⟨hother, htest⟩ := List.mem_filter.1 hother
    simp only [Bool.and_eq_true, decide_eq_true_eq] at htest
    exact h.sibling_unique hlog htransition hcites
      (mem_projectedFacts.2 ⟨hother, htest.1.1⟩) htest.2 htest.1.2
  have hnodup : (projectChildren (snapshot facts statuses) state).Nodup :=
    facts.facts_nodup.filter _
  have hperm : (projectChildren (snapshot facts statuses) state).Perm [fact] := by
    refine (List.perm_ext_iff_of_nodup hnodup (List.nodup_singleton fact)).2 ?_
    intro other
    rw [List.mem_singleton]
    exact ⟨hunique other, fun heq => heq ▸ hmem⟩
  exact List.perm_singleton.1 hperm

/-- The last state of the log of a project. -/
structure LogEnd (context : ReductionContext) (project : ProjectId)
    (final : InternalProjectState) : Prop where
  replayed : StateOf context final.head final
  sameProject : final.projectId = project
  last : ∀ fact, InLog context project fact →
    isCreation fact.payload = false →
    fact.causal.authority .previousState ≠ some final.head

/-- A state with no usable child is the last one of its project. -/
theorem logEnd_of_children (h : ProjectStable policy conflicts facts statuses)
    (hstate : StateOf (snapshot facts statuses) state.head state)
    (hchildren : ∀ child next,
      projectChildren (snapshot facts statuses) state = [child] →
      stateAt (snapshot facts statuses) child.id ≠ some next) :
    LogEnd (snapshot facts statuses) state.projectId state := by
  refine ⟨hstate, rfl, ?_⟩
  intro fact hlog htransition hcites
  obtain ⟨next, hnext, -⟩ := h.stateOf hlog
  exact hchildren fact next
    (h.projectChildren_of_continues hlog htransition hcites)
    (h.stateAt_eq_some.2 hnext)

/-- The only projected child of a state, when it has a state of its own, is
the next fact of the log. -/
theorem advances (h : ProjectStable policy conflicts facts statuses)
    {child : Fact} {next : InternalProjectState}
    (hchildren : projectChildren (snapshot facts statuses) state = [child])
    (hat : stateAt (snapshot facts statuses) child.id = some next) :
    StateOf (snapshot facts statuses) next.head next ∧
      next.projectId = state.projectId ∧
      pastSize facts state.head < pastSize facts next.head := by
  have hnext := h.stateAt_eq_some.1 hat
  have hmem : child ∈ projectChildren (snapshot facts statuses) state := by
    simp [hchildren]
  obtain ⟨hmem, htest⟩ := List.mem_filter.1 hmem
  simp only [Bool.and_eq_true, decide_eq_true_eq] at htest
  obtain ⟨found, hid, hlog⟩ := h.inLog_of_stateOf hnext
  obtain rfl := FactSet.eq_of_mem_facts_of_id_eq
    (mem_projectedFacts.1 hlog.admitted).1 hmem hid
  have hget := FactSet.mem_facts.1 hmem
  rw [hnext.head]
  exact ⟨hnext, Option.some.inj (hlog.project.symm.trans htest.2),
    pastSize_lt ((child_iff_of_get? hget).2
      (Fact.mem_parents_of_authority htest.1.2))
      (FactSet.mem_ids_of_get? hget) (h.acyclic _ htest.1.1)⟩

/-- Advancing a state ends at the last state of its project. -/
theorem advanceState_end (h : ProjectStable policy conflicts facts statuses)
    {fuel : Nat} (hstate : StateOf (snapshot facts statuses) state.head state)
    (hfuel : facts.entries.size < pastSize facts state.head + fuel) :
    LogEnd (snapshot facts statuses) state.projectId
      (advanceState (snapshot facts statuses) fuel state) := by
  -- Every step moves to a fact with a larger past.
  induction fuel generalizing state with
  | zero =>
      have hle := pastSize_le facts state.head
      omega
  | succ fuel ih =>
      unfold advanceState
      split
      next child hchildren =>
        split
        next hat =>
          apply h.logEnd_of_children hstate
          intro other next hother
          obtain rfl := List.singleton_inj.1 (hchildren.symm.trans hother)
          simp [hat]
        next next hat =>
          obtain ⟨hnext, hproject, hlt⟩ := h.advances hchildren hat
          rw [← hproject]
          exact ih hnext (by omega)
      next hmany =>
        apply h.logEnd_of_children hstate
        intro child next hchild
        exact absurd hchild (hmany child)

end ProjectStable

/-! Final states. -/

/-- The final state that a creation contributes. -/
def finalStateOf (context : ReductionContext) (root : Fact) :
    Option (ProjectId × InternalProjectState) :=
  (stateAt context root.id).map fun state =>
    let final := advanceState context context.facts.entries.size state
    (final.projectId, final)

theorem finalStates_eq (context : ReductionContext) :
    finalStates context = OrderedMap.ofList
      ((context.facts.facts.filter fun fact =>
        context.isProjected fact.id && isCreation fact.payload).filterMap
          (finalStateOf context)) := by
  unfold finalStates OrderedMap.ofList
  generalize (∅ : OrderedMap ProjectId InternalProjectState) = start
  generalize (context.facts.facts.filter fun fact =>
    context.isProjected fact.id && isCreation fact.payload) = roots
  induction roots generalizing start with
  | nil => rfl
  | cons root rest ih =>
      rw [List.foldl_cons, ih]
      cases hstate : stateAt context root.id with
      | none => simp [finalStateOf, hstate]
      | some state => simp [finalStateOf, hstate]

namespace ProjectStable

variable {policy : AuthorityPolicy}
  {conflicts : ResourceLocator → ResourceLocator → Bool} {facts : FactSet}
  {statuses : OrderedMap FactId DecisionStatus} {project : ProjectId}
  {fact : Fact} {state : InternalProjectState}

/-- Advancing the state of a fact ends at the last state of its project. -/
theorem logEnd_of_stateOf (h : ProjectStable policy conflicts facts statuses)
    {id : FactId} (hstate : StateOf (snapshot facts statuses) id state) :
    LogEnd (snapshot facts statuses) state.projectId
      (advanceState (snapshot facts statuses) facts.entries.size state) := by
  obtain ⟨found, hget, -⟩ := hstate.retained
  have hpos : 0 < pastSize facts state.head :=
    pastSize_pos (hstate.head ▸ FactSet.mem_ids_of_get? hget)
  exact h.advanceState_end (hstate.head.symm ▸ hstate) (by omega)

theorem finalStates_logEnd (h : ProjectStable policy conflicts facts statuses)
    (hfinal : (finalStates (snapshot facts statuses)).get? project =
      some state) : LogEnd (snapshot facts statuses) project state := by
  rw [finalStates_eq] at hfinal
  obtain ⟨root, -, hroot⟩ :=
    List.mem_filterMap.1 (OrderedMap.mem_of_get?_ofList hfinal)
  obtain ⟨start, hstart, heq⟩ := Option.map_eq_some_iff.1 hroot
  have hend := h.logEnd_of_stateOf (h.stateAt_eq_some.1 hstart)
  obtain ⟨rfl, rfl⟩ := Prod.mk.inj heq
  rw [← hend.sameProject] at hend
  exact hend

theorem finalStates_isSome (h : ProjectStable policy conflicts facts statuses)
    (hfact : fact ∈ (snapshot facts statuses).projectedFacts)
    (hcreates : createsProject project fact = true) :
    ((finalStates (snapshot facts statuses)).get? project).isSome = true := by
  obtain ⟨hmem, hprojected⟩ := mem_projectedFacts.1 hfact
  obtain ⟨hcreation, hproject⟩ := createsProject_iff.1 hcreates
  obtain ⟨start, hstate, rfl⟩ := h.stateOf
    ⟨hfact, isHomeFact_of_isCreation hcreation, hproject⟩
  have hend := h.logEnd_of_stateOf hstate
  rw [finalStates_eq, OrderedMap.get?_ofList_isSome]
  refine ⟨advanceState (snapshot facts statuses) facts.entries.size start,
    List.mem_filterMap.2 ⟨fact, List.mem_filter.2 ⟨hmem, ?_⟩, ?_⟩⟩
  · simp [hprojected, hcreation]
  · rw [finalStateOf, h.stateAt_eq_some.2 hstate]
    exact congrArg some (Prod.ext hend.sameProject rfl)

/-- The chain to the last state holds the whole log. -/
theorem mem_chain_of_inLog (h : ProjectStable policy conflicts facts statuses)
    {last : Fact}
    (hchain : LogChain (snapshot facts statuses) project chain)
    (hlast : chain.getLast? = some last)
    (hend : ∀ fact, InLog (snapshot facts statuses) project fact →
      isCreation fact.payload = false → ¬ Continues last fact)
    {id : FactId} (hstate : StateOf (snapshot facts statuses) id state)
    (hproject : state.projectId = project) : ∃ fact ∈ chain, fact.id = id := by
  induction hstate with
  | @root fact state hget hprojected hcreation hstarts =>
      obtain ⟨root, rest, rfl, hcreates, -⟩ := hchain.starts
      refine ⟨root, List.mem_cons_self, ?_⟩
      have hfact : fact ∈ (snapshot facts statuses).projectedFacts :=
        mem_projectedFacts.2 ⟨FactSet.mem_facts.2 hget, hprojected⟩
      rw [h.creation_unique (hchain.members root List.mem_cons_self).admitted
        hfact hcreates (hproject ▸ (creationState_eq_some hstarts).1)]
  | @step fact previous state next hget hprojected htransition hhome hcites
      hbefore happly ih =>
      rw [(applyPayload_sameProject happly).1.projectId] at hproject
      obtain ⟨before, hmem, rfl⟩ := ih hproject
      have hlog : InLog (snapshot facts statuses) project fact := by
        obtain ⟨found, hid, hlog⟩ := h.inLog_of_stateOf (.step hget hprojected
          htransition hhome hcites hbefore happly)
        obtain rfl := FactSet.eq_of_mem_facts_of_id_eq
          (mem_projectedFacts.1 hlog.admitted).1 (FactSet.mem_facts.2 hget) hid
        rwa [(applyPayload_sameProject happly).1.projectId, hproject] at hlog
      obtain ⟨front, back, rfl⟩ := List.append_of_mem hmem
      cases back with
      | nil =>
          obtain rfl : before = last := by simpa using hlast
          exact absurd hcites (hend fact hlog htransition)
      | cons successor back =>
          -- The chain goes on here, and only one fact can continue it.
          have hcontinues : Continues before successor :=
            (List.isChain_append_cons_cons.1 hchain.linked).2.1
          have hsuccessor := hchain.members successor (by simp)
          have heq := h.sibling_unique hlog htransition hcites
            hsuccessor.admitted hsuccessor.project hcontinues
          exact ⟨successor, by simp, congrArg Fact.id heq⟩

end ProjectStable

/-- The log of a project as one chain: it starts at the only creation, links
every projected fact of the project to its predecessor, and each state along
it is the fold of the transitions so far, up to the final state. -/
structure HomeLinear (context : ReductionContext) (project : ProjectId)
    (chain : List Fact) : Prop where
  starts : ∃ root rest, chain = root :: rest ∧
    createsProject project root = true ∧
    ∀ other ∈ context.projectedFacts,
      createsProject project other = true → other = root
  linked : chain.IsChain Continues
  distinct : chain.Nodup
  exactly : ∀ fact, fact ∈ chain ↔ InLog context project fact
  replays : ∀ before fact after, chain = before ++ fact :: after →
    ∃ state, stateAt context fact.id = some state ∧
      replay context (before ++ [fact]) = some state
  ends : ∃ last state, chain.getLast? = some last ∧
    (finalStates context).get? project = some state ∧
    state.head = last.id ∧ replay context chain = some state

theorem ProjectStable.homeLinear {statuses : OrderedMap FactId DecisionStatus}
    {final : InternalProjectState}
    (h : ProjectStable policy conflicts facts statuses)
    (hfinal : (finalStates (snapshot facts statuses)).get? project =
      some final) :
    ∃ chain, HomeLinear (snapshot facts statuses) project chain := by
  have hend := h.finalStates_logEnd hfinal
  obtain ⟨chain, last, hchain, hlast, hid⟩ := h.exists_logChain hend.replayed
  rw [hend.sameProject] at hchain
  have hreplays : ∀ before fact after, chain = before ++ fact :: after →
      ∃ state, stateAt (snapshot facts statuses) fact.id = some state ∧
        replay (snapshot facts statuses) (before ++ [fact]) = some state := by
    rintro before fact after rfl
    obtain ⟨state, hstate, hreplay⟩ := h.replay_eq hchain.initial
    exact ⟨state, h.stateAt_eq_some.2 hstate, hreplay⟩
  refine ⟨chain, ?_, hchain.linked, h.logChain_nodup hchain, ?_, hreplays,
    last, final, hlast, hfinal, hid.symm, ?_⟩
  · obtain ⟨root, rest, rfl, hcreates, -⟩ := hchain.starts
    refine ⟨root, rest, rfl, hcreates, ?_⟩
    intro other hother hotherCreates
    exact h.creation_unique hother
      (hchain.members root List.mem_cons_self).admitted hotherCreates hcreates
  · intro fact
    refine ⟨hchain.members fact, ?_⟩
    intro hlog
    obtain ⟨state, hstate, hproject⟩ := h.stateOf hlog
    obtain ⟨found, hmem, hfound⟩ := h.mem_chain_of_inLog hchain hlast
      (fun other hother htransition hcontinues =>
        hend.last other hother htransition (hid ▸ hcontinues)) hstate hproject
    obtain rfl := FactSet.eq_of_mem_facts_of_id_eq
      (mem_projectedFacts.1 (hchain.members found hmem).admitted).1
      (mem_projectedFacts.1 hlog.admitted).1 hfound
    exact hmem
  · obtain ⟨before, rfl⟩ := List.getLast?_eq_some_iff.1 hlast
    obtain ⟨state, hstate, hreplay⟩ := h.replay_eq hchain
    rw [hreplay, hstate.unique (hid ▸ hend.replayed)]

/-! Project views. -/

/-- What a view shows of the state of its project. -/
structure ShowsState (view : ProjectView) (state : InternalProjectState) :
    Prop where
  root : view.root = state.root
  head : view.head = state.head
  home : view.home = state.home
  accountId : view.accountId = state.accountId
  mailbox : view.mailbox = ⟨state.home, state.mailboxId⟩
  predecessor : view.predecessor = state.predecessor
  name : view.name = state.name
  brief : view.brief = state.brief
  resources : view.resources = state.resources
  primary : view.primary = state.primary
  lifecycle : view.lifecycle = state.lifecycle
  archived : view.archived = state.archived
  assignment : view.assignment.map ProjectAssignmentView.intent =
    state.assignment.map InternalAssignment.intent
  inputSequence : view.inputSequence = state.inputSequence

/-- The view that the final state of a project contributes. -/
def projectViewOf (conflicts : ResourceLocator → ResourceLocator → Bool)
    (context : ReductionContext) (state : InternalProjectState) :
    ProjectContribution :=
  projectContribution context (finalStates context)
    (claimConflictMap conflicts (finalStates context))
    (assignmentConflictMap (finalStates context)) state

theorem projectViewOf_shows
    (conflicts : ResourceLocator → ResourceLocator → Bool)
    (context : ReductionContext) (state : InternalProjectState) :
    ∃ view, (projectViewOf conflicts context state).value = .project view ∧
      ShowsState view state := by
  refine ⟨_, rfl, rfl, rfl, rfl, rfl, rfl, rfl, rfl, rfl, rfl, rfl, rfl, rfl,
    ?_, rfl⟩
  cases state.assignment <;> simp

/-- Only final states contribute under the key of a project. -/
theorem ProjectStable.mem_projectContributions
    {statuses : OrderedMap FactId DecisionStatus}
    (h : ProjectStable policy conflicts facts statuses)
    {contribution : ProjectContribution} :
    (contribution ∈
        deriveProjectProjections conflicts (snapshot facts statuses) ∧
      contribution.key = .project project) ↔
      ∃ state, (finalStates (snapshot facts statuses)).get? project =
          some state ∧
        contribution =
          projectViewOf conflicts (snapshot facts statuses) state := by
  constructor
  · rintro ⟨hmem, hkey⟩
    simp only [deriveProjectProjections, List.mem_append, or_assoc] at hmem
    rcases hmem with hmem | hmem | hmem | hmem | hmem
    · obtain ⟨state, hstate, rfl⟩ := List.mem_map.1 hmem
      obtain ⟨key, hget⟩ := OrderedMap.mem_values.1 hstate
      have hproject : state.projectId = project := by
        simpa [projectContribution] using hkey
      have hkeyEq := (h.finalStates_logEnd hget).sameProject
      rw [← hproject, hkeyEq]
      exact ⟨state, hget, rfl⟩
    · obtain ⟨fact, -, hfact⟩ := List.mem_filterMap.1 hmem
      unfold inputContribution at hfact
      split at hfact
      · cases hfact
        cases hkey
      · cases hfact
    · obtain ⟨entry, -, hentry⟩ := List.mem_filterMap.1 hmem
      split at hentry
      · cases hentry
      · split at hentry
        · cases hentry
          cases hkey
        · cases hentry
    · obtain ⟨entry, -, hentry⟩ := List.mem_filterMap.1 hmem
      split at hentry
      · cases hentry
      · split at hentry
        · cases hentry
          cases hkey
        · cases hentry
    · obtain ⟨entry, -, hentry⟩ := List.mem_filterMap.1 hmem
      obtain ⟨view, -, rfl⟩ := Option.map_eq_some_iff.1 hentry
      cases hkey
  · rintro ⟨state, hget, rfl⟩
    have hproject := (h.finalStates_logEnd hget).sameProject
    refine ⟨?_, congrArg _ hproject⟩
    simp only [deriveProjectProjections, List.mem_append, or_assoc]
    exact Or.inl (List.mem_map.2 ⟨state, OrderedMap.mem_values.2 ⟨_, hget⟩, rfl⟩)

/-- The view of a project in a report is that of its final state. -/
theorem Reduced.projectView
    {report : ReductionReport ProjectAggregateKey ProjectProjectionKey
      ProjectProjection ProjectReason}
    (h : Reduced (projectReducer policy conflicts) facts report)
    {value : ProjectProjection} :
    report.projections.get? (.project project) = some value ↔
      ∃ state, (finalStates
          (snapshot facts (statusesIn report.decisions))).get? project =
          some state ∧
        value = (projectViewOf conflicts
          (snapshot facts (statusesIn report.decisions)) state).value := by
  have hstable := projectStable_of_fixed h.fixed
  rw [h.value]
  constructor
  · rintro ⟨contribution, hmem, hkey, rfl⟩
    obtain ⟨state, hget, rfl⟩ :=
      hstable.mem_projectContributions.1 ⟨hmem, hkey⟩
    exact ⟨state, hget, rfl⟩
  · rintro ⟨state, hget, rfl⟩
    obtain ⟨hmem, hkey⟩ :=
      hstable.mem_projectContributions.2 ⟨state, hget, rfl⟩
    exact ⟨_, hmem, hkey, rfl⟩

/-- The decisions of a report, as the context they were derived in. -/
def ReductionReport.context {A K V R : Type} [LinearOrder A] [LinearOrder K]
    [FieldCoded R] (report : ReductionReport A K V R) : ReductionContext :=
  snapshot report.facts (statusesIn report.decisions)

/-- A reduced fact set gives every project either no projected fact and no
view, or one chain of previous states that holds all its projected facts, and
a view of the state that the chain replays to. -/
theorem project_history_linear {policy : AuthorityPolicy}
    {conflicts : ResourceLocator → ResourceLocator → Bool} {facts : List Fact}
    {report : ReductionReport ProjectAggregateKey ProjectProjectionKey
      ProjectProjection ProjectReason}
    (hreduce : reduceComplete (projectReducer policy conflicts) facts =
      .ok report) (project : ProjectId) :
    ((∀ fact, ¬ InLog report.context project fact) ∧
      report.projections.get? (.project project) = none) ∨
    ∃ chain last state view, HomeLinear report.context project chain ∧
      chain.getLast? = some last ∧ replay report.context chain = some state ∧
      report.projections.get? (.project project) = some (.project view) ∧
      ShowsState view state ∧ view.head = last.id := by
  have hreduced := reduced_of_reduceSet hreduce
  have hstable := projectStable_of_fixed hreduced.fixed
  rw [ReductionReport.context, hreduced.facts_eq]
  cases hfinal : (finalStates (snapshot (FactSet.fromFacts facts)
      (statusesIn report.decisions))).get? project with
  | none =>
      left
      constructor
      · intro fact hlog
        obtain ⟨state, hstate, hproject⟩ := hstable.stateOf hlog
        obtain ⟨root, start, hget, hprojected, -, hstarts, hsame, -⟩ :=
          hstate.creation
        have hcreates : createsProject project root = true := by
          rw [← hproject, hsame.projectId]
          exact (creationState_eq_some hstarts).1
        have hsome := hstable.finalStates_isSome (mem_projectedFacts.2
          ⟨FactSet.mem_facts.2 hget, hprojected⟩) hcreates
        simp [hfinal] at hsome
      · rw [Option.eq_none_iff_forall_ne_some]
        intro value hvalue
        obtain ⟨state, hstate, -⟩ := hreduced.projectView.1 hvalue
        simp [hfinal] at hstate
  | some final =>
      right
      obtain ⟨chain, hchain⟩ := hstable.homeLinear hfinal
      obtain ⟨last, state, hlast, hstate, hhead, hreplay⟩ := hchain.ends
      obtain ⟨view, hview, hshows⟩ := projectViewOf_shows conflicts
        (snapshot (FactSet.fromFacts facts) (statusesIn report.decisions)) state
      exact ⟨chain, last, state, view, hchain, hlast, hreplay,
        hreduced.projectView.2 ⟨state, hstate, hview.symm⟩, hshows,
        hshows.head.trans hhead⟩

/-- The view that a reduction gives to a project, if it returns one. -/
def reportedView (result : Except ReduceError (ReductionReport
      ProjectAggregateKey ProjectProjectionKey ProjectProjection
      ProjectReason)) (project : ProjectId) : Option ProjectView :=
  match result with
  | .error _ => none
  | .ok report =>
      match report.projections.get? (.project project) with
      | some (.project view) => some view
      | _ => none

theorem exists_report_of_reportedView
    {result : Except ReduceError (ReductionReport ProjectAggregateKey
      ProjectProjectionKey ProjectProjection ProjectReason)}
    {view : ProjectView}
    (h : reportedView result project = some view) :
    ∃ report, result = .ok report ∧
      report.projections.get? (.project project) = some (.project view) := by
  cases result with
  | error error => simp [reportedView] at h
  | ok report =>
      refine ⟨report, rfl, ?_⟩
      simp only [reportedView] at h
      split at h
      next hget => rw [hget, Option.some.inj h]
      next => cases h

/-! A small home for the witnesses: an account of the first installation and
projects that it keeps. -/

def sampleName : ShortText := .ofChar 'n'

/-- A working tree at an absolute path below the root directory. -/
def workingTree (id : Nat) (path : Char) : ProjectResource :=
  let locator : ResourceLocator := ⟨.workingTree, ['/', path], by simp, by
    have hslash : Char.utf8Size '/' = 1 := rfl
    have hpath := Char.utf8Size_le_four path
    simp only [utf8Length, List.map_cons, List.map_nil, List.sum_cons,
      List.sum_nil, hslash]
    omega⟩
  ⟨.ofNat id, locator, locator, .healthy⟩

def accountCreation (id installation : Nat) : Fact where
  id := .ofNat id
  author := signer installation
  authoredAt := ⟨0⟩
  scope := .installationPrivate (.ofNat installation)
  causal := citing [(.localInstallation, installation)] []
  payload := .humanAccountCreated (.ofNat id) (signer installation) none
  protocol_scope := .refl false
  admissible := rfl

/-- A creation by the first installation under an account, whose mailbox has
the number of the project. -/
def projectCreation (id account : Nat) (resource : ProjectResource)
    (initialState : InitialProjectState) : Fact where
  id := .ofNat id
  author := signer 1
  authoredAt := ⟨0⟩
  scope := .accountAddressed (.ofNat account)
  causal := citing [(.projectHome, 1), (.accountMembership, account),
    (.activeHuman, account)] []
  payload := .projectCreated (.ofNat id) (.ofNat id) (.ofNat 1) sampleName none
    none ⟨[resource], by simp⟩ none initialState
  protocol_scope := rfl
  admissible := rfl

/-- A transition by the first installation under an account. -/
def projectTransition (id account previous : Nat) (parents : List Nat)
    (payload : SemanticPayload)
    (hcanonical : payload.isRemoteControl = false := by exact .refl false)
    (hadmissible : payload.isAdmissible (signer 1)
      (.accountAddressed (.ofNat account)) = true := by exact .refl true) : Fact where
  id := .ofNat id
  author := signer 1
  authoredAt := ⟨0⟩
  scope := .accountAddressed (.ofNat account)
  causal := citing [(.previousState, previous), (.projectHome, 1),
    (.accountMembership, account), (.activeHuman, account)] parents
  payload
  protocol_scope := canonical_scope hcanonical
  admissible := hadmissible

/-- An open project, its closing, and a second project that stays closed. -/
def projectNetwork : List Fact :=
  [declaration 1 1, accountCreation 20 1,
    projectCreation 30 20 (workingTree 1 'a') .opened,
    projectTransition 31 20 30 [] (.projectClosingStarted (.ofNat 30)),
    projectTransition 32 20 31 [] (.projectClosed (.ofNat 30) false none),
    projectCreation 40 20 (workingTree 2 'b') .closed]

/-- The log of the first project ends at its closing. -/
theorem project_history_linear_projectNetwork :
    ∃ report chain last state view,
      reduceComplete (projectReducer samplePolicy pathConflicts)
        projectNetwork = .ok report ∧
      HomeLinear report.context (.ofNat 30) chain ∧
      chain.getLast? = some last ∧ replay report.context chain = some state ∧
      report.projections.get? (.project (.ofNat 30)) = some (.project view) ∧
      ShowsState view state ∧ view.head = last.id := by
  have hsome : (reportedView (reduceComplete
      (projectReducer samplePolicy pathConflicts) projectNetwork)
      (.ofNat 30)).isSome = true := by
    decide +kernel
  obtain ⟨view, hview⟩ := Option.isSome_iff_exists.1 hsome
  obtain ⟨report, hreduce, hview⟩ := exists_report_of_reportedView hview
  rcases project_history_linear hreduce (.ofNat 30) with ⟨-, hnone⟩ |
    ⟨chain, last, state, hchain⟩
  · rw [hview] at hnone
    cases hnone
  · obtain ⟨view, hchain⟩ := hchain
    exact ⟨report, chain, last, state, view, hreduce, hchain⟩

end Hq
