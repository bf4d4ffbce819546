/-
What every state of a project satisfies along its log: the primary resource,
the lifecycle, the assignment and the accepted inputs, and which dispatches
its inputs have.
-/
import Hq.ProjectReduction

namespace Hq

/-- The coupling of the fields of a project state. -/
structure InternalProjectState.Sound (state : InternalProjectState) :
    Prop where
  primary : ∀ id, state.primary = some id → state.resources.contains id = true
  closed : state.lifecycle = .closed → state.assignment = none
  archived : state.archived = true → state.lifecycle = .closed
  runnable : ∀ assignment, state.assignment = some assignment →
    isRunnablePhase assignment.phase = true →
      ∃ binding, assignment.binding = some binding ∧
        binding.assignmentId = assignment.intent.assignmentId ∧
        binding.agentId = assignment.intent.agentId ∧
        binding.provider = assignment.intent.provider

section Transition

variable {state next : InternalProjectState} {fact : Fact}
  {context : ReductionContext}

/-- A transition of the resources alone. -/
theorem InternalProjectState.Sound.of_resources (h : state.Sound)
    (hprimary : ∀ id, next.primary = some id →
      next.resources.contains id = true)
    (hlifecycle : next.lifecycle = state.lifecycle)
    (harchived : next.archived = state.archived)
    (hassignment : next.assignment = state.assignment) : next.Sound := by
  refine ⟨hprimary, ?_, ?_, ?_⟩
  · rw [hlifecycle, hassignment]
    exact h.closed
  · rw [hlifecycle, harchived]
    exact h.archived
  · rw [hassignment]
    exact h.runnable

/-- A transition of the lifecycle, the archive and the assignment alone. -/
theorem InternalProjectState.Sound.of_lifecycle (h : state.Sound)
    (hresources : next.resources = state.resources)
    (hprimary : next.primary = state.primary)
    (hclosed : next.lifecycle = .closed → next.assignment = none)
    (harchived : next.archived = true → next.lifecycle = .closed)
    (hassignment : next.assignment = state.assignment) : next.Sound := by
  refine ⟨?_, hclosed, harchived, ?_⟩
  · rw [hresources, hprimary]
    exact h.primary
  · rw [hassignment]
    exact h.runnable

theorem removeResource_primary (h : state.Sound) (removed : ResourceId) :
    ∀ id, (removeResource state removed).primary = some id →
      (removeResource state removed).resources.contains id = true := by
  intro id hid
  simp only [removeResource] at hid ⊢
  split at hid
  next =>
    -- The first resource that is left becomes the primary one.
    have hmem := List.mem_of_mem_head? hid
    exact OrderedMap.mem_keys.1 (OrderedSet.mem_toList.1 hmem)
  next hother =>
    refine OrderedMap.contains_erase.2 ⟨h.primary id hid, ?_⟩
    rintro rfl
    exact hother hid

theorem replaceResource_primary (h : state.Sound) (old : ResourceId)
    (resource : ProjectResource) :
    ∀ id, (replaceResource state old resource).primary = some id →
      (replaceResource state old resource).resources.contains id = true := by
  intro id hid
  simp only [replaceResource] at hid ⊢
  rw [OrderedMap.contains_insert, OrderedMap.contains_erase]
  split at hid
  next => exact .inl (Option.some.inj hid).symm
  next hother =>
    refine .inr ⟨h.primary id hid, ?_⟩
    rintro rfl
    exact hother hid

theorem addResource_primary (h : state.Sound) (resource : ProjectResource)
    (makePrimary : Bool) :
    ∀ id, (addResource state resource makePrimary).primary = some id →
      (addResource state resource makePrimary).resources.contains id =
        true := by
  intro id hid
  simp only [addResource] at hid ⊢
  rw [OrderedMap.contains_insert]
  split at hid
  next => exact .inl (Option.some.inj hid).symm
  next => exact .inr (h.primary id hid)

/-- A transition of the assignment alone. -/
theorem InternalProjectState.Sound.of_assignment (h : state.Sound)
    (assignment : InternalAssignment)
    (hopened : state.lifecycle ≠ .closed)
    (hrunnable : isRunnablePhase assignment.phase = true →
      ∃ binding, assignment.binding = some binding ∧
        binding.assignmentId = assignment.intent.assignmentId ∧
        binding.agentId = assignment.intent.agentId ∧
        binding.provider = assignment.intent.provider) :
    { state with assignment := some assignment }.Sound := by
  refine ⟨h.primary, fun hclosed => absurd hclosed hopened, h.archived, ?_⟩
  intro found hfound
  cases hfound
  exact hrunnable

/-- A project with an assignment is not closed. -/
theorem InternalProjectState.Sound.not_closed (h : state.Sound)
    {assignment : InternalAssignment}
    (hassignment : state.assignment = some assignment) :
    state.lifecycle ≠ .closed := by
  intro hclosed
  rw [h.closed hclosed] at hassignment
  cases hassignment

theorem applyFamily_keeps_sound (h : state.Sound)
    (happly : applyFamily state fact context = .ok next) : next.Sound := by
  unfold applyFamily at happly
  split at happly
  -- Opening, closing, archiving and the metadata.
  case h_1 =>
    obtain ⟨-, hguard, rfl⟩ := humanTransition_eq_ok.1 happly
    simp only [Bool.and_eq_true, decide_eq_true_eq, Bool.not_eq_true'] at hguard
    exact h.of_lifecycle rfl rfl (by rintro ⟨⟩)
      (fun harchived => absurd harchived (by simp [hguard.2])) rfl
  case h_2 =>
    obtain ⟨-, hguard, rfl⟩ := humanTransition_eq_ok.1 happly
    have hopened := of_decide_eq_true hguard
    refine h.of_lifecycle rfl rfl (by rintro ⟨⟩) (fun harchived => ?_) rfl
    rw [h.archived harchived] at hopened
    cases hopened
  case h_3 =>
    obtain ⟨-, hguard, rfl⟩ := humanTransition_eq_ok.1 happly
    simp only [Bool.and_eq_true, Option.isNone_iff_eq_none] at hguard
    exact h.of_lifecycle rfl rfl (fun _ => hguard.2) (fun _ => rfl) rfl
  case h_4 =>
    obtain ⟨-, hguard, rfl⟩ := humanTransition_eq_ok.1 happly
    simp only [Bool.and_eq_true, decide_eq_true_eq] at hguard
    exact h.of_lifecycle rfl rfl h.closed (fun _ => hguard.1.1) rfl
  case h_5 =>
    obtain ⟨-, -, rfl⟩ := humanTransition_eq_ok.1 happly
    exact h.of_lifecycle rfl rfl h.closed (by rintro ⟨⟩) rfl
  case h_6 =>
    obtain ⟨-, -, rfl⟩ := humanTransition_eq_ok.1 happly
    exact h.of_resources h.primary rfl rfl rfl
  -- The resources.
  case h_7 =>
    obtain ⟨-, -, rfl⟩ := humanTransition_eq_ok.1 happly
    exact h.of_resources (addResource_primary h _ _) rfl rfl rfl
  case h_8 =>
    obtain ⟨-, -, rfl⟩ := humanTransition_eq_ok.1 happly
    exact h.of_resources (removeResource_primary h _) rfl rfl rfl
  case h_9 =>
    obtain ⟨-, -, rfl⟩ := humanTransition_eq_ok.1 happly
    exact h.of_resources (replaceResource_primary h _ _) rfl rfl rfl
  case h_10 =>
    obtain ⟨-, hguard, rfl⟩ := humanTransition_eq_ok.1 happly
    refine h.of_resources (fun id hid => ?_) rfl rfl rfl
    cases hid
    exact hguard
  case h_11 =>
    split at happly
    · cases happly
    · cases happly
      refine h.of_resources (fun id hid => ?_) rfl rfl rfl
      exact OrderedMap.contains_insert.2 (.inr (h.primary id hid))
  -- The assignment.
  case h_12 =>
    simp only [requireActiveHuman, require_bind_eq_ok, transition_eq_ok,
      Bool.and_eq_true, decide_eq_true_eq] at happly
    obtain ⟨-, ⟨hopened, -⟩, -, rfl⟩ := happly
    exact h.of_assignment _ (by rw [hopened]; rintro ⟨⟩)
      (by rintro ⟨⟩)
  case h_13 =>
    split at happly
    · cases happly
    next assignment hassignment =>
      obtain ⟨hguard, rfl⟩ := transition_eq_ok.1 happly
      simp only [Bool.and_eq_true, decide_eq_true_eq] at hguard
      obtain ⟨⟨⟨⟨⟨hid, hagent⟩, hprovider⟩, -⟩, -⟩, -⟩ := hguard
      exact h.of_assignment _ (h.not_closed hassignment) fun _ =>
        ⟨_, rfl, hid.symm, hagent.symm, hprovider.symm⟩
  case h_14 =>
    split at happly
    · cases happly
    next assignment hassignment =>
      obtain ⟨-, rfl⟩ := transition_eq_ok.1 happly
      exact h.of_assignment _ (h.not_closed hassignment)
        (by rintro ⟨⟩)
  case h_15 =>
    simp only [require_bind_eq_ok, transition_eq_ok] at happly
    obtain ⟨-, -, rfl⟩ := happly
    exact ⟨h.primary, fun _ => rfl, h.archived, by rintro _ ⟨⟩⟩
  -- Inputs, dispatches and outputs leave these fields alone.
  case h_16 =>
    obtain ⟨-, rfl⟩ := transition_eq_ok.1 happly
    exact h.of_resources h.primary rfl rfl rfl
  case h_17 =>
    split at happly
    · cases happly
    · obtain ⟨-, rfl⟩ := transition_eq_ok.1 happly
      exact h
  case h_18 =>
    obtain ⟨-, rfl⟩ := transition_eq_ok.1 happly
    exact h
  case h_19 =>
    cases happly
    exact h

theorem applyPayload_keeps_sound (h : state.Sound)
    (happly : applyPayload state fact context = .ok next) : next.Sound := by
  obtain ⟨moved, hmoved, rfl⟩ := applyPayload_eq_ok.1 happly
  exact (applyFamily_keeps_sound h hmoved).of_resources
    (applyFamily_keeps_sound h hmoved).primary rfl rfl rfl

/-- An admitted creation starts from a sound state. -/
theorem creationState_sound
    {conflicts : ResourceLocator → ResourceLocator → Bool}
    (hvalid : validateProjectFact conflicts fact context = .ok ())
    (hstarts : creationState fact = some state) : state.Sound := by
  unfold creationState at hstarts
  split at hstarts
  next hpayload _ =>
    cases hstarts
    simp only [validateProjectFact, hpayload, validateCreation] at hvalid
    obtain ⟨-, hvalid⟩ := require_bind_eq_ok.1 hvalid
    obtain ⟨hresources, -⟩ := require_bind_eq_ok.1 hvalid
    simp only [Bool.and_eq_true, Option.all_eq_true] at hresources
    refine ⟨?_, fun _ => rfl, by rintro ⟨⟩, by rintro _ ⟨⟩⟩
    intro id hid
    have hmem := hresources.2 id hid
    simp only [decide_eq_true_eq, OrderedSet.mem_ofList, List.mem_map] at hmem
    obtain ⟨resource, hresource, rfl⟩ := hmem
    exact OrderedMap.get?_ofList_isSome.2 ⟨resource,
      List.mem_map.2 ⟨resource, hresource, rfl⟩⟩
  next => cases hstarts

/-- The sequence number that a fact accepts an input under. -/
def acceptedSequence (fact : Fact) : Option Nat :=
  match fact.payload with
  | .projectInputAccepted _ _ _ sequence => some sequence.value
  | _ => none

theorem creationState_inputs (hstarts : creationState fact = some state) :
    acceptedSequence fact = none ∧ state.inputSequence = 0 := by
  unfold creationState at hstarts
  split at hstarts
  next hpayload _ =>
    cases hstarts
    exact ⟨by rw [acceptedSequence, hpayload], rfl⟩
  next => cases hstarts

/-- The next input of a project takes the next number, and nothing else
counts. -/
theorem applyFamily_inputSequence
    (happly : applyFamily state fact context = .ok next) :
    (acceptedSequence fact = none ∧
      next.inputSequence = state.inputSequence) ∨
    (acceptedSequence fact = some (state.inputSequence + 1) ∧
      next.inputSequence = state.inputSequence + 1) := by
  unfold applyFamily at happly
  unfold acceptedSequence
  split at happly
  case h_11 hpayload =>
    split at happly
    · cases happly
    · cases happly
      exact .inl ⟨by rw [hpayload], rfl⟩
  case h_12 hpayload =>
    simp only [requireActiveHuman, require_bind_eq_ok, transition_eq_ok]
      at happly
    obtain ⟨-, -, -, rfl⟩ := happly
    exact .inl ⟨by rw [hpayload], rfl⟩
  case h_13 hpayload | h_14 hpayload | h_17 hpayload =>
    split at happly
    · cases happly
    · obtain ⟨-, rfl⟩ := transition_eq_ok.1 happly
      exact .inl ⟨by rw [hpayload], rfl⟩
  case h_15 hpayload =>
    simp only [require_bind_eq_ok, transition_eq_ok] at happly
    obtain ⟨-, -, rfl⟩ := happly
    exact .inl ⟨by rw [hpayload], rfl⟩
  case h_16 hpayload =>
    obtain ⟨hguard, rfl⟩ := transition_eq_ok.1 happly
    simp only [Bool.and_eq_true, decide_eq_true_eq] at hguard
    exact .inr ⟨by rw [hpayload, ← hguard.1], hguard.1⟩
  case h_18 hpayload =>
    obtain ⟨-, rfl⟩ := transition_eq_ok.1 happly
    exact .inl ⟨by rw [hpayload], rfl⟩
  case h_19 =>
    cases happly
    refine .inl ⟨?_, rfl⟩
    split
    next hpayload => exact absurd hpayload (by grind)
    next => rfl
  all_goals
    rename_i hpayload
    obtain ⟨-, -, rfl⟩ := humanTransition_eq_ok.1 happly
    exact .inl ⟨by rw [hpayload], rfl⟩

end Transition

theorem replayStep_eq_some {context : ReductionContext}
    {before : Option InternalProjectState} {fact : Fact}
    {next : InternalProjectState} :
    replayStep context before fact = some next ↔
      ∃ state, before = some state ∧
        applyPayload state fact context = .ok next := by
  rw [replayStep, Option.bind_eq_some_iff]
  refine exists_congr fun state => and_congr_right fun _ => ?_
  cases applyPayload state fact context <;> simp [Except.toOption]

/-- What holds of a creation and stays under every transition holds along a
replayed chain. -/
theorem replay_invariant {context : ReductionContext}
    {holds : List Fact → InternalProjectState → Prop} {root : Fact}
    (hroot : ∀ state, creationState root = some state → holds [root] state)
    (hstep : ∀ chain state fact next, holds chain state →
      applyPayload state fact context = .ok next → holds (chain ++ [fact]) next)
    {rest : List Fact} {state : InternalProjectState}
    (hreplay : replay context (root :: rest) = some state) :
    holds (root :: rest) state := by
  induction rest using List.reverseRecOn generalizing state with
  | nil => exact hroot state hreplay
  | append_singleton rest fact ih =>
      rw [← List.cons_append, replay_snoc _ (by simp)] at hreplay
      obtain ⟨before, hbefore, happly⟩ := replayStep_eq_some.1 hreplay
      rw [← List.cons_append]
      exact hstep _ _ _ _ (ih hbefore) happly

/-- The state of a chain is sound and its inputs are numbered from one. -/
structure SoundAlong (chain : List Fact) (state : InternalProjectState) :
    Prop where
  sound : state.Sound
  numbered : chain.filterMap acceptedSequence =
    List.range' 1 state.inputSequence

theorem SoundAlong.snoc {context : ReductionContext} {chain : List Fact}
    {state next : InternalProjectState} {fact : Fact}
    (h : SoundAlong chain state)
    (happly : applyPayload state fact context = .ok next) :
    SoundAlong (chain ++ [fact]) next := by
  refine ⟨applyPayload_keeps_sound h.sound happly, ?_⟩
  obtain ⟨moved, hmoved, rfl⟩ := applyPayload_eq_ok.1 happly
  rw [List.filterMap_append, h.numbered]
  rcases applyFamily_inputSequence hmoved with ⟨hnone, hsame⟩ | ⟨hsome, hnext⟩
  · simp [hnone, hsame]
  · simp [hsome, hnext, List.range'_concat, Nat.add_comm]

/-- Without a conflict, facts of one stable identity have one payload. -/
theorem payload_eq_of_matchesFact {context : ReductionContext} {fact other : Fact}
    {reason : ProjectReason} {identity : StableIdentity}
    (hnone : stableIdentityConflict fact context = none)
    (hidentity : stableIdentity fact.payload = some (reason, identity))
    (hfact : fact ∈ context.facts.facts) (hother : other ∈ context.facts.facts)
    (hmatches : identity.matchesFact other = true) :
    other.payload = fact.payload := by
  by_contra hne
  simp only [stableIdentityConflict, hidentity, ite_eq_right_iff,
    reduceCtorEq, imp_false, Nat.not_lt] at hnone
  refine hne (congrArg Fact.payload (FactSet.eq_of_mem_facts_of_id_eq hother
    hfact (OrderedSet.eq_of_size_le_one hnone ?_ ?_)))
  · rw [OrderedSet.mem_ofList]
    refine List.mem_cons_of_mem _ (List.mem_map.2 ⟨other,
      List.mem_filter.2 ⟨hother, ?_⟩, rfl⟩)
    simp [hmatches, hne]
  · rw [OrderedSet.mem_ofList]
    exact List.mem_cons_self

/-- A projected dispatch that cites a projected acceptance of its input. -/
structure DispatchesInput (context : ReductionContext)
    (acceptance dispatch : Fact) : Prop where
  accepted : acceptance ∈ context.projectedFacts
  dispatched : dispatch ∈ context.projectedFacts
  cites : acceptance.id ∈ dispatch.causal.parents
  names : ∃ project own message input sequence dispatchId binding thread,
    acceptance.payload = .projectInputAccepted own message input sequence ∧
      dispatch.payload = .projectInputDispatched project message sequence
        dispatchId binding thread

theorem hasParent_iff {facts : FactSet}
    {statuses : OrderedMap FactId DecisionStatus} {fact : Fact}
    {test : Fact → Bool} :
    hasParent fact (snapshot facts statuses) test = true ↔
      ∃ candidate ∈ (snapshot facts statuses).projectedFacts,
        candidate.id ∈ fact.causal.parents ∧ test candidate = true := by
  simp only [hasParent, List.any_eq_true, OrderedSet.mem_toList,
    Option.any_eq_true, Bool.and_eq_true]
  constructor
  · rintro ⟨parent, hparent, candidate, hget, hprojected, htest⟩
    have hmem := FactSet.mem_facts_of_get? hget
    obtain rfl := FactSet.id_of_get? hget
    exact ⟨candidate, mem_projectedFacts.2 ⟨hmem, hprojected⟩, hparent, htest⟩
  · rintro ⟨candidate, hcandidate, hparent, htest⟩
    obtain ⟨hmem, hprojected⟩ := mem_projectedFacts.1 hcandidate
    exact ⟨candidate.id, hparent, candidate, FactSet.mem_facts.1 hmem,
      hprojected, htest⟩

section Dispatches

variable {policy : AuthorityPolicy}
  {conflicts : ResourceLocator → ResourceLocator → Bool} {facts : FactSet}
  {statuses : OrderedMap FactId DecisionStatus}

/-- The state before a dispatch has an open project whose assignment runs the
thread under the binding that the dispatch names. -/
def RunnableBefore (context : ReductionContext) (dispatch : Fact) : Prop :=
  ∀ project message sequence dispatchId binding thread,
    dispatch.payload = .projectInputDispatched project message sequence
      dispatchId binding thread →
    ∃ previous state assignment,
      dispatch.causal.authority .previousState = some previous ∧
      stateAt context previous = some state ∧ state.projectId = project ∧
      state.lifecycle = .opened ∧ state.assignment = some assignment ∧
      assignment.binding = some binding ∧
      isRunnableOn thread assignment.phase = true ∧
      ∃ acceptance, DispatchesInput context acceptance dispatch

theorem ProjectStable.runnableBefore
    (h : ProjectStable policy conflicts facts statuses) {dispatch : Fact}
    (hdispatch : dispatch ∈ (snapshot facts statuses).projectedFacts) :
    RunnableBefore (snapshot facts statuses) dispatch := by
  intro project message sequence dispatchId binding thread hpayload
  have hlog : InLog (snapshot facts statuses) project dispatch :=
    ⟨hdispatch, by simp [isHomeFact, hpayload, projectId,
      SemanticPayload.isRemoteControl], by simp [projectIdOf, hpayload,
        projectId]⟩
  obtain ⟨previous, state, next, hhead, -, happly, -⟩ :=
    h.transition hlog (by simp [isCreation, hpayload])
  obtain ⟨moved, hmoved, -⟩ := applyPayload_eq_ok.1 happly
  simp only [applyFamily, hpayload] at hmoved
  split at hmoved
  · cases hmoved
  next assignment hassignment =>
    obtain ⟨hguard, -⟩ := transition_eq_ok.1 hmoved
    simp only [Bool.and_eq_true, decide_eq_true_eq] at hguard
    obtain ⟨⟨⟨hopened, hbinding⟩, hthread⟩, hparent⟩ := hguard
    refine ⟨previous, state, assignment, hhead.cites, hhead.replays,
      hhead.sameProject, hopened, hassignment, hbinding, hthread, ?_⟩
    obtain ⟨acceptance, haccepted, hcites, htest⟩ := hasParent_iff.1 hparent
    split at htest
    next own found input number haccepts =>
      simp only [Bool.and_eq_true, decide_eq_true_eq] at htest
      obtain ⟨rfl, rfl⟩ := htest
      exact ⟨acceptance, haccepted, hdispatch, hcites, project, own, found,
        input, number, dispatchId, binding, thread, haccepts, hpayload⟩
    next => cases htest

/-- Dispatches of one input in one project repeat one payload. -/
theorem ProjectStable.dispatch_payload_eq
    (h : ProjectStable policy conflicts facts statuses)
    {acceptance left right : Fact}
    (hleft : DispatchesInput (snapshot facts statuses) acceptance left)
    (hright : DispatchesInput (snapshot facts statuses) acceptance right)
    (hproject : projectIdOf left = projectIdOf right) :
    left.payload = right.payload := by
  obtain ⟨project, own, message, input, sequence, dispatchId, binding, thread,
    haccepts, hpayload⟩ := hleft.names
  obtain ⟨project', _, _, _, _, dispatchId', binding', thread', haccepts',
    hpayload'⟩ := hright.names
  rw [haccepts] at haccepts'
  cases haccepts'
  simp only [projectIdOf, hpayload, hpayload', projectId, Option.some.injEq]
    at hproject
  subst hproject
  have hlog : InLog (snapshot facts statuses) project right :=
    ⟨hright.dispatched, by simp [isHomeFact, hpayload', projectId,
      SemanticPayload.isRemoteControl], by simp [projectIdOf, hpayload',
        projectId]⟩
  obtain ⟨previous, state, next, hhead, -⟩ :=
    h.transition hlog (by simp [isCreation, hpayload'])
  refine payload_eq_of_matchesFact hhead.identity (by
    rw [hpayload']
    rfl) (mem_projectedFacts.1 hright.dispatched).1
    (mem_projectedFacts.1 hleft.dispatched).1 ?_
  simp [StableIdentity.matchesFact, hpayload]

end Dispatches

/-- No dispatch of an input is repeated. -/
def NoRepeatedDispatch (context : ReductionContext) : Prop :=
  ∀ acceptance left right, DispatchesInput context acceptance left →
    DispatchesInput context acceptance right →
    left.payload = right.payload → left = right

/-- No input is dispatched by two projects. -/
def NoSharedInput (context : ReductionContext) : Prop :=
  ∀ acceptance left right, DispatchesInput context acceptance left →
    DispatchesInput context acceptance right →
    projectIdOf left = projectIdOf right

/-- An accepted input has at most one dispatch. -/
def DispatchedOnce (context : ReductionContext) : Prop :=
  ∀ acceptance left right, DispatchesInput context acceptance left →
    DispatchesInput context acceptance right → left = right

/-- Every chain of projected facts of a project replays to a sound state with
its inputs numbered from one, and every dispatch finds its binding running.
An input is dispatched once exactly when no dispatch is repeated and no other
project dispatches the input. -/
theorem project_state_invariants {policy : AuthorityPolicy}
    {conflicts : ResourceLocator → ResourceLocator → Bool} {facts : FactSet}
    {decisions : Decisions ProjectReason}
    (hstable : stabilizeDecisions (projectReducer policy conflicts) facts
      facts.graph = .ok decisions) :
    (∀ project fact, InLog (snapshot facts (statusesIn decisions)) project
        fact → ∃ chain, LogChain (snapshot facts (statusesIn decisions))
          project chain ∧ chain.getLast? = some fact) ∧
    (∀ project chain, LogChain (snapshot facts (statusesIn decisions)) project
        chain → ∃ state, replay (snapshot facts (statusesIn decisions)) chain =
          some state ∧ SoundAlong chain state) ∧
    (∀ dispatch ∈ (snapshot facts (statusesIn decisions)).projectedFacts,
      RunnableBefore (snapshot facts (statusesIn decisions)) dispatch) ∧
    (DispatchedOnce (snapshot facts (statusesIn decisions)) ↔
      NoRepeatedDispatch (snapshot facts (statusesIn decisions)) ∧
        NoSharedInput (snapshot facts (statusesIn decisions))) := by
  have h := projectStable_of_fixed (stabilizeFrom_ok hstable).1
  refine ⟨?_, ?_, fun dispatch => h.runnableBefore, ?_⟩
  · intro project fact hlog
    obtain ⟨state, hstate, rfl⟩ := h.stateOf hlog
    obtain ⟨chain, last, hchain, hlast, hid⟩ := h.exists_logChain hstate
    obtain rfl := FactSet.eq_of_mem_facts_of_id_eq
      (mem_projectedFacts.1 (hchain.members last
        (List.mem_of_getLast? hlast)).admitted).1
      (mem_projectedFacts.1 hlog.admitted).1 hid
    exact ⟨chain, hchain, hlast⟩
  · intro project chain hchain
    obtain ⟨front, last, rfl⟩ :=
      (List.eq_nil_or_concat' chain).resolve_left hchain.ne_nil
    obtain ⟨state, -, hreplay⟩ := h.replay_eq hchain
    refine ⟨state, hreplay, ?_⟩
    obtain ⟨root, rest, heq, hcreates, -⟩ := hchain.starts
    have hroot := hchain.members root (by rw [heq]; exact List.mem_cons_self)
    rw [heq] at hreplay ⊢
    refine replay_invariant (fun start hstarts => ?_)
      (fun _ _ _ _ hsound happly => hsound.snoc happly) hreplay
    refine ⟨creationState_sound (h.admitted hroot.admitted) hstarts, ?_⟩
    obtain ⟨hnone, hzero⟩ := creationState_inputs hstarts
    simp [hnone, hzero]
  · constructor
    · intro honce
      refine ⟨fun acceptance left right hleft hright _ =>
        honce acceptance left right hleft hright, ?_⟩
      intro acceptance left right hleft hright
      rw [honce acceptance left right hleft hright]
    · rintro ⟨hrepeated, hshared⟩ acceptance left right hleft hright
      exact hrepeated acceptance left right hleft hright
        (h.dispatch_payload_eq hleft hright
          (hshared acceptance left right hleft hright))

/-! Two projects with a running agent each. -/

/-- A transition by the first installation without a human's authority. -/
def homeStep (id account previous : Nat) (parents : List Nat)
    (payload : SemanticPayload) (hlocal : payload.isRemoteControl = false)
    (hadmissible : payload.isAdmissible (signer 1)
      (.accountAddressed (.ofNat account)) = true) : Fact where
  id := .ofNat id
  author := signer 1
  authoredAt := ⟨0⟩
  scope := .accountAddressed (.ofNat account)
  causal := citing [(.previousState, previous), (.projectHome, 1),
    (.accountMembership, account)] parents
  payload
  protocol_scope := canonical_scope hlocal
  admissible := hadmissible

/-- The binding of an agent to the session named like it. -/
def sampleBinding (agent : Nat) : AssignmentBinding :=
  ⟨.ofNat agent, .ofNat agent, .ofChar 'p', .ofChar 's'⟩

/-- A mailbox and the claim of an agent with the same number. -/
def claimed (mailbox claim agent : Nat) (name : ShortText) : List Fact :=
  [privateFact 1 1 mailbox [] (.mailboxCreated (.ofNat agent) .agent none) rfl
      rfl,
    privateFact 1 1 claim [mailbox] (.agentNameClaimed (.ofNat agent)
      (.ofNat agent) name) rfl rfl]

/-- An open project whose agent runs the thread of a question to it. -/
def running (project question claim agent : Nat) (tree : ProjectResource) :
    List Fact :=
  [projectCreation project 20 tree .opened,
    projectQuestion question 20 question project,
    projectTransition (project + 1) 20 project [claim]
      (.projectAssignmentConfiguring (.ofNat project)
        ⟨.ofNat agent, .ofNat agent, (sampleBinding agent).provider⟩),
    homeStep (project + 2) 20 (project + 1) [claim, question]
      (.projectAssignmentRunnable (.ofNat project) (sampleBinding agent)
        (threadOfFact (.ofNat question)) tree.canonicalLocator
        ⟨(sampleBinding agent).provider, (sampleBinding agent).session,
          .ofNat 1⟩) rfl rfl]

/-- The acceptance of the question and its dispatch to the agent. -/
def accepting (project question : Nat) : Fact :=
  homeStep (project + 3) 20 (project + 2) [question]
    (.projectInputAccepted (.ofNat project) (.ofNat question)
      (.ofNat question) firstInput) rfl rfl

def dispatching (id previous acceptance project message thread agent : Nat) :
    Fact :=
  homeStep id 20 previous [acceptance]
    (.projectInputDispatched (.ofNat project) (.ofNat message) firstInput
      (.ofNat project) (sampleBinding agent)
      (threadOfFact (.ofNat thread))) rfl rfl

/-- The dispatch of the second project's question to its agent. -/
def ownDispatch : Fact := dispatching 44 43 43 40 52 52 71

/-- Two projects of which the second accepts and dispatches its question. -/
def twoProjects : List Fact :=
  [declaration 1 1, accountCreation 20 1] ++
    claimed 2 3 70 (.ofChar 'a') ++
    claimed 4 5 71 (.ofChar 'b') ++
    running 30 50 3 70 (workingTree 1 'a') ++
    running 40 52 5 71 (workingTree 2 'b') ++
    [accepting 40 52, ownDispatch]

/-- The same question dispatched by the first project to its own agent. -/
def foreignDispatch : Fact := dispatching 33 32 43 30 52 50 70

/-- The dispatch of the second project once more. -/
def repeatedDispatch : Fact := dispatching 45 44 43 40 52 52 71

/-- The settled status of a fact. -/
def settledStatus (facts : List Fact) (fact : Fact) : Option DecisionStatus :=
  (stabilizeDecisions (projectReducer samplePolicy pathConflicts)
    (FactSet.fromFacts facts) (FactSet.fromFacts facts).graph).toOption.bind
      fun decisions => (statusesIn decisions).get? fact.id

theorem projected_of_settledStatus {facts : List Fact} {fact : Fact}
    {decisions : Decisions ProjectReason}
    (hstable : stabilizeDecisions (projectReducer samplePolicy pathConflicts)
      (FactSet.fromFacts facts) (FactSet.fromFacts facts).graph =
        .ok decisions)
    (hstatus : settledStatus facts fact = some .projected)
    (hfact : (FactSet.fromFacts facts).get? fact.id = some fact) :
    fact ∈ (snapshot (FactSet.fromFacts facts)
      (statusesIn decisions)).projectedFacts := by
  rw [settledStatus, hstable, Except.toOption, Option.bind_some] at hstatus
  exact mem_projectedFacts.2 ⟨FactSet.mem_facts.2 hfact,
    decide_eq_true hstatus⟩

theorem settled_of_settledStatus {facts : List Fact} {fact : Fact}
    (hstatus : settledStatus facts fact = some .projected) :
    ∃ decisions, stabilizeDecisions
      (projectReducer samplePolicy pathConflicts) (FactSet.fromFacts facts)
      (FactSet.fromFacts facts).graph = .ok decisions := by
  cases hstable : stabilizeDecisions (projectReducer samplePolicy pathConflicts)
      (FactSet.fromFacts facts) (FactSet.fromFacts facts).graph with
  | error error =>
      rw [settledStatus, hstable] at hstatus
      cases hstatus
  | ok decisions => exact ⟨decisions, rfl⟩

/-- The dispatch of the second project finds its binding running. -/
theorem project_state_invariants_twoProjects :
    ∃ decisions, stabilizeDecisions
        (projectReducer samplePolicy pathConflicts)
        (FactSet.fromFacts twoProjects)
        (FactSet.fromFacts twoProjects).graph = .ok decisions ∧
      RunnableBefore (snapshot (FactSet.fromFacts twoProjects)
        (statusesIn decisions)) ownDispatch := by
  have hstatus : settledStatus twoProjects ownDispatch =
      some .projected := by
    decide +kernel
  obtain ⟨decisions, hstable⟩ := settled_of_settledStatus hstatus
  refine ⟨decisions, hstable, (project_state_invariants hstable).2.2.1 _ ?_⟩
  exact projected_of_settledStatus hstable hstatus (by decide +kernel)

/-- A fact added to the projects dispatches the accepted question again. -/
def DispatchesAgain (extra : Fact) : Prop :=
  extra ≠ ownDispatch ∧ ∃ decisions, stabilizeDecisions
      (projectReducer samplePolicy pathConflicts)
      (FactSet.fromFacts (twoProjects ++ [extra]))
      (FactSet.fromFacts (twoProjects ++ [extra])).graph = .ok decisions ∧
    ∀ dispatch ∈ [ownDispatch, extra], DispatchesInput
      (snapshot (FactSet.fromFacts (twoProjects ++ [extra]))
        (statusesIn decisions)) (accepting 40 52) dispatch

theorem dispatchesAgain_of_settled {extra : Fact} (hne : extra ≠ ownDispatch)
    (hsettled : ∀ fact ∈ [accepting 40 52, ownDispatch, extra],
      settledStatus (twoProjects ++ [extra]) fact = some .projected ∧
        (FactSet.fromFacts (twoProjects ++ [extra])).get? fact.id = some fact)
    (hcites : (accepting 40 52).id ∈ extra.causal.parents)
    (hnames : ∃ project dispatchId binding thread, extra.payload =
      .projectInputDispatched project (.ofNat 52) firstInput dispatchId binding
        thread) : DispatchesAgain extra := by
  obtain ⟨decisions, hstable⟩ :=
    settled_of_settledStatus (hsettled extra (by simp)).1
  have hprojected : ∀ fact ∈ [accepting 40 52, ownDispatch, extra],
      fact ∈ (snapshot (FactSet.fromFacts (twoProjects ++ [extra]))
        (statusesIn decisions)).projectedFacts := fun fact hfact =>
    projected_of_settledStatus hstable (hsettled fact hfact).1
      (hsettled fact hfact).2
  refine ⟨hne, decisions, hstable, ?_⟩
  intro dispatch hdispatch
  refine ⟨hprojected _ (by simp),
    hprojected _ (List.mem_cons_of_mem _ hdispatch), ?_, ?_⟩
  · rcases List.mem_pair.1 hdispatch with rfl | rfl
    · decide +kernel
    · exact hcites
  · rcases List.mem_pair.1 hdispatch with rfl | rfl
    · exact ⟨_, _, _, _, _, _, _, _, rfl, rfl⟩
    · obtain ⟨project, dispatchId, binding, thread, hpayload⟩ := hnames
      exact ⟨project, _, _, _, _, dispatchId, binding, thread, rfl, hpayload⟩

/-- The first project dispatches the question that the second one accepted,
and the second one dispatches it twice. -/
theorem input_dispatched_twice :
    DispatchesAgain foreignDispatch ∧ DispatchesAgain repeatedDispatch := by
  constructor
  · exact dispatchesAgain_of_settled (by decide) (by decide +kernel)
      (by decide +kernel) ⟨_, _, _, _, rfl⟩
  · exact dispatchesAgain_of_settled (by decide) (by decide +kernel)
      (by decide +kernel) ⟨_, _, _, _, rfl⟩

end Hq
