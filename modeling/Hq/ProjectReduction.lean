/-
Deriving project views from stable decisions: every key carries one value and
projected support, except that two accepted inputs may share a message.
-/
import Hq.ProjectLog

namespace Hq

/-- The message that a fact accepts as an input. -/
def acceptedMessage (fact : Fact) : Option MessageId :=
  match fact.payload with
  | .projectInputAccepted _ messageId _ _ => some messageId
  | _ => none

/-- Projected facts that accept one message as an input are one fact. -/
def InputsDistinct (context : ReductionContext) : Prop :=
  ∀ left ∈ context.projectedFacts, ∀ right ∈ context.projectedFacts,
    ∀ messageId, acceptedMessage left = some messageId →
      acceptedMessage right = some messageId → left = right

variable {context : ReductionContext} {contribution : ProjectContribution}

theorem inputContribution_eq_some {fact : Fact} :
    inputContribution fact = some contribution ↔
      ∃ projectId messageId inputFactId sequence,
        fact.payload =
          .projectInputAccepted projectId messageId inputFactId sequence ∧
        contribution = ⟨.input messageId,
          .input ⟨projectId, messageId, inputFactId, sequence, fact.id⟩,
          OrderedSet.ofList [fact.id, inputFactId]⟩ := by
  unfold inputContribution
  split
  next hpayload => simp [hpayload, eq_comm]
  next hpayload =>
    constructor
    · exact fun hread => absurd hread (by simp)
    · rintro ⟨projectId, messageId, inputFactId, sequence, hfact, -⟩
      exact (hpayload _ _ _ _ hfact).elim

section Sound

variable {policy : AuthorityPolicy}
  {conflicts : ResourceLocator → ResourceLocator → Bool} {facts : FactSet}
  {statuses : OrderedMap FactId DecisionStatus}

/-- The support chain of a state holds projected facts only. -/
theorem isProjected_of_mem_supportChain
    {root id : FactId} {state : InternalProjectState}
    (hstate : StateOf context id state) (hroot : state.root = root) :
    ∀ (fuel : Nat) (support : OrderedSet FactId),
      (∀ x ∈ support, context.isProjected x = true) →
      ∀ x ∈ supportChain context root fuel (some id) support,
        context.isProjected x = true := by
  induction hstate with
  | @root fact state hget hprojected hcreation hstarts =>
      intro fuel support hsupport x hx
      cases fuel with
      | zero => exact hsupport x hx
      | succ fuel =>
          have hid : fact.id = root :=
            (creationState_eq_some hstarts).2.1.symm.trans hroot
          rw [supportChain, if_pos (by simp [hid]), OrderedSet.mem_insert] at hx
          rcases hx with rfl | hx
          · exact hprojected
          · exact hsupport x hx
  | @step fact previous state next hget hprojected htransition hhome hcites
      hbefore happly ih =>
      intro fuel support hsupport x hx
      have hinsert : ∀ y ∈ support.insert fact.id,
          context.isProjected y = true := by
        intro y hy
        rcases OrderedSet.mem_insert.1 hy with rfl | hy
        · exact hprojected
        · exact hsupport y hy
      cases fuel with
      | zero => exact hsupport x hx
      | succ fuel =>
          rw [supportChain] at hx
          split at hx
          · exact hinsert x hx
          · rw [hget, Option.bind_some, hcites] at hx
            exact ih ((applyPayload_sameProject happly).1.root.symm.trans hroot)
              fuel _ hinsert x hx

theorem head_mem_projectSupport {state : InternalProjectState} :
    state.head ∈ projectSupport state context := by
  have hkeep : ∀ (fuel : Nat) (id : Option FactId) (support : OrderedSet FactId)
      (x : FactId), x ∈ support →
        x ∈ supportChain context state.root fuel id support := by
    intro fuel
    induction fuel with
    | zero => exact fun _ _ _ h => h
    | succ fuel ih =>
        intro id support x hx
        cases id with
        | none => exact hx
        | some id =>
            rw [supportChain]
            split
            · exact OrderedSet.mem_insert.2 (Or.inr hx)
            · exact ih _ _ x (OrderedSet.mem_insert.2 (Or.inr hx))
  unfold projectSupport
  rw [supportChain]
  split
  · exact OrderedSet.mem_insert.2 (Or.inl rfl)
  · exact hkeep _ _ _ _ (OrderedSet.mem_insert.2 (Or.inl rfl))

theorem mem_expandDirectSupport {support : OrderedSet FactId} {id : FactId}
    (h : id ∈ expandDirectSupport support context) :
    id ∈ support ∨ context.isProjected id = true := by
  rw [expandDirectSupport, OrderedSet.mem_extend] at h
  rcases h with h | h
  · obtain ⟨child, -, hparent⟩ := List.mem_flatMap.1 h
    split at hparent
    · cases hparent
    · exact Or.inr (List.mem_filter.1 hparent).2
  · exact Or.inl h

theorem headsOf_projected (h : ProjectStable policy conflicts facts statuses)
    {projects : List ProjectId} {id : FactId}
    (hid : id ∈ headsOf (finalStates (snapshot facts statuses)) projects) :
    (snapshot facts statuses).isProjected id = true := by
  obtain ⟨project, -, hhead⟩ := List.mem_filterMap.1 hid
  obtain ⟨state, hstate, rfl⟩ := Option.map_eq_some_iff.1 hhead
  obtain ⟨-, -, -, hprojected⟩ :=
    (h.finalStates_logEnd hstate).replayed.retained
  exact hprojected

/-- Project views rest on projected facts, one view for each project. -/
theorem projectViews_sound (h : ProjectStable policy conflicts facts statuses) :
    Sound (snapshot facts statuses)
      ((finalStates (snapshot facts statuses)).values.map
        (projectViewOf conflicts (snapshot facts statuses))) := by
  refine Sound.of_map (fun state hstate => ⟨?_, ?_⟩)
    fun left hleft right hright hkey => ?_
  · intro hempty
    refine OrderedSet.eq_empty_iff.1 hempty state.head ?_
    simp [projectViewOf, projectContribution, expandDirectSupport,
      head_mem_projectSupport]
  · intro id hid
    rcases mem_expandDirectSupport hid with hid | hid
    · simp only [OrderedSet.mem_extend] at hid
      rcases hid with hid | hid | hid
      · exact headsOf_projected h hid
      · exact headsOf_projected h hid
      · obtain ⟨key, hget⟩ := OrderedMap.mem_values.1 hstate
        exact isProjected_of_mem_supportChain
          (h.finalStates_logEnd hget).replayed rfl _ _ (by simp) id hid
    · exact hid
  · have hproject : left.projectId = right.projectId :=
      ProjectProjectionKey.project.inj hkey
    obtain ⟨leftKey, hleft⟩ := OrderedMap.mem_values.1 hleft
    obtain ⟨rightKey, hright⟩ := OrderedMap.mem_values.1 hright
    rw [← (h.finalStates_logEnd hleft).sameProject, hproject,
      (h.finalStates_logEnd hright).sameProject, hright] at hleft
    exact (Option.some.inj hleft).symm

/-- An accepted input is a projected parent of its acceptance. -/
theorem input_projected (h : ProjectStable policy conflicts facts statuses)
    {fact : Fact} {project : ProjectId} {messageId : MessageId}
    {inputFactId : FactId} {sequence : NonZeroU64}
    (hfact : fact ∈ (snapshot facts statuses).projectedFacts)
    (hpayload : fact.payload =
      .projectInputAccepted project messageId inputFactId sequence) :
    (snapshot facts statuses).isProjected inputFactId = true := by
  have hlog : InLog (snapshot facts statuses) project fact := by
    refine ⟨hfact, ?_, ?_⟩ <;>
      simp [isHomeFact, projectIdOf, projectId, hpayload,
        SemanticPayload.isRemoteControl]
  obtain ⟨previous, state, next, -, -, happly, -⟩ :=
    h.transition hlog (by simp [isCreation, hpayload])
  obtain ⟨moved, hfamily, -⟩ := applyPayload_eq_ok.1 happly
  simp only [applyFamily, hpayload, transition_eq_ok, validProjectInput,
    Bool.and_eq_true, decide_eq_true_eq] at hfamily
  exact (h.authority.projected hfact).2.1 _ hfamily.1.2.1

theorem inputProjections_supported
    (h : ProjectStable policy conflicts facts statuses)
    {fact : Fact} (hfact : fact ∈ (snapshot facts statuses).projectedFacts)
    (hread : inputContribution fact = some contribution) :
    contribution.directSupport ≠ ∅ ∧
      ∀ id ∈ contribution.directSupport,
        (snapshot facts statuses).isProjected id = true := by
  obtain ⟨project, messageId, inputFactId, sequence, hpayload, rfl⟩ :=
    inputContribution_eq_some.1 hread
  constructor
  · intro hempty
    exact OrderedSet.eq_empty_iff.1 hempty fact.id (by simp)
  · intro id hid
    simp only [OrderedSet.mem_ofList, List.mem_cons, List.not_mem_nil,
      or_false] at hid
    rcases hid with rfl | rfl
    · exact (mem_projectedFacts.1 hfact).2
    · exact input_projected h hfact hpayload

theorem dispatchProjections_sound :
    Sound context (dispatchProjections context) := by
  refine Sound.of_group_filterMap ProjectProjectionKey.dispatch
    (fun _ _ hkey => ProjectProjectionKey.dispatch.inj hkey) ?_
  intro entry contribution hread
  split at hread
  · cases hread
  · split at hread <;> cases hread
    exact ⟨rfl, rfl⟩

theorem outputProjections_sound :
    Sound context (outputProjections context) := by
  refine Sound.of_group_filterMap ProjectProjectionKey.output
    (fun _ _ hkey => ProjectProjectionKey.output.inj hkey) ?_
  intro entry contribution hread
  split at hread
  · cases hread
  · split at hread <;> cases hread
    exact ⟨rfl, rfl⟩

theorem commandProjections_sound :
    Sound context (commandProjections context) := by
  refine Sound.of_group_filterMap ProjectProjectionKey.command
    (fun _ _ hkey => ProjectProjectionKey.command.inj hkey) ?_
  intro entry contribution hread
  obtain ⟨view, -, rfl⟩ := Option.map_eq_some_iff.1 hread
  exact ⟨rfl, rfl⟩

/-- The list of contributions a key comes from. -/
def ProjectProjectionKey.rank : ProjectProjectionKey → Nat
  | .project _ => 0
  | .input _ => 1
  | .dispatch _ => 2
  | .output _ => 3
  | .command _ => 4

/-- The lists of contributions under the rank of their keys. -/
def projectParts (conflicts : ResourceLocator → ResourceLocator → Bool)
    (context : ReductionContext) : List (Nat × List ProjectContribution) :=
  [(0, (finalStates context).values.map (projectViewOf conflicts context)),
    (1, inputProjections context), (2, dispatchProjections context),
    (3, outputProjections context), (4, commandProjections context)]

theorem deriveProjectProjections_eq (context : ReductionContext) :
    deriveProjectProjections conflicts context =
      (projectParts conflicts context).flatMap Prod.snd := by
  simp [deriveProjectProjections, projectParts, projectViewOf]

/-- Every contribution of a list of parts carries the rank of its part. -/
theorem projectContribution_rank :
    ∀ part ∈ projectParts conflicts context, ∀ contribution ∈ part.2,
      ProjectProjectionKey.rank contribution.key = part.1 := by
  simp only [projectParts, List.mem_cons, List.not_mem_nil, or_false,
    forall_eq_or_imp, forall_eq]
  refine ⟨?_, ?_, ?_, ?_, ?_⟩ <;> intro contribution hmem
  · obtain ⟨state, -, rfl⟩ := List.mem_map.1 hmem
    rfl
  · obtain ⟨fact, -, hread⟩ := List.mem_filterMap.1 hmem
    obtain ⟨_, _, _, _, -, rfl⟩ := inputContribution_eq_some.1 hread
    rfl
  · obtain ⟨entry, -, hread⟩ := List.mem_filterMap.1 hmem
    split at hread
    · cases hread
    · split at hread <;> cases hread
      rfl
  · obtain ⟨entry, -, hread⟩ := List.mem_filterMap.1 hmem
    split at hread
    · cases hread
    · split at hread <;> cases hread
      rfl
  · obtain ⟨entry, -, hread⟩ := List.mem_filterMap.1 hmem
    obtain ⟨view, -, rfl⟩ := Option.map_eq_some_iff.1 hread
    rfl

theorem mem_projectPart (rank : Nat)
    {list : List ProjectContribution}
    (hpart : (rank, list) ∈ projectParts conflicts context)
    (hmem : contribution ∈ deriveProjectProjections conflicts context)
    (hrank : contribution.key.rank = rank) : contribution ∈ list := by
  rw [deriveProjectProjections_eq] at hmem
  exact mem_part_of_rank ProjectProjectionKey.rank
    (by simp [projectParts]) projectContribution_rank hpart hmem hrank

/-- Project projections are sound while no message is accepted twice. -/
theorem deriveProjectProjections_sound
    (h : ProjectStable policy conflicts facts statuses)
    (hdistinct : InputsDistinct (snapshot facts statuses)) :
    Sound (snapshot facts statuses)
      (deriveProjectProjections conflicts (snapshot facts statuses)) := by
  have hinputs : Sound (snapshot facts statuses)
      (inputProjections (snapshot facts statuses)) := by
    refine Sound.of_filterMap (fun fact hfact contribution hread =>
      inputProjections_supported h hfact hread) ?_
    intro left hleft right hright first second hfirst hsecond hkey
    obtain ⟨_, messageId, _, _, hpayload, rfl⟩ :=
      inputContribution_eq_some.1 hfirst
    obtain ⟨_, other, _, _, hotherPayload, rfl⟩ :=
      inputContribution_eq_some.1 hsecond
    obtain rfl : messageId = other := ProjectProjectionKey.input.inj hkey
    exact hdistinct left hleft right hright messageId
      (by simp [acceptedMessage, hpayload])
      (by simp [acceptedMessage, hotherPayload])
  rw [deriveProjectProjections_eq]
  refine Sound.flatMap_of_rank ProjectProjectionKey.rank
    (by simp [projectParts]) ?_
  intro part hpart
  refine ⟨?_, projectContribution_rank part hpart⟩
  simp only [projectParts, List.mem_cons, List.not_mem_nil, or_false] at hpart
  rcases hpart with rfl | rfl | rfl | rfl | rfl
  · exact projectViews_sound h
  · exact hinputs
  · exact dispatchProjections_sound
  · exact outputProjections_sound
  · exact commandProjections_sound

/-- Every contribution is supported, whatever messages are accepted. -/
theorem deriveProjectProjections_supported
    (h : ProjectStable policy conflicts facts statuses) :
    ∀ contribution ∈
      deriveProjectProjections conflicts (snapshot facts statuses),
      contribution.directSupport ≠ ∅ := by
  rw [deriveProjectProjections_eq]
  intro contribution hmem
  obtain ⟨part, hpart, hmem⟩ := List.mem_flatMap.1 hmem
  simp only [projectParts, List.mem_cons, List.not_mem_nil, or_false] at hpart
  rcases hpart with rfl | rfl | rfl | rfl | rfl
  · exact (projectViews_sound h).consistent.supported contribution hmem
  · obtain ⟨fact, hfact, hread⟩ := List.mem_filterMap.1 hmem
    exact (inputProjections_supported h hfact hread).1
  · exact dispatchProjections_sound.consistent.supported contribution hmem
  · exact outputProjections_sound.consistent.supported contribution hmem
  · exact commandProjections_sound.consistent.supported contribution hmem

/-- Consistent project projections accept every message once. -/
theorem inputsDistinct_of_consistent
    (h : Consistent (deriveProjectProjections conflicts context)) :
    InputsDistinct context := by
  have hmem : ∀ fact ∈ context.projectedFacts, ∀ contribution,
      inputContribution fact = some contribution →
        contribution ∈ deriveProjectProjections conflicts context := by
    intro fact hfact contribution hread
    simp only [deriveProjectProjections, List.mem_append, or_assoc]
    exact Or.inr (Or.inl (List.mem_filterMap.2 ⟨fact, hfact, hread⟩))
  intro left hleft right hright messageId hleftMessage hrightMessage
  unfold acceptedMessage at hleftMessage hrightMessage
  split at hleftMessage
  next hpayload =>
    cases hleftMessage
    split at hrightMessage
    next hotherPayload =>
      cases hrightMessage
      have hagree := h.agree _ (hmem left hleft _
          (inputContribution_eq_some.2 ⟨_, _, _, _, hpayload, rfl⟩))
        _ (hmem right hright _
          (inputContribution_eq_some.2 ⟨_, _, _, _, hotherPayload, rfl⟩)) rfl
      simp only [ProjectProjection.input.injEq, ProjectInputView.mk.injEq]
        at hagree
      exact FactSet.eq_of_mem_facts_of_id_eq (mem_projectedFacts.1 hleft).1
        (mem_projectedFacts.1 hright).1 hagree.2.2.2.2
    next => cases hrightMessage
  next => cases hleftMessage

end Sound

/-- Once the decisions are stable, project reduction fails only by two
projected facts that accept one message, and then it reports unequal values
of a projection. -/
theorem project_derivation_iff {policy : AuthorityPolicy}
    {conflicts : ResourceLocator → ResourceLocator → Bool} {facts : List Fact}
    {decisions : Decisions ProjectReason}
    (hstable : stabilizeDecisions (projectReducer policy conflicts)
      (FactSet.fromFacts facts) (FactSet.fromFacts facts).graph =
        .ok decisions) :
    ((∃ report, reduceComplete (projectReducer policy conflicts) facts =
        .ok report) ↔ InputsDistinct
          (snapshot (FactSet.fromFacts facts) (statusesIn decisions))) ∧
    (reduceComplete (projectReducer policy conflicts) facts =
        .error .projectionValueConflict ↔ ¬ InputsDistinct
          (snapshot (FactSet.fromFacts facts) (statusesIn decisions))) := by
  have hfix := (stabilizeFrom_ok hstable).1
  have hproject := projectStable_of_fixed hfix
  have hreduce : reduceComplete (projectReducer policy conflicts) facts =
      deriveReport (projectReducer policy conflicts) (FactSet.fromFacts facts)
        (FactSet.fromFacts facts).graph decisions := by
    simp only [reduceComplete, reduceSet, hstable]
  have hok : InputsDistinct
      (snapshot (FactSet.fromFacts facts) (statusesIn decisions)) →
      ∃ report, reduceComplete (projectReducer policy conflicts) facts =
        .ok report := by
    intro hdistinct
    have hsound := deriveProjectProjections_sound hproject hdistinct
    obtain ⟨report, hreport, -⟩ := deriveReport_ok hfix hsound.consistent
      hsound.projected (by simp [projectReducer]) (by simp [projectReducer])
    exact ⟨report, hreduce.trans hreport⟩
  have hconflict : ¬ InputsDistinct
      (snapshot (FactSet.fromFacts facts) (statusesIn decisions)) →
      reduceComplete (projectReducer policy conflicts) facts =
        .error .projectionValueConflict := by
    intro hshared
    rw [hreduce]
    simp only [deriveReport, contextOf_eq, deriveProjections]
    cases hcollect : collectContributions ((projectReducer policy
        conflicts).projections (snapshot (FactSet.fromFacts facts)
          (statusesIn decisions))) (∅, ∅) with
    | error error =>
        rw [collectContributions_error
          (deriveProjectProjections_supported hproject) hcollect]
    | ok collected =>
        exact absurd (inputsDistinct_of_consistent
          (consistent_of_collectContributions hcollect).1) hshared
  constructor
  · refine ⟨?_, hok⟩
    rintro ⟨report, hreport⟩
    by_contra hshared
    rw [hconflict hshared] at hreport
    cases hreport
  · refine ⟨?_, hconflict⟩
    intro herror hdistinct
    obtain ⟨report, hreport⟩ := hok hdistinct
    rw [hreport] at herror
    cases herror

def sampleBody : ContentText := .ofChar '?'

/-- A question of the first installation to a project of its own. -/
def projectQuestion (id account message project : Nat) : Fact where
  id := .ofNat id
  author := signer 1
  authoredAt := ⟨0⟩
  scope := .accountAddressed (.ofNat account)
  causal := citing [(.accountMembership, account)] []
  payload := .questionAsked
    { messageId := .ofNat message
      sender := sampleMailbox
      recipient := some ⟨.ofNat 1, .ofNat project⟩
      body := sampleBody
      purpose := .question
      presentation := .message
      correlation := none
      projectId := some (.ofNat project) }
  protocol_scope := .refl false
  admissible := rfl

def firstInput : NonZeroU64 := .one

/-- The acceptance of a question as the first input of its project. -/
def inputAcceptance (id account message project question : Nat) : Fact :=
  projectTransition id account project [question] (.projectInputAccepted
    (.ofNat project) (.ofNat message) (.ofNat question) firstInput)

/-- Two projects and a question to each, accepted as its first input. -/
def acceptedQuestions (first second : Nat) : List Fact :=
  [declaration 1 1, accountCreation 20 1,
    projectCreation 30 20 (workingTree 1 'a') .opened,
    projectCreation 40 20 (workingTree 2 'b') .opened,
    projectQuestion 50 20 first 30, inputAcceptance 51 20 first 30 50,
    projectQuestion 52 20 second 40, inputAcceptance 53 20 second 40 52]

/-- The error of a reduction, if it fails. -/
def reductionError {α : Type} : Except ReduceError α → Option ReduceError
  | .error error => some error
  | .ok _ => none

/-- Questions with messages of their own leave a report. -/
theorem project_derivation_distinct :
    ∃ decisions, stabilizeDecisions (projectReducer samplePolicy pathConflicts)
      (FactSet.fromFacts (acceptedQuestions 7 8))
      (FactSet.fromFacts (acceptedQuestions 7 8)).graph = .ok decisions ∧
    InputsDistinct (snapshot (FactSet.fromFacts (acceptedQuestions 7 8))
      (statusesIn decisions)) := by
  have hnone : reductionError (reduceComplete
      (projectReducer samplePolicy pathConflicts) (acceptedQuestions 7 8)) =
      none := by
    decide +kernel
  cases hstable : stabilizeDecisions (projectReducer samplePolicy pathConflicts)
      (FactSet.fromFacts (acceptedQuestions 7 8))
      (FactSet.fromFacts (acceptedQuestions 7 8)).graph with
  | error error =>
      rw [reduceComplete, reduceSet, hstable] at hnone
      cases hnone
  | ok decisions =>
      refine ⟨decisions, rfl, (project_derivation_iff hstable).1.1 ?_⟩
      cases hreduce : reduceComplete (projectReducer samplePolicy pathConflicts)
          (acceptedQuestions 7 8) with
      | error error =>
          rw [hreduce] at hnone
          cases hnone
      | ok report => exact ⟨report, rfl⟩

/-- Two projects of one home that accept questions with one message identity
leave no report at all, although both acceptances are admitted. -/
theorem shared_message_breaks_reduction :
    (∀ id ∈ [51, 53], ((stabilizeDecisions
      (projectReducer samplePolicy pathConflicts)
      (FactSet.fromFacts (acceptedQuestions 7 7))
      (FactSet.fromFacts (acceptedQuestions 7 7)).graph).toOption.bind
        fun decisions => (statusesIn decisions).get? (.ofNat id)) =
          some .projected) ∧
    reductionError (reduceComplete (projectReducer samplePolicy pathConflicts)
      (acceptedQuestions 7 7)) = some .projectionValueConflict := by
  decide +kernel

end Hq
