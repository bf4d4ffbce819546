/-
Project projections: final project states with their resource claims and
assignments, accepted inputs, dispatches, outputs and remote commands.
-/
import Hq.Project
import Hq.AgentViews

namespace Hq

inductive ProjectAggregateKey where
  | project (id : ProjectId)
  | resource (home : InstallationId) (locator : ResourceLocator)
  | agentAssignment (home : InstallationId) (agent : AgentId)
  | input (id : MessageId)
  | dispatch (id : DispatchId)
  | output (id : MessageId)
  | command (id : CommandId)

instance : Coded ProjectAggregateKey where
  code
    | .project id => [[0], id.field]
    | .resource home locator =>
        [[1], home.field, locator.scheme.field, locator.value.field]
    | .agentAssignment home agent => [[2], home.field, agent.field]
    | .input id => [[3], id.field]
    | .dispatch id => [[4], id.field]
    | .output id => [[5], id.field]
    | .command id => [[6], id.field]
  code_injective := by
    intro left right h
    cases left <;> cases right <;>
      simp_all [OpaqueBytes.field_injective.eq_iff,
        BoundedText.field_injective.eq_iff, ResourceLocator.ext_iff,
        ResourceScheme.field_injective.eq_iff]

instance : LinearOrder ProjectAggregateKey := Coded.linearOrder _

inductive ProjectProjectionKey where
  | project (id : ProjectId)
  | input (id : MessageId)
  | dispatch (id : DispatchId)
  | output (id : MessageId)
  | command (id : CommandId)

instance : Coded ProjectProjectionKey where
  code
    | .project id => [[0], id.field]
    | .input id => [[1], id.field]
    | .dispatch id => [[2], id.field]
    | .output id => [[3], id.field]
    | .command id => [[4], id.field]
  code_injective := by
    intro left right h
    cases left <;> cases right <;>
      simp_all [OpaqueBytes.field_injective.eq_iff]

instance : LinearOrder ProjectProjectionKey := Coded.linearOrder _

structure ProjectAssignmentView where
  intent : AssignmentIntent
  binding : Option AssignmentBinding
  phase : ProjectAssignmentPhase
  cardinalityConflicted : Bool
  runnable : Bool
  support : OrderedSet FactId
deriving DecidableEq

structure ProjectView where
  root : FactId
  head : FactId
  forkParticipants : OrderedSet FactId
  home : InstallationId
  accountId : AccountId
  mailbox : MailboxAddress
  predecessor : Option ProjectId
  name : ShortText
  brief : Option ContentText
  resources : OrderedMap ResourceId ProjectResource
  primary : Option ResourceId
  lifecycle : ProjectLifecycle
  archived : Bool
  activeClaims : OrderedSet ResourceId
  claimConflicts : OrderedMap ResourceId (OrderedSet ProjectId)
  claimable : Bool
  assignment : Option ProjectAssignmentView
  inputSequence : Nat
deriving DecidableEq

structure ProjectInputView where
  projectId : ProjectId
  messageId : MessageId
  inputFactId : FactId
  sequence : NonZeroU64
  acceptedFact : FactId
deriving DecidableEq

structure ProjectDispatchView where
  dispatchId : DispatchId
  messageId : MessageId
  sequence : NonZeroU64
  binding : AssignmentBinding
  threadId : ThreadId
  factId : FactId
  conflicted : Bool
deriving DecidableEq

inductive ProjectOutputStatus where
  | current | lateFromInactive | conflicted
deriving DecidableEq

structure ProjectOutputView where
  outputId : MessageId
  dispatchId : DispatchId
  binding : AssignmentBinding
  threadId : ThreadId
  message : MessageContent
  status : ProjectOutputStatus
  facts : OrderedSet FactId
deriving DecidableEq

inductive RemoteCommandStage where
  | queued
  | received (receiptFact : FactId) (receivedHead : Option FactId)
      (receivedAt : Timestamp)
  | terminal (receiptFact : FactId) (receivedHead : Option FactId)
      (receivedAt : Timestamp) (outcomeFact : FactId)
      (result : RemoteCommandResult) (runtime : Option RuntimeObservation)
  | conflicted
deriving DecidableEq

structure RemoteCommandView where
  accountId : AccountId
  digest : CommandDigest
  projectId : ProjectId
  expectedHead : Option FactId
  targetHome : InstallationId
  operation : OperationCorrelation
  body : ContentText
  issuedAt : Timestamp
  requestFact : FactId
  stage : RemoteCommandStage
  support : OrderedSet FactId
deriving DecidableEq

inductive ProjectProjection where
  | project (view : ProjectView)
  | input (view : ProjectInputView)
  | dispatch (view : ProjectDispatchView)
  | output (view : ProjectOutputView)
  | command (view : RemoteCommandView)
deriving DecidableEq

abbrev ProjectContribution :=
  ProjectionContribution ProjectProjectionKey ProjectProjection

def projectAggregateKeys (fact : Fact) : List ProjectAggregateKey :=
  match fact.payload with
  | .projectCreated projectId _ home _ _ _ resources _ initialState =>
      .project projectId :: match initialState with
        | .opened => resources.items.map fun resource =>
            .resource home resource.canonicalLocator
        | .closed => []
  | .projectAssignmentConfiguring projectId intent =>
      [.project projectId, .agentAssignment fact.authorId intent.agentId]
  | .projectAssignmentRunnable projectId binding _ _ _ =>
      [.project projectId, .agentAssignment fact.authorId binding.agentId]
  | .projectInputAccepted projectId messageId _ _ =>
      [.project projectId, .input messageId]
  | .projectInputDispatched projectId _ _ dispatchId _ _ =>
      [.project projectId, .dispatch dispatchId]
  | .projectOutputRecorded projectId outputId _ _ _ _ =>
      [.project projectId, .output outputId]
  | .remoteProjectCommandRequested commandId ..
  | .remoteProjectCommandReceipt commandId ..
  | .remoteProjectCommandOutcome commandId .. => [.command commandId]
  | payload => (projectId payload).toList.map .project

/-! Claims and assignments across projects. -/

/-- The pairs of overlapping resources of two states. -/
def overlappingResources
    (conflicts : ResourceLocator → ResourceLocator → Bool)
    (left right : InternalProjectState) :
    List (ProjectResource × ProjectResource) :=
  left.resources.values.flatMap fun leftResource =>
    (right.resources.values.filter fun rightResource =>
      conflicts leftResource.canonicalLocator
        rightResource.canonicalLocator).map fun rightResource =>
          (leftResource, rightResource)

/-- Both directions of every overlap of a state with the later ones. -/
def claimConflictPairs (conflicts : ResourceLocator → ResourceLocator → Bool) :
    List InternalProjectState → List ((ProjectId ×ₗ ResourceId) × ProjectId)
  | [] => []
  | left :: rest =>
      (rest.flatMap fun right =>
        if left.home ≠ right.home || left.projectId = right.projectId then []
        else (overlappingResources conflicts left right).flatMap fun pair =>
          [(toLex (left.projectId, pair.1.resourceId), right.projectId),
            (toLex (right.projectId, pair.2.resourceId), left.projectId)]) ++
      claimConflictPairs conflicts rest

def claimConflictMap (conflicts : ResourceLocator → ResourceLocator → Bool)
    (states : OrderedMap ProjectId InternalProjectState) :
    OrderedMap (ProjectId ×ₗ ResourceId) (OrderedSet ProjectId) :=
  (claimConflictPairs conflicts (states.values.filter holdsResources)).foldl
    (fun map pair => map.insertMember pair.1 pair.2) ∅

def assignmentConflictMap
    (states : OrderedMap ProjectId InternalProjectState) :
    OrderedMap (InstallationId ×ₗ AgentId) (OrderedSet ProjectId) :=
  states.values.foldl (fun map state =>
    match state.assignment with
    | none => map
    | some assignment => map.insertMember
        (toLex (state.home, assignment.intent.agentId)) state.projectId) ∅

/-- The previous-state chain from a head back to its root.  The fuel bounds
the known facts on the chain. -/
def supportChain (context : ReductionContext) (root : FactId) :
    Nat → Option FactId → OrderedSet FactId → OrderedSet FactId
  | 0, _, support => support
  | _, none, support => support
  | fuel + 1, some id, support =>
      if id ∈ support || id = root then support.insert id
      else supportChain context root fuel
        ((context.facts.get? id).bind fun fact =>
          fact.causal.authority .previousState) (support.insert id)

def projectSupport (state : InternalProjectState)
    (context : ReductionContext) : OrderedSet FactId :=
  supportChain context state.root (context.facts.entries.size + 1)
    (some state.head) ∅

def expandDirectSupport (support : OrderedSet FactId)
    (context : ReductionContext) : OrderedSet FactId :=
  support.extend (support.toList.flatMap fun id =>
    match context.facts.get? id with
    | none => []
    | some fact => fact.causal.parents.toList.filter context.isProjected)

def forkParticipants (head : FactId) (projectId : ProjectId)
    (context : ReductionContext) : OrderedSet FactId :=
  OrderedSet.ofList ((context.facts.facts.filter fun candidate =>
    candidate.causal.authority .previousState = some head &&
      projectIdOf candidate = some projectId &&
      context.statuses.get? candidate.id = some .conflicted).map Fact.id)

/-- The heads of some projects. -/
def headsOf (states : OrderedMap ProjectId InternalProjectState)
    (projects : List ProjectId) : List FactId :=
  projects.filterMap fun project =>
    (states.get? project).map InternalProjectState.head

/-- The claim conflicts of one project, by resource. -/
def projectClaimConflicts
    (claims : OrderedMap (ProjectId ×ₗ ResourceId) (OrderedSet ProjectId))
    (projectId : ProjectId) : OrderedMap ResourceId (OrderedSet ProjectId) :=
  OrderedMap.ofList (claims.entries.filterMap fun entry =>
    if (ofLex entry.1).1 = projectId then some ((ofLex entry.1).2, entry.2)
    else none)

def isRunnablePhase : ProjectAssignmentPhase → Bool
  | .runnable .. => true
  | _ => false

def projectContribution (context : ReductionContext)
    (states : OrderedMap ProjectId InternalProjectState)
    (claims : OrderedMap (ProjectId ×ₗ ResourceId) (OrderedSet ProjectId))
    (assignments : OrderedMap (InstallationId ×ₗ AgentId)
      (OrderedSet ProjectId)) (state : InternalProjectState) :
    ProjectContribution :=
  let claimConflicts := projectClaimConflicts claims state.projectId
  let claimable := claimConflicts.keys.isEmpty
  let holders (assignment : InternalAssignment) : OrderedSet ProjectId :=
    (assignments.get? (toLex (state.home, assignment.intent.agentId))).getD ∅
  let assignment := state.assignment.map fun assignment =>
    let cardinalityConflicted := 1 < (holders assignment).size
    { intent := assignment.intent
      binding := assignment.binding
      phase := assignment.phase
      cardinalityConflicted
      runnable := !cardinalityConflicted && claimable &&
        state.lifecycle = .opened && isRunnablePhase assignment.phase
      support := assignment.support : ProjectAssignmentView }
  let support := ((projectSupport state context).extend
    (headsOf states (claimConflicts.values.flatMap OrderedSet.toList))).extend
    (headsOf states (state.assignment.toList.flatMap fun assignment =>
      (holders assignment).toList))
  ⟨.project state.projectId,
    .project
      { root := state.root
        head := state.head
        forkParticipants := forkParticipants state.head state.projectId context
        home := state.home
        accountId := state.accountId
        mailbox := ⟨state.home, state.mailboxId⟩
        predecessor := state.predecessor
        name := state.name
        brief := state.brief
        resources := state.resources
        primary := state.primary
        lifecycle := state.lifecycle
        archived := state.archived
        activeClaims :=
          if claimable && holdsResources state then state.resources.keys else ∅
        claimConflicts, claimable, assignment
        inputSequence := state.inputSequence },
    expandDirectSupport support context⟩

/-! Inputs, dispatches, outputs and commands. -/

def inputContribution (fact : Fact) : Option ProjectContribution :=
  match fact.payload with
  | .projectInputAccepted projectId messageId inputFactId sequence =>
      some ⟨.input messageId,
        .input ⟨projectId, messageId, inputFactId, sequence, fact.id⟩,
        OrderedSet.ofList [fact.id, inputFactId]⟩
  | _ => none

def inputProjections (context : ReductionContext) : List ProjectContribution :=
  context.projectedFacts.filterMap inputContribution

/-- The facts of a group in identity order. -/
def groupMembers (context : ReductionContext) (ids : OrderedSet FactId) :
    List Fact :=
  ids.toList.filterMap context.facts.get?

def dispatchOf (fact : Fact) : Option DispatchId :=
  match fact.payload with
  | .projectInputDispatched _ _ _ dispatchId _ _ => some dispatchId
  | _ => none

/-- Some member of a group differs from its first one. -/
def payloadsDiffer (first : Fact) (facts : List Fact) : Bool :=
  facts.any fun candidate => candidate.payload ≠ first.payload

def dispatchProjections (context : ReductionContext) :
    List ProjectContribution :=
  (groupFacts dispatchOf context.projectedFacts).entries.filterMap fun entry =>
    match groupMembers context entry.2 with
    | [] => none
    | first :: rest =>
        match first.payload with
        | .projectInputDispatched _ messageId sequence _ binding threadId =>
            some ⟨.dispatch entry.1,
              .dispatch ⟨entry.1, messageId, sequence, binding, threadId,
                first.id, payloadsDiffer first (first :: rest)⟩, entry.2⟩
        | _ => none

def outputOf (fact : Fact) : Option MessageId :=
  match fact.payload with
  | .projectOutputRecorded _ outputId _ _ _ _ => some outputId
  | _ => none

/-- The assignment of an output had ended above it. -/
def inactiveBefore (projectId : ProjectId) (assignmentId : AssignmentId)
    (output : FactId) (context : ReductionContext) : Bool :=
  context.projectedFacts.any fun candidate =>
    (match candidate.payload with
      | .projectAssignmentEnded endedProject endedAssignment _ _ =>
          endedProject = projectId && endedAssignment = assignmentId
      | _ => false) &&
      context.graph.structurallyReaches candidate.id output

def outputProjections (context : ReductionContext) :
    List ProjectContribution :=
  (groupFacts outputOf context.projectedFacts).entries.filterMap fun entry =>
    match groupMembers context entry.2 with
    | [] => none
    | first :: rest =>
        match first.payload with
        | .projectOutputRecorded projectId _ dispatchId binding threadId
            message =>
            let status : ProjectOutputStatus :=
              if payloadsDiffer first (first :: rest) then .conflicted
              else if inactiveBefore projectId binding.assignmentId first.id
                context then .lateFromInactive
              else .current
            some ⟨.output entry.1,
              .output ⟨entry.1, dispatchId, binding, threadId, message, status,
                entry.2⟩, entry.2⟩
        | _ => none

def commandOf (fact : Fact) : Option CommandId :=
  match fact.payload with
  | .remoteProjectCommandRequested commandId ..
  | .remoteProjectCommandReceipt commandId ..
  | .remoteProjectCommandOutcome commandId .. => some commandId
  | _ => none

def remoteReceipts (facts : List Fact) :
    List (Fact × Option FactId × Timestamp) :=
  facts.filterMap fun fact =>
    match fact.payload with
    | .remoteProjectCommandReceipt _ _ _ receivedHead receivedAt =>
        some (fact, receivedHead, receivedAt)
    | _ => none

def remoteOutcomes (facts : List Fact) :
    List (Fact × RemoteCommandResult × Option RuntimeObservation) :=
  facts.filterMap fun fact =>
    match fact.payload with
    | .remoteProjectCommandOutcome _ _ _ result runtime =>
        some (fact, result, runtime)
    | _ => none

/-- Two neighbours of a list carry unequal values. -/
def neighboursDiffer {α : Type} [DecidableEq α] (values : List (Fact × α)) :
    Bool :=
  (values.zip values.tail).any fun pair => pair.1.2 ≠ pair.2.2

def remoteStage (facts : List Fact) : RemoteCommandStage :=
  let receipts := remoteReceipts facts
  let outcomes := remoteOutcomes facts
  if neighboursDiffer outcomes || neighboursDiffer receipts then .conflicted
  else
    match outcomes, receipts with
    | (outcome, result, runtime) :: _, (receipt, head, receivedAt) :: _ =>
        .terminal receipt.id head receivedAt outcome.id result runtime
    | [], (receipt, head, receivedAt) :: _ =>
        .received receipt.id head receivedAt
    | _, [] => .queued

def citedRequest (facts : List Fact) : Option FactId :=
  ((remoteReceipts facts).head?.bind fun receipt =>
    receipt.1.causal.authority .request).or
  ((remoteOutcomes facts).head?.bind fun outcome =>
    outcome.1.causal.authority .request)

def remoteRequestProjection (cited : Option FactId)
    (stage : RemoteCommandStage) (support : OrderedSet FactId) (fact : Fact) :
    Option RemoteCommandView :=
  match fact.payload, fact.scope with
  | .remoteProjectCommandRequested _ digest projectId targetHome expectedHead
      operation body, .remoteControl accountId _ =>
      if cited.all (· = fact.id) then
        some
          { accountId, digest, projectId, expectedHead, targetHome, operation
            body, issuedAt := fact.authoredAt, requestFact := fact.id, stage
            support }
      else none
  | _, _ => none

def commandProjections (context : ReductionContext) :
    List ProjectContribution :=
  (groupFacts commandOf context.projectedFacts).entries.filterMap fun entry =>
    let facts := groupMembers context entry.2
    (facts.findSome? (remoteRequestProjection (citedRequest facts)
      (remoteStage facts) entry.2)).map fun view =>
        ⟨.command entry.1, .command view, entry.2⟩

def deriveProjectProjections
    (conflicts : ResourceLocator → ResourceLocator → Bool)
    (context : ReductionContext) : List ProjectContribution :=
  let states := finalStates context
  let claims := claimConflictMap conflicts states
  let assignments := assignmentConflictMap states
  states.values.map (projectContribution context states claims assignments) ++
    inputProjections context ++ dispatchProjections context ++
    outputProjections context ++ commandProjections context

def deriveProjectConflicts
    (conflicts : ResourceLocator → ResourceLocator → Bool)
    (context : ReductionContext) : List (ConflictObservation ProjectReason) :=
  let states := finalStates context
  (claimConflictMap conflicts states).entries.map (fun entry =>
    ⟨.domain .resourceClaimConflict, OrderedSet.ofList
      (headsOf states ((ofLex entry.1).1 :: entry.2.toList))⟩) ++
  ((assignmentConflictMap states).values.filter fun projects =>
    1 < projects.size).map fun projects =>
      ⟨.domain .assignmentCardinalityConflict,
        OrderedSet.ofList (headsOf states projects.toList)⟩

def projectReducer (policy : AuthorityPolicy)
    (conflicts : ResourceLocator → ResourceLocator → Bool) :
    DomainReducer ProjectAggregateKey ProjectProjectionKey ProjectProjection
      ProjectReason where
  classify fact context := classifyProjectFact policy conflicts fact context
  aggregateKeys fact _ := projectAggregateKeys fact
  projections context := deriveProjectProjections conflicts context
  conflicts context := deriveProjectConflicts conflicts context
  presentationEntries _ := []

end Hq
