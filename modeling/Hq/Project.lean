/-
Project classification: a home-linear log of transitions below a unique
creation, with resource claims, assignments, accepted inputs, dispatches,
outputs and remote-control commands.
-/
import Hq.Agent

namespace Hq

inductive ProjectReason where
  | authority (reason : AuthorityReason)
  | subjectMismatch
  | projectAuthorityMismatch
  | projectIdentityConflict
  | homeLinearFork
  | staleHead
  | invalidTransition
  | resourceInvariant
  | resourceClaimConflict
  | assignmentCardinalityConflict
  | assignmentBindingMismatch
  | inputSequenceConflict
  | dispatchConflict
  | outputConflict
  | remoteCommandConflict
deriving DecidableEq

instance : FieldCoded ProjectReason where
  field
    | .authority reason => 0 :: FieldCoded.field reason
    | .subjectMismatch => [1]
    | .projectAuthorityMismatch => [2]
    | .projectIdentityConflict => [3]
    | .homeLinearFork => [4]
    | .staleHead => [5]
    | .invalidTransition => [6]
    | .resourceInvariant => [7]
    | .resourceClaimConflict => [8]
    | .assignmentCardinalityConflict => [9]
    | .assignmentBindingMismatch => [10]
    | .inputSequenceConflict => [11]
    | .dispatchConflict => [12]
    | .outputConflict => [13]
    | .remoteCommandConflict => [14]
  field_injective := by
    intro left right h
    cases left <;> cases right <;>
      simp_all [FieldCoded.field_injective.eq_iff]

inductive ProjectLifecycle where
  | opened | closing | closed
deriving DecidableEq

inductive ProjectAssignmentPhase where
  | configuring
  | runnable (threadId : ThreadId) (launchDirectory : ResourceLocator)
  | blocked (cause : ErrorCode)
deriving DecidableEq

structure InternalAssignment where
  intent : AssignmentIntent
  binding : Option AssignmentBinding
  phase : ProjectAssignmentPhase
  support : OrderedSet FactId
deriving DecidableEq

/-- The state of a project after a prefix of its log. -/
structure InternalProjectState where
  projectId : ProjectId
  root : FactId
  head : FactId
  home : InstallationId
  accountId : AccountId
  mailboxId : MailboxId
  predecessor : Option ProjectId
  name : ShortText
  brief : Option ContentText
  resources : OrderedMap ResourceId ProjectResource
  primary : Option ResourceId
  lifecycle : ProjectLifecycle
  archived : Bool
  assignment : Option InternalAssignment
  inputSequence : Nat
deriving DecidableEq

/-! Path resources. -/

def trimEndSlashes (path : List Char) : List Char :=
  (path.reverse.dropWhile fun char => char = '/').reverse

def pathContains (parent candidate : List Char) : Bool :=
  let parent := trimEndSlashes parent
  let candidate := trimEndSlashes candidate
  parent = candidate ||
    (parent.isPrefixOf candidate &&
      (candidate.drop parent.length).head? = some '/')

/-- The overlap rule of path resources. -/
def pathConflicts (left right : ResourceLocator) : Bool :=
  if left.scheme ≠ .workingTree || right.scheme ≠ .workingTree then
    left = right
  else pathContains left.value.chars right.value.chars ||
    pathContains right.value.chars left.value.chars

def validAbsolutePath (path : List Char) : Bool :=
  path.head? = some '/' && '\x00' ∉ path &&
    (path = ['/'] || (path.getLast? ≠ some '/' &&
      !(path.zip path.tail).any fun pair => pair.1 = '/' && pair.2 = '/')) &&
    !(path.splitOn '/').any fun component =>
      component = ['.'] || component = ['.', '.']

def validPathResource (resource : ProjectResource) : Bool :=
  resource.displayLocator.scheme = .workingTree &&
    resource.canonicalLocator.scheme = .workingTree &&
    validAbsolutePath resource.displayLocator.value.chars &&
    validAbsolutePath resource.canonicalLocator.value.chars

/-! Project subjects. -/

def projectId : SemanticPayload → Option ProjectId
  | .projectCreated id .. | .projectOpened id | .projectClosingStarted id
  | .projectClosed id .. | .projectArchived id | .projectUnarchived id
  | .projectMetadataUpdated id .. | .projectResourceAdded id ..
  | .projectResourceRemoved id .. | .projectResourceReplaced id ..
  | .projectPrimaryResourceChanged id _
  | .projectResourceHealthObserved id .. | .projectAssignmentConfiguring id _
  | .projectAssignmentRunnable id .. | .projectAssignmentBlocked id ..
  | .projectAssignmentEnded id .. | .projectInputAccepted id ..
  | .projectInputDispatched id .. | .projectOutputRecorded id ..
  | .remoteProjectCommandRequested _ _ id ..
  | .remoteProjectCommandReceipt _ _ id ..
  | .remoteProjectCommandOutcome _ _ id .. => some id
  | _ => none

def projectIdOf (fact : Fact) : Option ProjectId := projectId fact.payload

/-- A canonical project fact: every family with a project that is not a
remote-control record. -/
def isHomeFact (payload : SemanticPayload) : Bool :=
  (projectId payload).isSome && !payload.isRemoteControl

abbrev ClassificationError := ProjectReason × OrderedSet FactId

def invalid (reason : ProjectReason) : ClassificationError := (reason, ∅)

/-- A parent that is retained, projected and passes a test. -/
def hasParent (fact : Fact) (context : ReductionContext)
    (test : Fact → Bool) : Bool :=
  fact.causal.parents.toList.any fun parent =>
    (context.facts.get? parent).any fun candidate =>
      context.isProjected candidate.id && test candidate

def validProjectHome (fact : Fact) (home : InstallationId)
    (context : ReductionContext) : Bool :=
  ((fact.causal.authority .projectHome).bind context.facts.get?).any
    fun root => context.isProjected root.id && root.author = fact.author &&
      declaresInstallation home root

def validActiveHuman (fact : Fact) (context : ReductionContext) : Bool :=
  match fact.causal.authority .activeHuman with
  | none => false
  | some active =>
      fact.causal.authority .accountMembership = some active &&
        context.isProjected active

def requireActiveHuman (fact : Fact) (context : ReductionContext) :
    Except ClassificationError Unit :=
  require (validActiveHuman fact context) (invalid .projectAuthorityMismatch)

def createsProject (projectId : ProjectId) (candidate : Fact) : Bool :=
  match candidate.payload with
  | .projectCreated candidateId .. => candidateId = projectId
  | _ => false

/-- Another creation of the same project, or of a project behind the same
mailbox at the same home. -/
def creationParticipants (projectId : ProjectId) (mailboxId : MailboxId)
    (home : InstallationId) (context : ReductionContext) :
    OrderedSet FactId :=
  OrderedSet.ofList ((context.facts.facts.filter fun candidate =>
    match candidate.payload with
    | .projectCreated candidateId candidateMailbox candidateHome .. =>
        candidateId = projectId ||
          (candidateHome = home && candidateMailbox = mailboxId)
    | _ => false).map Fact.id)

def validateCreation (fact : Fact) (projectId : ProjectId)
    (mailboxId : MailboxId) (home : InstallationId)
    (predecessor : Option ProjectId) (resources : List ProjectResource)
    (primary : Option ResourceId) (context : ReductionContext) :
    Except ClassificationError Unit := do
  -- A name is a bounded text, so the source's test for an empty one passes.
  require (fact.authorId = home &&
    (match fact.scope with
      | .accountAddressed _ => true
      | _ => false) &&
    validProjectHome fact home context && validActiveHuman fact context)
    (invalid .projectAuthorityMismatch)
  let resourceIds := OrderedSet.ofList
    (resources.map ProjectResource.resourceId)
  require (resourceIds.size = resources.length &&
    resources.all validPathResource &&
    primary.all fun id => id ∈ resourceIds) (invalid .resourceInvariant)
  require (predecessor.all fun predecessor =>
    hasParent fact context (createsProject predecessor))
    (invalid .subjectMismatch)
  let participants := creationParticipants projectId mailboxId home context
  require (!(1 < participants.size)) (.projectIdentityConflict, participants)

/-! Agents, threads and inputs cited by a transition. -/

def claimedAt (agentId : AgentId) (home : InstallationId) (candidate : Fact) :
    Option MailboxAddress :=
  if candidate.authorId = home then
    (claimedMailbox agentId candidate).map fun mailboxId => ⟨home, mailboxId⟩
  else none

def uniqueAgentMailbox (agentId : AgentId) (home : InstallationId)
    (context : ReductionContext) : Option MailboxAddress :=
  match (OrderedSet.ofList
      (context.projectedFacts.filterMap (claimedAt agentId home))).toList with
  | [mailbox] => some mailbox
  | _ => none

def validAgentParent (fact : Fact) (requestedAgent : AgentId)
    (home : InstallationId) (context : ReductionContext) : Bool :=
  match uniqueAgentMailbox requestedAgent home context with
  | none => false
  | some mailbox =>
      hasParent fact context (fun candidate =>
        claimedMailbox requestedAgent candidate = some mailbox.mailboxId) &&
      !context.projectedFacts.any fun candidate =>
        retiresAgent requestedAgent candidate &&
          !context.graph.structurallyReaches fact.id candidate.id

def validProjectThread (fact : Fact) (thread : ThreadId)
    (projectId : ProjectId) (home : InstallationId) (mailboxId : MailboxId)
    (context : ReductionContext) : Bool :=
  hasParent fact context fun candidate =>
    threadOfFact candidate.id = thread &&
      (messageContent candidate).any fun message =>
        message.projectId = some projectId &&
          message.recipient = some ⟨home, mailboxId⟩

def projectInputMessage : SemanticPayload → Option MessageContent
  | .questionAsked message =>
      if message.purpose = .question then some message else none
  | .asynchronousMessageSent _ message =>
      if message.purpose = .asynchronous then some message else none
  | _ => none

def validProjectInput (fact : Fact) (inputFactId : FactId)
    (messageId : MessageId) (project : InternalProjectState)
    (context : ReductionContext) : Bool :=
  inputFactId ∈ fact.causal.parents &&
    (context.facts.get? inputFactId).any fun candidate =>
      context.isProjected candidate.id &&
        candidate.scope = .accountAddressed project.accountId &&
        (projectInputMessage candidate.payload).any fun message =>
          message.messageId = messageId &&
            message.projectId = some project.projectId &&
            message.recipient = some ⟨project.home, project.mailboxId⟩

def validAcceptanceParent (fact : Fact) (messageId : MessageId)
    (sequence : NonZeroU64) (context : ReductionContext) : Bool :=
  hasParent fact context fun candidate =>
    match candidate.payload with
    | .projectInputAccepted _ candidateMessage _ candidateSequence =>
        candidateMessage = messageId && candidateSequence = sequence
    | _ => false

def validDispatchParent (fact : Fact) (dispatchId : DispatchId)
    (binding : AssignmentBinding) (thread : ThreadId)
    (context : ReductionContext) : Bool :=
  hasParent fact context fun candidate =>
    match candidate.payload with
    | .projectInputDispatched _ _ _ candidateDispatch candidateBinding
        candidateThread =>
        candidateDispatch = dispatchId && candidateBinding = binding &&
          candidateThread = thread
    | _ => false

/-! One transition of a project log. -/

/-- The guard and effect of a transition on a state. -/
def transition (guard : Bool) (reason : ProjectReason)
    (next : InternalProjectState) :
    Except ClassificationError InternalProjectState := do
  require guard (invalid reason)
  .ok next

/-- A transition that an active human must authorise. -/
def humanTransition (fact : Fact) (context : ReductionContext) (guard : Bool)
    (reason : ProjectReason) (next : InternalProjectState) :
    Except ClassificationError InternalProjectState := do
  requireActiveHuman fact context
  transition guard reason next

def addResource (state : InternalProjectState) (resource : ProjectResource)
    (makePrimary : Bool) : InternalProjectState :=
  { state with
    resources := state.resources.insert resource.resourceId resource
    primary := if makePrimary then some resource.resourceId else state.primary }

def removeResource (state : InternalProjectState) (resourceId : ResourceId) :
    InternalProjectState :=
  let resources := state.resources.erase resourceId
  { state with
    resources
    primary := if state.primary = some resourceId then
        resources.keys.toList.head?
      else state.primary }

def replaceResource (state : InternalProjectState) (oldId : ResourceId)
    (resource : ProjectResource) : InternalProjectState :=
  { state with
    resources :=
      (state.resources.erase oldId).insert resource.resourceId resource
    primary := if state.primary = some oldId then some resource.resourceId
      else state.primary }

def canBecomeRunnable : ProjectAssignmentPhase → Bool
  | .configuring | .blocked _ => true
  | .runnable .. => false

def isRunnableOn (thread : ThreadId) : ProjectAssignmentPhase → Bool
  | .runnable active _ => active = thread
  | _ => false

/-- The family-specific part of a transition. -/
def applyFamily (state : InternalProjectState) (fact : Fact)
    (context : ReductionContext) :
    Except ClassificationError InternalProjectState :=
  match fact.payload with
  | .projectOpened _ =>
      humanTransition fact context
        (state.lifecycle = .closed && !state.archived) .invalidTransition
        { state with lifecycle := .opened }
  | .projectClosingStarted _ =>
      humanTransition fact context (state.lifecycle = .opened)
        .invalidTransition { state with lifecycle := .closing }
  | .projectClosed .. =>
      humanTransition fact context
        (state.lifecycle = .closing && state.assignment.isNone)
        .invalidTransition { state with lifecycle := .closed }
  | .projectArchived _ =>
      humanTransition fact context (state.lifecycle = .closed &&
        !state.archived && state.assignment.isNone) .invalidTransition
        { state with archived := true }
  | .projectUnarchived _ =>
      humanTransition fact context
        (state.lifecycle = .closed && state.archived) .invalidTransition
        { state with archived := false }
  | .projectMetadataUpdated _ name brief =>
      humanTransition fact context true .invalidTransition
        { state with name, brief }
  | .projectResourceAdded _ resource makePrimary =>
      humanTransition fact context (validPathResource resource &&
        !state.resources.contains resource.resourceId) .resourceInvariant
        (addResource state resource makePrimary)
  | .projectResourceRemoved _ resourceId force =>
      humanTransition fact context (state.resources.contains resourceId &&
        (state.assignment.isNone || force)) .resourceInvariant
        (removeResource state resourceId)
  | .projectResourceReplaced _ oldId resource =>
      humanTransition fact context (validPathResource resource &&
        state.resources.contains oldId &&
        (oldId = resource.resourceId ||
          !state.resources.contains resource.resourceId)) .resourceInvariant
        (replaceResource state oldId resource)
  | .projectPrimaryResourceChanged _ resourceId =>
      humanTransition fact context (state.resources.contains resourceId)
        .resourceInvariant { state with primary := some resourceId }
  | .projectResourceHealthObserved _ resourceId health _ _ =>
      match state.resources.get? resourceId with
      | none => .error (invalid .resourceInvariant)
      | some resource => .ok { state with
          resources :=
            state.resources.insert resourceId { resource with health } }
  | .projectAssignmentConfiguring _ intent => do
      requireActiveHuman fact context
      require (state.lifecycle = .opened && state.assignment.isNone)
        (invalid .invalidTransition)
      transition (validAgentParent fact intent.agentId state.home context)
        .assignmentBindingMismatch
        { state with
          assignment :=
            some ⟨intent, none, .configuring, OrderedSet.ofList [fact.id]⟩ }
  | .projectAssignmentRunnable _ binding thread launchDirectory _ =>
      match state.assignment with
      | none => .error (invalid .assignmentBindingMismatch)
      | some assignment =>
          transition (assignment.intent.assignmentId = binding.assignmentId &&
            assignment.intent.agentId = binding.agentId &&
            assignment.intent.provider = binding.provider &&
            canBecomeRunnable assignment.phase &&
            validAgentParent fact binding.agentId state.home context &&
            validProjectThread fact thread state.projectId state.home
              state.mailboxId context) .assignmentBindingMismatch
            { state with
              assignment := some ⟨assignment.intent, some binding,
                .runnable thread launchDirectory,
                assignment.support.insert fact.id⟩ }
  | .projectAssignmentBlocked _ assignmentId cause =>
      match state.assignment with
      | none => .error (invalid .assignmentBindingMismatch)
      | some assignment =>
          transition (assignment.intent.assignmentId = assignmentId)
            .assignmentBindingMismatch
            { state with
              assignment := some { assignment with
                phase := .blocked cause
                support := assignment.support.insert fact.id } }
  | .projectAssignmentEnded _ assignmentId forced _ => do
      require (!forced || validActiveHuman fact context)
        (invalid .projectAuthorityMismatch)
      transition (state.assignment.any fun assignment =>
          assignment.intent.assignmentId = assignmentId)
        .assignmentBindingMismatch { state with assignment := none }
  | .projectInputAccepted _ messageId inputFactId sequence =>
      transition (sequence.value = state.inputSequence + 1 &&
        validProjectInput fact inputFactId messageId state context)
        .inputSequenceConflict { state with inputSequence := sequence.value }
  | .projectInputDispatched _ messageId sequence _ binding thread =>
      match state.assignment with
      | none => .error (invalid .assignmentBindingMismatch)
      | some assignment =>
          transition (state.lifecycle = .opened &&
            assignment.binding = some binding &&
            isRunnableOn thread assignment.phase &&
            validAcceptanceParent fact messageId sequence context)
            .dispatchConflict state
  | .projectOutputRecorded _ _ dispatchId binding thread message =>
      transition (validDispatchParent fact dispatchId binding thread context &&
        message.recipient = some ⟨state.home, state.mailboxId⟩ &&
        uniqueAgentMailbox binding.agentId state.home context =
          some message.sender) .outputConflict state
  | _ => .ok state

def applyPayload (state : InternalProjectState) (fact : Fact)
    (context : ReductionContext) :
    Except ClassificationError InternalProjectState := do
  let next ← applyFamily state fact context
  .ok { next with head := fact.id }

/-- The state a creation starts from. -/
def creationState (fact : Fact) : Option InternalProjectState :=
  match fact.payload, fact.scope with
  | .projectCreated projectId mailboxId home name brief predecessor resources
      primary initialState, .accountAddressed accountId =>
      some
        { projectId, root := fact.id, head := fact.id, home, accountId
          mailboxId, predecessor, name, brief
          resources := OrderedMap.ofList (resources.items.map fun resource =>
            (resource.resourceId, resource))
          primary
          lifecycle := match initialState with
            | .opened => .opened
            | .closed => .closed
          archived := false, assignment := none, inputSequence := 0 }
  | _, _ => none

def isCreation (payload : SemanticPayload) : Bool :=
  match payload with
  | .projectCreated .. => true
  | _ => false

/-- The state after a projected fact, replayed from its creation along the
previous-state chain.  The fuel bounds the length of the chain. -/
def stateAtWithin (context : ReductionContext) :
    Nat → FactId → Option InternalProjectState
  | 0, _ => none
  | fuel + 1, id =>
      match context.facts.get? id with
      | none => none
      | some fact =>
          if !context.isProjected id then none
          else if isCreation fact.payload then creationState fact
          else if isHomeFact fact.payload then
            match fact.causal.authority .previousState with
            | none => none
            | some previous =>
                match stateAtWithin context fuel previous with
                | none => none
                | some state => (applyPayload state fact context).toOption
          else none

def stateAt (context : ReductionContext) (id : FactId) :
    Option InternalProjectState :=
  stateAtWithin context context.facts.entries.size id

/-- The projected successors of a head in its project. -/
def projectChildren (context : ReductionContext)
    (state : InternalProjectState) : List Fact :=
  context.facts.facts.filter fun candidate =>
    context.isProjected candidate.id &&
      candidate.causal.authority .previousState = some state.head &&
      projectIdOf candidate = some state.projectId

/-- Follow the only projected successor while there is exactly one. -/
def advanceState (context : ReductionContext) :
    Nat → InternalProjectState → InternalProjectState
  | 0, state => state
  | fuel + 1, state =>
      match projectChildren context state with
      | [child] =>
          match stateAt context child.id with
          | none => state
          | some next => advanceState context fuel next
      | _ => state

/-- The furthest admitted state of every created project. -/
def finalStates (context : ReductionContext) :
    OrderedMap ProjectId InternalProjectState :=
  (context.facts.facts.filter fun fact =>
    context.isProjected fact.id && isCreation fact.payload).foldl
      (fun states root =>
        match stateAt context root.id with
        | none => states
        | some state =>
            let final := advanceState context context.facts.entries.size state
            states.insert final.projectId final) ∅

/-! Conflicts of a transition with other facts. -/

inductive StableIdentity where
  | input (projectId : ProjectId) (messageId : MessageId)
      (inputFactId : FactId) (sequence : NonZeroU64)
  | dispatch (projectId : ProjectId) (messageId : MessageId)
      (sequence : NonZeroU64) (dispatchId : DispatchId)
  | output (outputId : MessageId)

def StableIdentity.matchesFact (identity : StableIdentity)
    (candidate : Fact) : Bool :=
  match identity, candidate.payload with
  | .input projectId messageId inputFactId sequence,
    .projectInputAccepted candidateProject candidateMessage candidateInput
      candidateSequence =>
      candidateProject = projectId && (candidateMessage = messageId ||
        candidateInput = inputFactId || candidateSequence = sequence)
  | .dispatch projectId messageId sequence dispatchId,
    .projectInputDispatched candidateProject candidateMessage
      candidateSequence candidateDispatch _ _ =>
      candidateProject = projectId && (candidateDispatch = dispatchId ||
        candidateMessage = messageId || candidateSequence = sequence)
  | .output outputId, .projectOutputRecorded _ candidate _ _ _ _ =>
      candidate = outputId
  | _, _ => false

/-- The stable identity of a fact and the reason its conflicts carry. -/
def stableIdentity : SemanticPayload → Option (ProjectReason × StableIdentity)
  | .projectInputAccepted projectId messageId inputFactId sequence =>
      some (.inputSequenceConflict,
        .input projectId messageId inputFactId sequence)
  | .projectInputDispatched projectId messageId sequence dispatchId _ _ =>
      some (.dispatchConflict,
        .dispatch projectId messageId sequence dispatchId)
  | .projectOutputRecorded _ outputId _ _ _ _ =>
      some (.outputConflict, .output outputId)
  | _ => none

def stableIdentityConflict (fact : Fact) (context : ReductionContext) :
    Option ClassificationError :=
  match stableIdentity fact.payload with
  | none => none
  | some (reason, identity) =>
      let participants := OrderedSet.ofList
        (fact.id :: (context.facts.facts.filter fun candidate =>
          identity.matchesFact candidate &&
            candidate.payload ≠ fact.payload).map Fact.id)
      if 1 < participants.size then some (reason, participants) else none

/-- A sibling counts unless its current decision already excludes it. -/
def mayFork (context : ReductionContext) (id : FactId) : Bool :=
  match context.statuses.get? id with
  | some .invalid | some .unauthorized | some .unsupported
  | some .unresolved => false
  | _ => true

def siblingParticipants (fact : Fact) (projectId : ProjectId)
    (previous : FactId) (context : ReductionContext) : OrderedSet FactId :=
  OrderedSet.ofList
    (fact.id :: (context.facts.facts.filter fun candidate =>
      projectIdOf candidate = some projectId &&
        candidate.causal.authority .previousState = some previous &&
        candidate.id ≠ fact.id && mayFork context candidate.id).map Fact.id)

/-- Open and closing projects hold their resources. -/
def holdsResources (state : InternalProjectState) : Bool :=
  state.lifecycle = .opened || state.lifecycle = .closing

/-- Some resource of one state overlaps some resource of another. -/
def resourcesOverlap (conflicts : ResourceLocator → ResourceLocator → Bool)
    (left right : InternalProjectState) : Bool :=
  left.resources.values.any fun leftResource =>
    right.resources.values.any fun rightResource =>
      conflicts leftResource.canonicalLocator rightResource.canonicalLocator

def claimConflictParticipants
    (conflicts : ResourceLocator → ResourceLocator → Bool)
    (candidate : InternalProjectState) (candidateFact : FactId)
    (context : ReductionContext) : OrderedSet FactId :=
  OrderedSet.ofList ((finalStates context).values.flatMap fun other =>
    if other.projectId ≠ candidate.projectId && other.home = candidate.home &&
        holdsResources other && resourcesOverlap conflicts candidate other then
      [candidateFact, other.head]
    else [])

def isOpening : SemanticPayload → Bool
  | .projectOpened _ => true
  | _ => false

def validateHomeTransition
    (conflicts : ResourceLocator → ResourceLocator → Bool) (fact : Fact)
    (projectId : ProjectId) (context : ReductionContext) :
    Except ClassificationError Unit :=
  match fact.causal.authority .previousState with
  | none => .error (invalid .projectAuthorityMismatch)
  | some previous => do
      require (previous ∈ fact.causal.parents && context.isProjected previous)
        (invalid .staleHead)
      match (stateAt context previous).filter fun state =>
          state.projectId = projectId with
      | none => .error (invalid .staleHead)
      | some state => do
          require (fact.authorId = state.home &&
            validProjectHome fact state.home context)
            (invalid .projectAuthorityMismatch)
          match stableIdentityConflict fact context with
          | some error => .error error
          | none => do
              let siblings :=
                siblingParticipants fact projectId previous context
              require (!(1 < siblings.size)) (.homeLinearFork, siblings)
              let next ← applyPayload state fact context
              let claims := if isOpening fact.payload then
                  claimConflictParticipants conflicts next fact.id context
                else ∅
              require claims.isEmpty (.resourceClaimConflict, claims)

/-! Remote-control records. -/

/-- A named head, when given, belongs to the project. -/
def headOfProject (head : Option FactId) (projectId : ProjectId)
    (context : ReductionContext) : Bool :=
  head.all fun head => (context.facts.get? head).any fun candidate =>
    projectIdOf candidate = some projectId

def requestsCommand (commandId : CommandId) (candidate : Fact) : Bool :=
  match candidate.payload with
  | .remoteProjectCommandRequested candidateCommand .. =>
      candidateCommand = commandId
  | _ => false

def sameRemoteRequest (first other : Fact) : Bool :=
  first.payload = other.payload && first.scope = other.scope &&
    first.authoredAt = other.authoredAt

def remoteIdentityParticipants (commandId : CommandId)
    (context : ReductionContext) : OrderedSet FactId :=
  match context.facts.facts.filter (requestsCommand commandId) with
  | [] => ∅
  | first :: rest =>
      if (first :: rest).any fun request => !sameRemoteRequest first request then
        OrderedSet.ofList ((first :: rest).map Fact.id)
      else ∅

/-- The home targeted by the cited request of a command. -/
def remoteRequestHome (commandId : CommandId) (digest : CommandDigest)
    (projectId : ProjectId) (candidate : Fact) : Option InstallationId :=
  match candidate.payload with
  | .remoteProjectCommandRequested candidateCommand candidateDigest
      candidateProject targetHome _ _ _ =>
      if candidateCommand = commandId && candidateDigest = digest &&
          candidateProject = projectId then some targetHome
      else none
  | _ => none

def remoteRequestParent (fact : Fact) (commandId : CommandId)
    (digest : CommandDigest) (projectId : ProjectId)
    (context : ReductionContext) : Option InstallationId :=
  fact.causal.parents.toList.findSome? fun parent =>
    (context.facts.get? parent).bind fun candidate =>
      if context.isProjected candidate.id then
        remoteRequestHome commandId digest projectId candidate
      else none

def receivesCommand (commandId : CommandId) (digest : CommandDigest)
    (projectId : ProjectId) (candidate : Fact) : Bool :=
  match candidate.payload with
  | .remoteProjectCommandReceipt candidateCommand candidateDigest
      candidateProject _ _ =>
      candidateCommand = commandId && candidateDigest = digest &&
        candidateProject = projectId
  | _ => false

def committedValid (fact : Fact) (projectId : ProjectId)
    (result : RemoteCommandResult) (context : ReductionContext) : Bool :=
  match result with
  | .committed head => head ∈ fact.causal.parents &&
      (context.facts.get? head).any fun candidate =>
        context.isProjected candidate.id &&
          projectIdOf candidate = some projectId
  | .rejected .. => true

def validateRemoteControl (fact : Fact) (context : ReductionContext) :
    Except ClassificationError Unit :=
  match fact.payload with
  | .remoteProjectCommandRequested commandId _ projectId targetHome
      expectedHead _ _ => do
      require ((match fact.scope with
          | .remoteControl _ scopeHome => scopeHome = targetHome
          | _ => false) &&
        validActiveHuman fact context &&
        headOfProject expectedHead projectId context)
        (invalid .remoteCommandConflict)
      let participants := remoteIdentityParticipants commandId context
      require participants.isEmpty (.remoteCommandConflict, participants)
  | .remoteProjectCommandReceipt commandId digest projectId receivedHead _ =>
      match remoteRequestParent fact commandId digest projectId context with
      | none => .error (invalid .remoteCommandConflict)
      | some targetHome =>
          require (fact.authorId = targetHome &&
            validProjectHome fact targetHome context &&
            headOfProject receivedHead projectId context)
            (invalid .remoteCommandConflict)
  | .remoteProjectCommandOutcome commandId digest projectId result _ =>
      match remoteRequestParent fact commandId digest projectId context with
      | none => .error (invalid .remoteCommandConflict)
      | some targetHome =>
          require (fact.authorId = targetHome &&
            validProjectHome fact targetHome context &&
            hasParent fact context (receivesCommand commandId digest projectId) &&
            committedValid fact projectId result context)
            (invalid .remoteCommandConflict)
  | _ => .ok ()

def validateProjectFact
    (conflicts : ResourceLocator → ResourceLocator → Bool) (fact : Fact)
    (context : ReductionContext) : Except ClassificationError Unit :=
  match fact.payload with
  | .projectCreated projectId mailboxId home _ _ predecessor resources primary _ =>
      validateCreation fact projectId mailboxId home predecessor
        resources.items primary context
  | payload =>
      if payload.isRemoteControl then validateRemoteControl fact context
      else
        match projectId payload with
        | some projectId =>
            validateHomeTransition conflicts fact projectId context
        | none => .ok ()

/-- Conflict reasons keep their participants; other reasons are invalid. -/
def projectDecision : ClassificationError → DomainDecision ProjectReason
  | (reason, participants) =>
      match reason with
      | .projectIdentityConflict | .homeLinearFork | .resourceClaimConflict
      | .assignmentCardinalityConflict | .dispatchConflict | .outputConflict
      | .remoteCommandConflict => .conflicted reason participants
      | _ => .invalid reason

/-- Authority rules first, project rules for what they admit. -/
def classifyProjectFact (policy : AuthorityPolicy)
    (conflicts : ResourceLocator → ResourceLocator → Bool) (fact : Fact)
    (context : ReductionContext) : DomainDecision ProjectReason :=
  match classifyFact policy fact context with
  | .projected =>
      match validateProjectFact conflicts fact context with
      | .ok () => .projected
      | .error error => projectDecision error
  | decision => mapAuthorityDecision .authority decision

end Hq
