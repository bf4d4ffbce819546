/-
Conversation classification: messages, threads, message states, archives and
harness activity.  A fact is judged by the authority rules first and by the
conversation rules only when those admit it.
-/
import Hq.AuthorityViews

namespace Hq

inductive ConversationReason where
  | authority (reason : AuthorityReason)
  | addressMismatch
  | threadMismatch
  | targetNotAncestor
  | rejectedMessage
  | conversationMismatch
  | messageIdentityConflict
  | activitySourceMismatch
  | activitySequenceConflict
  | activityRuntimeConflict
deriving DecidableEq

instance : FieldCoded ConversationReason where
  field
    | .authority reason => 0 :: FieldCoded.field reason
    | .addressMismatch => [1]
    | .threadMismatch => [2]
    | .targetNotAncestor => [3]
    | .rejectedMessage => [4]
    | .conversationMismatch => [5]
    | .messageIdentityConflict => [6]
    | .activitySourceMismatch => [7]
    | .activitySequenceConflict => [8]
    | .activityRuntimeConflict => [9]
  field_injective := by
    intro left right h
    cases left <;> cases right <;>
      simp_all [FieldCoded.field_injective.eq_iff]

/-- Carry an authority decision into another reason type. -/
def mapAuthorityDecision {R : Type} (wrap : AuthorityReason → R) :
    DomainDecision AuthorityReason → DomainDecision R
  | .projected => .projected
  | .unauthorized reason failedAuthorities =>
      .unauthorized (wrap reason) failedAuthorities
  | .conflicted reason participants => .conflicted (wrap reason) participants
  | .invalid reason => .invalid (wrap reason)
  | .unsupported reason => .unsupported (wrap reason)

/-- One logical activity of a runtime. -/
@[ext] structure ActivityKey where
  source : MailboxAddress
  correlation : OperationCorrelation
  item : Option ShortText
  kind : ActivityKind
  logicalKey : ShortText
  runtime : ShortText

def ActivityKind.rank : ActivityKind → Int
  | .status => 0 | .agentTurn => 1 | .progress => 2 | .plan => 3 | .diff => 4
  | .completedItem => 5

theorem ActivityKind.rank_injective : Function.Injective rank := by
  intro left right h
  cases left <;> cases right <;> first | rfl | cases h

def ActivityKey.fields (key : ActivityKey) : List (List Int) :=
  [key.source.installationId.field, key.source.mailboxId.field,
    key.correlation.provider.field, key.correlation.session.field,
    key.correlation.operation.field, optionField BoundedText.field key.item,
    [key.kind.rank], key.logicalKey.field, key.runtime.field]

theorem ActivityKey.fields_injective : Function.Injective fields := by
  intro left right h
  simp only [fields, List.cons.injEq, and_true,
    OpaqueBytes.field_injective.eq_iff, BoundedText.field_injective.eq_iff,
    (optionField_injective BoundedText.field_injective).eq_iff,
    ActivityKind.rank_injective.eq_iff] at h
  obtain ⟨h1, h2, h3, h4, h5, h6, h7, h8, h9⟩ := h
  exact ActivityKey.ext (MailboxAddress.ext h1 h2)
    (OperationCorrelation.ext h3 h4 h5) h6 h7 h8 h9

instance : Coded ActivityKey := ⟨ActivityKey.fields, ActivityKey.fields_injective⟩

instance : LinearOrder ActivityKey := Coded.linearOrder _

/-- The provider session an activity belongs to. -/
@[ext] structure ActivitySessionKey where
  source : MailboxAddress
  provider : ProviderId
  session : ProviderSessionId

instance : Coded ActivitySessionKey where
  code key := [key.source.installationId.field, key.source.mailboxId.field,
    key.provider.field, key.session.field]
  code_injective := by
    intro left right h
    simp only [List.cons.injEq, and_true, OpaqueBytes.field_injective.eq_iff,
      BoundedText.field_injective.eq_iff] at h
    exact ActivitySessionKey.ext (MailboxAddress.ext h.1 h.2.1) h.2.2.1 h.2.2.2

instance : LinearOrder ActivitySessionKey := Coded.linearOrder _

/-! Reading conversation payloads. -/

def messageContent (fact : Fact) : Option MessageContent :=
  match fact.payload with
  | .questionAsked message | .asynchronousMessageSent _ message
  | .answerGiven _ message | .projectOutputRecorded _ _ _ _ _ message =>
      some message
  | _ => none

/-- A thread is named by its root fact. -/
def threadOfFact (id : FactId) : ThreadId := ⟨id.value⟩

def threadId (fact : Fact) : ThreadId :=
  match fact.payload with
  | .asynchronousMessageSent (some threadId) _ | .answerGiven threadId _
  | .projectOutputRecorded _ _ _ _ threadId _ => threadId
  | _ => threadOfFact fact.id

def stateTarget (fact : Fact) : Option MessageId :=
  match fact.payload with
  | .messageArchived messageId | .messageRestored messageId
  | .messageRejected messageId _ => some messageId
  | _ => none

def activityKey (fact : Fact) : Option ActivityKey :=
  match fact.payload with
  | .harnessActivityRecorded _ source correlation item kind logicalKey runtime
      _ _ _ _ _ _ =>
      some ⟨source, correlation, item, kind, logicalKey, runtime⟩
  | _ => none

def activitySessionKey (fact : Fact) : Option ActivitySessionKey :=
  match fact.payload with
  | .harnessActivityRecorded _ source correlation _ _ _ _ _ _ _ _ _ _ =>
      some ⟨source, correlation.provider, correlation.session⟩
  | _ => none

def activitySequence (fact : Fact) : Option NonZeroU64 :=
  match fact.payload with
  | .harnessActivityRecorded _ _ _ _ _ _ _ sequence _ _ _ _ _ => some sequence
  | _ => none

def isActivityOfKind (kind : ActivityKind) (fact : Fact) : Bool :=
  match fact.payload with
  | .harnessActivityRecorded _ _ _ _ found _ _ _ _ _ _ _ _ => found = kind
  | _ => false

def sameScope (left right : FactScope) : Bool :=
  match left, right with
  | .peerAddressed _, .peerAddressed _ => true
  | _, _ => left = right

/-- The conversation named by a counterparty, by session when correlated. -/
def counterpartyConversation (counterparty : MailboxAddress)
    (correlation : Option OperationCorrelation) (thread : ThreadId) :
    ConversationId :=
  match correlation with
  | some correlation =>
      .providerSession counterparty correlation.provider correlation.session
  | none => .thread counterparty thread

def factConversationId (fact : Fact) (localHuman : MailboxAddress) :
    Option ConversationId :=
  match messageContent fact with
  | some message =>
      match message.projectId with
      | some projectId => some (.projectThread projectId (threadId fact))
      | none =>
          let counterparty :=
            if message.sender = localHuman then message.recipient
            else if message.recipient = some localHuman ||
                message.recipient.isNone then some message.sender
            else none
          counterparty.map fun counterparty =>
            counterpartyConversation counterparty message.correlation
              (threadId fact)
  | none =>
      match fact.payload with
      | .harnessActivityRecorded project source correlation
          _ _ _ _ _ _ _ _ _ _ =>
          match project with
          | none => some (.providerSession source correlation.provider
              correlation.session)
          | some project =>
              some (.projectThread project.projectId project.threadId)
      | _ => none

/-! Scans over the retained facts. -/

def messageIdentityParticipants (messageId : MessageId)
    (context : ReductionContext) : OrderedSet FactId :=
  OrderedSet.ofList ((context.facts.facts.filter fun fact =>
    (messageContent fact).any fun message =>
      message.messageId = messageId).map Fact.id)

def activitySequenceParticipants (fact : Fact) (context : ReductionContext) :
    OrderedSet FactId :=
  match activityKey fact, (context.facts.get? fact.id).bind activitySequence with
  | some key, some sequence =>
      let candidates := context.facts.facts.filter fun candidate =>
        activityKey candidate = some key &&
          activitySequence candidate = some sequence
      if candidates.any fun candidate => candidate.payload ≠ fact.payload then
        OrderedSet.ofList (candidates.map Fact.id)
      else ∅
  | _, _ => ∅

def questionRoot (thread : ThreadId) (context : ReductionContext) :
    Option Fact :=
  context.facts.facts.find? fun fact =>
    context.isProjected fact.id &&
      (match fact.payload with
        | .questionAsked _ => true
        | _ => false) &&
      threadId fact = thread

def asynchronousRoot (thread : ThreadId) (context : ReductionContext) :
    Option Fact :=
  context.facts.facts.find? fun fact =>
    context.isProjected fact.id &&
      (match fact.payload with
        | .asynchronousMessageSent none _ => true
        | _ => false) &&
      threadOfFact fact.id = thread

/-! The validators, one for each payload family. -/

def validateMessageIdentity (messageId : MessageId)
    (context : ReductionContext) : Except ConversationReason Unit :=
  require ((messageIdentityParticipants messageId context).size = 1)
    .messageIdentityConflict

def validateMessagePurpose (message : MessageContent)
    (expected : MessagePurpose) : Except ConversationReason Unit :=
  require (message.purpose = expected) .addressMismatch

def validateMessageAddress (fact : Fact) (message : MessageContent) :
    Except ConversationReason Unit := do
  require (message.sender.installationId = fact.authorId) .addressMismatch
  require
    (match fact.scope with
      | .installationPrivate installation =>
          installation = fact.authorId && message.recipient.any fun recipient =>
            recipient.installationId = installation
      | .peerAddressed target => message.recipient = some target
      | .accountAddressed _ =>
          message.recipient.isSome = message.projectId.isSome
      | .remoteControl .. => false) .addressMismatch

def validateAnswer (fact : Fact) (thread : ThreadId)
    (answer : MessageContent) (context : ReductionContext) :
    Except ConversationReason Unit :=
  match questionRoot thread context with
  | none => .error .threadMismatch
  | some root => do
      require (root.id ∈ fact.causal.parents) .threadMismatch
      match root.payload with
      | .questionAsked question => do
          require (question.purpose = .question && answer.purpose = .question &&
            sameScope root.scope fact.scope) .threadMismatch
          require
            (match root.scope with
              | .accountAddressed _ => answer.recipient.isNone
              | _ => question.recipient = some answer.sender &&
                  answer.recipient = some question.sender) .addressMismatch
      | _ => .error .threadMismatch

def validateAsynchronousContinuation (fact : Fact) (thread : ThreadId)
    (message : MessageContent) (context : ReductionContext) :
    Except ConversationReason Unit :=
  match asynchronousRoot thread context with
  | none => .error .threadMismatch
  | some root =>
      match root.payload with
      | .asynchronousMessageSent none rootMessage =>
          let sameDirection := message.sender = rootMessage.sender &&
            message.recipient = rootMessage.recipient
          let reversedPrivate := rootMessage.projectId.isNone &&
            (match root.scope with
              | .installationPrivate _ => true
              | _ => false) &&
            rootMessage.recipient = some message.sender &&
            message.recipient = some rootMessage.sender
          require (root.id ∈ fact.causal.parents &&
            sameScope root.scope fact.scope &&
            rootMessage.purpose = .asynchronous &&
            rootMessage.recipient.isSome &&
            message.purpose = .asynchronous &&
            (sameDirection || reversedPrivate) &&
            message.projectId = rootMessage.projectId &&
            message.correlation = rootMessage.correlation) .threadMismatch
      | _ => .error .threadMismatch

def validateCancellation (fact : Fact) (thread : ThreadId)
    (context : ReductionContext) : Except ConversationReason Unit :=
  match questionRoot thread context with
  | none => .error .threadMismatch
  | some root =>
      match root.payload with
      | .questionAsked question =>
          require (root.id ∈ fact.causal.parents &&
            sameScope root.scope fact.scope &&
            fact.authorId = question.sender.installationId) .threadMismatch
      | _ => .error .threadMismatch

def rejectsMessage (messageId : MessageId) (candidate : Fact) : Bool :=
  match candidate.payload with
  | .messageRejected candidateId _ => candidateId = messageId
  | _ => false

def restoresMessage (fact : Fact) : Bool :=
  match fact.payload with
  | .messageRestored _ => true
  | _ => false

def validateMessageState (fact : Fact) (messageId : MessageId)
    (context : ReductionContext) : Except ConversationReason Unit :=
  match (messageIdentityParticipants messageId context).toList with
  | [target] => do
      require (context.graph.structurallyReaches target fact.id &&
        context.isProjected target) .targetNotAncestor
      require (!(restoresMessage fact && context.facts.facts.any fun candidate =>
        context.isProjected candidate.id && rejectsMessage messageId candidate &&
          context.graph.structurallyReaches candidate.id fact.id))
        .rejectedMessage
  | _ => .error .messageIdentityConflict

def validateConversationArchive (policy : AuthorityPolicy) (fact : Fact)
    (conversation : ConversationId) (context : ReductionContext) :
    Except ConversationReason Unit :=
  let localHuman := ⟨policy.localInstallation, policy.localHumanMailbox⟩
  require (context.projectedFacts.any fun candidate =>
    factConversationId candidate localHuman = some conversation &&
      context.graph.structurallyReaches candidate.id fact.id &&
      sameScope candidate.scope fact.scope) .conversationMismatch

/-- The creation of an agent mailbox at an address. -/
def createsAgentMailbox (source : MailboxAddress) (candidate : Fact) : Bool :=
  candidate.authorId = source.installationId &&
    match candidate.payload with
    | .mailboxCreated mailboxId .agent _ => mailboxId = source.mailboxId
    | _ => false

def validateActivitySource (fact : Fact) (source : MailboxAddress)
    (context : ReductionContext) : Except ConversationReason Unit :=
  require (source.installationId = fact.authorId &&
    context.facts.facts.any fun candidate =>
      context.isProjected candidate.id && createsAgentMailbox source candidate)
    .activitySourceMismatch

def validateActivitySequence (fact : Fact) (context : ReductionContext) :
    Except ConversationReason Unit :=
  require ((activitySequenceParticipants fact context).size ≤ 1)
    .activitySequenceConflict

/-- The dispatch that bound a thread to an assignment. -/
def isExactDispatch (projectId : ProjectId) (dispatchId : DispatchId)
    (binding : AssignmentBinding) (thread : ThreadId) (candidate : Fact) :
    Bool :=
  match candidate.payload with
  | .projectInputDispatched candidateProject _ _ candidateDispatch
      candidateBinding candidateThread =>
      candidateProject = projectId && candidateDispatch = dispatchId &&
        candidateBinding = binding && candidateThread = thread
  | _ => false

/-- The claim of a mailbox for an agent. -/
def claimsSource (agentId : AgentId) (source : MailboxAddress)
    (candidate : Fact) : Bool :=
  candidate.authorId = source.installationId &&
    match candidate.payload with
    | .agentNameClaimed claimed mailboxId _ =>
        claimed = agentId && mailboxId = source.mailboxId
    | _ => false

def validateProjectRuntimeParent (fact : Fact) (projectId : ProjectId)
    (dispatchId : DispatchId) (binding : AssignmentBinding)
    (thread : ThreadId) (source : MailboxAddress)
    (context : ReductionContext) : Except ConversationReason Unit :=
  let exactDispatchParent := fact.causal.parents.toList.any fun parent =>
    (context.facts.get? parent).any fun candidate =>
      context.isProjected candidate.id &&
        isExactDispatch projectId dispatchId binding thread candidate
  let sourceClaimedForAgent := context.facts.facts.any fun candidate =>
    context.isProjected candidate.id &&
      claimsSource binding.agentId source candidate
  require (exactDispatchParent && sourceClaimedForAgent)
    .activitySourceMismatch

def validateProjectActivity (fact : Fact)
    (project : ProjectActivityAttribution) (source : MailboxAddress)
    (correlation : OperationCorrelation) (context : ReductionContext) :
    Except ConversationReason Unit := do
  require (project.binding.provider = correlation.provider &&
    project.binding.session = correlation.session) .activitySourceMismatch
  validateProjectRuntimeParent fact project.projectId project.dispatchId
    project.binding project.threadId source context

/-- Check a value that may be absent. -/
def validateOptional {α R : Type} (value : Option α)
    (check : α → Except R Unit) : Except R Unit :=
  match value with
  | none => .ok ()
  | some value => check value

/-- The validator of a conversation payload; other families are admitted. -/
def validateConversation (policy : AuthorityPolicy) (fact : Fact)
    (context : ReductionContext) : Except ConversationReason Unit :=
  match fact.payload with
  | .questionAsked message => do
      validateMessagePurpose message .question
      validateMessageAddress fact message
      validateMessageIdentity message.messageId context
  | .asynchronousMessageSent thread message => do
      validateMessagePurpose message .asynchronous
      validateMessageAddress fact message
      validateOptional thread fun thread =>
        validateAsynchronousContinuation fact thread message context
      validateMessageIdentity message.messageId context
  | .projectOutputRecorded projectId _ dispatchId binding thread message => do
      validateMessagePurpose message .projectOutput
      validateMessageAddress fact message
      validateProjectRuntimeParent fact projectId dispatchId binding thread
        message.sender context
      validateMessageIdentity message.messageId context
  | .answerGiven thread message => do
      validateMessagePurpose message .question
      validateMessageAddress fact message
      validateAnswer fact thread message context
      validateMessageIdentity message.messageId context
  | .threadCancelled thread _ => validateCancellation fact thread context
  | .messageArchived messageId | .messageRestored messageId
  | .messageRejected messageId _ => validateMessageState fact messageId context
  | .conversationArchived conversation =>
      validateConversationArchive policy fact conversation context
  | .harnessActivityRecorded project source correlation
      _ _ _ _ _ _ _ _ _ _ => do
      validateActivitySource fact source context
      validateOptional project fun project =>
        validateProjectActivity fact project source correlation context
      validateActivitySequence fact context
  | _ => .ok ()

/-- The participants of a message identity conflict seen from one fact. -/
def messageConflictParticipants (fact : Fact) (context : ReductionContext) :
    OrderedSet FactId :=
  match messageContent fact, stateTarget fact with
  | some message, _ => messageIdentityParticipants message.messageId context
  | none, some messageId => messageIdentityParticipants messageId context
  | none, none => ∅

def classifyConversation (policy : AuthorityPolicy) (fact : Fact)
    (context : ReductionContext) : DomainDecision ConversationReason :=
  match validateConversation policy fact context with
  | .ok () => .projected
  | .error .messageIdentityConflict =>
      .conflicted .messageIdentityConflict
        (messageConflictParticipants fact context)
  | .error .activitySequenceConflict =>
      .conflicted .activitySequenceConflict
        (activitySequenceParticipants fact context)
  | .error reason => .invalid reason

/-- Authority rules first, conversation rules for what they admit. -/
def classifyConversationFact (policy : AuthorityPolicy) (fact : Fact)
    (context : ReductionContext) : DomainDecision ConversationReason :=
  match classifyFact policy fact context with
  | .projected => classifyConversation policy fact context
  | decision => mapAuthorityDecision .authority decision

end Hq
