/-
Conversation projections: threads, messages, archives, action groups and the
retained harness activity, together with the selected presentation entries.
-/
import Hq.Conversation

namespace Hq

inductive ConversationAggregateKey where
  | messageIdentity (id : MessageId)
  | thread (id : ThreadId)
  | messageState (id : MessageId)
  | conversationState (conversation : ConversationId)
  | activity (key : ActivityKey)

instance : Coded ConversationAggregateKey where
  code
    | .messageIdentity id => [[0], id.field]
    | .thread id => [[1], id.field]
    | .messageState id => [[2], id.field]
    | .conversationState conversation => [3] :: Coded.code conversation
    | .activity key => [4] :: Coded.code key
  code_injective := by
    intro left right h
    cases left <;> cases right <;>
      simp_all [OpaqueBytes.field_injective.eq_iff,
        Coded.code_injective.eq_iff]

instance : LinearOrder ConversationAggregateKey := Coded.linearOrder _

inductive ConversationProjectionKey where
  | thread (id : ThreadId)
  | message (id : MessageId)
  | archive (conversation : ConversationId)
  | actionGroup (correlation : OperationCorrelation)
  | activity (key : ActivityKey)
  | activityRecord (id : FactId)
  | activityRetention (session : ActivitySessionKey)

instance : Coded ConversationProjectionKey where
  code
    | .thread id => [[0], id.field]
    | .message id => [[1], id.field]
    | .archive conversation => [2] :: Coded.code conversation
    | .actionGroup correlation => [3] :: Coded.code correlation
    | .activity key => [4] :: Coded.code key
    | .activityRecord id => [[5], id.field]
    | .activityRetention session => [6] :: Coded.code session
  code_injective := by
    intro left right h
    cases left <;> cases right <;>
      simp_all [OpaqueBytes.field_injective.eq_iff,
        Coded.code_injective.eq_iff]

instance : LinearOrder ConversationProjectionKey := Coded.linearOrder _

inductive CausalRelation where
  | before | after | concurrent
deriving DecidableEq

/-- An answer paired with a cancellation of its thread. -/
@[ext] structure AnswerCancellation where
  answer : FactId
  cancellation : FactId

instance : Coded AnswerCancellation where
  code pair := [pair.answer.field, pair.cancellation.field]
  code_injective := by
    intro left right h
    simp only [List.cons.injEq, and_true,
      OpaqueBytes.field_injective.eq_iff] at h
    exact AnswerCancellation.ext h.1 h.2

instance : LinearOrder AnswerCancellation := Coded.linearOrder _

structure ThreadView where
  rootFact : FactId
  rootMessage : MessageId
  answers : OrderedSet FactId
  cancellations : OrderedSet FactId
  relations : OrderedMap AnswerCancellation CausalRelation
  readyAnswers : List FactId
  cancelled : Bool
deriving DecidableEq

structure MessageView where
  factId : FactId
  authoredAt : Timestamp
  accountId : Option AccountId
  threadId : ThreadId
  content : MessageContent
  opened : Bool
  rejected : Bool
  stateFrontier : OrderedSet FactId
  peerReceivedBy : OrderedSet FactId
deriving DecidableEq

structure ActionGroupView where
  entries : List FactId
  finalAnswer : Option FactId
deriving DecidableEq

structure ActivityView where
  factId : FactId
  source : MailboxAddress
  correlation : OperationCorrelation
  item : Option ShortText
  kind : ActivityKind
  sequence : NonZeroU64
  logicalKey : ShortText
  runtime : ShortText
  occurredAt : Timestamp
  status : ActivityStatus
  content : ContentText
  truncated : Bool
  completed : Option CompletedItemPresentation
deriving DecidableEq

structure ActivityRetentionView where
  retainedProgress : List FactId
  totalProgress : Nat
deriving DecidableEq

inductive ConversationProjection where
  | thread (view : ThreadView)
  | message (view : MessageView)
  | archive (archiveFacts : OrderedSet FactId)
  | actionGroup (view : ActionGroupView)
  | activity (view : ActivityView)
  | activityRetention (view : ActivityRetentionView)
deriving DecidableEq

def conversationAggregateKeys (fact : Fact) : List ConversationAggregateKey :=
  ((messageContent fact).map fun message =>
    ConversationAggregateKey.messageIdentity message.messageId).toList ++
  (match fact.payload with
    | .questionAsked _ | .asynchronousMessageSent .. => [.thread (threadId fact)]
    | .answerGiven thread _ | .threadCancelled thread _ => [.thread thread]
    | _ => []) ++
  ((stateTarget fact).map ConversationAggregateKey.messageState).toList ++
  (match fact.payload with
    | .conversationArchived conversation => [.conversationState conversation]
    | _ => []) ++
  ((activityKey fact).map ConversationAggregateKey.activity).toList

def presentationEntry (fact : Fact) : Option PresentationEntry :=
  match messageContent fact with
  | some message =>
      some ⟨fact.id,
        { authoredAt := fact.authoredAt
          presentationOccurrence := fact.authoredAt
          family := .message
          sourceInstallation := fact.authorId
          sourceMailbox := some message.sender.mailboxId
          provider := message.correlation.map OperationCorrelation.provider
          session := message.correlation.map OperationCorrelation.session
          operation := message.correlation.map OperationCorrelation.operation
          itemOrRequest := some (.message message.messageId)
          runtime := none
          sourceSequence := none
          stablePublicId := some (.message message.messageId) }⟩
  | none =>
      match fact.payload with
      | .harnessActivityRecorded _ source correlation item _ _ runtime sequence
          occurredAt _ _ _ _ =>
          some ⟨fact.id,
            { authoredAt := fact.authoredAt
              presentationOccurrence := occurredAt
              family := .activity
              sourceInstallation := fact.authorId
              sourceMailbox := some source.mailboxId
              provider := some correlation.provider
              session := some correlation.session
              operation := some correlation.operation
              itemOrRequest := some
                ((item.map PresentationItemId.activity).getD (.fact fact.id))
              runtime := some runtime
              sourceSequence := some sequence
              stablePublicId := none }⟩
      | _ => none

/-- The presentation order of retained facts; empty when it is refused. -/
def presentedOrder (context : ReductionContext) (ids : List FactId) :
    List FactId :=
  match canonicalPresentationOrder context.graph
      ((ids.filterMap context.facts.get?).filterMap presentationEntry) with
  | .ok ordered => ordered
  | .error _ => []

def isThreadRoot (fact : Fact) : Bool :=
  match fact.payload with
  | .questionAsked _ | .asynchronousMessageSent none _ => true
  | _ => false

def answersThread (thread : ThreadId) (fact : Fact) : Bool :=
  match fact.payload with
  | .answerGiven found _ | .asynchronousMessageSent (some found) _ =>
      found = thread
  | _ => false

def cancelsThread (thread : ThreadId) (fact : Fact) : Bool :=
  match fact.payload with
  | .threadCancelled found _ => found = thread
  | _ => false

def causalRelation (context : ReductionContext) (answer cancel : FactId) :
    CausalRelation :=
  if context.usablyReaches answer cancel then .before
  else if context.usablyReaches cancel answer then .after
  else .concurrent

def threadProjection (context : ReductionContext) (root : Fact)
    (message : MessageContent) :
    ProjectionContribution ConversationProjectionKey ConversationProjection :=
  let id := threadId root
  let answers := projectedIds context (answersThread id)
  let cancellations := projectedIds context (cancelsThread id)
  let relations := OrderedMap.ofList (answers.toList.flatMap fun answer =>
    cancellations.toList.map fun cancel =>
      ((⟨answer, cancel⟩ : AnswerCancellation),
        causalRelation context answer cancel))
  ⟨.thread id,
    .thread
      { rootFact := root.id
        rootMessage := message.messageId
        answers, cancellations, relations
        readyAnswers := presentedOrder context answers.toList
        cancelled := !cancellations.isEmpty },
    OrderedSet.ofList (root.id :: (answers.toList ++ cancellations.toList))⟩

def threadProjections (context : ReductionContext) :
    List (ProjectionContribution ConversationProjectionKey
      ConversationProjection) :=
  (context.projectedFacts.filter isThreadRoot).filterMap fun root =>
    (messageContent root).map (threadProjection context root)

def isMessageRejection : SemanticPayload → Bool
  | .messageRejected .. => true
  | _ => false

def isMessageArchive : SemanticPayload → Bool
  | .messageArchived _ => true
  | _ => false

def messageProjection (context : ReductionContext) (fact : Fact)
    (message : MessageContent) :
    ProjectionContribution ConversationProjectionKey ConversationProjection :=
  let states := projectedIds context fun state =>
    stateTarget state = some message.messageId
  let frontier := maximalMembers context states
  let rejected := states.toList.any fun state =>
    (payloadOf context state).any isMessageRejection
  let archived := frontier.toList.any fun state =>
    (payloadOf context state).any isMessageArchive
  let peerReceivedBy := projectedIds context fun child =>
    child.authorId ≠ fact.authorId && fact.id ∈ child.causal.parents
  ⟨.message message.messageId,
    .message
      { factId := fact.id
        authoredAt := fact.authoredAt
        accountId := match fact.scope with
          | .accountAddressed accountId => some accountId
          | _ => none
        threadId := threadId fact
        content := message
        opened := !rejected && !archived
        rejected
        stateFrontier := frontier
        peerReceivedBy },
    OrderedSet.ofList
      (fact.id :: (states.toList ++ peerReceivedBy.toList))⟩

def messageProjections (context : ReductionContext) :
    List (ProjectionContribution ConversationProjectionKey
      ConversationProjection) :=
  context.projectedFacts.filterMap fun fact =>
    match messageContent fact with
    | some message =>
        if (messageIdentityParticipants message.messageId context).size = 1 then
          some (messageProjection context fact message)
        else none
    | none => none

def conversationArchiveProjections (context : ReductionContext) :
    List (ProjectionContribution ConversationProjectionKey
      ConversationProjection) :=
  (groupFacts (fun fact =>
    match fact.payload with
    | .conversationArchived conversation => some conversation
    | _ => none) context.projectedFacts).entries.map fun entry =>
      ⟨.archive entry.1, .archive entry.2, entry.2⟩

def actionGroupProjection (context : ReductionContext)
    (correlation : OperationCorrelation) (ids : OrderedSet FactId) :
    ProjectionContribution ConversationProjectionKey ConversationProjection :=
  let ordered := presentedOrder context ids.toList
  let finalAnswer := ordered.reverse.find? fun id =>
    ((context.facts.get? id).bind messageContent).any fun message =>
      message.presentation = .finalAnswer
  ⟨.actionGroup correlation, .actionGroup ⟨ordered, finalAnswer⟩,
    OrderedSet.ofList ordered⟩

def actionGroupProjections (context : ReductionContext) :
    List (ProjectionContribution ConversationProjectionKey
      ConversationProjection) :=
  (groupFacts (fun fact => (messageContent fact).bind
    MessageContent.correlation) context.projectedFacts).entries.map fun entry =>
      actionGroupProjection context entry.1 entry.2

/-- The fact of greatest source sequence; a later identity wins a tie. -/
def latestActivity (facts : List Fact) : Option Fact :=
  facts.foldl (fun winner fact =>
    match winner with
    | none => some fact
    | some best =>
        if ((activitySequence best).map NonZeroU64.value).getD 1 ≤
            ((activitySequence fact).map NonZeroU64.value).getD 1 then
          some fact
        else some best) none

/-- The latest snapshot of every activity, then every completed item. -/
def activityWinners (context : ReductionContext) :
    List (ActivityKey × FactId) :=
  let snapshots := context.projectedFacts.filter fun fact =>
    !isActivityOfKind .completedItem fact
  let groups := groupFacts activityKey snapshots
  groups.entries.filterMap (fun entry =>
    (latestActivity (entry.2.toList.filterMap context.facts.get?)).map
      fun winner => (entry.1, winner.id)) ++
  (context.projectedFacts.filter (isActivityOfKind .completedItem)).filterMap
    fun fact => (activityKey fact).map fun key => (key, fact.id)

/-- The session of a retained progress activity. -/
def progressSession (context : ReductionContext) (id : FactId) :
    Option ActivitySessionKey :=
  (context.facts.get? id).bind fun fact =>
    if isActivityOfKind .progress fact then activitySessionKey fact else none

/-- The progress winners of a session, in winner order. -/
def sessionProgress (context : ReductionContext)
    (winners : List (ActivityKey × FactId)) (session : ActivitySessionKey) :
    List FactId :=
  (winners.map Prod.snd).filter fun id =>
    progressSession context id = some session

/-- At most 200 progress entries of a session are retained. -/
def retainedProgress (context : ReductionContext)
    (winners : List (ActivityKey × FactId)) (session : ActivitySessionKey) :
    List FactId :=
  let ordered := presentedOrder context (sessionProgress context winners session)
  ordered.drop (ordered.length - 200)

def selectedActivity (context : ReductionContext) :
    List (ActivityKey × FactId) :=
  let winners := activityWinners context
  winners.filter fun winner =>
    match progressSession context winner.2 with
    | none => true
    | some session =>
        (sessionProgress context winners session).length ≤ 200 ||
          winner.2 ∈ retainedProgress context winners session

def activityProjection (context : ReductionContext) (key : ActivityKey)
    (winner : Fact) :
    Option (ProjectionContribution ConversationProjectionKey
      ConversationProjection) :=
  match winner.payload with
  | .harnessActivityRecorded _ source correlation item kind logicalKey runtime
      sequence occurredAt status content truncated completed =>
      let view : ActivityView :=
        ⟨winner.id, source, correlation, item, kind, sequence, logicalKey,
          runtime, occurredAt, status, content, truncated, completed⟩
      if kind = .completedItem then
        some ⟨.activityRecord winner.id, .activity view,
          OrderedSet.ofList [winner.id]⟩
      else
        some ⟨.activity key, .activity view,
          projectedIds context fun fact => activityKey fact = some key⟩
  | _ => none

def retentionProjections (context : ReductionContext) :
    List (ProjectionContribution ConversationProjectionKey
      ConversationProjection) :=
  let winners := activityWinners context
  let sessions := OrderedSet.ofList
    ((winners.map Prod.snd).filterMap (progressSession context))
  sessions.toList.map fun session =>
    let retained := retainedProgress context winners session
    let total := (presentedOrder context
      (sessionProgress context winners session)).length
    ⟨.activityRetention session, .activityRetention ⟨retained, total⟩,
      OrderedSet.ofList retained⟩

def activityProjections (context : ReductionContext) :
    List (ProjectionContribution ConversationProjectionKey
      ConversationProjection) :=
  (selectedActivity context).filterMap (fun winner =>
    (context.facts.get? winner.2).bind
      (activityProjection context winner.1)) ++
  retentionProjections context

def deriveConversationProjections (context : ReductionContext) :
    List (ProjectionContribution ConversationProjectionKey
      ConversationProjection) :=
  threadProjections context ++ messageProjections context ++
    conversationArchiveProjections context ++ actionGroupProjections context ++
    activityProjections context

def messageConflicts (context : ReductionContext) :
    List (ConflictObservation ConversationReason) :=
  ((groupFacts (fun fact => (messageContent fact).map MessageContent.messageId)
    context.facts.facts).values.filter fun participants =>
      1 < participants.size).map fun participants =>
        ⟨.domain .messageIdentityConflict, participants⟩

/-- An activity key with the runtime left out. -/
@[ext] structure LogicalKey where
  source : MailboxAddress
  correlation : OperationCorrelation
  item : Option ShortText
  kind : ActivityKind
  logicalKey : ShortText

instance : Coded LogicalKey where
  code key :=
    [key.source.installationId.field, key.source.mailboxId.field,
      key.correlation.provider.field, key.correlation.session.field,
      key.correlation.operation.field, optionField BoundedText.field key.item,
      [key.kind.rank], key.logicalKey.field]
  code_injective := by
    intro left right h
    simp only [List.cons.injEq, and_true, OpaqueBytes.field_injective.eq_iff,
      BoundedText.field_injective.eq_iff,
      (optionField_injective BoundedText.field_injective).eq_iff,
      ActivityKind.rank_injective.eq_iff] at h
    obtain ⟨h1, h2, h3, h4, h5, h6, h7, h8⟩ := h
    exact LogicalKey.ext (MailboxAddress.ext h1 h2)
      (OperationCorrelation.ext h3 h4 h5) h6 h7 h8

instance : LinearOrder LogicalKey := Coded.linearOrder _

def ActivityKey.logical (key : ActivityKey) : LogicalKey :=
  ⟨key.source, key.correlation, key.item, key.kind, key.logicalKey⟩

def activityRuntimeConflicts (context : ReductionContext) :
    List (ConflictObservation ConversationReason) :=
  (groupFacts (fun fact => (activityKey fact).map ActivityKey.logical)
    context.projectedFacts).values.filterMap fun members =>
      let frontier := maximalMembers context members
      let runtimes := OrderedSet.ofList (((frontier.toList.filterMap
        context.facts.get?).filterMap activityKey).map ActivityKey.runtime)
      if 1 < runtimes.size then
        some ⟨.domain .activityRuntimeConflict, frontier⟩
      else none

def conversationReducer (policy : AuthorityPolicy) :
    DomainReducer ConversationAggregateKey ConversationProjectionKey
      ConversationProjection ConversationReason where
  classify fact context := classifyConversationFact policy fact context
  aggregateKeys fact _ := conversationAggregateKeys fact
  projections context := deriveConversationProjections context
  conflicts context := messageConflicts context ++
    activityRuntimeConflicts context
  presentationEntries context :=
    (context.projectedFacts.filter fun fact =>
      (messageContent fact).isSome).filterMap presentationEntry ++
    ((selectedActivity context).filterMap fun winner =>
      context.facts.get? winner.2).filterMap presentationEntry

end Hq
