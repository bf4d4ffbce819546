/-
The structural index of a complete reduction: the decisions of the four
domains, their orders and conflicts, and the edges along which a new fact may
change them; with the numeric codes its rows are stored under.
-/
import Hq.Arrival
import Hq.AuthorityChains
import Hq.Tables

namespace Hq

abbrev AuthorityReport :=
  ReductionReport AuthorityAggregateKey AuthorityProjectionKey
    AuthorityProjection AuthorityReason

/-- One independently materialized reducer domain. -/
inductive ReductionDomain where
  | authority | conversation | agent | project
deriving DecidableEq

namespace ReductionDomain

def all : List ReductionDomain := [authority, conversation, agent, project]

def encode : ReductionDomain → Int
  | authority => 1
  | conversation => 2
  | agent => 3
  | project => 4

def decode : Int → Option ReductionDomain
  | 1 => some authority
  | 2 => some conversation
  | 3 => some agent
  | 4 => some project
  | _ => none

@[simp] theorem decode_encode (domain : ReductionDomain) :
    decode domain.encode = some domain := by
  cases domain <;> rfl

theorem mem_all (domain : ReductionDomain) : domain ∈ all := by
  cases domain <;> decide

theorem encode_injective : Function.Injective encode := by
  intro left right h
  simpa using congrArg decode h

instance : LinearOrder ReductionDomain :=
  LinearOrder.lift' encode encode_injective

end ReductionDomain

/-- A framework or domain reason of one of the four reducers. -/
inductive ReductionReason where
  | identityCollision
  | causalCycle
  | authority (reason : AuthorityReason)
  | conversation (reason : ConversationReason)
  | agent (reason : AgentReason)
  | project (reason : ProjectReason)
deriving DecidableEq

structure IndexedDecision where
  status : DecisionStatus
  reason : Option ReductionReason
  missingDependencies : OrderedSet FactId
  unusableDependencies : OrderedMap FactId DecisionStatus
  failedAuthorities : OrderedSet AuthorityRole
  conflictParticipants : OrderedSet FactId
deriving DecidableEq

structure IndexedConflict where
  reason : ReductionReason
  participants : OrderedSet FactId
deriving DecidableEq

/-- The key of a decision: a domain and a fact. -/
@[ext] structure DecisionKey where
  domain : ReductionDomain
  factId : FactId

instance : Coded DecisionKey where
  code key := [[key.domain.encode], key.factId.field]
  code_injective := by
    intro left right h
    simp only [List.cons.injEq, and_true,
      ReductionDomain.encode_injective.eq_iff,
      OpaqueBytes.field_injective.eq_iff] at h
    exact DecisionKey.ext h.1 h.2

instance : LinearOrder DecisionKey := Coded.linearOrder _

/-- The rows a repair persists, independent of their layout. -/
structure ReductionIndexSnapshot where
  policy : AuthorityPolicy
  reverseDependencies : OrderedMap FactId (OrderedSet FactId)
  affectedDependencies : OrderedMap FactId (OrderedSet FactId)
  decisions : OrderedMap DecisionKey IndexedDecision
  dependencyOrder : OrderedMap ReductionDomain (List FactId)
  presentationOrder : OrderedMap ReductionDomain (List FactId)
  conflicts : OrderedMap ReductionDomain (List IndexedConflict)
  conversationOrders : OrderedMap ConversationId (List FactId)
deriving DecidableEq

def ReductionIndexSnapshot.decision (index : ReductionIndexSnapshot)
    (domain : ReductionDomain) (id : FactId) : Option IndexedDecision :=
  index.decisions.get? ⟨domain, id⟩

abbrev ConversationReport :=
  ReductionReport ConversationAggregateKey ConversationProjectionKey
    ConversationProjection ConversationReason

abbrev AgentReport :=
  ReductionReport AgentAggregateKey AgentProjectionKey AgentProjection
    AgentReason

abbrev ProjectReport :=
  ReductionReport ProjectAggregateKey ProjectProjectionKey ProjectProjection
    ProjectReason

/-- The conversation a message view is shown in. -/
def messageConversationKey (message : MessageView) (policy : AuthorityPolicy) :
    Option ConversationId :=
  match message.content.projectId with
  | some projectId => some (.projectThread projectId message.threadId)
  | none =>
      let localHuman : MailboxAddress :=
        ⟨policy.localInstallation, policy.localHumanMailbox⟩
      let counterparty :=
        if message.content.sender = localHuman then message.content.recipient
        else if message.content.recipient = some localHuman ||
            message.content.recipient.isNone then some message.content.sender
        else none
      counterparty.map fun counterparty =>
        counterpartyConversation counterparty message.content.correlation
          message.threadId

/-- The entry a projection contributes to a conversation. -/
def conversationEntry (report : ConversationReport) (policy : AuthorityPolicy) :
    ConversationProjectionKey × ConversationProjection →
      Option (ConversationId × PresentationEntry)
  | (.message _, .message message) => do
      let conversation ← messageConversationKey message policy
      let fact ← report.facts.get? message.factId
      let entry ← presentationEntry fact
      some (conversation, entry)
  | (.activity _, .activity activity)
  | (.activityRecord _, .activity activity) => do
      let fact ← report.facts.get? activity.factId
      match fact.payload with
      | .harnessActivityRecorded project source correlation
          _ _ _ _ _ _ _ _ _ _ => do
          let entry ← presentationEntry fact
          let key := match project with
            | none => .providerSession source correlation.provider
                correlation.session
            | some project => .projectThread project.projectId project.threadId
          some (key, entry)
      | _ => none
  | _ => none

/-- File every entry under its conversation, in the order of the keys. -/
def conversationEntries (report : ConversationReport)
    (policy : AuthorityPolicy) :
    OrderedMap ConversationId (List PresentationEntry) :=
  (report.projections.entries.filterMap (conversationEntry report policy)).foldl
    (fun filed entry => filed.insert entry.1
      ((filed.get? entry.1).getD [] ++ [entry.2])) ∅

/-- The presentation order of every conversation. -/
def conversationOrders (report : ConversationReport)
    (policy : AuthorityPolicy) :
    Except PresentationError (OrderedMap ConversationId (List FactId)) := do
  let ordered ← (conversationEntries report policy).entries.mapM fun entry => do
    let order ← canonicalPresentationOrder report.graph entry.2
    pure (entry.1, order)
  pure (OrderedMap.ofList ordered)

/-- The four reports derived from one set of facts. -/
structure CompleteSnapshot where
  policy : AuthorityPolicy
  authority : AuthorityReport
  conversation : ConversationReport
  agent : AgentReport
  project : ProjectReport
  conversationOrders : OrderedMap ConversationId (List FactId)

/-- The errors of the store that this development reads. -/
inductive StoreErrorClass where
  | reductionFailed
  | rebuildableStateCorrupt
  | notRepaired
  | databaseUnavailable
  | identityCollision
  | invalidEvidence
  | invalidOperationalRequest
  | mutationConflict
  | operationalStateCorrupt
  | revisionExhausted
  | relayStateConflict
  | relayStagingFull
deriving DecidableEq

def storeReductionError {ε α : Type} : Except ε α → Except StoreErrorClass α
  | .error _ => .error .reductionFailed
  | .ok value => .ok value

def buildCompleteSnapshot (facts : List Fact) (policy : AuthorityPolicy) :
    Except StoreErrorClass CompleteSnapshot := do
  let authority ← storeReductionError
    (reduceComplete (authorityReducer policy) facts)
  let conversation ← storeReductionError
    (reduceComplete (conversationReducer policy) facts)
  let agent ← storeReductionError (reduceComplete (agentReducer policy) facts)
  let project ← storeReductionError
    (reduceComplete (projectReducer policy pathConflicts) facts)
  let conversationOrders ← storeReductionError
    (conversationOrders conversation policy)
  pure ⟨policy, authority, conversation, agent, project, conversationOrders⟩

section Normalize

variable {A K V R : Type} [LinearOrder A] [LinearOrder K] [FieldCoded R]

/-- Connect a causal edge in both directions. -/
def connectCausalEdges (report : ReductionReport A K V R)
    (dependencies : OrderedMap FactId (OrderedSet FactId)) :
    OrderedMap FactId (OrderedSet FactId) :=
  (report.graph.vertices.toList.flatMap fun id =>
    (report.graph.children id).toList.flatMap fun child =>
      [(id, child), (child, id)]).foldl
    (fun dependencies edge => dependencies.insertMember edge.1 edge.2)
    dependencies

/-- Connect every two members of each set; a lone member is kept as a key. -/
def connectSets (sets : List (OrderedSet FactId))
    (dependencies : OrderedMap FactId (OrderedSet FactId)) :
    OrderedMap FactId (OrderedSet FactId) :=
  sets.foldl (fun dependencies members =>
    members.toList.foldl (fun dependencies member =>
      dependencies.insert member ((dependencies.members member).extend
        (members.toList.filter fun candidate => candidate ≠ member)))
      dependencies) dependencies

def normalizeReason (mapReason : R → ReductionReason) :
    DecisionReason R → ReductionReason
  | .identityCollision => .identityCollision
  | .causalCycle => .causalCycle
  | .domain reason => mapReason reason

def normalizeDecision (mapReason : R → ReductionReason)
    (decision : FactDecision R) : IndexedDecision where
  status := decision.status
  reason := decision.reason.map (normalizeReason mapReason)
  missingDependencies := decision.missingDependencies
  unusableDependencies := decision.unusableDependencies
  failedAuthorities := decision.failedAuthorities
  conflictParticipants := decision.conflictParticipants

def normalizeConflict (mapReason : R → ReductionReason)
    (conflict : ConflictObservation R) : IndexedConflict where
  reason := match conflict.reason with
    | .identityCollision => .identityCollision
    | .domain reason => mapReason reason
  participants := conflict.participants

/-- The sets of facts that a report ties together. -/
def relatedSets (report : ReductionReport A K V R) :
    List (OrderedSet FactId) :=
  report.aggregateMembers.values ++ report.support.values ++
    report.conflicts.toList.map ConflictObservation.participants ++
    report.decisions.values.map FactDecision.conflictParticipants

/-- Add one report to the index. -/
def normalizeReport (domain : ReductionDomain)
    (report : ReductionReport A K V R) (mapReason : R → ReductionReason)
    (index : ReductionIndexSnapshot) : ReductionIndexSnapshot :=
  { index with
    affectedDependencies :=
      connectSets (relatedSets report) index.affectedDependencies
    decisions := report.decisions.entries.foldl (fun decisions entry =>
      decisions.insert ⟨domain, entry.1⟩
        (normalizeDecision mapReason entry.2)) index.decisions
    dependencyOrder :=
      index.dependencyOrder.insert domain report.dependencyOrder
    presentationOrder :=
      index.presentationOrder.insert domain report.presentationOrder
    conflicts := index.conflicts.insert domain
      (report.conflicts.toList.map (normalizeConflict mapReason)) }

end Normalize

/-- The index before any report is added: the causal graph alone. -/
def structuralIndex (snapshot : CompleteSnapshot) : ReductionIndexSnapshot where
  policy := snapshot.policy
  reverseDependencies := OrderedMap.ofList
    (snapshot.authority.graph.vertices.toList.map fun id =>
      (id, snapshot.authority.graph.children id))
  affectedDependencies := connectCausalEdges snapshot.authority
    (OrderedMap.ofList (snapshot.authority.graph.vertices.toList.map fun id =>
      (id, ∅)))
  decisions := ∅
  dependencyOrder := ∅
  presentationOrder := ∅
  conflicts := ∅
  conversationOrders := snapshot.conversationOrders

def normalize (snapshot : CompleteSnapshot) : ReductionIndexSnapshot :=
  normalizeReport .project snapshot.project .project
    (normalizeReport .agent snapshot.agent .agent
      (normalizeReport .conversation snapshot.conversation .conversation
        (normalizeReport .authority snapshot.authority .authority
          (structuralIndex snapshot))))

/-! The codes of the stored columns. -/

def encodeStatus : DecisionStatus → Int
  | .projected => 1
  | .unresolved => 2
  | .unauthorized => 3
  | .conflicted => 4
  | .invalid => 5
  | .unsupported => 6

def decodeStatus : Int → Option DecisionStatus
  | 1 => some .projected
  | 2 => some .unresolved
  | 3 => some .unauthorized
  | 4 => some .conflicted
  | 5 => some .invalid
  | 6 => some .unsupported
  | _ => none

def AuthorityRole.all : List AuthorityRole :=
  [.localInstallation, .mailboxOwner, .mailboxGrant, .accountCreator,
    .deviceGrant, .accountMembership, .previousState, .projectHome,
    .activeHuman, .assignment, .dispatch, .request, .outputBinding]

def encodeRole : AuthorityRole → Int
  | .localInstallation => 1
  | .mailboxOwner => 2
  | .mailboxGrant => 3
  | .accountCreator => 4
  | .deviceGrant => 5
  | .accountMembership => 6
  | .previousState => 7
  | .projectHome => 8
  | .activeHuman => 9
  | .assignment => 10
  | .dispatch => 11
  | .request => 12
  | .outputBinding => 13

def decodeRole (value : Int) : Option AuthorityRole :=
  AuthorityRole.all.find? fun role => encodeRole role = value

def encodeAuthorityReason (base : Int) : AuthorityReason → Int × Int
  | .scopeMismatch => (base + 1, 0)
  | .signerMismatch => (base + 2, 0)
  | .subjectMismatch => (base + 3, 0)
  | .missingAuthority role => (base + 4, encodeRole role)
  | .authorityKindMismatch role => (base + 5, encodeRole role)
  | .rootHasParents => (base + 6, 0)
  | .uniqueRootConflict => (base + 7, 0)
  | .concurrentRegisterConflict => (base + 8, 0)
  | .incompleteRevocationFrontier => (base + 9, 0)
  | .revokedMailboxGrant => (base + 10, 0)
  | .inactiveAccountMembership => (base + 11, 0)

def decodeAuthorityReason (code parameter base : Int) :
    Option AuthorityReason :=
  match code - base with
  | 1 => if parameter = 0 then some .scopeMismatch else none
  | 2 => if parameter = 0 then some .signerMismatch else none
  | 3 => if parameter = 0 then some .subjectMismatch else none
  | 4 => (decodeRole parameter).map .missingAuthority
  | 5 => (decodeRole parameter).map .authorityKindMismatch
  | 6 => if parameter = 0 then some .rootHasParents else none
  | 7 => if parameter = 0 then some .uniqueRootConflict else none
  | 8 => if parameter = 0 then some .concurrentRegisterConflict else none
  | 9 => if parameter = 0 then some .incompleteRevocationFrontier else none
  | 10 => if parameter = 0 then some .revokedMailboxGrant else none
  | 11 => if parameter = 0 then some .inactiveAccountMembership else none
  | _ => none

def conversationReasonCode : ConversationReason → Int
  | .authority _ => 0
  | .addressMismatch => 2101
  | .threadMismatch => 2102
  | .targetNotAncestor => 2103
  | .rejectedMessage => 2104
  | .messageIdentityConflict => 2105
  | .activitySourceMismatch => 2106
  | .activitySequenceConflict => 2107
  | .activityRuntimeConflict => 2108
  | .conversationMismatch => 2109

def decodeConversationReason : Int → Option ConversationReason
  | 2101 => some .addressMismatch
  | 2102 => some .threadMismatch
  | 2103 => some .targetNotAncestor
  | 2104 => some .rejectedMessage
  | 2105 => some .messageIdentityConflict
  | 2106 => some .activitySourceMismatch
  | 2107 => some .activitySequenceConflict
  | 2108 => some .activityRuntimeConflict
  | 2109 => some .conversationMismatch
  | _ => none

def agentReasonCode : AgentReason → Int
  | .authority _ => 0
  | .invalidName => 3101
  | .agentMailboxMismatch => 3102
  | .subjectMismatch => 3103
  | .retiredAgent => 3104
  | .nameConflict => 3105
  | .agentClaimConflict => 3106
  | .sessionBindingConflict => 3107
  | .selectionConflict => 3108
  | .renameConflict => 3109

def decodeAgentReason : Int → Option AgentReason
  | 3101 => some .invalidName
  | 3102 => some .agentMailboxMismatch
  | 3103 => some .subjectMismatch
  | 3104 => some .retiredAgent
  | 3105 => some .nameConflict
  | 3106 => some .agentClaimConflict
  | 3107 => some .sessionBindingConflict
  | 3108 => some .selectionConflict
  | 3109 => some .renameConflict
  | _ => none

def projectReasonCode : ProjectReason → Int
  | .authority _ => 0
  | .subjectMismatch => 4101
  | .projectAuthorityMismatch => 4102
  | .projectIdentityConflict => 4103
  | .homeLinearFork => 4104
  | .staleHead => 4105
  | .invalidTransition => 4106
  | .resourceInvariant => 4107
  | .resourceClaimConflict => 4108
  | .assignmentCardinalityConflict => 4109
  | .assignmentBindingMismatch => 4110
  | .inputSequenceConflict => 4111
  | .dispatchConflict => 4112
  | .outputConflict => 4113
  | .remoteCommandConflict => 4114

def decodeProjectReason : Int → Option ProjectReason
  | 4101 => some .subjectMismatch
  | 4102 => some .projectAuthorityMismatch
  | 4103 => some .projectIdentityConflict
  | 4104 => some .homeLinearFork
  | 4105 => some .staleHead
  | 4106 => some .invalidTransition
  | 4107 => some .resourceInvariant
  | 4108 => some .resourceClaimConflict
  | 4109 => some .assignmentCardinalityConflict
  | 4110 => some .assignmentBindingMismatch
  | 4111 => some .inputSequenceConflict
  | 4112 => some .dispatchConflict
  | 4113 => some .outputConflict
  | 4114 => some .remoteCommandConflict
  | _ => none

def encodeReason : ReductionReason → Int × Int
  | .identityCollision => (1, 0)
  | .causalCycle => (2, 0)
  | .authority reason => encodeAuthorityReason 1000 reason
  | .conversation (.authority reason) => encodeAuthorityReason 2000 reason
  | .conversation reason => (conversationReasonCode reason, 0)
  | .agent (.authority reason) => encodeAuthorityReason 3000 reason
  | .agent reason => (agentReasonCode reason, 0)
  | .project (.authority reason) => encodeAuthorityReason 4000 reason
  | .project reason => (projectReasonCode reason, 0)

/-- Decode a reason by the range of its code. -/
def decodeReason (code parameter : Int) : Option ReductionReason :=
  if code = 1 ∧ parameter = 0 then some .identityCollision
  else if code = 2 ∧ parameter = 0 then some .causalCycle
  else if 1001 ≤ code ∧ code ≤ 1011 then
    (decodeAuthorityReason code parameter 1000).map .authority
  else if 2001 ≤ code ∧ code ≤ 2011 then
    (decodeAuthorityReason code parameter 2000).map
      fun reason => .conversation (.authority reason)
  else if 2101 ≤ code ∧ code ≤ 2108 ∧ parameter = 0 then
    (decodeConversationReason code).map .conversation
  else if 3001 ≤ code ∧ code ≤ 3011 then
    (decodeAuthorityReason code parameter 3000).map
      fun reason => .agent (.authority reason)
  else if 3101 ≤ code ∧ code ≤ 3109 ∧ parameter = 0 then
    (decodeAgentReason code).map .agent
  else if 4001 ≤ code ∧ code ≤ 4011 then
    (decodeAuthorityReason code parameter 4000).map
      fun reason => .project (.authority reason)
  else if 4101 ≤ code ∧ code ≤ 4114 ∧ parameter = 0 then
    (decodeProjectReason code).map .project
  else none

def reasonBelongsToDomain : ReductionDomain → ReductionReason → Bool
  | _, .identityCollision | _, .causalCycle => true
  | .authority, .authority _ | .conversation, .conversation _
  | .agent, .agent _ | .project, .project _ => true
  | _, _ => false

end Hq
