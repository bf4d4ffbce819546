/-
The semantic fact: a verified envelope (identity, author, scope, causal
references) around one payload of the fact catalogue.  The structures carry
the checks of their constructors, so a fact the source refuses cannot be
built here either.
-/
import Hq.Values

namespace Hq

/-- The audience of a fact. -/
inductive FactScope where
  | installationPrivate (installationId : InstallationId)
  | peerAddressed (mailbox : MailboxAddress)
  | accountAddressed (accountId : AccountId)
  | remoteControl (accountId : AccountId) (targetHome : InstallationId)
deriving DecidableEq

inductive MailboxKind where
  | human | agent
deriving DecidableEq

structure RepositoryContext where
  directory : ResourceLocator
  repository : Option ResourceLocator
  worktree : Option ResourceLocator
  branch : Option ShortText
deriving DecidableEq

inductive MessagePurpose where
  | question | asynchronous | projectOutput
deriving DecidableEq

inductive PresentationKind where
  | message | finalAnswer | status
deriving DecidableEq

structure MessageContent where
  messageId : MessageId
  sender : MailboxAddress
  recipient : Option MailboxAddress
  body : ContentText
  purpose : MessagePurpose
  presentation : PresentationKind
  correlation : Option OperationCorrelation
  projectId : Option ProjectId
deriving DecidableEq

inductive ActivityKind where
  | status | agentTurn | progress | plan | diff | completedItem
deriving DecidableEq

inductive ActivityStatus where
  | snapshot | running | succeeded | failed (error : ErrorCode) | interrupted
deriving DecidableEq

structure CompletedFileChange where
  path : ContentText
  diff : Option ContentText
  pathTruncated : Bool
  diffTruncated : Bool
deriving DecidableEq

inductive CompletedItemPresentation where
  | command (command : ContentText) (output : Option ContentText)
      (exitCode : Option Int) (commandTruncated outputTruncated : Bool)
  | fileChange (changes : BoundedVec CompletedFileChange 64)
      (changesTruncated : Bool)
  | tool (name : ShortText) (nameTruncated : Bool)
  | webSearch (query : ContentText) (queryTruncated : Bool)
  | unknown
deriving DecidableEq

inductive RuntimeObservation where
  | succeeded | failed (error : ErrorCode) | uncertain (error : ErrorCode)
deriving DecidableEq

inductive ResourceHealth where
  | unknown | healthy | degraded | unavailable
deriving DecidableEq

structure ProjectResource where
  resourceId : ResourceId
  displayLocator : ResourceLocator
  canonicalLocator : ResourceLocator
  health : ResourceHealth
deriving DecidableEq

structure AssignmentIntent where
  assignmentId : AssignmentId
  agentId : AgentId
  provider : ProviderId
deriving DecidableEq

structure AssignmentBinding where
  assignmentId : AssignmentId
  agentId : AgentId
  provider : ProviderId
  session : ProviderSessionId
deriving DecidableEq

structure ProjectActivityAttribution where
  projectId : ProjectId
  dispatchId : DispatchId
  binding : AssignmentBinding
  threadId : ThreadId
deriving DecidableEq

inductive InitialProjectState where
  | opened | closed
deriving DecidableEq

inductive ProjectExternalStateWarning where
  | worktreeMayExist (destination : ResourceLocator) (branch : ShortText)
deriving DecidableEq

inductive RemoteCommandResult where
  | committed (head : FactId)
  | rejected (error : ErrorCode)
      (externalStateWarning : Option ProjectExternalStateWarning)
deriving DecidableEq

/-- One payload of the semantic fact catalogue. -/
inductive SemanticPayload where
  | installationDeclared (installationId : InstallationId)
      (signingKey : SigningPublicKey) (encryptionKey : EncryptionPublicKey)
      (label : Option ShortText)
  | mailboxCreated (mailboxId : MailboxId) (kind : MailboxKind)
      (label : Option ShortText)
  | mailboxSessionBound (mailboxId : MailboxId) (provider : ProviderId)
      (session : ProviderSessionId)
  | mailboxContextRecorded (mailboxId : MailboxId)
      (context : RepositoryContext)
  | peerRouteSet (peer : InstallationAddress)
      (encryptionKey : EncryptionPublicKey) (label : Option ShortText)
      (relayHints : RelayHints)
  | peerRouteBlocked (peerId : InstallationId) (reason : ErrorCode)
  | mailboxAccessGranted (grantId : GrantId) (mailbox : MailboxAddress)
      (grantee : InstallationAddress)
  | mailboxAccessRevoked (grantId : GrantId) (mailbox : MailboxAddress)
      (granteeId : InstallationId)
  | mailboxActionObserved (grantId : GrantId) (actionId : FactId)
  | humanAccountCreated (accountId : AccountId)
      (creator : InstallationAddress) (label : Option ShortText)
  | humanAccountSelected (accountId : AccountId)
  | humanDeviceGranted (accountId : AccountId) (grantId : GrantId)
      (device : InstallationAddress) (label : Option ShortText)
      (relayHints : RelayHints)
  | humanDeviceAccepted (accountId : AccountId) (grantId : GrantId)
      (device : InstallationAddress)
  | humanDeviceRevoked (accountId : AccountId) (grantId : GrantId)
      (deviceId : InstallationId)
  | questionAsked (message : MessageContent)
  | asynchronousMessageSent (threadId : Option ThreadId)
      (message : MessageContent)
  | answerGiven (threadId : ThreadId) (message : MessageContent)
  | threadCancelled (threadId : ThreadId) (reason : Option ContentText)
  | messageArchived (messageId : MessageId)
  | messageRestored (messageId : MessageId)
  | conversationArchived (conversation : ConversationId)
  | messageRejected (messageId : MessageId) (reason : ErrorCode)
  | harnessActivityRecorded (project : Option ProjectActivityAttribution)
      (source : MailboxAddress) (correlation : OperationCorrelation)
      (item : Option ShortText) (kind : ActivityKind) (logicalKey : ShortText)
      (runtime : ShortText) (sequence : NonZeroU64) (occurredAt : Timestamp)
      (status : ActivityStatus) (content : ContentText) (truncated : Bool)
      (completed : Option CompletedItemPresentation)
  | agentNameClaimed (agentId : AgentId) (mailboxId : MailboxId)
      (name : ShortText)
  | agentRetired (agentId : AgentId) (mailboxId : MailboxId)
  | providerSessionSelected (agentId : AgentId) (mailboxId : MailboxId)
      (provider : ProviderId) (session : ProviderSessionId)
      (context : RepositoryContext)
  | providerSessionRenamed (agentId : AgentId) (provider : ProviderId)
      (session : ProviderSessionId) (displayName : Option ShortText)
  | projectCreated (projectId : ProjectId) (mailboxId : MailboxId)
      (home : InstallationId) (name : ShortText) (brief : Option ContentText)
      (predecessor : Option ProjectId)
      (resources : BoundedVec ProjectResource 64)
      (primary : Option ResourceId) (initialState : InitialProjectState)
  | projectOpened (projectId : ProjectId)
  | projectClosingStarted (projectId : ProjectId)
  | projectClosed (projectId : ProjectId) (forced : Bool)
      (runtime : Option RuntimeObservation)
  | projectArchived (projectId : ProjectId)
  | projectUnarchived (projectId : ProjectId)
  | projectMetadataUpdated (projectId : ProjectId) (name : ShortText)
      (brief : Option ContentText)
  | projectResourceAdded (projectId : ProjectId) (resource : ProjectResource)
      (makePrimary : Bool)
  | projectResourceRemoved (projectId : ProjectId) (resourceId : ResourceId)
      (force : Bool)
  | projectResourceReplaced (projectId : ProjectId)
      (oldResourceId : ResourceId) (newResource : ProjectResource)
  | projectPrimaryResourceChanged (projectId : ProjectId)
      (resourceId : ResourceId)
  | projectResourceHealthObserved (projectId : ProjectId)
      (resourceId : ResourceId) (health : ResourceHealth)
      (details : Option ContentText) (checkedAt : Timestamp)
  | projectAssignmentConfiguring (projectId : ProjectId)
      (intent : AssignmentIntent)
  | projectAssignmentRunnable (projectId : ProjectId)
      (binding : AssignmentBinding) (threadId : ThreadId)
      (launchDirectory : ResourceLocator) (activation : OperationCorrelation)
  | projectAssignmentBlocked (projectId : ProjectId)
      (assignmentId : AssignmentId) (cause : ErrorCode)
  | projectAssignmentEnded (projectId : ProjectId)
      (assignmentId : AssignmentId) (forced : Bool)
      (runtime : Option RuntimeObservation)
  | projectInputAccepted (projectId : ProjectId) (messageId : MessageId)
      (inputFactId : FactId) (sequence : NonZeroU64)
  | projectInputDispatched (projectId : ProjectId) (messageId : MessageId)
      (sequence : NonZeroU64) (dispatchId : DispatchId)
      (binding : AssignmentBinding) (threadId : ThreadId)
  | projectOutputRecorded (projectId : ProjectId) (outputId : MessageId)
      (dispatchId : DispatchId) (binding : AssignmentBinding)
      (threadId : ThreadId) (message : MessageContent)
  | remoteProjectCommandRequested (commandId : CommandId)
      (digest : CommandDigest) (projectId : ProjectId)
      (targetHome : InstallationId) (expectedHead : Option FactId)
      (operation : OperationCorrelation) (body : ContentText)
  | remoteProjectCommandReceipt (commandId : CommandId)
      (digest : CommandDigest) (projectId : ProjectId)
      (receivedHead : Option FactId) (receivedAt : Timestamp)
  | remoteProjectCommandOutcome (commandId : CommandId)
      (digest : CommandDigest) (projectId : ProjectId)
      (result : RemoteCommandResult) (runtime : Option RuntimeObservation)
deriving DecidableEq

/-- The remote-control families; every other family is canonical. -/
def SemanticPayload.isRemoteControl : SemanticPayload → Bool
  | .remoteProjectCommandRequested .. | .remoteProjectCommandReceipt ..
  | .remoteProjectCommandOutcome .. => true
  | _ => false

def FactScope.isRemoteControl : FactScope → Bool
  | .remoteControl .. => true
  | _ => false

/-- Declared parents and the typed authorities among them. -/
structure CausalReferences where
  parents : OrderedSet FactId
  authorities : OrderedMap AuthorityRole FactId
  parents_bounded : parents.toList.length ≤ 64
  authorities_bounded : authorities.entries.length ≤ 8
  authority_mem_parents :
    ∀ entry ∈ authorities.entries, entry.2 ∈ parents
deriving DecidableEq

def CausalReferences.authority (causal : CausalReferences)
    (role : AuthorityRole) : Option FactId :=
  causal.authorities.get? role

theorem CausalReferences.mem_parents_of_authority {causal : CausalReferences}
    {role : AuthorityRole} {id : FactId}
    (hauthority : causal.authority role = some id) : id ∈ causal.parents :=
  causal.authority_mem_parents (role, id)
    (OrderedMap.get?_eq_some_iff.1 hauthority)

/-- Why a validated value is refused. -/
inductive ValidatedValueError where
  | tooMany (maximum actual : Nat)
  | duplicate
  | authorityNotParent
  | duplicateAuthorityRole
deriving DecidableEq

/-- Every authority cites a declared parent under a role of its own. -/
def checkAuthorities (parents : OrderedSet FactId) :
    List AuthorityRole → List (AuthorityRole × FactId) →
      Except ValidatedValueError Unit
  | _, [] => .ok ()
  | seen, (role, id) :: rest =>
      if id ∉ parents then .error .authorityNotParent
      else if role ∈ seen then .error .duplicateAuthorityRole
      else checkAuthorities parents (role :: seen) rest

theorem checkAuthorities_ok {parents : OrderedSet FactId}
    {seen : List AuthorityRole} {authorities : List (AuthorityRole × FactId)}
    (h : checkAuthorities parents seen authorities = .ok ()) :
    ∀ entry ∈ authorities, entry.2 ∈ parents := by
  induction authorities generalizing seen with
  | nil => simp
  | cons head tail ih =>
      simp only [checkAuthorities] at h
      split at h
      · cases h
      next hmem =>
        split at h
        · cases h
        · intro entry hentry
          rcases List.mem_cons.1 hentry with rfl | hentry
          · simpa using hmem
          · exact ih h entry hentry

/-- Validate parents and authority roles. -/
def CausalReferences.new (parents : List FactId)
    (authorities : List (AuthorityRole × FactId)) :
    Except ValidatedValueError CausalReferences :=
  if hparents : parents.length ≤ 64 then
    if (OrderedSet.ofList parents).size ≠ parents.length then .error .duplicate
    else if hauthorities : authorities.length ≤ 8 then
      match hcheck : checkAuthorities (OrderedSet.ofList parents) []
          authorities with
      | .error error => .error error
      | .ok () => .ok
          { parents := OrderedSet.ofList parents
            authorities := OrderedMap.ofList authorities
            parents_bounded :=
              (OrderedSet.length_ofList_le parents).trans hparents
            authorities_bounded :=
              (OrderedMap.length_ofList_le authorities).trans hauthorities
            authority_mem_parents := fun entry hentry =>
              checkAuthorities_ok hcheck entry (OrderedMap.mem_of_get?_ofList
                (OrderedMap.get?_eq_some_iff.2 hentry)) }
    else .error (.tooMany 8 authorities.length)
  else .error (.tooMany 64 parents.length)

def CausalReferences.none : CausalReferences :=
  ⟨∅, ∅, Nat.zero_le _, Nat.zero_le _, fun _ hentry =>
    (List.not_mem_nil hentry).elim⟩

/-- References to numbered facts; none when the source refuses them. -/
def citing (authorities : List (AuthorityRole × Nat)) (parents : List Nat) :
    CausalReferences :=
  match CausalReferences.new
      ((authorities.map Prod.snd ++ parents).dedup.map .ofNat)
      (authorities.map fun authority => (authority.1, .ofNat authority.2)) with
  | .ok references => references
  | .error _ => .none

/-- The family invariants `SemanticFact::new` checks. -/
def SemanticPayload.isAdmissible (author : InstallationAddress)
    (scope : FactScope) : SemanticPayload → Bool
  | .installationDeclared installationId signingKey _ _ =>
      author.installationId = installationId && author.signingKey = signingKey
        && scope = .installationPrivate installationId
  | .questionAsked message => message.purpose = .question
  | .asynchronousMessageSent _ message => message.purpose = .asynchronous
  | .projectOutputRecorded projectId _ _ _ _ message =>
      message.purpose = .projectOutput && message.projectId = some projectId
  | .projectCreated _ _ _ _ _ _ resources (some primary) _ =>
      resources.items.any fun resource => resource.resourceId = primary
  | .remoteProjectCommandRequested _ _ _ targetHome _ _ _ =>
      match scope with
      | .remoteControl _ scopeHome => scopeHome = targetHome
      | _ => false
  | _ => true

/-- An immutable semantic fact. -/
structure Fact where
  id : FactId
  author : InstallationAddress
  authoredAt : Timestamp
  scope : FactScope
  causal : CausalReferences
  payload : SemanticPayload
  protocol_scope : scope.isRemoteControl = payload.isRemoteControl
  admissible : payload.isAdmissible author scope = true
deriving DecidableEq

/-- The installation that signed a fact. -/
def Fact.authorId (fact : Fact) : InstallationId := fact.author.installationId

theorem Fact.mem_parents_of_authority {fact : Fact} {role : AuthorityRole}
    {id : FactId} (hauthority : fact.causal.authority role = some id) :
    id ∈ fact.causal.parents :=
  CausalReferences.mem_parents_of_authority hauthority

end Hq
