/-
The store: canonical facts with their materialized reduction, the revision
counter, receipts, drafts and delivery intents.  A fact is ingested only when
the change it makes is covered, and a local mutation records one receipt.
-/
import Hq.IndexSound
import Hq.SignedEvent

namespace Hq

/-- A fact with the exact bytes of its signed event. -/
structure VerifiedSemanticFact where
  fact : Fact
  exactEventBytes : List UInt8
deriving DecidableEq

inductive MutationResultKind where
  | committed | rejected
deriving DecidableEq

/-- The durable answer to one command. -/
def maxMutationResultBytes : Nat := 65536

/-- The bounded bytes of a recorded result. -/
structure MutationResultBytes where
  bytes : List UInt8
  bounded : bytes.length ≤ maxMutationResultBytes
deriving DecidableEq

def MutationResultBytes.empty : MutationResultBytes := ⟨[], Nat.zero_le _⟩

structure MutationReceipt where
  commandId : CommandId
  requestDigest : CommandDigest
  resultKind : MutationResultKind
  result : MutationResultBytes
  revision : Nat
deriving DecidableEq

/-- A fact to be delivered to one installation. -/
structure OutboxIntent where
  factId : FactId
  recipient : InstallationId
  exactCanonicalBytes : List UInt8
  revision : Nat
deriving DecidableEq

inductive MailboxDraftTarget where
  | conversation (conversation : ConversationId)
  | reply (messageId : MessageId)
  | direct (recipient : MailboxAddress)
  | selfNote
  | project (projectId : ProjectId) (threadId : Option ThreadId)
  | projectSetup (projectId : ProjectId) (agentId : AgentId)
      (provider : ProviderId)
deriving DecidableEq

structure MailboxDraft where
  draftId : OperationId
  target : MailboxDraftTarget
  content : List Char
  version : Nat
deriving DecidableEq

/-- The durable tables; the rebuildable ones are kept as what they load to. -/
structure Database where
  facts : OrderedMap FactId VerifiedSemanticFact
  keyed : ∀ id stored, facts.get? id = some stored → stored.fact.id = id
  rebuilt : Option CompleteSnapshot
  commits : OrderedMap FactId Nat
  revision : Nat
  receipts : OrderedMap CommandId MutationReceipt
  outbox : OrderedMap (FactId ×ₗ InstallationId) OutboxIntent
  drafts : OrderedMap OperationId MailboxDraft

def Database.empty : Database where
  facts := ∅
  keyed := by simp
  rebuilt := none
  commits := ∅
  revision := 0
  receipts := ∅
  outbox := ∅
  drafts := ∅

def maximumCorpusFacts : Nat := 1000000

/-- The stored facts in the order of their identities. -/
def loadFacts (database : Database) : Except StoreErrorClass (List Fact) :=
  if database.facts.size ≤ maximumCorpusFacts then
    .ok (database.facts.values.map VerifiedSemanticFact.fact)
  else .error .invalidEvidence

inductive CanonicalAppendOutcome where
  | inserted | alreadyPresent
deriving DecidableEq

/-- The columns compared with a row that is already there. -/
def immutableRowEqual (stored fact : VerifiedSemanticFact) : Bool :=
  stored.exactEventBytes = fact.exactEventBytes &&
    stored.fact.payload.isRemoteControl = fact.fact.payload.isRemoteControl &&
    stored.fact.payload.family = fact.fact.payload.family &&
    stored.fact.causal.parents = fact.fact.causal.parents &&
    stored.fact.causal.authorities = fact.fact.causal.authorities

def Database.insertFact (database : Database) (fact : VerifiedSemanticFact) :
    Database :=
  { database with
    facts := database.facts.insert fact.fact.id fact
    keyed := by
      intro id stored hget
      rw [OrderedMap.get?_insert] at hget
      split at hget
      next heq =>
        cases hget
        exact heq.symm
      next => exact database.keyed id stored hget }

def appendInTransaction (database : Database) (fact : VerifiedSemanticFact) :
    Except StoreErrorClass (Database × CanonicalAppendOutcome) :=
  match database.facts.get? fact.fact.id with
  | some stored =>
      if immutableRowEqual stored fact then .ok (database, .alreadyPresent)
      else .error .identityCollision
  | none => .ok (database.insertFact fact, .inserted)

/-! The change a fact makes to the materialized reduction. -/

/-- The affected edges of two indexes that leave a fact. -/
def affectedEdges (previous current : ReductionIndexSnapshot) (id : FactId) :
    List FactId :=
  (previous.affectedDependencies.members id).toList ++
    (current.affectedDependencies.members id).toList

/-- The facts that the affected edges of two indexes lead to.  The fuel bounds
the number of edges. -/
def affectedUnion (previous current : ReductionIndexSnapshot)
    (delta : FactId) : OrderedSet FactId :=
  let vertices := (previous.affectedDependencies.keys.extend
    current.affectedDependencies.keys.toList).toList
  OrderedSet.ofList (reachable (affectedEdges previous current)
    ((vertices.map fun id =>
      (affectedEdges previous current id).length).sum + 2) [] [delta])

/-- The keys of either map whose values differ. -/
def changedKeys {α β : Type} [LinearOrder α] [DecidableEq β]
    (previous current : OrderedMap α β) : List α :=
  (previous.keys.extend current.keys.toList).toList.filter fun key =>
    previous.get? key ≠ current.get? key

def projectionChangesAreCovered {A K V : Type} [LinearOrder A]
    [LinearOrder K] [DecidableEq V]
    (previousFrontiers currentFrontiers : OrderedMap A (OrderedSet FactId))
    (previousProjections currentProjections : OrderedMap K V)
    (previousSupport currentSupport : OrderedMap K (OrderedSet FactId))
    (affected : OrderedSet FactId) : Bool :=
  ((changedKeys previousFrontiers currentFrontiers).all fun key =>
    ((previousFrontiers.members key).toList ++
      (currentFrontiers.members key).toList).any (· ∈ affected)) &&
  (((previousProjections.keys.extend currentProjections.keys.toList).toList.filter
    fun key => previousProjections.get? key ≠ currentProjections.get? key ||
      previousSupport.get? key ≠ currentSupport.get? key).all fun key =>
    ((previousSupport.members key).toList ++
      (currentSupport.members key).toList).any (· ∈ affected))

/-- The coverage of the changes between two reports of one domain. -/
def reportChangesAreCovered {A K V R : Type} [LinearOrder A] [LinearOrder K]
    [DecidableEq V] [FieldCoded R] (previous current : ReductionReport A K V R)
    (affected : OrderedSet FactId) : Bool :=
  projectionChangesAreCovered previous.frontiers current.frontiers
    previous.projections current.projections previous.support current.support
    affected

/-- The facts that a change of the added fact may touch: its affected closure,
or everything when the policy has changed. -/
def affectedBy (previous current : CompleteSnapshot) (delta : FactId) :
    OrderedSet FactId :=
  if previous.policy = current.policy then
    affectedUnion (normalize previous) (normalize current) delta
  else
    OrderedSet.ofList ((normalize previous).affectedDependencies.keys.toList ++
      (normalize current).affectedDependencies.keys.toList ++ [delta])

def validateIncrementalChange (previous : Option CompleteSnapshot)
    (current : CompleteSnapshot) (delta : FactId) :
    Except StoreErrorClass Unit :=
  match previous with
  | none => .ok ()
  | some previous =>
      let affected := affectedBy previous current delta
      if ((changedKeys (normalize previous).decisions
            (normalize current).decisions).all fun key =>
            key.factId ∈ affected) &&
          reportChangesAreCovered previous.authority current.authority
            affected &&
          reportChangesAreCovered previous.conversation current.conversation
            affected &&
          reportChangesAreCovered previous.agent current.agent affected &&
          reportChangesAreCovered previous.project current.project affected then
        .ok ()
      else .error .reductionFailed

/-! Ingesting one fact. -/

/-- What the store is given: digests, the tables of the projections, and their
reading back. -/
structure StoreEnvironment (D : Type) where
  indexDigest : ReductionIndexSnapshot → D
  keyDigest : ConversationId → D
  persistProjections : CompleteSnapshot → Except StoreErrorClass Unit

section Ingest

variable {D : Type} [LinearOrder D] (environment : StoreEnvironment D)

/-- Write the rebuildable tables and read them back. -/
def patchInTransaction (facts : List Fact) (complete : CompleteSnapshot) :
    Except StoreErrorClass Unit := do
  let rows ← insertIndex environment.indexDigest environment.keyDigest
    (storedFamily facts) (normalize complete)
  let persisted ← loadIndex environment.indexDigest environment.keyDigest rows
  if persisted = normalize complete then
    environment.persistProjections complete
  else .error .rebuildableStateCorrupt

def allocateRevision (database : Database) :
    Except StoreErrorClass (Database × Nat) :=
  if database.revision + 1 < 2 ^ 64 then
    .ok ({ database with revision := database.revision + 1 },
      database.revision + 1)
  else .error .revisionExhausted

/-- Some domain projects the fact. -/
def factIsAdmitted (index : ReductionIndexSnapshot) (id : FactId) : Bool :=
  ReductionDomain.all.any fun domain =>
    (index.decision domain id).any fun decision =>
      decision.status = .projected

/-- The creator of an account and its active devices. -/
def accountRecipients (account : AccountId) (authority : AuthorityReport) :
    List InstallationId :=
  (match authority.projections.get? (.account account) with
    | some (.account _ creator _) => [creator.installationId]
    | _ => []) ++
  authority.projections.entries.filterMap fun entry =>
    match entry with
    | (.membership candidate device, .membership view) =>
        if candidate = account && view.state = .active then some device
        else none
    | _ => none

def scopeRecipients (scope : FactScope) (authority : AuthorityReport) :
    List InstallationId :=
  match scope with
  | .installationPrivate _ => []
  | .peerAddressed mailbox => [mailbox.installationId]
  | .accountAddressed account => accountRecipients account authority
  | .remoteControl account targetHome =>
      accountRecipients account authority ++ [targetHome]

/-- The party that a grant or a revoke names. -/
def namedRecipient : SemanticPayload → List InstallationId
  | .mailboxAccessGranted _ _ grantee => [grantee.installationId]
  | .mailboxAccessRevoked _ _ granteeId => [granteeId]
  | .humanDeviceGranted _ _ device _ _ => [device.installationId]
  | .humanDeviceRevoked _ _ deviceId => [deviceId]
  | _ => []

def outboxRecipients (fact : Fact) (policy : AuthorityPolicy)
    (authority : AuthorityReport) : OrderedSet InstallationId :=
  (OrderedSet.ofList (scopeRecipients fact.scope authority ++
    namedRecipient fact.payload)).filter fun recipient =>
      recipient ≠ fact.authorId && recipient ≠ policy.localInstallation

/-- The schema bounds the column below what an intent may carry. -/
def outboxColumnBytes : Nat := 65536

def putOutboxIntent (intent : OutboxIntent) (database : Database) :
    Except StoreErrorClass Database :=
  if intent.exactCanonicalBytes.isEmpty ||
      SignedEvent.maxEventBytes < intent.exactCanonicalBytes.length then
    .error .invalidEvidence
  else
    match database.outbox.get? (toLex (intent.factId, intent.recipient)) with
    | some stored =>
        if stored.exactCanonicalBytes = intent.exactCanonicalBytes &&
            stored.revision = intent.revision then .ok database
        else .error .identityCollision
    | none =>
        if outboxColumnBytes < intent.exactCanonicalBytes.length then
          .error .databaseUnavailable
        else .ok { database with
          outbox := database.outbox.insert
            (toLex (intent.factId, intent.recipient)) intent }

def putCanonicalCommit (id : FactId) (revision : Nat) (database : Database) :
    Except StoreErrorClass Database :=
  match database.commits.get? id with
  | some stored =>
      if stored = revision then .ok database
      else .error .operationalStateCorrupt
  | none => .ok { database with
      commits := database.commits.insert id revision }

inductive IngestOutcome where
  | inserted (revision : Nat)
  | alreadyPresent (revision : Nat)
deriving DecidableEq

/-- Reduce the facts with the new one and materialize the result. -/
def materialize (database : Database) (fact : VerifiedSemanticFact)
    (policy : AuthorityPolicy) :
    Except StoreErrorClass (Database × CompleteSnapshot) := do
  let (appended, outcome) ← appendInTransaction database fact
  if outcome ≠ .inserted then .error .operationalStateCorrupt
  else
    let facts ← loadFacts appended
    let complete ← buildCompleteSnapshot facts policy
    validateIncrementalChange database.rebuilt complete fact.fact.id
    patchInTransaction environment facts complete
    -- the last of the patched tables is `mutation_receipts`, which the staged
    -- database leaves empty
    .ok ({ appended with rebuilt := some complete, receipts := ∅ }, complete)

/-- File an intent for every recipient of an admitted fact. -/
def putOutboxIntents (fact : VerifiedSemanticFact) (policy : AuthorityPolicy)
    (complete : CompleteSnapshot) (revision : Nat) (database : Database) :
    Except StoreErrorClass Database :=
  if factIsAdmitted (normalize complete) fact.fact.id then
    (outboxRecipients fact.fact policy complete.authority).toList.foldlM
      (fun database recipient => putOutboxIntent
        ⟨fact.fact.id, recipient, fact.exactEventBytes, revision⟩ database)
      database
  else .ok database

def ingestInTransaction (database : Database) (fact : VerifiedSemanticFact)
    (policy : AuthorityPolicy) :
    Except StoreErrorClass (Database × IngestOutcome) :=
  match database.commits.get? fact.fact.id with
  | some revision => do
      let (appended, outcome) ← appendInTransaction database fact
      if outcome ≠ .alreadyPresent then .error .operationalStateCorrupt
      else .ok (appended, .alreadyPresent revision)
  | none => do
      let (materialized, complete) ←
        materialize environment database fact policy
      let (allocated, revision) ← allocateRevision materialized
      let filed ← putOutboxIntents fact policy complete revision allocated
      let committed ← putCanonicalCommit fact.fact.id revision filed
      .ok (committed, .inserted revision)

end Ingest

/-! Local mutations. -/

/-- The semantic inputs of a fact before it is signed. -/
structure CanonicalEventPlan where
  author : InstallationId
  authoredAt : Timestamp
  scope : FactScope
  causal : CausalReferences
  payload : SemanticPayload
deriving DecidableEq

inductive LocalMutationDecision where
  | commit (plan : CanonicalEventPlan) (auxiliaryRandomness : List UInt8)
      (result : MutationResultBytes)
  | reject (result : MutationResultBytes)

/-- A command with its decision and the signer of the installation. -/
structure LocalMutationRequest where
  commandId : CommandId
  requestDigest : CommandDigest
  policy : AuthorityPolicy
  sign : CanonicalEventPlan → List UInt8 → Option VerifiedSemanticFact
  draftId : Option OperationId
  decide : CompleteSnapshot → Option MailboxDraft → LocalMutationDecision

/-- The index the tables load to. -/
def loadRepaired (database : Database) :
    Except StoreErrorClass ReductionIndexSnapshot :=
  match database.rebuilt with
  | none => .error .notRepaired
  | some complete => .ok (normalize complete)

def putReceipt (receipt : MutationReceipt) (database : Database) :
    Except StoreErrorClass Database :=
  match database.receipts.get? receipt.commandId with
  | some stored =>
      if stored = receipt then .error .operationalStateCorrupt
      else .error .mutationConflict
  | none => .ok { database with
      receipts := database.receipts.insert receipt.commandId receipt }

/-- A draft that survives the commit it prepared. -/
def keepsDraft (draft : Option MailboxDraft) : Bool :=
  match draft.map MailboxDraft.target with
  | some (.projectSetup ..) => true
  | _ => false

/-- A commit consumes its draft, unless that one prepares a project. -/
def consumeDraft (draftId : Option OperationId) (draft : Option MailboxDraft)
    (database : Database) : Except StoreErrorClass Database :=
  match draftId with
  | none => .ok database
  | some draftId =>
      if keepsDraft draft then .ok database
      else if draft.isNone || (database.drafts.get? draftId).isNone then
        .error .operationalStateCorrupt
      else .ok { database with drafts := database.drafts.erase draftId }

section Mutation

variable {D : Type} [LinearOrder D] (environment : StoreEnvironment D)

/-- Sign and ingest the decided fact, which some domain must project. -/
def commitDecision (database : Database) (request : LocalMutationRequest)
    (plan : CanonicalEventPlan) (auxiliaryRandomness : List UInt8) :
    Except StoreErrorClass (Database × Nat × Bool) :=
  match request.sign plan auxiliaryRandomness with
  | none => .error .invalidOperationalRequest
  | some fact => do
      let (ingested, outcome) ←
        ingestInTransaction environment database fact request.policy
      let index ← loadRepaired ingested
      if factIsAdmitted index fact.fact.id then
        match outcome with
        | .inserted revision => .ok (ingested, revision, true)
        | .alreadyPresent revision => .ok (ingested, revision, false)
      else .error .invalidOperationalRequest

/-- The draft that a request names. -/
def requestDraft (database : Database) (request : LocalMutationRequest) :
    Option MailboxDraft :=
  request.draftId.bind database.drafts.get?

/-- Carry out a decision and record its receipt. -/
def recordDecision (database : Database) (request : LocalMutationRequest) :
    LocalMutationDecision →
      Except StoreErrorClass (Database × MutationReceipt × Bool)
  | .commit plan auxiliaryRandomness result => do
      let (ingested, revision, changed) ← commitDecision environment database
        request plan auxiliaryRandomness
      let receipt : MutationReceipt := ⟨request.commandId,
        request.requestDigest, .committed, result, revision⟩
      let recorded ← putReceipt receipt ingested
      let consumed ← consumeDraft request.draftId
        (requestDraft database request) recorded
      .ok (consumed, receipt, changed)
  | .reject result => do
      let (allocated, revision) ← allocateRevision database
      let receipt : MutationReceipt := ⟨request.commandId,
        request.requestDigest, .rejected, result, revision⟩
      let recorded ← putReceipt receipt allocated
      .ok (recorded, receipt, true)

/-- Replay a recorded receipt, or decide over the reduced facts. -/
def executeLocalMutation (database : Database)
    (request : LocalMutationRequest) :
    Except StoreErrorClass (Database × MutationReceipt × Bool) :=
  match database.receipts.get? request.commandId with
  | some receipt =>
      if receipt.requestDigest ≠ request.requestDigest then
        .error .mutationConflict
      else .ok (database, receipt, false)
  | none => do
      let facts ← loadFacts database
      let complete ← buildCompleteSnapshot facts request.policy
      recordDecision environment database request
        (request.decide complete (requestDraft database request))

/-- The databases that ingests and local mutations lead to. -/
inductive Reached : Database → Prop where
  | empty : Reached .empty
  | ingested {database next : Database} {fact : VerifiedSemanticFact}
      {policy : AuthorityPolicy} {outcome : IngestOutcome}
      (reached : Reached database)
      (step : ingestInTransaction environment database fact policy =
        .ok (next, outcome)) : Reached next
  | mutated {database next : Database} {request : LocalMutationRequest}
      {receipt : MutationReceipt} {changed : Bool}
      (reached : Reached database)
      (step : executeLocalMutation environment database request =
        .ok (next, receipt, changed)) : Reached next

end Mutation

end Hq
