/-
The persisted index: the rows that a repair writes for a reduction index, the
loader that rebuilds the index from them, and which indexes come back.
-/
import Hq.ReductionIndex

namespace Hq

/-- The family number of a payload. -/
def SemanticPayload.family : SemanticPayload → Nat
  | .installationDeclared .. => 1
  | .mailboxCreated .. => 2
  | .mailboxSessionBound .. => 3
  | .mailboxContextRecorded .. => 4
  | .peerRouteSet .. => 5
  | .peerRouteBlocked .. => 6
  | .mailboxAccessGranted .. => 7
  | .mailboxAccessRevoked .. => 8
  | .mailboxActionObserved .. => 9
  | .humanAccountCreated .. => 10
  | .humanAccountSelected .. => 11
  | .humanDeviceGranted .. => 12
  | .humanDeviceAccepted .. => 13
  | .humanDeviceRevoked .. => 14
  | .questionAsked .. => 15
  | .asynchronousMessageSent .. => 16
  | .answerGiven .. => 17
  | .threadCancelled .. => 18
  | .messageArchived .. => 19
  | .messageRestored .. => 20
  | .messageRejected .. => 21
  | .harnessActivityRecorded .. => 22
  | .agentNameClaimed .. => 23
  | .agentRetired .. => 24
  | .providerSessionSelected .. => 25
  | .providerSessionRenamed .. => 26
  | .projectCreated .. => 27
  | .projectOpened .. => 28
  | .projectClosingStarted .. => 29
  | .projectClosed .. => 30
  | .projectArchived .. => 31
  | .projectUnarchived .. => 32
  | .projectMetadataUpdated .. => 33
  | .projectResourceAdded .. => 34
  | .projectResourceRemoved .. => 35
  | .projectResourceReplaced .. => 36
  | .projectPrimaryResourceChanged .. => 37
  | .projectResourceHealthObserved .. => 38
  | .projectAssignmentConfiguring .. => 39
  | .projectAssignmentRunnable .. => 40
  | .projectAssignmentBlocked .. => 41
  | .projectAssignmentEnded .. => 42
  | .projectInputAccepted .. => 43
  | .projectInputDispatched .. => 44
  | .projectOutputRecorded .. => 45
  | .remoteProjectCommandRequested .. => 46
  | .remoteProjectCommandReceipt .. => 47
  | .remoteProjectCommandOutcome .. => 48
  | .conversationArchived .. => 49

structure DecisionRow where
  domain : Int
  factId : FactId
  status : Int
  reasonCode : Int
  reasonParameter : Int

structure ConversationKeyRow where
  kind : Int
  installation : InstallationId
  mailbox : MailboxId
  project : ProjectId
  thread : ThreadId
  provider : List Char
  session : List Char

/-- The row counts stored beside the index. -/
structure Counts where
  factCount : Nat
  vertexCount : Nat
  reverseCount : Nat
  affectedCount : Nat
  decisionCount : Nat
  missingCount : Nat
  unusableCount : Nat
  failedAuthorityCount : Nat
  decisionParticipantCount : Nat
  dependencyOrderCount : Nat
  presentationOrderCount : Nat
  conversationKeyCount : Nat
  conversationOrderCount : Nat
  conflictCount : Nat
  conflictParticipantCount : Nat
deriving DecidableEq

def maximumIndexRows : Nat := 64000000

def Counts.isValid (counts : Counts) : Bool :=
  [counts.factCount, counts.vertexCount, counts.reverseCount,
    counts.affectedCount, counts.decisionCount, counts.missingCount,
    counts.unusableCount, counts.failedAuthorityCount,
    counts.decisionParticipantCount, counts.dependencyOrderCount,
    counts.presentationOrderCount, counts.conversationKeyCount,
    counts.conversationOrderCount, counts.conflictCount,
    counts.conflictParticipantCount].all (· ≤ maximumIndexRows)

/-- The one row that names the policy, the counts and the digest. -/
structure IndexState (D : Type) where
  policy : AuthorityPolicy
  counts : Counts
  digest : D

/-- The tables of the index.  Rows are written in the order of their keys,
which is the order they are read in. -/
structure IndexRows (D : Type) where
  state : Option (IndexState D)
  vertices : List FactId
  reverse : List (FactId × FactId)
  affected : List (FactId × FactId)
  decisions : List DecisionRow
  missing : List (Int × FactId × FactId)
  unusable : List (Int × FactId × FactId × Int)
  failedAuthorities : List (Int × FactId × Int)
  decisionParticipants : List (Int × FactId × FactId)
  dependencyOrder : List (Int × Nat × FactId)
  presentationOrder : List (Int × Nat × FactId)
  conversationKeys : List (D × ConversationKeyRow)
  conversationOrder : List (D × Nat × FactId × Int)
  conflicts : List (Int × Nat × Int × Int)
  conflictParticipants : List (Int × Nat × FactId)

/-! Writing. -/

def conversationKeyParts : ConversationId → ConversationKeyRow
  | .projectThread project thread =>
      ⟨3, .ofNat 0, .ofNat 0, project, thread, [], []⟩
  | .thread counterparty thread =>
      ⟨1, counterparty.installationId, counterparty.mailboxId, .ofNat 0, thread,
        [], []⟩
  | .providerSession counterparty provider session =>
      ⟨2, counterparty.installationId, counterparty.mailboxId, .ofNat 0,
        .ofNat 0, provider.chars, session.chars⟩

/-- Messages are entries of kind one, activity of kind two. -/
def entryKind (family : Nat) : Option Int :=
  if 15 ≤ family ∧ family ≤ 17 ∨ family = 45 then some 1
  else if family = 22 then some 2
  else none

section Write

variable {D : Type} [LinearOrder D]

/-- The rows of one conversation, filed by the digest of its key. -/
abbrev ConversationTables (D : Type) [LinearOrder D] :=
  OrderedMap D (ConversationKeyRow × List (Nat × FactId × Int))

def insertConversationOrder (keyDigest : ConversationId → D)
    (familyOf : FactId → Option Nat) (tables : ConversationTables D)
    (entry : ConversationId × List FactId) :
    Except StoreErrorClass (ConversationTables D) :=
  -- the digest is the primary key of the table
  if tables.contains (keyDigest entry.1) then .error .databaseUnavailable
  else
    match (positioned entry.2).mapM fun row =>
        ((familyOf row.2).bind entryKind).map fun kind =>
          (row.1, row.2, kind) with
    | none => .error .rebuildableStateCorrupt
    | some rows => .ok (tables.insert (keyDigest entry.1)
        (conversationKeyParts entry.1, rows))

def insertConversationOrders (keyDigest : ConversationId → D)
    (familyOf : FactId → Option Nat)
    (orders : OrderedMap ConversationId (List FactId)) :
    Except StoreErrorClass (ConversationTables D) :=
  orders.entries.foldlM (insertConversationOrder keyDigest familyOf) ∅

def orderRows (orders : OrderedMap ReductionDomain (List FactId)) :
    List (Int × Nat × FactId) :=
  (orders.rows positioned).map fun row => (row.1.encode, row.2)

/-- The facts that a domain of the index decides. -/
def ReductionIndexSnapshot.domainFacts (index : ReductionIndexSnapshot)
    (domain : ReductionDomain) : OrderedSet FactId :=
  OrderedSet.ofList (index.decisions.keys.toList.filterMap fun key =>
    if key.domain = domain then some key.factId else none)

/-- Every domain decides the same facts, and all of them are vertices. -/
def ReductionIndexSnapshot.isAligned (index : ReductionIndexSnapshot) : Bool :=
  (ReductionDomain.all.all fun domain =>
    index.domainFacts domain = index.domainFacts .authority) &&
  (index.domainFacts .authority).size * ReductionDomain.all.length =
    index.decisions.size &&
  (index.domainFacts .authority).toList.all index.reverseDependencies.contains

def Counts.ofIndex (index : ReductionIndexSnapshot) : Counts where
  factCount := (index.domainFacts .authority).size
  vertexCount := index.reverseDependencies.size
  reverseCount := (index.reverseDependencies.values.map OrderedSet.size).sum
  affectedCount := (index.affectedDependencies.values.map OrderedSet.size).sum
  decisionCount := index.decisions.size
  missingCount := (index.decisions.values.map fun decision =>
    decision.missingDependencies.size).sum
  unusableCount := (index.decisions.values.map fun decision =>
    decision.unusableDependencies.size).sum
  failedAuthorityCount := (index.decisions.values.map fun decision =>
    decision.failedAuthorities.size).sum
  decisionParticipantCount := (index.decisions.values.map fun decision =>
    decision.conflictParticipants.size).sum
  dependencyOrderCount := (index.dependencyOrder.values.map List.length).sum
  presentationOrderCount := (index.presentationOrder.values.map List.length).sum
  conversationKeyCount := index.conversationOrders.size
  conversationOrderCount :=
    (index.conversationOrders.values.map List.length).sum
  conflictCount := (index.conflicts.values.map List.length).sum
  conflictParticipantCount := (index.conflicts.values.map fun conflicts =>
    (conflicts.map fun conflict => conflict.participants.size).sum).sum

/-- The counts of an index that passes its own checks. -/
def Counts.fromIndex (index : ReductionIndexSnapshot) : Option Counts :=
  if index.isAligned && (Counts.ofIndex index).isValid then
    some (Counts.ofIndex index)
  else none

/-- The rows of an index, given those of its conversations. -/
def indexRows (indexDigest : ReductionIndexSnapshot → D)
    (index : ReductionIndexSnapshot) (tables : ConversationTables D)
    (counts : Counts) : IndexRows D where
  state := some ⟨index.policy, counts, indexDigest index⟩
  vertices := index.reverseDependencies.keys.toList
  reverse := index.reverseDependencies.rows OrderedSet.toList
  affected := index.affectedDependencies.rows OrderedSet.toList
  decisions := index.decisions.entries.map fun entry =>
    let reason := (entry.2.reason.map encodeReason).getD (0, 0)
    ⟨entry.1.domain.encode, entry.1.factId, encodeStatus entry.2.status,
      reason.1, reason.2⟩
  missing := (index.decisions.rows fun decision =>
    decision.missingDependencies.toList).map fun row =>
      (row.1.domain.encode, row.1.factId, row.2)
  unusable := (index.decisions.rows fun decision =>
    decision.unusableDependencies.entries).map fun row =>
      (row.1.domain.encode, row.1.factId, row.2.1, encodeStatus row.2.2)
  failedAuthorities := (index.decisions.rows fun decision =>
    decision.failedAuthorities.toList).map fun row =>
      (row.1.domain.encode, row.1.factId, encodeRole row.2)
  decisionParticipants := (index.decisions.rows fun decision =>
    decision.conflictParticipants.toList).map fun row =>
      (row.1.domain.encode, row.1.factId, row.2)
  dependencyOrder := orderRows index.dependencyOrder
  presentationOrder := orderRows index.presentationOrder
  conversationKeys := tables.entries.map fun entry => (entry.1, entry.2.1)
  conversationOrder := tables.rows Prod.snd
  conflicts := (index.conflicts.rows positioned).map fun row =>
    (row.1.encode, row.2.1, encodeReason row.2.2.reason)
  conflictParticipants := (index.conflicts.rows fun conflicts =>
    (positioned conflicts).flatMap fun row =>
      row.2.participants.toList.map fun participant =>
        (row.1, participant)).map fun row => (row.1.encode, row.2)

/-- Write an index into empty tables. -/
def insertIndex (indexDigest : ReductionIndexSnapshot → D)
    (keyDigest : ConversationId → D) (familyOf : FactId → Option Nat)
    (index : ReductionIndexSnapshot) :
    Except StoreErrorClass (IndexRows D) :=
  match insertConversationOrders keyDigest familyOf
      index.conversationOrders with
  | .error error => .error error
  | .ok tables =>
      match Counts.fromIndex index with
      | none => .error .rebuildableStateCorrupt
      | some counts => .ok (indexRows indexDigest index tables counts)

end Write

/-! Reading. -/

/-- The counts of the stored rows. -/
def Counts.fromDatabase {D : Type} (rows : IndexRows D) : Counts where
  factCount := (rows.decisions.filter fun row => row.domain = 1).length
  vertexCount := rows.vertices.length
  reverseCount := rows.reverse.length
  affectedCount := rows.affected.length
  decisionCount := rows.decisions.length
  missingCount := rows.missing.length
  unusableCount := rows.unusable.length
  failedAuthorityCount := rows.failedAuthorities.length
  decisionParticipantCount := rows.decisionParticipants.length
  dependencyOrderCount := rows.dependencyOrder.length
  presentationOrderCount := rows.presentationOrder.length
  conversationKeyCount := rows.conversationKeys.length
  conversationOrderCount := rows.conversationOrder.length
  conflictCount := rows.conflicts.length
  conflictParticipantCount := rows.conflictParticipants.length

/-- The number of rows of all tables but the state. -/
def rebuildableRowCount {D : Type} (rows : IndexRows D) : Nat :=
  let counts := Counts.fromDatabase rows
  counts.vertexCount + counts.reverseCount + counts.affectedCount +
    counts.decisionCount + counts.missingCount + counts.unusableCount +
    counts.failedAuthorityCount + counts.decisionParticipantCount +
    counts.dependencyOrderCount + counts.presentationOrderCount +
    counts.conversationKeyCount + counts.conversationOrderCount +
    counts.conflictCount + counts.conflictParticipantCount

def insertInto (set : OrderedSet FactId) (id : FactId) :
    Option (OrderedSet FactId) :=
  some (set.insert id)

section Load

variable {D : Type} [LinearOrder D]

def loadReverseDependencies (rows : IndexRows D) :
    Option (OrderedMap FactId (OrderedSet FactId)) :=
  OrderedMap.attach insertInto rows.reverse
    (OrderedMap.ofList (rows.vertices.map fun id => (id, ∅)))

def loadAffectedDependencies (rows : IndexRows D) :
    Option (OrderedMap FactId (OrderedSet FactId)) := do
  let reverse ← loadReverseDependencies rows
  let affected := reverse.mapValues fun _ _ => ∅
  if rows.affected.all fun row => affected.contains row.2 then
    OrderedMap.attach insertInto rows.affected affected
  else none

def decodeDecisionRow (row : DecisionRow) :
    Option (DecisionKey × IndexedDecision) := do
  let reason ←
    if row.reasonCode = 0 then
      if row.reasonParameter = 0 then some none else none
    else (decodeReason row.reasonCode row.reasonParameter).map some
  let domain ← ReductionDomain.decode row.domain
  let status ← decodeStatus row.status
  if reason.all (reasonBelongsToDomain domain) then
    some (⟨domain, row.factId⟩, ⟨status, reason, ∅, ∅, ∅, ∅⟩)
  else none

def loadDecisions (rows : IndexRows D) :
    Option (OrderedMap DecisionKey IndexedDecision) := do
  let decoded ← rows.decisions.mapM decodeDecisionRow
  OrderedMap.ofRows decoded ∅

/-- Read the domain of a row; the rest is kept. -/
def decodeKeyRow {γ : Type} (row : Int × FactId × γ) :
    Option (DecisionKey × γ) :=
  (ReductionDomain.decode row.1).map fun domain =>
    (⟨domain, row.2.1⟩, row.2.2)

def attachMissing (rows : IndexRows D)
    (decisions : OrderedMap DecisionKey IndexedDecision) :
    Option (OrderedMap DecisionKey IndexedDecision) := do
  let decoded ← rows.missing.mapM decodeKeyRow
  OrderedMap.attach (fun decision id => some { decision with
    missingDependencies := decision.missingDependencies.insert id })
    decoded decisions

def attachUnusable (rows : IndexRows D)
    (decisions : OrderedMap DecisionKey IndexedDecision) :
    Option (OrderedMap DecisionKey IndexedDecision) := do
  let decoded ← rows.unusable.mapM decodeKeyRow
  OrderedMap.attach (fun decision row => do
    let status ← decodeStatus row.2
    some { decision with unusableDependencies :=
      decision.unusableDependencies.insert row.1 status })
    decoded decisions

def attachFailedAuthorities (rows : IndexRows D)
    (decisions : OrderedMap DecisionKey IndexedDecision) :
    Option (OrderedMap DecisionKey IndexedDecision) := do
  let decoded ← rows.failedAuthorities.mapM decodeKeyRow
  OrderedMap.attach (fun decision code => do
    let role ← decodeRole code
    some { decision with failedAuthorities :=
      decision.failedAuthorities.insert role })
    decoded decisions

def attachDecisionParticipants (rows : IndexRows D)
    (decisions : OrderedMap DecisionKey IndexedDecision) :
    Option (OrderedMap DecisionKey IndexedDecision) := do
  let decoded ← rows.decisionParticipants.mapM decodeKeyRow
  OrderedMap.attach (fun decision id => some { decision with
    conflictParticipants := decision.conflictParticipants.insert id })
    decoded decisions

/-- Read the domain of a row; the rest is kept. -/
def decodeDomainRow {γ : Type} (row : Int × γ) : Option (ReductionDomain × γ) :=
  (ReductionDomain.decode row.1).map fun domain => (domain, row.2)

def loadOrders (rows : List (Int × Nat × FactId)) :
    Option (OrderedMap ReductionDomain (List FactId)) := do
  let decoded ← rows.mapM decodeDomainRow
  OrderedMap.collect [] pushAt decoded ∅

/-- A text column read as a bounded text. -/
def boundedText (maximumBytes : Nat) (chars : List Char) :
    Option (BoundedText maximumBytes) :=
  if h : chars ≠ [] ∧ utf8Length chars ≤ maximumBytes then
    some ⟨chars, h.1, h.2⟩
  else none

def decodeConversationKeyRow (row : ConversationKeyRow) :
    Option ConversationId :=
  if row.kind = 1 then
    if row.project = .ofNat 0 ∧ row.provider = [] ∧ row.session = [] then
      some (.thread ⟨row.installation, row.mailbox⟩ row.thread)
    else none
  else if row.kind = 2 then
    if row.project = .ofNat 0 ∧ row.thread = .ofNat 0 ∧ row.provider ≠ [] ∧
        row.session ≠ [] then do
      let provider ← boundedText 64 row.provider
      let session ← boundedText 256 row.session
      some (.providerSession ⟨row.installation, row.mailbox⟩ provider session)
    else none
  else if row.kind = 3 then
    if row.installation = .ofNat 0 ∧ row.mailbox = .ofNat 0 ∧
        row.provider = [] ∧ row.session = [] then
      some (.projectThread row.project row.thread)
    else none
  else none

def loadConversationOrders (keyDigest : ConversationId → D)
    (rows : IndexRows D) : Option (OrderedMap ConversationId (List FactId)) := do
  let keys ← rows.conversationKeys.mapM fun row => do
    let key ← decodeConversationKeyRow row.2
    if row.1 = keyDigest key then some (row.1, key) else none
  let byDigest ← OrderedMap.ofRows keys ∅
  let orders := OrderedMap.ofList (byDigest.values.map fun key => (key, []))
  let entries ← rows.conversationOrder.mapM fun row => do
    let key ← byDigest.get? row.1
    if row.2.2.2 = 1 ∨ row.2.2.2 = 2 then some (key, row.2.1, row.2.2.1)
    else none
  OrderedMap.attach pushAt entries orders

/-- A conflict before its participants are read. -/
def decodeConflictRow (row : Int × Nat × Int × Int) :
    Option (ReductionDomain × Nat × IndexedConflict) := do
  let domain ← ReductionDomain.decode row.1
  let reason ← decodeReason row.2.2.1 row.2.2.2
  if reasonBelongsToDomain domain reason then
    some (domain, row.2.1, ⟨reason, ∅⟩)
  else none

def loadConflicts (rows : IndexRows D) :
    Option (OrderedMap ReductionDomain (List IndexedConflict)) := do
  let decoded ← rows.conflicts.mapM decodeConflictRow
  let conflicts ← OrderedMap.collect [] pushAt decoded ∅
  let participants ← rows.conflictParticipants.mapM decodeDomainRow
  OrderedMap.attach (putAt fun conflict id =>
    { conflict with participants := conflict.participants.insert id })
    participants conflicts

/-- The index that the rows spell out. -/
def decodeIndex (keyDigest : ConversationId → D) (policy : AuthorityPolicy)
    (rows : IndexRows D) : Option ReductionIndexSnapshot := do
  let reverseDependencies ← loadReverseDependencies rows
  let affectedDependencies ← loadAffectedDependencies rows
  let decisions ← loadDecisions rows
  let dependencyOrder ← loadOrders rows.dependencyOrder
  let presentationOrder ← loadOrders rows.presentationOrder
  let conflicts ← loadConflicts rows
  let conversationOrders ← loadConversationOrders keyDigest rows
  let decisions ← attachMissing rows decisions
  let decisions ← attachUnusable rows decisions
  let decisions ← attachFailedAuthorities rows decisions
  let decisions ← attachDecisionParticipants rows decisions
  some
    { policy, reverseDependencies, affectedDependencies, decisions
      dependencyOrder := dependencyOrder.ensure [] ReductionDomain.all
      presentationOrder := presentationOrder.ensure [] ReductionDomain.all
      conflicts := conflicts.ensure [] ReductionDomain.all
      conversationOrders }

/-- Load the index, checking counts and digest. -/
def loadIndex (indexDigest : ReductionIndexSnapshot → D)
    (keyDigest : ConversationId → D) (rows : IndexRows D) :
    Except StoreErrorClass ReductionIndexSnapshot :=
  match rows.state with
  | none =>
      if rebuildableRowCount rows = 0 then .error .notRepaired
      else .error .rebuildableStateCorrupt
  | some state =>
      if state.counts.isValid && (Counts.fromDatabase rows).isValid &&
          Counts.fromDatabase rows = state.counts then
        match decodeIndex keyDigest state.policy rows with
        | none => .error .rebuildableStateCorrupt
        | some index =>
            if Counts.fromIndex index = some state.counts ∧
                indexDigest index = state.digest then .ok index
            else .error .rebuildableStateCorrupt
      else .error .rebuildableStateCorrupt

end Load

end Hq
