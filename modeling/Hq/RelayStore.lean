/-
The rows of the durable relay tables that are read page by page: policies,
prepared wrappers, attempts, catch-up cursors, staged inputs and quarantine.
-/
import Hq.Nip44
import Hq.RelayUrl
import Hq.Store

namespace Hq

/-- Thirty-two raw bytes, read as a big-endian number. -/
abbrev Bytes32 := Fin (2 ^ 256)

/-! Rows. -/

inductive RelayAccess where
  | read | write | readWrite
deriving DecidableEq

inductive RelayAuthentication where
  | disabled | onChallenge | required
deriving DecidableEq

structure RelayPolicy where
  url : RelayUrl
  access : RelayAccess
  authentication : RelayAuthentication
  enabled : Bool
  generation : NonZeroU64
deriving DecidableEq

/-- The stable identity of one delivery. -/
abbrev OutboxKey := FactId ×ₗ InstallationId

def OutboxIntent.key (intent : OutboxIntent) : OutboxKey :=
  toLex (intent.factId, intent.recipient)

/-- An exact wrapper kept before its first publication. -/
structure PreparedOutbound where
  key : OutboxKey
  wrapperId : Bytes32
  oneUsePublicKey : Bytes32
  recipientPublicKey : Bytes32
  canonicalEventId : FactId
  canonicalSha256 : Bytes32
  wrapperSha256 : Bytes32
  sealCreatedAt : Nat
  giftWrapCreatedAt : Nat
  exactWire : List UInt8
deriving DecidableEq

inductive AttemptDisposition where
  | uncertain | rejected | accepted
deriving DecidableEq

inductive RelayAttemptFailure where
  | authenticationRequired | rateLimited | permanent
deriving DecidableEq

structure RelayAttempt where
  url : RelayUrl
  wrapperId : Bytes32
  attempts : Nat
  disposition : AttemptDisposition
  failure : Option RelayAttemptFailure
  lastAttemptMillis : Nat
  retryAtMillis : Option Nat
deriving DecidableEq

structure CatchupCursor where
  url : RelayUrl
  generation : Nat
  scanStartedAtMillis : Nat
  coveredThroughMillis : Option Nat
  oldestCreatedAt : Option Nat
  oldestWrapperId : Option Bytes32
  exhausted : Bool
deriving DecidableEq

structure StagedInput where
  wrapperSha256 : Bytes32
  exactOuter : List UInt8
  firstReceivedMillis : Nat
  attempts : Nat
  retryAtMillis : Nat
deriving DecidableEq

structure QuarantineEvidence where
  wrapperSha256 : Bytes32
  wrapperId : Option Bytes32
  failure : FailureClass
  receivedAtMillis : Nat
  byteLen : Nat
  rawSample : List UInt8
deriving DecidableEq

structure RelayTables where
  policies : OrderedMap RelayUrl RelayPolicy
  prepared : OrderedMap OutboxKey PreparedOutbound
  attempts : OrderedMap (RelayUrl ×ₗ Bytes32) RelayAttempt
  cursors : OrderedMap RelayUrl CatchupCursor
  staged : OrderedMap Bytes32 StagedInput
  quarantine : OrderedMap Bytes32 QuarantineEvidence

def RelayTables.empty : RelayTables where
  policies := ∅
  prepared := ∅
  attempts := ∅
  cursors := ∅
  staged := ∅
  quarantine := ∅

def maxRelayStateQueryItems : Nat := 1024

/-! Attempts. -/

def RelayAttempt.key (attempt : RelayAttempt) : RelayUrl ×ₗ Bytes32 :=
  toLex (attempt.url, attempt.wrapperId)

/-! Cursors. -/

/-- The oldest wrapper of a scan: its time and, for ties, its identity. -/
abbrev ScanBoundary := Nat ×ₗ Bytes32

/-! Staged inputs and quarantine. -/

def QuarantineEvidence.timed (evidence : QuarantineEvidence) : ScanBoundary :=
  toLex (evidence.receivedAtMillis, evidence.wrapperSha256)

/-! Pages of rows. -/

inductive RelayPagePosition (K : Type) where
  | start
  | after (key : K)
  | done
deriving DecidableEq

/-- The place of an intent among the intents. -/
abbrev OutboundCursor := Nat ×ₗ FactId ×ₗ InstallationId

def StagedInput.timed (input : StagedInput) : ScanBoundary :=
  toLex (input.firstReceivedMillis, input.wrapperSha256)

end Hq
