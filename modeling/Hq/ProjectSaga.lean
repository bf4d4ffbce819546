/-
Durable records of project workflows.  The workflow keeps a record with a typed
command and a typed pending mutation; the store keeps the same record with
their bytes.
-/
import Hq.Values

namespace Hq

inductive ErrorCategory where
  | invalidInput | conflict | unauthorized | unresolved | notFound
  | invariantViolation
deriving DecidableEq

structure DomainError where
  category : ErrorCategory
  code : ErrorCode
deriving DecidableEq

/-- The checkpoints of a project command. -/
inductive ProjectCommandStage where
  | accepted | awaitingHome | receivedAtHome | validatingResources | opening
  | configuringAssignment | startingRuntime | validatingLaunchDirectory
  | makingRunnable | dispatchingInputs | assessingRelease | quiescingRuntime
  | endingAssignment | closing | updatingProject | reservingDestination
  | reconcilingGit | creatingWorktree | identifyingResource | creatingProject
  | compensating | reconciliationRequired | complete
deriving DecidableEq

/-- What is known about one external effect of a workflow. -/
inductive SagaEffectState where
  | notStarted | pending | accepted
  | rejected (error : DomainError)
  | uncertain (error : DomainError)
deriving DecidableEq

inductive ProjectSagaState where
  | running (stage : ProjectCommandStage)
  | queued (stage : ProjectCommandStage)
  | completed (projectHead : FactId)
  | rejected (error : DomainError)
  | reconcilable (stage : ProjectCommandStage) (error : DomainError)
deriving DecidableEq

def ProjectSagaState.isTerminal : ProjectSagaState → Bool
  | .completed _ | .rejected _ => true
  | .running _ | .queued _ | .reconcilable .. => false

/-- A record of one command.  `Command` and `Mutation` are the forms in which
the command and the canonical mutation in flight are kept. -/
structure ProjectSaga (Command Mutation : Type) where
  operationId : OperationId
  commandId : CommandId
  requestDigest : CommandDigest
  accountId : AccountId
  projectId : ProjectId
  home : InstallationId
  expectedHead : Option FactId
  issuedAt : Timestamp
  command : Command
  state : ProjectSagaState
  runtimeOperationId : Option OperationId
  runtimeEffect : SagaEffectState
  runtimeSession : Option ProviderSessionId
  selectedThread : Option ThreadId
  openedByWorkflow : Bool
  failure : Option DomainError
  pendingCanonicalMutation : Option Mutation
  dispatchOperationId : Option OperationId
  dispatchEffect : SagaEffectState
  gitOperationId : Option OperationId
  gitEffect : SagaEffectState
  resourceOperationId : Option OperationId
  resourceEffect : SagaEffectState
  reservation : Option ResourceLocator
  updatedAtMillis : Nat
deriving DecidableEq

/-- The record as the store keeps it. -/
abbrev StoredProjectSaga := ProjectSaga (List UInt8) (List UInt8)

variable {Command Mutation : Type} [DecidableEq Command]

/-- The fields of the request that a record never changes. -/
def sameRequest (left right : ProjectSaga Command Mutation) : Bool :=
  left.operationId = right.operationId ∧ left.commandId = right.commandId ∧
    left.requestDigest = right.requestDigest ∧
    left.accountId = right.accountId ∧ left.projectId = right.projectId ∧
    left.home = right.home ∧ left.expectedHead = right.expectedHead ∧
    left.issuedAt = right.issuedAt ∧ left.command = right.command

theorem sameRequest_refl (saga : ProjectSaga Command Mutation) :
    sameRequest saga saga = true := by simp [sameRequest]

theorem sameRequest_trans {first second third : ProjectSaga Command Mutation}
    (h : sameRequest first second = true)
    (h' : sameRequest second third = true) :
    sameRequest first third = true := by
  simp only [sameRequest, decide_eq_true_eq] at h h' ⊢
  obtain ⟨ha, hb, hc, hd, he, hf, hg, hh, hi⟩ := h
  rw [ha, hb, hc, hd, he, hf, hg, hh, hi]
  exact h'

/-! The transitions that the store accepts. -/

def encodeStage : ProjectCommandStage → Nat
  | .accepted => 1
  | .awaitingHome => 2
  | .receivedAtHome => 3
  | .validatingResources => 4
  | .opening => 5
  | .configuringAssignment => 6
  | .startingRuntime => 7
  | .validatingLaunchDirectory => 8
  | .makingRunnable => 9
  | .dispatchingInputs => 10
  | .assessingRelease => 11
  | .quiescingRuntime => 12
  | .endingAssignment => 13
  | .closing => 14
  | .updatingProject => 15
  | .reservingDestination => 16
  | .reconcilingGit => 17
  | .creatingWorktree => 18
  | .identifyingResource => 19
  | .creatingProject => 20
  | .compensating => 21
  | .reconciliationRequired => 22
  | .complete => 23

def stateAdvances : ProjectSagaState → ProjectSagaState → Bool
  | .queued old, .queued new | .queued old, .running new
  | .queued old, .reconcilable new _
  | .reconcilable old _, .queued new | .reconcilable old _, .running new
  | .reconcilable old _, .reconcilable new _
  | .running old, .queued new | .running old, .running new =>
      encodeStage old ≤ encodeStage new
  | .running _, .completed _ | .running _, .rejected _
  | .queued _, .completed _ | .queued _, .rejected _
  | .reconcilable .., .completed _ | .reconcilable .., .rejected _
  | .running _, .reconcilable .. => true
  | .completed old, .completed new => old = new
  | .rejected old, .rejected new => old = new
  | _, _ => false

def effectAdvances : SagaEffectState → SagaEffectState → Bool
  | .notStarted, _ => true
  | .pending, new => new ≠ .notStarted
  | .uncertain old, .uncertain new => old = new
  | .uncertain _, .accepted | .uncertain _, .rejected _ => true
  | .uncertain _, .notStarted | .uncertain _, .pending => false
  | .accepted, new => new = .accepted
  | .rejected old, new => new = .rejected old

/-- A value that is known stays what it is. -/
def optionalAdvances {α : Type} [DecidableEq α] (old new : Option α) : Bool :=
  old.isNone ∨ old = new

/-- What `replace` asks of the stored record and the proposed one. -/
def sagaAdvances (existing proposed : ProjectSaga Command Mutation) : Bool :=
  sameRequest existing proposed &&
  existing.updatedAtMillis ≤ proposed.updatedAtMillis &&
  stateAdvances existing.state proposed.state &&
  effectAdvances existing.runtimeEffect proposed.runtimeEffect &&
  effectAdvances existing.dispatchEffect proposed.dispatchEffect &&
  effectAdvances existing.gitEffect proposed.gitEffect &&
  effectAdvances existing.resourceEffect proposed.resourceEffect &&
  optionalAdvances existing.runtimeOperationId proposed.runtimeOperationId &&
  optionalAdvances existing.dispatchOperationId
    proposed.dispatchOperationId &&
  optionalAdvances existing.gitOperationId proposed.gitOperationId &&
  optionalAdvances existing.resourceOperationId
    proposed.resourceOperationId &&
  optionalAdvances existing.runtimeSession proposed.runtimeSession &&
  optionalAdvances existing.selectedThread proposed.selectedThread &&
  (!existing.openedByWorkflow || proposed.openedByWorkflow) &&
  optionalAdvances existing.failure proposed.failure &&
  optionalAdvances existing.reservation proposed.reservation

/-- A final state is left as it is, and no other step ends in another one. -/
theorem stateAdvances_terminal {old new : ProjectSagaState}
    (h : stateAdvances old new = true) (hold : old.isTerminal = true) :
    new = old := by
  cases old <;> cases new <;>
    simp_all [stateAdvances, ProjectSagaState.isTerminal]

end Hq
