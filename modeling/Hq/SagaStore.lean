/-
The store of project workflows: one row per command and one row per reserved
worktree destination.  Calls are immediate transactions, so a run is a list of
calls; a call that fails or is cut off before its commit changes nothing.
-/
import Hq.Fallible
import Hq.ProjectSaga

namespace Hq

/-- The errors of the store of workflows. -/
inductive SagaStoreClass where
  | invalidOperationalRequest
  | projectSagaConflict
deriving DecidableEq

def encodeScheme : ResourceScheme → Nat
  | .gitRepository => 1
  | .workingTree => 2
  | .container => 3
  | .opaqueResource => 4

/-- The primary key of a reservation: home, scheme and value. -/
abbrev ReservationKey := InstallationId ×ₗ Nat ×ₗ BoundedText 4096

def reservationKey (home : InstallationId) (locator : ResourceLocator) :
    ReservationKey :=
  toLex (home, toLex (encodeScheme locator.scheme, locator.value))

structure SagaReservation where
  operationId : OperationId
  protectsExternalState : Bool
deriving DecidableEq

structure SagaTables where
  sagas : OrderedMap OperationId StoredProjectSaga
  keyed : ∀ id saga, sagas.get? id = some saga → saga.operationId = id
  reservations : OrderedMap ReservationKey SagaReservation

def SagaTables.empty : SagaTables where
  sagas := ∅
  keyed := by simp
  reservations := ∅

def SagaTables.put (tables : SagaTables) (saga : StoredProjectSaga) :
    SagaTables where
  sagas := tables.sagas.insert saga.operationId saga
  keyed := by
    intro id other hother
    rw [OrderedMap.get?_insert] at hother
    split at hother
    next heq =>
      cases hother
      exact heq.symm
    next => exact tables.keyed id other hother
  reservations := tables.reservations

/-- The external state of the effect may exist. -/
def SagaEffectState.mayExist : SagaEffectState → Bool
  | .accepted | .uncertain _ => true
  | .notStarted | .pending | .rejected _ => false

def maxProjectCommandBodyBytes : Nat := 65536

def operationStateMismatch (operationId : Option OperationId)
    (effect : SagaEffectState) : Bool :=
  operationId.isNone ∧ effect ≠ .notStarted

def unfitBody (body : List UInt8) : Bool :=
  body.isEmpty ∨ maxProjectCommandBodyBytes < body.length

def validateRecord (record : StoredProjectSaga) :
    Except SagaStoreClass Unit :=
  if unfitBody record.command ∨ record.pendingCanonicalMutation.any unfitBody ∨
      operationStateMismatch record.runtimeOperationId record.runtimeEffect ∨
      operationStateMismatch record.dispatchOperationId
        record.dispatchEffect ∨
      operationStateMismatch record.gitOperationId record.gitEffect ∨
      operationStateMismatch record.resourceOperationId
        record.resourceEffect then
    .error .invalidOperationalRequest
  else .ok ()

namespace SagaTables

def commandExists (tables : SagaTables) (commandId : CommandId) : Bool :=
  tables.sagas.values.any fun saga => saga.commandId = commandId

def projectIsBusy (tables : SagaTables) (projectId : ProjectId) : Bool :=
  tables.sagas.values.any fun saga =>
    saga.projectId = projectId ∧ saga.state.isTerminal = false

def reservationIsBusy (tables : SagaTables) (record : StoredProjectSaga) :
    Bool :=
  record.reservation.any fun locator =>
    (tables.reservations.get? (reservationKey record.home locator)).any
      fun row => row.operationId ≠ record.operationId

def reserve (tables : SagaTables) (record : StoredProjectSaga) :
    Except SagaStoreClass SagaTables :=
  match record.reservation with
  | none => .ok tables
  | some locator =>
      match tables.reservations.get? (reservationKey record.home locator) with
      | some row =>
          if row.operationId = record.operationId then .ok tables
          else .error .projectSagaConflict
      | none => .ok { tables with
          reservations := tables.reservations.insert
            (reservationKey record.home locator)
            ⟨record.operationId, record.gitEffect.mayExist⟩ }

/-- The row of a workflow whose effect may exist is protected. -/
def protect (tables : SagaTables) (record : StoredProjectSaga) : SagaTables :=
  if record.reservation.isSome ∧ record.gitEffect.mayExist then
    { tables with
      reservations := tables.reservations.mapValues fun _ row =>
        if row.operationId = record.operationId then
          { row with protectsExternalState := true }
        else row }
  else tables

def releaseTerminalReservation (tables : SagaTables)
    (record : StoredProjectSaga) : SagaTables :=
  match record.state with
  | .completed _ => { tables with
      reservations := tables.reservations.filter fun _ row =>
        row.operationId ≠ record.operationId }
  | .rejected _ => { tables with
      reservations := tables.reservations.filter fun _ row =>
        row.operationId ≠ record.operationId ∨ row.protectsExternalState }
  | .running _ | .queued _ | .reconcilable .. => tables

end SagaTables

inductive StoredProjectSagaBegin where
  | inserted (saga : StoredProjectSaga)
  | existing (saga : StoredProjectSaga)
  | identityConflict
  | projectBusy
deriving DecidableEq

def SagaTables.begin (tables : SagaTables) (proposed : StoredProjectSaga) :
    Except SagaStoreClass (SagaTables × StoredProjectSagaBegin) := do
  validateRecord proposed
  match tables.sagas.get? proposed.operationId with
  | some existing =>
      if sameRequest existing proposed then
        return (tables, .existing existing)
      else return (tables, .identityConflict)
  | none =>
      if tables.commandExists proposed.commandId then
        return (tables, .identityConflict)
      else if tables.projectIsBusy proposed.projectId ∨
          tables.reservationIsBusy proposed then
        return (tables, .projectBusy)
      else
        let tables ← (tables.put proposed).reserve proposed
        return (tables, .inserted proposed)

def SagaTables.replace (tables : SagaTables) (proposed : StoredProjectSaga) :
    Except SagaStoreClass SagaTables := do
  validateRecord proposed
  match tables.sagas.get? proposed.operationId with
  | none => .error .projectSagaConflict
  | some existing =>
      if sagaAdvances existing proposed then
        let tables ← tables.reserve proposed
        return ((tables.put proposed).protect
          proposed).releaseTerminalReservation proposed
      else .error .projectSagaConflict

/-! What one call writes. -/

def ProjectSagaState.isCompleted : ProjectSagaState → Bool
  | .completed _ => true
  | .running _ | .queued _ | .rejected _ | .reconcilable .. => false

variable {proposed record saga : StoredProjectSaga}
  {tables after before : SagaTables} {locator : ResourceLocator}

namespace SagaTables

/-- The saga has the row of a destination. -/
def Holds (tables : SagaTables) (saga : StoredProjectSaga)
    (locator : ResourceLocator) : Prop :=
  ∃ row, tables.reservations.get? (reservationKey saga.home locator) =
    some row ∧ row.operationId = saga.operationId

/-- The saga has the row of a destination, and the row is protected. -/
def Guards (tables : SagaTables) (saga : StoredProjectSaga)
    (locator : ResourceLocator) : Prop :=
  tables.reservations.get? (reservationKey saga.home locator) =
    some ⟨saga.operationId, true⟩

theorem Guards.holds (h : tables.Guards saga locator) :
    tables.Holds saga locator := ⟨_, h, rfl⟩

/-- The record is stored, and only its own reservation may change. -/
structure Written (before : SagaTables) (proposed : StoredProjectSaga)
    (after : SagaTables) : Prop where
  sagas_eq : after.sagas =
    before.sagas.insert proposed.operationId proposed
  others : ∀ key row, row.operationId ≠ proposed.operationId →
    (after.reservations.get? key = some row ↔
      before.reservations.get? key = some row)
  own : ∀ key row, after.reservations.get? key = some row →
    row.operationId = proposed.operationId →
    (∃ old, before.reservations.get? key = some old ∧
      old.operationId = proposed.operationId) ∨
    ∃ locator, proposed.reservation = some locator ∧
      key = reservationKey proposed.home locator
  holds : ∀ locator, proposed.reservation = some locator →
    proposed.state.isTerminal = false → after.Holds proposed locator
  guards : ∀ locator, proposed.reservation = some locator →
    proposed.gitEffect.mayExist = true ∨ before.Guards proposed locator →
    proposed.state.isCompleted = false → after.Guards proposed locator

theorem reserve_none
    (h : record.reservation = none) : tables.reserve record = .ok tables := by
  simp only [reserve, h]

/-- The destination is free or held already. -/
theorem reserve_some (hlocator : record.reservation = some locator)
    (h : tables.reserve record = .ok after) :
    (tables.Holds record locator ∧ after = tables) ∨
    (tables.reservations.get? (reservationKey record.home locator) = none ∧
      after = { tables with
        reservations := tables.reservations.insert
          (reservationKey record.home locator)
          ⟨record.operationId, record.gitEffect.mayExist⟩ }) := by
  simp only [reserve, hlocator] at h
  split at h
  next row hrow =>
    split at h
    next hown =>
      cases h
      exact .inl ⟨⟨row, hrow, hown⟩, rfl⟩
    next => cases h
  next hnone =>
    cases h
    exact .inr ⟨hnone, rfl⟩

theorem reserve_sagas
    (h : tables.reserve record = .ok after) : after.sagas = tables.sagas := by
  cases hlocator : record.reservation with
  | none =>
      rw [reserve_none hlocator] at h
      cases h
      rfl
  | some locator =>
      rcases reserve_some hlocator h with ⟨-, rfl⟩ | ⟨-, rfl⟩ <;> rfl

/-- The rows after a reservation. -/
structure Reserved (before : SagaTables) (record : StoredProjectSaga)
    (after : SagaTables) : Prop where
  others : ∀ key row, row.operationId ≠ record.operationId →
    (after.reservations.get? key = some row ↔
      before.reservations.get? key = some row)
  own : ∀ key row, after.reservations.get? key = some row →
    row.operationId = record.operationId →
    (∃ old, before.reservations.get? key = some old ∧
      old.operationId = record.operationId) ∨
    ∃ locator, record.reservation = some locator ∧
      key = reservationKey record.home locator
  holds : ∀ locator, record.reservation = some locator →
    after.Holds record locator
  guards : ∀ locator, record.reservation = some locator →
    before.Guards record locator → after.Guards record locator

theorem reserve_reserved (h : tables.reserve record = .ok after) :
    Reserved tables record after := by
  cases hlocator : record.reservation with
  | none =>
      rw [reserve_none hlocator] at h
      cases h
      exact
        { others := fun _ _ _ => Iff.rfl
          own := fun key row hrow hown => .inl ⟨row, hrow, hown⟩
          holds := fun locator hsome => by simp [hlocator] at hsome
          guards := fun _ _ hguards => hguards }
  | some locator =>
      rcases reserve_some hlocator h with ⟨hheld, rfl⟩ | ⟨hfree, rfl⟩
      · exact
          { others := fun _ _ _ => Iff.rfl
            own := fun key row hrow hown => .inl ⟨row, hrow, hown⟩
            holds := fun other hsome => by
              rw [hlocator, Option.some.injEq] at hsome
              exact hsome ▸ hheld
            guards := fun _ _ hguards => hguards }
      · refine ⟨fun key row hother => ?_, fun key row hrow hown => ?_,
          fun other hsome => ?_, fun other hsome hguards => ?_⟩
        · rw [OrderedMap.get?_insert]
          split
          next hkey =>
            rw [hkey, hfree]
            refine iff_of_false (fun hrow => hother ?_) (by simp)
            cases hrow
            rfl
          next => exact Iff.rfl
        · rw [OrderedMap.get?_insert] at hrow
          split at hrow
          next hkey => exact .inr ⟨locator, hlocator, hkey⟩
          next => exact .inl ⟨row, hrow, hown⟩
        · rw [hlocator, Option.some.injEq] at hsome
          subst hsome
          exact ⟨_, OrderedMap.get?_insert_self _ _ _, rfl⟩
        · rw [hlocator, Option.some.injEq] at hsome
          rw [Guards, ← hsome, hfree] at hguards
          cases hguards

theorem get?_protect (tables : SagaTables) (record : StoredProjectSaga)
    (key : ReservationKey) : (tables.protect record).reservations.get? key =
      (tables.reservations.get? key).map fun row =>
        if (record.reservation.isSome ∧ record.gitEffect.mayExist = true) ∧
            row.operationId = record.operationId then
          { row with protectsExternalState := true }
        else row := by
  simp only [protect]
  split
  next h => simp [h]
  next h => simp [h]

/-- A final record gives up its rows, but a rejected one only those that are
not protected. -/
theorem get?_releaseTerminalReservation {key : ReservationKey}
    {row : SagaReservation} :
    (tables.releaseTerminalReservation record).reservations.get? key =
        some row ↔
      tables.reservations.get? key = some row ∧
        (row.operationId = record.operationId →
          record.state.isTerminal = true →
          record.state.isCompleted = false ∧
            row.protectsExternalState = true) := by
  simp only [releaseTerminalReservation]
  cases record.state with
  | completed head =>
      rw [OrderedMap.get?_filter]
      simp [ProjectSagaState.isTerminal, ProjectSagaState.isCompleted]
  | rejected error =>
      rw [OrderedMap.get?_filter]
      simp [ProjectSagaState.isTerminal, ProjectSagaState.isCompleted,
        imp_iff_not_or]
  | running stage => simp [ProjectSagaState.isTerminal]
  | queued stage => simp [ProjectSagaState.isTerminal]
  | reconcilable stage error => simp [ProjectSagaState.isTerminal]

theorem protect_sagas (tables : SagaTables) (record : StoredProjectSaga) :
    (tables.protect record).sagas = tables.sagas := by
  simp only [protect]
  split <;> rfl

theorem releaseTerminalReservation_sagas (tables : SagaTables)
    (record : StoredProjectSaga) :
    (tables.releaseTerminalReservation record).sagas = tables.sagas := by
  simp only [releaseTerminalReservation]
  split <;> rfl

/-- A record that goes on keeps its row. -/
theorem settle_holds (hheld : tables.Holds record locator)
    (hrunning : record.state.isTerminal = false) :
    ((tables.protect record).releaseTerminalReservation record).Holds record
      locator := by
  obtain ⟨row, hrow, hown⟩ := hheld
  have hprotected := get?_protect tables record
    (reservationKey record.home locator)
  rw [hrow, Option.map_some] at hprotected
  refine ⟨_, get?_releaseTerminalReservation.2 ⟨hprotected, ?_⟩, ?_⟩
  · intro _ hterminal
    rw [hrunning] at hterminal
    cases hterminal
  · split <;> exact hown

/-- A row that is or becomes protected stays unless the record completes. -/
theorem settle_guards (hlocator : record.reservation = some locator)
    (hheld : tables.Holds record locator)
    (hwhy : record.gitEffect.mayExist = true ∨ tables.Guards record locator)
    (hcompleted : record.state.isCompleted = false) :
    ((tables.protect record).releaseTerminalReservation record).Guards record
      locator := by
  refine get?_releaseTerminalReservation.2
    ⟨?_, fun _ _ => ⟨hcompleted, rfl⟩⟩
  rw [get?_protect]
  rcases hwhy with hexists | hguards
  · obtain ⟨⟨owner, flag⟩, hrow, rfl⟩ := hheld
    simp [hrow, hlocator, hexists]
  · rw [hguards]
    simp

/-- Every row belongs to a record that names its destination. -/
def Owned (tables : SagaTables) : Prop :=
  ∀ key row, tables.reservations.get? key = some row →
    ∃ saga locator, tables.sagas.get? row.operationId = some saga ∧
      saga.reservation = some locator ∧ key = reservationKey saga.home locator

theorem begin_written (howned : tables.Owned)
    (hfresh : tables.sagas.get? proposed.operationId = none)
    (h : (tables.put proposed).reserve proposed = .ok after) :
    Written tables proposed after := by
  have hreserved := reserve_reserved h
  refine ⟨reserve_sagas h, hreserved.others, hreserved.own,
    fun locator hlocator _ => hreserved.holds locator hlocator, ?_⟩
  intro locator hlocator hwhy _
  rcases hwhy with hexists | hguards
  · rcases reserve_some hlocator h with ⟨⟨row, hrow, hown⟩, -⟩ | ⟨-, rfl⟩
    · -- A row of its own would belong to a record stored before.
      obtain ⟨saga, _, hsaga, -⟩ := howned _ row hrow
      rw [hown, hfresh] at hsaga
      cases hsaga
    · rw [Guards, OrderedMap.get?_insert_self, hexists]
  · exact hreserved.guards locator hlocator hguards

theorem replace_written {reserved : SagaTables}
    (h : tables.reserve proposed = .ok reserved) :
    Written tables proposed (((reserved.put proposed).protect
      proposed).releaseTerminalReservation proposed) := by
  have hreserved := reserve_reserved h
  refine ⟨?_, fun key row hother => ?_, fun key row hrow hown => ?_,
    fun locator hlocator => ?_, fun locator hlocator hwhy => ?_⟩
  · rw [releaseTerminalReservation_sagas, protect_sagas]
    change reserved.sagas.insert _ _ = _
    rw [reserve_sagas h]
  · rw [get?_releaseTerminalReservation, get?_protect,
      ← hreserved.others key row hother]
    change (reserved.reservations.get? key).map _ = _ ∧ _ ↔ _
    cases hget : reserved.reservations.get? key with
    | none => simp
    | some old =>
        simp only [Option.map_some, Option.some.injEq]
        constructor
        · rintro ⟨rfl, -⟩
          by_cases hold : old.operationId = proposed.operationId
          · exact absurd (by split <;> exact hold) hother
          · rw [if_neg fun hif => hold hif.2]
        · rintro rfl
          exact ⟨if_neg fun hif => hother hif.2,
            fun heq => absurd heq hother⟩
  · rw [get?_releaseTerminalReservation, get?_protect] at hrow
    obtain ⟨old, hold, heq⟩ := Option.map_eq_some_iff.1 hrow.1
    refine hreserved.own key old hold ?_
    rw [← hown, ← heq]
    split <;> rfl
  · exact @settle_holds _ (reserved.put proposed) _
      (hreserved.holds locator hlocator)
  · exact @settle_guards _ (reserved.put proposed) _ hlocator
      (hreserved.holds locator hlocator)
      (hwhy.imp_right (hreserved.guards locator hlocator))

end SagaTables

/-! Runs of calls. -/

inductive SagaCall where
  | begin (proposed : StoredProjectSaga)
  | replace (proposed : StoredProjectSaga)

/-- The tables after a call; a call that fails is rolled back. -/
def SagaTables.apply (tables : SagaTables) : SagaCall → SagaTables
  | .begin proposed =>
      match tables.begin proposed with
      | .ok (after, _) => after
      | .error _ => tables
  | .replace proposed =>
      match tables.replace proposed with
      | .ok after => after
      | .error _ => tables

def SagaTables.run (tables : SagaTables) (calls : List SagaCall) :
    SagaTables :=
  calls.foldl SagaTables.apply tables

namespace SagaTables

/-- The record has identities that no record has, and its project is free. -/
structure Fresh (tables : SagaTables) (proposed : StoredProjectSaga) :
    Prop where
  operation : tables.sagas.get? proposed.operationId = none
  command : ∀ id saga, tables.sagas.get? id = some saga →
    saga.commandId ≠ proposed.commandId
  project : ∀ id saga, tables.sagas.get? id = some saga →
    saga.projectId = proposed.projectId → saga.state.isTerminal = true

theorem begin_cases {outcome : StoredProjectSagaBegin}
    (h : tables.begin proposed = .ok (after, outcome)) :
    after = tables ∨ (tables.Fresh proposed ∧
      (tables.put proposed).reserve proposed = .ok after) := by
  obtain ⟨-, -, h⟩ := bind_eq_ok.1 h
  split at h
  next existing hexisting =>
    split at h <;> cases h <;> exact .inl rfl
  next hnone =>
    split at h
    next =>
      cases h
      exact .inl rfl
    next hcommand =>
      split at h
      next =>
        cases h
        exact .inl rfl
      next hbusy =>
        obtain ⟨reserved, hreserved, h⟩ := bind_eq_ok.1 h
        cases h
        refine .inr ⟨⟨hnone, ?_, ?_⟩, hreserved⟩
        · intro id saga hsaga heq
          exact hcommand (List.any_eq_true.2
            ⟨saga, OrderedMap.mem_values.2 ⟨id, hsaga⟩, by simp [heq]⟩)
        · intro id saga hsaga hproject
          by_contra hrunning
          refine hbusy (.inl (List.any_eq_true.2
            ⟨saga, OrderedMap.mem_values.2 ⟨id, hsaga⟩, ?_⟩))
          simpa [hproject] using hrunning

theorem replace_cases (h : tables.replace proposed = .ok after) :
    ∃ existing reserved, tables.sagas.get? proposed.operationId =
        some existing ∧
      sagaAdvances existing proposed = true ∧
      tables.reserve proposed = .ok reserved ∧
      after = ((reserved.put proposed).protect
        proposed).releaseTerminalReservation proposed := by
  obtain ⟨-, -, h⟩ := bind_eq_ok.1 h
  split at h
  next => cases h
  next existing hexisting =>
    split at h
    next hadvances =>
      obtain ⟨reserved, hreserved, h⟩ := bind_eq_ok.1 h
      cases h
      exact ⟨existing, reserved, hexisting, hadvances, hreserved, rfl⟩
    next => cases h

/-- What a call can do: nothing, store a fresh record, or store one that
advances the record stored under its identity. -/
theorem apply_cases (tables : SagaTables) (howned : tables.Owned)
    (call : SagaCall) : tables.apply call = tables ∨
      ∃ proposed, Written tables proposed (tables.apply call) ∧
        (tables.Fresh proposed ∨
          ∃ existing, tables.sagas.get? proposed.operationId =
            some existing ∧ sagaAdvances existing proposed = true) := by
  cases call with
  | begin proposed =>
      simp only [apply]
      split
      next after outcome h =>
        rcases begin_cases h with heq | ⟨hfresh, hreserve⟩
        · exact .inl heq
        · exact .inr ⟨proposed,
            begin_written howned hfresh.operation hreserve, .inl hfresh⟩
      next => exact .inl rfl
  | replace proposed =>
      simp only [apply]
      split
      next after h =>
        obtain ⟨existing, reserved, hexisting, hadvances, hreserve, rfl⟩ :=
          replace_cases h
        exact .inr ⟨proposed, replace_written hreserve,
          .inr ⟨existing, hexisting, hadvances⟩⟩
      next => exact .inl rfl

/-! What holds in every state. -/

/-- Rows and records agree, and identities are used once. -/
structure Sound (tables : SagaTables) : Prop where
  owned : tables.Owned
  project : ∀ id other saga rival, tables.sagas.get? id = some saga →
    tables.sagas.get? other = some rival →
    saga.projectId = rival.projectId → saga.state.isTerminal = false →
    rival.state.isTerminal = false → id = other
  command : ∀ id other saga rival, tables.sagas.get? id = some saga →
    tables.sagas.get? other = some rival →
    saga.commandId = rival.commandId → id = other
  holds : ∀ id saga locator, tables.sagas.get? id = some saga →
    saga.reservation = some locator → saga.state.isTerminal = false →
    tables.Holds saga locator
  guards : ∀ id saga locator, tables.sagas.get? id = some saga →
    saga.reservation = some locator → saga.gitEffect.mayExist = true →
    saga.state.isCompleted = false → tables.Guards saga locator

theorem sound_empty : empty.Sound where
  owned := fun _ _ h => by cases h
  project := fun _ _ _ _ h => by cases h
  command := fun _ _ _ _ h => by cases h
  holds := fun _ _ _ h => by cases h
  guards := fun _ _ _ h => by cases h

/-- The fields of an advance that the invariant rests on. -/
structure Kept (existing proposed : StoredProjectSaga) : Prop where
  request : sameRequest existing proposed = true
  home : existing.home = proposed.home
  operation : existing.operationId = proposed.operationId
  project : existing.projectId = proposed.projectId
  command : existing.commandId = proposed.commandId
  state : existing.state.isTerminal = true → proposed.state = existing.state
  reservation : ∀ locator, existing.reservation = some locator →
    proposed.reservation = some locator

theorem sagaAdvances_kept {existing : StoredProjectSaga}
    (h : sagaAdvances existing proposed = true) :
    Kept existing proposed := by
  simp only [sagaAdvances, Bool.and_eq_true] at h
  have hrequest := h.1.1.1.1.1.1.1.1.1.1.1.1.1.1.1
  have hstate := h.1.1.1.1.1.1.1.1.1.1.1.1.1.2
  have hreservation := h.2
  have hfields := hrequest
  simp only [sameRequest, decide_eq_true_eq] at hfields
  obtain ⟨hoperation, hcommand, -, -, hproject, hhome, -⟩ := hfields
  refine ⟨hrequest, hhome, hoperation, hproject, hcommand,
    stateAdvances_terminal hstate, fun locator hlocator => ?_⟩
  simpa [optionalAdvances, hlocator, eq_comm] using hreservation

/-- A lookup after a write. -/
theorem Written.get? (h : Written before proposed after)
    (id : OperationId) : after.sagas.get? id =
      if id = proposed.operationId then some proposed
      else before.sagas.get? id := by
  rw [h.sagas_eq, OrderedMap.get?_insert]

theorem Written.holds_other (h : Written before proposed after)
    (hother : saga.operationId ≠ proposed.operationId)
    (hholds : before.Holds saga locator) :
    after.Holds saga locator := by
  obtain ⟨row, hrow, hown⟩ := hholds
  exact ⟨row, (h.others _ row (hown ▸ hother)).2 hrow, hown⟩

theorem Written.guards_other (h : Written before proposed after)
    (hother : saga.operationId ≠ proposed.operationId)
    (hguards : before.Guards saga locator) :
    after.Guards saga locator :=
  (h.others _ _ hother).2 hguards

/-- What makes a write safe: its identity is new, or it advances. -/
def Admitted (tables : SagaTables) (proposed : StoredProjectSaga) : Prop :=
  tables.Fresh proposed ∨
    ∃ existing, tables.sagas.get? proposed.operationId = some existing ∧
      Kept existing proposed

/-- A record that goes on does not share its project or its command. -/
theorem Admitted.apart (hsound : tables.Sound) (h : tables.Admitted proposed)
    {id : OperationId}
    (hsaga : tables.sagas.get? id = some saga)
    (hid : id ≠ proposed.operationId) :
    saga.commandId ≠ proposed.commandId ∧
      (saga.projectId = proposed.projectId →
        proposed.state.isTerminal = false → saga.state.isTerminal = true) := by
  rcases h with hfresh | ⟨existing, hexisting, hkept⟩
  · exact ⟨hfresh.command id saga hsaga,
      fun hproject _ => hfresh.project id saga hsaga hproject⟩
  · refine ⟨fun hcommand => hid ?_, fun hproject hrunning => ?_⟩
    · exact hsound.command id _ saga existing hsaga hexisting
        (hcommand.trans hkept.command.symm)
    · by_contra hother
      refine hid (hsound.project id _ saga existing hsaga hexisting
        (hproject.trans hkept.project.symm) (by simpa using hother) ?_)
      by_contra hended
      rw [hkept.state (by simpa using hended)] at hrunning
      exact hended hrunning

theorem Written.owned (hsound : before.Sound)
    (hadmitted : before.Admitted proposed)
    (h : Written before proposed after) : after.Owned := by
  intro key row hrow
  by_cases hown : row.operationId = proposed.operationId
  · rcases h.own key row hrow hown with ⟨old, hold, holdown⟩ |
      ⟨locator, hlocator, hkey⟩
    · -- The row was there, so the record it belongs to was stored before.
      obtain ⟨saga, locator, hsaga, hlocator, hkey⟩ :=
        hsound.owned key old hold
      rw [holdown] at hsaga
      rcases hadmitted with hfresh | ⟨existing, hexisting, hkept⟩
      · rw [hfresh.operation] at hsaga
        cases hsaga
      · rw [hexisting, Option.some.injEq] at hsaga
        subst hsaga
        exact ⟨proposed, locator, by rw [h.get?, if_pos hown],
          hkept.reservation locator hlocator, hkept.home ▸ hkey⟩
    · exact ⟨proposed, locator, by rw [h.get?, if_pos hown], hlocator, hkey⟩
  · obtain ⟨saga, locator, hsaga, hlocator, hkey⟩ :=
      hsound.owned key row ((h.others key row hown).1 hrow)
    exact ⟨saga, locator, by rw [h.get?, if_neg hown, hsaga], hlocator, hkey⟩

theorem Written.sound (hsound : before.Sound)
    (hadmitted : before.Admitted proposed)
    (h : Written before proposed after) : after.Sound where
  owned := h.owned hsound hadmitted
  project := by
    intro id other saga rival hsaga hrival hproject hrunning hrival'
    rw [h.get?] at hsaga hrival
    split at hsaga <;> split at hrival
    next heq heq' => rw [heq, heq']
    next heq hne =>
      cases hsaga
      have := (hadmitted.apart hsound hrival hne).2 hproject.symm hrunning
      rw [hrival'] at this
      cases this
    next hne heq =>
      cases hrival
      have := (hadmitted.apart hsound hsaga hne).2 hproject hrival'
      rw [hrunning] at this
      cases this
    next =>
      exact hsound.project id other saga rival hsaga hrival hproject hrunning
        hrival'
  command := by
    intro id other saga rival hsaga hrival hcommand
    rw [h.get?] at hsaga hrival
    split at hsaga <;> split at hrival
    next heq heq' => rw [heq, heq']
    next heq hne =>
      cases hsaga
      exact absurd hcommand.symm (hadmitted.apart hsound hrival hne).1
    next hne heq =>
      cases hrival
      exact absurd hcommand (hadmitted.apart hsound hsaga hne).1
    next => exact hsound.command id other saga rival hsaga hrival hcommand
  holds := by
    intro id saga locator hsaga hlocator hrunning
    rw [h.get?] at hsaga
    split at hsaga
    next =>
      cases hsaga
      exact h.holds locator hlocator hrunning
    next hne =>
      refine h.holds_other ?_ (hsound.holds id saga locator hsaga hlocator
        hrunning)
      rwa [before.keyed id saga hsaga]
  guards := by
    intro id saga locator hsaga hlocator hexists hcompleted
    rw [h.get?] at hsaga
    split at hsaga
    next =>
      cases hsaga
      exact h.guards locator hlocator (.inl hexists) hcompleted
    next hne =>
      refine h.guards_other ?_ (hsound.guards id saga locator hsaga hlocator
        hexists hcompleted)
      rwa [before.keyed id saga hsaga]

/-! What lasts. -/

/-- Every record is still there with its request; a final state is the same;
a guarded destination is guarded until its record completes. -/
structure Lasting (before after : SagaTables) : Prop where
  kept : ∀ id saga, before.sagas.get? id = some saga →
    ∃ later, after.sagas.get? id = some later ∧
      sameRequest saga later = true ∧
      (saga.state.isTerminal = true → later.state = saga.state) ∧
      (∀ locator, saga.reservation = some locator →
        later.reservation = some locator)
  guards : ∀ id saga later locator, before.sagas.get? id = some saga →
    after.sagas.get? id = some later → saga.reservation = some locator →
    before.Guards saga locator → later.state.isCompleted = false →
    after.Guards later locator

theorem Lasting.refl (tables : SagaTables) : Lasting tables tables where
  kept := fun _ saga hsaga =>
    ⟨saga, hsaga, sameRequest_refl saga, fun _ => rfl, fun _ h => h⟩
  guards := fun _ saga later _ hsaga hlater _ hguards _ => by
    rw [hsaga, Option.some.injEq] at hlater
    exact hlater ▸ hguards

theorem isTerminal_of_isCompleted {state : ProjectSagaState}
    (h : state.isCompleted = true) : state.isTerminal = true := by
  cases state <;> simp_all [ProjectSagaState.isCompleted,
    ProjectSagaState.isTerminal]

theorem Lasting.trans {first second third : SagaTables}
    (h : Lasting first second) (h' : Lasting second third) :
    Lasting first third where
  kept := by
    intro id saga hsaga
    obtain ⟨mid, hmid, hrequest, hstate, hreservation⟩ := h.kept id saga hsaga
    obtain ⟨later, hlater, hrequest', hstate', hreservation'⟩ :=
      h'.kept id mid hmid
    refine ⟨later, hlater, sameRequest_trans hrequest hrequest',
      fun hterminal => ?_, fun locator hlocator =>
        hreservation' locator (hreservation locator hlocator)⟩
    rw [hstate' (by rw [hstate hterminal]; exact hterminal), hstate hterminal]
  guards := by
    intro id saga later locator hsaga hlater hlocator hguards hcompleted
    obtain ⟨mid, hmid, -, -, hreservation⟩ := h.kept id saga hsaga
    obtain ⟨_, hlater', -, hstate', -⟩ := h'.kept id mid hmid
    rw [hlater, Option.some.injEq] at hlater'
    subst hlater'
    refine h'.guards id mid later locator hmid hlater
      (hreservation locator hlocator) ?_ hcompleted
    refine h.guards id saga mid locator hsaga hmid hlocator hguards ?_
    by_contra hended
    have hended : mid.state.isCompleted = true := by simpa using hended
    rw [hstate' (isTerminal_of_isCompleted hended), hended] at hcompleted
    cases hcompleted

theorem Written.lasting (hadmitted : before.Admitted proposed)
    (h : Written before proposed after) : Lasting before after := by
  -- The record stored under the written identity is the one that advances.
  have hexisting : ∀ saga, before.sagas.get? proposed.operationId =
      some saga → Kept saga proposed := by
    intro saga hsaga
    rcases hadmitted with hfresh | ⟨existing, hexisting, hkept⟩
    · rw [hfresh.operation] at hsaga
      cases hsaga
    · rw [hexisting, Option.some.injEq] at hsaga
      exact hsaga ▸ hkept
  constructor
  case kept =>
    intro id saga hsaga
    by_cases hid : id = proposed.operationId
    · subst hid
      have hkept := hexisting saga hsaga
      exact ⟨proposed, by rw [h.get?, if_pos rfl], hkept.request,
        hkept.state, hkept.reservation⟩
    · exact ⟨saga, by rw [h.get?, if_neg hid, hsaga], sameRequest_refl saga,
        fun _ => rfl, fun _ hlocator => hlocator⟩
  case guards =>
    intro id saga later locator hsaga hlater hlocator hguards hcompleted
    rw [h.get?] at hlater
    split at hlater
    next hid =>
      cases hlater
      have hkept := hexisting saga (hid ▸ hsaga)
      refine h.guards locator (hkept.reservation locator hlocator)
        (.inr ?_) hcompleted
      rwa [Guards, ← hkept.home, ← hkept.operation]
    next hid =>
      rw [hsaga, Option.some.injEq] at hlater
      subst hlater
      refine h.guards_other ?_ hguards
      rwa [before.keyed id saga hsaga]

theorem apply_step (hsound : tables.Sound)
    (call : SagaCall) :
    (tables.apply call).Sound ∧ Lasting tables (tables.apply call) := by
  rcases apply_cases tables hsound.owned call with
    heq | ⟨proposed, hwritten, hwhy⟩
  · rw [heq]
    exact ⟨hsound, Lasting.refl tables⟩
  · have hadmitted : tables.Admitted proposed :=
      hwhy.imp_right fun ⟨existing, hexisting, hadvances⟩ =>
        ⟨existing, hexisting, sagaAdvances_kept hadvances⟩
    exact ⟨hwritten.sound hsound hadmitted, hwritten.lasting hadmitted⟩

theorem run_steps (hsound : tables.Sound)
    (calls : List SagaCall) :
    (tables.run calls).Sound ∧ Lasting tables (tables.run calls) := by
  induction calls generalizing tables with
  | nil => exact ⟨hsound, Lasting.refl tables⟩
  | cons call calls ih =>
      obtain ⟨hnext, hlasting⟩ := apply_step hsound call
      obtain ⟨hend, hrest⟩ := ih hnext
      exact ⟨hend, hlasting.trans hrest⟩

/-- One nonterminal record a project, one record an identity, one holder a
destination. -/
structure Exclusive (tables : SagaTables) : Prop where
  project : ∀ id other saga rival, tables.sagas.get? id = some saga →
    tables.sagas.get? other = some rival →
    saga.projectId = rival.projectId → saga.state.isTerminal = false →
    rival.state.isTerminal = false → id = other
  operation : ∀ id saga, tables.sagas.get? id = some saga →
    saga.operationId = id
  command : ∀ id other saga rival, tables.sagas.get? id = some saga →
    tables.sagas.get? other = some rival →
    saga.commandId = rival.commandId → id = other
  destination : ∀ id other saga rival locator,
    tables.sagas.get? id = some saga → tables.sagas.get? other = some rival →
    saga.home = rival.home → tables.Holds saga locator →
    tables.Holds rival locator → id = other
  holds : ∀ id saga locator, tables.sagas.get? id = some saga →
    saga.reservation = some locator → saga.state.isTerminal = false →
    tables.Holds saga locator

theorem Sound.exclusive (h : tables.Sound) :
    tables.Exclusive where
  project := h.project
  operation := tables.keyed
  command := h.command
  destination := by
    intro id other saga rival locator hsaga hrival hhome hholds hholds'
    obtain ⟨row, hrow, hown⟩ := hholds
    obtain ⟨row', hrow', hown'⟩ := hholds'
    rw [hhome, hrow', Option.some.injEq] at hrow
    rw [← tables.keyed id saga hsaga, ← tables.keyed other rival hrival,
      ← hown, ← hown', hrow]
  holds := h.holds

end SagaTables

/-- In every state that calls can reach, projects, identities and destinations
are used by one record.  Later states keep every request and every final
state, and a destination recorded with an effect that may exist until its
record completes. -/
theorem run_exclusive (calls more : List SagaCall) :
    (SagaTables.empty.run calls).Exclusive ∧
    ∀ id saga, (SagaTables.empty.run calls).sagas.get? id = some saga →
      ∃ later, ((SagaTables.empty.run calls).run more).sagas.get? id =
          some later ∧
        sameRequest saga later = true ∧
        (saga.state.isTerminal = true → later.state = saga.state) ∧
        ∀ locator, saga.reservation = some locator →
          saga.gitEffect.mayExist = true →
          later.state.isCompleted = true ∨
            ((SagaTables.empty.run calls).run more).Holds later locator := by
  obtain ⟨hsound, -⟩ := SagaTables.run_steps SagaTables.sound_empty calls
  obtain ⟨-, hlasting⟩ := SagaTables.run_steps hsound more
  refine ⟨hsound.exclusive, fun id saga hsaga => ?_⟩
  obtain ⟨later, hlater, hrequest, hstate, -⟩ := hlasting.kept id saga hsaga
  refine ⟨later, hlater, hrequest, hstate, ?_⟩
  intro locator hlocator hexists
  cases hcompleted : later.state.isCompleted with
  | true => exact .inl rfl
  | false =>
      have hopen : saga.state.isCompleted = false := by
        by_contra hended
        have hended : saga.state.isCompleted = true := by simpa using hended
        rw [hstate (SagaTables.isTerminal_of_isCompleted hended),
          hended] at hcompleted
        cases hcompleted
      exact .inr (hlasting.guards id saga later locator hsaga hlater hlocator
        (hsound.guards id saga locator hsaga hlocator hexists hopen)
        hcompleted).holds

/-! A worktree command that is rejected after its worktree was created. -/

def worktreeDestination : ResourceLocator :=
  ⟨.workingTree, ⟨['/', 'w'], by decide, by decide⟩⟩

def worktreeSaga (state : ProjectSagaState) (git : SagaEffectState) :
    StoredProjectSaga where
  operationId := .ofNat 1
  commandId := .ofNat 2
  requestDigest := .ofNat 3
  accountId := .ofNat 4
  projectId := .ofNat 5
  home := .ofNat 6
  expectedHead := none
  issuedAt := ⟨0⟩
  command := [1]
  state := state
  runtimeOperationId := none
  runtimeEffect := .notStarted
  runtimeSession := none
  selectedThread := none
  openedByWorkflow := false
  failure := none
  pendingCanonicalMutation := none
  dispatchOperationId := none
  dispatchEffect := .notStarted
  gitOperationId := some (.ofNat 7)
  gitEffect := git
  resourceOperationId := none
  resourceEffect := .notStarted
  reservation := some worktreeDestination
  updatedAtMillis := 0

def worktreeRejection : DomainError := ⟨.conflict, .ofChar 'c'⟩

theorem run_exclusive_rejected_worktree :
    let calls := [SagaCall.begin (worktreeSaga (.running .accepted) .notStarted),
      .replace (worktreeSaga (.running .identifyingResource) .accepted)]
    let more := [SagaCall.replace
      (worktreeSaga (.rejected worktreeRejection) .accepted)]
    ((SagaTables.empty.run calls).run more).Holds
      (worktreeSaga (.rejected worktreeRejection) .accepted)
      worktreeDestination := by
  intro calls more
  have hnow : (SagaTables.empty.run calls).sagas.get? (.ofNat 1) =
      some (worktreeSaga (.running .identifyingResource) .accepted) := by
    decide +kernel
  have hthen : ((SagaTables.empty.run calls).run more).sagas.get? (.ofNat 1) =
      some (worktreeSaga (.rejected worktreeRejection) .accepted) := by
    decide +kernel
  obtain ⟨later, hlater, -, -, hguards⟩ :=
    (run_exclusive calls more).2 _ _ hnow
  rw [hthen, Option.some.injEq] at hlater
  subst hlater
  exact (hguards worktreeDestination rfl rfl).resolve_left (by decide)

/-- An effect that may exist, is then refused, and only then given a
destination: the rejection of the record gives the destination up. -/
theorem late_reservation_released :
    let early := { worktreeSaga (.running .accepted)
      (.uncertain worktreeRejection) with reservation := none }
    let refused := { worktreeSaga (.running .accepted)
      (.rejected worktreeRejection) with reservation := none }
    let reserved := worktreeSaga (.running .accepted)
      (.rejected worktreeRejection)
    let ended := worktreeSaga (.rejected worktreeRejection)
      (.rejected worktreeRejection)
    let first := SagaTables.empty.run [.begin early]
    let held := first.run [.replace refused, .replace reserved]
    let last := held.run [.replace ended]
    first.sagas.get? (.ofNat 1) = some early ∧
      early.gitEffect.mayExist = true ∧
      held.sagas.get? (.ofNat 1) = some reserved ∧
      held.Holds reserved worktreeDestination ∧
      last.sagas.get? (.ofNat 1) = some ended ∧
      ended.state.isCompleted = false ∧
      ¬ last.Holds ended worktreeDestination := by
  intro early refused reserved ended first held last
  have hfree : last.reservations.get? (reservationKey ended.home
      worktreeDestination) = none := by
    decide +kernel
  refine ⟨by decide +kernel, rfl, by decide +kernel,
    ⟨⟨.ofNat 1, false⟩, by decide +kernel, rfl⟩, by decide +kernel, rfl, ?_⟩
  rintro ⟨row, hrow, -⟩
  rw [hfree] at hrow
  cases hrow

end Hq
