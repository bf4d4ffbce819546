/-
Whole runs of the store under crashes: a transaction that is killed or fails
leaves no trace, a command keeps its receipt until the next new fact, and
revisions number the commits.
-/
import Hq.LocalMutation

namespace Hq

/-- One transaction on the store. -/
inductive StoreCommand where
  | ingest (fact : VerifiedSemanticFact) (policy : AuthorityPolicy)
  | mutate (request : LocalMutationRequest)

/-- A transaction that may be killed before it commits. -/
structure StoreAttempt where
  command : StoreCommand
  crashes : Bool

section Runs

variable {D : Type} [LinearOrder D] (environment : StoreEnvironment D)

/-- The database after an attempt: a transaction commits as a whole or not at
all. -/
def perform (database : Database) (attempt : StoreAttempt) : Database :=
  if attempt.crashes then database
  else
    match attempt.command with
    | .ingest fact policy =>
        match ingestInTransaction environment database fact policy with
        | .ok (next, _) => next
        | .error _ => database
    | .mutate request =>
        match executeLocalMutation environment database request with
        | .ok (next, _, _) => next
        | .error _ => database

/-- The attempt goes through and commits a fact that was not there. -/
def addsFact (database : Database) (attempt : StoreAttempt) : Bool :=
  !attempt.crashes &&
    match attempt.command with
    | .ingest fact policy =>
        match ingestInTransaction environment database fact policy with
        | .ok (_, outcome) => outcome.isInserted
        | .error _ => false
    | .mutate request =>
        match executeLocalMutation environment database request with
        | .ok (_, receipt, changed) =>
            changed && decide (receipt.resultKind = .committed)
        | .error _ => false

def runStore (database : Database) (attempts : List StoreAttempt) : Database :=
  attempts.foldl (perform environment) database

/-- An attempt changes nothing or carries out its whole command. -/
inductive Performs (database : Database) : StoreAttempt → Database → Prop
  | nothing {attempt : StoreAttempt}
      (idle : addsFact environment database attempt = false) :
      Performs database attempt database
  | ingest {fact : VerifiedSemanticFact} {policy : AuthorityPolicy}
      {next : Database} {outcome : IngestOutcome}
      (ingests : Ingests database fact policy next outcome)
      (adds : addsFact environment database ⟨.ingest fact policy, false⟩ =
        outcome.isInserted) :
      Performs database ⟨.ingest fact policy, false⟩ next
  | mutate {request : LocalMutationRequest} {next : Database}
      {receipt : MutationReceipt} {changed : Bool}
      (mutates : Mutates environment database request next receipt changed)
      (adds : addsFact environment database ⟨.mutate request, false⟩ =
        (changed && decide (receipt.resultKind = .committed))) :
      Performs database ⟨.mutate request, false⟩ next

end Runs

/-! The books of a database. -/

/-- Every row has its lineage, revisions number the commits without gaps in
their order, and every receipt names the revision it was given. -/
structure Ledger (database : Database) : Prop where
  rows : ∀ id, (database.facts.get? id).isSome = true ↔
    (database.commits.get? id).isSome = true
  bounded : ∀ id revision, database.commits.get? id = some revision →
    revision ≤ database.revision
  distinct : ∀ left right revision,
    database.commits.get? left = some revision →
    database.commits.get? right = some revision → left = right
  keyed : ∀ command receipt, database.receipts.get? command = some receipt →
    receipt.commandId = command
  committed : ∀ command receipt,
    database.receipts.get? command = some receipt →
    receipt.resultKind = .committed →
    ∃ id, database.commits.get? id = some receipt.revision
  rejected : ∀ command receipt,
    database.receipts.get? command = some receipt →
    receipt.resultKind = .rejected → receipt.revision ≤ database.revision ∧
      ∀ id, database.commits.get? id ≠ some receipt.revision
  rejectedDistinct : ∀ left right first second,
    database.receipts.get? left = some first →
    database.receipts.get? right = some second →
    first.resultKind = .rejected → second.resultKind = .rejected →
    first.revision = second.revision → left = right

theorem Ledger.empty : Ledger .empty where
  rows _ := by simp [Database.empty]
  bounded _ _ h := by simp [Database.empty] at h
  distinct _ _ _ h := by simp [Database.empty] at h
  keyed _ _ h := by simp [Database.empty] at h
  committed _ _ h := by simp [Database.empty] at h
  rejected _ _ h := by simp [Database.empty] at h
  rejectedDistinct _ _ _ _ h := by simp [Database.empty] at h

section Steps

variable {database next : Database} {fact : VerifiedSemanticFact}
  {policy : AuthorityPolicy} {complete : CompleteSnapshot}

theorem CommitsAnew.get?_commits
    (h : CommitsAnew database fact policy complete next) (id : FactId) :
    next.commits.get? id = if id = fact.fact.id then some next.revision
      else database.commits.get? id := by
  rw [h.commits_eq, OrderedMap.get?_insert]

theorem CommitsAnew.ledger (hledger : Ledger database)
    (h : CommitsAnew database fact policy complete next) : Ledger next where
  rows id := by
    rw [h.get?_commits, h.facts_eq, OrderedMap.get?_insert]
    split
    · simp
    · exact hledger.rows id
  bounded id revision hget := by
    rw [h.get?_commits] at hget
    split at hget
    · exact (Option.some.inj hget).ge
    · have hle := hledger.bounded id revision hget
      have hnext := h.revision_eq
      omega
  distinct left right revision hleft hright := by
    have hold : ∀ id, database.commits.get? id ≠ some next.revision := by
      intro id hget
      have hle := hledger.bounded id _ hget
      have hnext := h.revision_eq
      omega
    rw [h.get?_commits] at hleft hright
    split at hleft
    next heq =>
      split at hright
      next hother => exact heq.trans hother.symm
      next =>
        rw [← Option.some.inj hleft] at hright
        exact absurd hright (hold right)
    next =>
      split at hright
      next =>
        rw [← Option.some.inj hright] at hleft
        exact absurd hleft (hold left)
      next => exact hledger.distinct left right revision hleft hright
  keyed command receipt hget := by
    simp [h.receipts_eq] at hget
  committed command receipt hget := by
    simp [h.receipts_eq] at hget
  rejected command receipt hget := by
    simp [h.receipts_eq] at hget
  rejectedDistinct left right first second hfirst := by
    simp [h.receipts_eq] at hfirst

theorem Ingests.ledger {outcome : IngestOutcome} (hledger : Ledger database)
    (h : Ingests database fact policy next outcome) : Ledger next := by
  cases h with
  | again => exact hledger
  | anew commits => exact commits.ledger hledger

/-- The revision of an ingest is the one of the committed fact. -/
theorem Ingests.committed {outcome : IngestOutcome}
    (h : Ingests database fact policy next outcome) :
    next.commits.get? fact.fact.id = some outcome.revision := by
  cases h with
  | again committed => exact committed
  | anew commits => rw [commits.get?_commits, if_pos rfl]; rfl

/-- A receipt for a committed fact is entered. -/
theorem Ledger.recordCommitted (hledger : Ledger database)
    {receipt : MutationReceipt} {drafts : OrderedMap OperationId MailboxDraft}
    (hkind : receipt.resultKind = .committed) {id : FactId}
    (hcommitted : database.commits.get? id = some receipt.revision) :
    Ledger { database with
      receipts := database.receipts.insert receipt.commandId receipt
      drafts } where
  rows := hledger.rows
  bounded := hledger.bounded
  distinct := hledger.distinct
  keyed command found hget := by
    rw [OrderedMap.get?_insert] at hget
    split at hget
    next heq =>
      cases hget
      exact heq.symm
    next => exact hledger.keyed command found hget
  committed command found hget hfound := by
    rw [OrderedMap.get?_insert] at hget
    split at hget
    · cases hget
      exact ⟨id, hcommitted⟩
    · exact hledger.committed command found hget hfound
  rejected command found hget hfound := by
    rw [OrderedMap.get?_insert] at hget
    split at hget
    · cases hget
      rw [hkind] at hfound
      cases hfound
    · exact hledger.rejected command found hget hfound
  rejectedDistinct left right first second hfirst hsecond hleft hright := by
    rw [OrderedMap.get?_insert] at hfirst hsecond
    split at hfirst
    · cases hfirst
      rw [hkind] at hleft
      cases hleft
    · split at hsecond
      · cases hsecond
        rw [hkind] at hright
        cases hright
      · exact hledger.rejectedDistinct left right first second hfirst hsecond
          hleft hright

/-- A rejection takes the next revision. -/
theorem Ledger.recordRejected (hledger : Ledger database)
    {receipt : MutationReceipt}
    (hrevision : receipt.revision = database.revision + 1)
    (hrejected : receipt.resultKind = .rejected) :
    Ledger { database with
      revision := database.revision + 1
      receipts := database.receipts.insert receipt.commandId receipt } where
  rows := hledger.rows
  bounded id revision hget :=
    (hledger.bounded id revision hget).trans (Nat.le_succ _)
  distinct := hledger.distinct
  keyed command found hget := by
    rw [OrderedMap.get?_insert] at hget
    split at hget
    next heq =>
      cases hget
      exact heq.symm
    next => exact hledger.keyed command found hget
  committed command found hget hfound := by
    rw [OrderedMap.get?_insert] at hget
    split at hget
    · cases hget
      rw [hrejected] at hfound
      cases hfound
    · exact hledger.committed command found hget hfound
  rejected command found hget hfound := by
    rw [OrderedMap.get?_insert] at hget
    split at hget
    · cases hget
      refine ⟨hrevision.le, fun id hid => ?_⟩
      have hle := hledger.bounded id _ hid
      omega
    · obtain ⟨hle, hnone⟩ := hledger.rejected command found hget hfound
      exact ⟨hle.trans (Nat.le_succ _), hnone⟩
  rejectedDistinct left right first second hfirst hsecond hleft hright
      hsame := by
    rw [OrderedMap.get?_insert] at hfirst hsecond
    split at hfirst
    next heq =>
      cases hfirst
      split at hsecond
      next hother => exact heq.trans hother.symm
      next =>
        have hle := (hledger.rejected right second hsecond hright).1
        omega
    next =>
      split at hsecond
      next =>
        cases hsecond
        have hle := (hledger.rejected left first hfirst hleft).1
        omega
      next =>
        exact hledger.rejectedDistinct left right first second hfirst hsecond
          hleft hright hsame

variable {D : Type} [LinearOrder D] {environment : StoreEnvironment D}
  {attempt : StoreAttempt}

theorem Mutates.ledger {request : LocalMutationRequest}
    {receipt : MutationReceipt} {changed : Bool} (hledger : Ledger database)
    (h : Mutates environment database request next receipt changed) :
    Ledger next := by
  cases h with
  | replayed => exact hledger
  | @rejected result =>
      exact @Ledger.recordRejected _ hledger (request.receipt .rejected result
        (database.revision + 1)) rfl rfl
  | @committed plan auxiliaryRandomness result fact ingested outcome _ drafts _
      _ _ step =>
      have hingests := ingestInTransaction_eq_ok step
      exact @Ledger.recordCommitted _ (hingests.ledger hledger)
        (request.receipt .committed result outcome.revision) drafts rfl _
        hingests.committed

theorem performs (environment : StoreEnvironment D) (database : Database)
    (attempt : StoreAttempt) :
    Performs environment database attempt
      (perform environment database attempt) := by
  obtain ⟨command, crashes⟩ := attempt
  unfold perform
  cases crashes with
  | true => exact .nothing rfl
  | false =>
      cases command with
      | ingest fact policy =>
          simp only [Bool.false_eq_true, ↓reduceIte]
          split
          next next outcome hstep =>
            exact .ingest (ingestInTransaction_eq_ok hstep)
              (by simp [addsFact, hstep])
          next hstep => exact .nothing (by simp [addsFact, hstep])
      | mutate request =>
          simp only [Bool.false_eq_true, ↓reduceIte]
          split
          next next receipt changed hstep =>
            exact .mutate (executeLocalMutation_eq_ok hstep)
              (by simp [addsFact, hstep])
          next hstep => exact .nothing (by simp [addsFact, hstep])

theorem Performs.ledger (hledger : Ledger database)
    (h : Performs environment database attempt next) : Ledger next := by
  cases h with
  | nothing => exact hledger
  | ingest ingests => exact ingests.ledger hledger
  | mutate mutates => exact mutates.ledger hledger

/-- A mutation that records a receipt of another command keeps a receipt
exactly when its fact, if it commits one, was there. -/
theorem Mutates.receipt_kept_iff {request : LocalMutationRequest}
    {recorded : MutationReceipt} {changed : Bool} {command : CommandId}
    {receipt : MutationReceipt}
    (hreceipt : database.receipts.get? command = some receipt)
    (h : Mutates environment database request next recorded changed) :
    next.receipts.get? command = some receipt ↔
      (changed && decide (recorded.resultKind = .committed)) = false := by
  have hother : database.receipts.get? request.commandId = none →
      command ≠ request.commandId := by
    rintro hfresh rfl
    rw [hfresh] at hreceipt
    cases hreceipt
  cases h with
  | replayed => simp [hreceipt]
  | rejected fresh =>
      simp [OrderedMap.get?_insert, hother fresh, hreceipt,
        LocalMutationRequest.receipt]
  | @committed plan auxiliaryRandomness result fact ingested outcome _ drafts
      fresh _ _ step =>
      have heq := (ingestInTransaction_eq_ok step).receipts_eq
      cases hinserted : outcome.isInserted with
      | true =>
          simp [OrderedMap.get?_insert, hother fresh, heq, hinserted,
            LocalMutationRequest.receipt]
      | false =>
          simp [OrderedMap.get?_insert, hother fresh, heq, hinserted, hreceipt]

/-- A receipt outlives an attempt exactly when the attempt adds no fact. -/
theorem Performs.receipt_kept_iff {command : CommandId}
    {receipt : MutationReceipt}
    (hreceipt : database.receipts.get? command = some receipt)
    (h : Performs environment database attempt next) :
    next.receipts.get? command = some receipt ↔
      addsFact environment database attempt = false := by
  cases h with
  | nothing idle => simp [hreceipt, idle]
  | @ingest fact policy _ outcome ingests adds =>
      rw [adds, ingests.receipts_eq]
      cases outcome.isInserted with
      | true => simp
      | false => simp [hreceipt]
  | mutate mutates adds =>
      rw [adds]
      exact mutates.receipt_kept_iff hreceipt

/-- A commit keeps its revision, and a later one gets a larger revision. -/
theorem Performs.commits
    (h : Performs environment database attempt next) {id : FactId}
    {revision : Nat} :
    (database.commits.get? id = some revision →
        next.commits.get? id = some revision) ∧
      (database.commits.get? id = none →
        next.commits.get? id = some revision →
        database.revision < revision) ∧
      database.revision ≤ next.revision := by
  have hingests : ∀ {ingested fact policy outcome},
      Ingests database fact policy ingested outcome →
      (database.commits.get? id = some revision →
          ingested.commits.get? id = some revision) ∧
        (database.commits.get? id = none →
          ingested.commits.get? id = some revision →
          database.revision < revision) ∧
        database.revision ≤ ingested.revision := by
    intro ingested fact policy outcome hingests
    cases hingests with
    | again =>
        exact ⟨fun hget => hget, fun hnone hget => (by simp [hnone] at hget),
          le_refl _⟩
    | anew commits =>
        have hnext := commits.revision_eq
        refine ⟨fun hget => ?_, fun hnone hget => ?_, by omega⟩
        · rw [commits.get?_commits, if_neg, hget]
          rintro rfl
          rw [commits.uncommitted] at hget
          cases hget
        · rw [commits.get?_commits] at hget
          split at hget
          · have heq := Option.some.inj hget
            omega
          · rw [hnone] at hget
            cases hget
  cases h with
  | nothing =>
      exact ⟨fun hget => hget, fun hnone hget => (by simp [hnone] at hget),
        le_refl _⟩
  | ingest ingests => exact hingests ingests
  | mutate mutates =>
      cases mutates with
      | replayed =>
          exact ⟨fun hget => hget, fun hnone hget => (by simp [hnone] at hget),
            le_refl _⟩
      | rejected =>
          exact ⟨fun hget => hget, fun hnone hget => (by simp [hnone] at hget),
            Nat.le_succ _⟩
      | committed _ _ _ step =>
          have hingested := hingests (ingestInTransaction_eq_ok step)
          exact hingested

/-! Runs. -/

theorem runStore_append (environment : StoreEnvironment D)
    (database : Database) (earlier later : List StoreAttempt) :
    runStore environment database (earlier ++ later) =
      runStore environment (runStore environment database earlier) later :=
  List.foldl_append

theorem runStore_ledger (hledger : Ledger database)
    (attempts : List StoreAttempt) :
    Ledger (runStore environment database attempts) := by
  induction attempts generalizing database with
  | nil => exact hledger
  | cons attempt rest ih =>
      exact ih ((performs environment database attempt).ledger hledger)

/-- No attempt of the run adds a fact. -/
def NoneAdds (environment : StoreEnvironment D) (database : Database) :
    List StoreAttempt → Prop
  | [] => True
  | attempt :: rest => addsFact environment database attempt = false ∧
      NoneAdds environment (perform environment database attempt) rest

theorem runStore_receipt_kept {command : CommandId} {receipt : MutationReceipt}
    (hreceipt : database.receipts.get? command = some receipt)
    (attempts : List StoreAttempt)
    (hnone : NoneAdds environment database attempts) :
    (runStore environment database attempts).receipts.get? command =
      some receipt := by
  induction attempts generalizing database with
  | nil => exact hreceipt
  | cons attempt rest ih =>
      have hkept := ((performs environment database attempt).receipt_kept_iff
        hreceipt).2 hnone.1
      exact ih hkept hnone.2

/-- A commit keeps its revision. -/
theorem runStore_commit_kept (attempts : List StoreAttempt) {id : FactId}
    {revision : Nat} (hget : database.commits.get? id = some revision) :
    (runStore environment database attempts).commits.get? id =
      some revision := by
  induction attempts generalizing database with
  | nil => exact hget
  | cons attempt rest ih =>
      exact ih ((performs environment database attempt).commits.1 hget)

/-- What a run commits comes after what was there. -/
theorem runStore_commit_later (attempts : List StoreAttempt) {id : FactId}
    {revision : Nat} (hnone : database.commits.get? id = none)
    (hget : (runStore environment database attempts).commits.get? id =
      some revision) : database.revision < revision := by
  induction attempts generalizing database with
  | nil =>
      rw [runStore, List.foldl_nil, hnone] at hget
      cases hget
  | cons attempt rest ih =>
      obtain ⟨-, hnew, hle⟩ := @Performs.commits _ _ _ _ environment attempt
        (performs environment database attempt) id revision
      cases hnext : (perform environment database attempt).commits.get? id with
      | none => exact hle.trans_lt (ih hnext hget)
      | some found =>
          have hkept : (runStore environment database
              (attempt :: rest)).commits.get? id = some found :=
            runStore_commit_kept rest hnext
          obtain rfl := Option.some.inj (hkept.symm.trans hget)
          exact hnew hnone hnext

end Steps

/-- What a run of local mutations, ingests and crashes amounts to. A receipt
answers its command as long as it is there, and the next new fact ends it. -/
structure ExactlyOnce {D : Type} [LinearOrder D]
    (environment : StoreEnvironment D) (attempts : List StoreAttempt) :
    Prop where
  /-- A command with a receipt is answered by it, or refused when its digest
  differs; either way nothing changes. -/
  replays : ∀ request receipt,
    (runStore environment .empty attempts).receipts.get? request.commandId =
      some receipt →
    executeLocalMutation environment (runStore environment .empty attempts)
        request =
      (if receipt.requestDigest = request.requestDigest then
        .ok (runStore environment .empty attempts, receipt, false)
      else .error .mutationConflict) ∧
    (∀ attempt, (runStore environment .empty
        (attempts ++ [attempt])).receipts.get? request.commandId =
          some receipt ↔
      addsFact environment (runStore environment .empty attempts) attempt =
        false) ∧
    ∀ later, NoneAdds environment (runStore environment .empty attempts)
        later →
      (runStore environment .empty (attempts ++ later)).receipts.get?
        request.commandId = some receipt
  /-- An attempt changes nothing, or commits its whole command. -/
  atomic : ∀ attempt, Performs environment
    (runStore environment .empty attempts) attempt
    (runStore environment .empty (attempts ++ [attempt]))
  /-- A committed receipt names the revision of exactly one stored fact. -/
  committed : ∀ command receipt,
    (runStore environment .empty attempts).receipts.get? command =
      some receipt → receipt.resultKind = .committed →
    ∃! id, (runStore environment .empty attempts).commits.get? id =
      some receipt.revision
  /-- Facts and rejections have revisions of their own. -/
  ledger : Ledger (runStore environment .empty attempts)
  /-- Facts are numbered in the order of their commits. -/
  ordered : ∀ later left right first second,
    (runStore environment .empty attempts).commits.get? left = some first →
    (runStore environment .empty attempts).commits.get? right = none →
    (runStore environment .empty (attempts ++ later)).commits.get? right =
      some second →
    (runStore environment .empty (attempts ++ later)).commits.get? left =
      some first ∧ first < second

/-- Every run answers a command by its receipt exactly until a new fact is
committed, commits as a whole or not at all, and numbers its commits in
order. -/
theorem mutation_exactly_once {D : Type} [LinearOrder D]
    (environment : StoreEnvironment D) (attempts : List StoreAttempt) :
    ExactlyOnce environment attempts := by
  have hledger : Ledger (runStore environment .empty attempts) :=
    runStore_ledger .empty attempts
  constructor
  · intro request receipt hreceipt
    refine ⟨?_, fun attempt => ?_, fun later hnone => ?_⟩
    · rw [executeLocalMutation, hreceipt]
      by_cases hdigest : receipt.requestDigest = request.requestDigest
      · simp [hdigest]
      · simp [hdigest]
    · rw [runStore_append]
      exact (performs environment _ attempt).receipt_kept_iff hreceipt
    · rw [runStore_append]
      exact runStore_receipt_kept hreceipt later hnone
  · intro attempt
    rw [runStore_append]
    exact performs environment _ attempt
  · intro command receipt hreceipt hkind
    obtain ⟨id, hid⟩ := hledger.committed command receipt hreceipt hkind
    exact ⟨id, hid, fun other hother => hledger.distinct other id _ hother hid⟩
  · exact hledger
  · intro later left right first second hleft hright hlater
    rw [runStore_append] at hlater ⊢
    have hlt := runStore_commit_later later hright hlater
    have hle := hledger.bounded left first hleft
    exact ⟨runStore_commit_kept later hleft, by omega⟩

/-! A command whose receipt is lost. -/

/-- A command that commits a fact, under its own identity and digest. -/
def namedCommand (command digest : Nat) (fact : Fact) : LocalMutationRequest :=
  { commitCommand fact with
    commandId := .ofNat command
    requestDigest := .ofNat digest }

/-- A command commits a declaration; then another declaration arrives. -/
def forgottenCommand : List StoreAttempt :=
  [⟨.mutate (namedCommand 1 1 (declaration 1 1)), false⟩,
    ⟨.ingest (signedEvent (declaration 2 2)) samplePolicy, false⟩]

/-- The receipt is there after the command and gone after the ingest, and the
identity of the command is then accepted with another digest. -/
theorem receipt_lost_to_new_fact :
    (runStore sampleEnvironment .empty
      (forgottenCommand.take 1)).receipts.get? (.ofNat 1) =
        some ⟨.ofNat 1, .ofNat 1, .committed, .empty, 1⟩ ∧
    (runStore sampleEnvironment .empty forgottenCommand).receipts.get?
      (.ofNat 1) = none ∧
    (runStore sampleEnvironment .empty (forgottenCommand ++
      [⟨.mutate (namedCommand 1 3 (declaration 1 1)), false⟩])).receipts.get?
        (.ofNat 1) = some ⟨.ofNat 1, .ofNat 3, .committed, .empty, 1⟩ := by
  refine ⟨?_, ?_, ?_⟩
  · decide +kernel
  · decide +kernel
  · decide +kernel

end Hq
