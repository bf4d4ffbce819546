/-
What one step of the store can do: an ingest finds its fact in place or commits
it with everything that goes with it, and a mutation replays its receipt or
records one receipt beside what its decision does.
-/
import Hq.Store

namespace Hq

section Parts

variable {database next : Database} {fact : VerifiedSemanticFact}
  {policy : AuthorityPolicy} {complete : CompleteSnapshot} {revision : Nat}

theorem allocateRevision_eq_ok
    (h : allocateRevision database = .ok (next, revision)) :
    revision = database.revision + 1 ∧
      next = { database with revision := database.revision + 1 } := by
  unfold allocateRevision at h
  split at h
  · cases h
    exact ⟨rfl, rfl⟩
  · cases h

theorem putCanonicalCommit_eq_ok {id : FactId}
    (habsent : database.commits.get? id = none)
    (h : putCanonicalCommit id revision database = .ok next) :
    next = { database with commits := database.commits.insert id revision } := by
  unfold putCanonicalCommit at h
  rw [habsent] at h
  cases h
  rfl

theorem putReceipt_eq_ok {receipt : MutationReceipt}
    (h : putReceipt receipt database = .ok next) :
    database.receipts.get? receipt.commandId = none ∧
      next = { database with
        receipts := database.receipts.insert receipt.commandId receipt } := by
  unfold putReceipt at h
  split at h
  · split at h <;> cases h
  next habsent =>
    cases h
    exact ⟨habsent, rfl⟩

theorem consumeDraft_eq_ok {draftId : Option OperationId}
    {draft : Option MailboxDraft}
    (h : consumeDraft draftId draft database = .ok next) :
    next = { database with drafts := next.drafts } := by
  unfold consumeDraft at h
  split at h
  · cases h
    rfl
  · split at h
    · cases h
      rfl
    · split at h
      · cases h
      · cases h
        rfl

/-- One table of intents after intents for some recipients of a fact are
filed in another. -/
structure FilesIntents (fact : VerifiedSemanticFact) (revision : Nat)
    (recipients : List InstallationId)
    (before after : OrderedMap (FactId ×ₗ InstallationId) OutboxIntent) :
    Prop where
  kept : ∀ key intent, before.get? key = some intent →
    after.get? key = some intent
  origin : ∀ key intent, after.get? key = some intent →
    before.get? key = some intent ∨ ∃ recipient ∈ recipients,
      key = toLex (fact.fact.id, recipient) ∧
        intent = ⟨fact.fact.id, recipient, fact.exactEventBytes, revision⟩
  filed : ∀ recipient ∈ recipients,
    (after.get? (toLex (fact.fact.id, recipient))).isSome = true

theorem FilesIntents.nil (fact : VerifiedSemanticFact) (revision : Nat)
    (table : OrderedMap (FactId ×ₗ InstallationId) OutboxIntent) :
    FilesIntents fact revision [] table table :=
  ⟨fun _ _ h => h, fun _ _ h => .inl h, nofun⟩

theorem FilesIntents.cons {recipient : InstallationId} {rest : List InstallationId}
    {before middle after : OrderedMap (FactId ×ₗ InstallationId) OutboxIntent}
    (hfirst : FilesIntents fact revision [recipient] before middle)
    (hrest : FilesIntents fact revision rest middle after) :
    FilesIntents fact revision (recipient :: rest) before after where
  kept key intent h := hrest.kept key intent (hfirst.kept key intent h)
  origin key intent h := by
    rcases hrest.origin key intent h with hmiddle | ⟨other, hother, hkey⟩
    · rcases hfirst.origin key intent hmiddle with hbefore | ⟨other, hother, hkey⟩
      · exact .inl hbefore
      · obtain rfl := List.mem_singleton.1 hother
        exact .inr ⟨other, List.mem_cons_self, hkey⟩
    · exact .inr ⟨other, List.mem_cons_of_mem _ hother, hkey⟩
  filed other hother := by
    rcases List.mem_cons.1 hother with rfl | hother
    · obtain ⟨intent, hintent⟩ := Option.isSome_iff_exists.1
        (hfirst.filed other (List.mem_singleton_self other))
      rw [hrest.kept _ intent hintent]
      rfl
    · exact hrest.filed other hother

theorem putOutboxIntent_files {recipient : InstallationId}
    (h : putOutboxIntent
      ⟨fact.fact.id, recipient, fact.exactEventBytes, revision⟩ database =
        .ok next) :
    next = { database with outbox := next.outbox } ∧
      FilesIntents fact revision [recipient] database.outbox next.outbox := by
  unfold putOutboxIntent at h
  split at h
  · cases h
  · split at h
    next stored hstored =>
      split at h
      · cases h
        refine ⟨rfl, fun _ _ hkept => hkept, fun _ _ hkept => .inl hkept, ?_⟩
        intro other hother
        obtain rfl := List.mem_singleton.1 hother
        rw [hstored]
        rfl
      · cases h
    next habsent =>
      split at h
      · cases h
      cases h
      refine ⟨rfl, ?_, ?_, ?_⟩
      · intro key intent hintent
        rw [OrderedMap.get?_insert]
        split
        next heq =>
          rw [heq, habsent] at hintent
          cases hintent
        next => exact hintent
      · intro key intent hintent
        rw [OrderedMap.get?_insert] at hintent
        split at hintent
        next heq =>
          cases hintent
          exact .inr ⟨recipient, List.mem_singleton_self recipient, heq, rfl⟩
        next => exact .inl hintent
      · intro other hother
        obtain rfl := List.mem_singleton.1 hother
        rw [OrderedMap.get?_insert, if_pos rfl]
        rfl

theorem putOutboxIntents_files {recipients : List InstallationId}
    (h : recipients.foldlM (fun database recipient => putOutboxIntent
      ⟨fact.fact.id, recipient, fact.exactEventBytes, revision⟩ database)
      database = .ok next) :
    next = { database with outbox := next.outbox } ∧
      FilesIntents fact revision recipients database.outbox next.outbox := by
  induction recipients generalizing database with
  | nil =>
      cases h
      exact ⟨rfl, .nil _ _ _⟩
  | cons recipient rest ih =>
      rw [List.foldlM_cons] at h
      obtain ⟨filed, hfiled, hrest⟩ := bind_eq_ok.1 h
      obtain ⟨hfirst, hfilesFirst⟩ := putOutboxIntent_files hfiled
      obtain ⟨hnext, hfilesRest⟩ := ih hrest
      refine ⟨?_, hfilesFirst.cons hfilesRest⟩
      rw [hnext, hfirst]

/-- The recipients an admitted fact is filed for. -/
def filedRecipients (fact : Fact) (policy : AuthorityPolicy)
    (complete : CompleteSnapshot) : List InstallationId :=
  if factIsAdmitted (normalize complete) fact.id then
    (outboxRecipients fact policy complete.authority).toList
  else []

theorem putOutboxIntents_eq_ok
    (h : putOutboxIntents fact policy complete revision database = .ok next) :
    next = { database with outbox := next.outbox } ∧
      FilesIntents fact revision (filedRecipients fact.fact policy complete)
        database.outbox next.outbox := by
  unfold putOutboxIntents at h
  unfold filedRecipients
  split at h
  next hadmitted =>
    rw [if_pos hadmitted]
    exact putOutboxIntents_files h
  next hrefused =>
    cases h
    rw [if_neg hrefused]
    exact ⟨rfl, .nil _ _ _⟩

end Parts

/-- A fact is committed: its row, the reduction of all facts, its revision, its
intents and its lineage. -/
structure CommitsAnew (database : Database) (fact : VerifiedSemanticFact)
    (policy : AuthorityPolicy) (complete : CompleteSnapshot)
    (next : Database) : Prop where
  uncommitted : database.commits.get? fact.fact.id = none
  absent : database.facts.get? fact.fact.id = none
  facts_eq : next.facts = database.facts.insert fact.fact.id fact
  reduced : ∃ facts, loadFacts next = .ok facts ∧
    buildCompleteSnapshot facts policy = .ok complete
  covered : validateIncrementalChange database.rebuilt complete fact.fact.id =
    .ok ()
  rebuilt_eq : next.rebuilt = some complete
  revision_eq : next.revision = database.revision + 1
  files : FilesIntents fact next.revision (filedRecipients fact.fact policy complete)
    database.outbox next.outbox
  commits_eq : next.commits =
    database.commits.insert fact.fact.id next.revision
  receipts_eq : next.receipts = ∅
  drafts_eq : next.drafts = database.drafts

/-- What an ingest leads to. -/
inductive Ingests (database : Database) (fact : VerifiedSemanticFact)
    (policy : AuthorityPolicy) : Database → IngestOutcome → Prop
  | again {revision : Nat} {stored : VerifiedSemanticFact}
      (committed : database.commits.get? fact.fact.id = some revision)
      (found : database.facts.get? fact.fact.id = some stored)
      (equal : immutableRowEqual stored fact = true) :
      Ingests database fact policy database (.alreadyPresent revision)
  | anew {next : Database} {complete : CompleteSnapshot}
      (commits : CommitsAnew database fact policy complete next) :
      Ingests database fact policy next (.inserted next.revision)

theorem appendInTransaction_eq_ok {database next : Database}
    {fact : VerifiedSemanticFact} {outcome : CanonicalAppendOutcome}
    (h : appendInTransaction database fact = .ok (next, outcome)) :
    (outcome = .alreadyPresent ∧ next = database ∧ ∃ stored,
      database.facts.get? fact.fact.id = some stored ∧
        immutableRowEqual stored fact = true) ∨
    (outcome = .inserted ∧ database.facts.get? fact.fact.id = none ∧
      next = database.insertFact fact) := by
  unfold appendInTransaction at h
  split at h
  next stored hstored =>
    split at h
    next hequal =>
      cases h
      exact .inl ⟨rfl, rfl, stored, hstored, hequal⟩
    next => cases h
  next habsent =>
    cases h
    exact .inr ⟨rfl, habsent, rfl⟩

theorem loadFacts_congr {left right : Database}
    (h : left.facts = right.facts) : loadFacts left = loadFacts right := by
  unfold loadFacts
  rw [h]

section Steps

variable {D : Type} [LinearOrder D] {environment : StoreEnvironment D}
  {database next : Database} {fact : VerifiedSemanticFact}
  {policy : AuthorityPolicy}

theorem materialize_eq_ok {complete : CompleteSnapshot}
    (h : materialize environment database fact policy =
      .ok (next, complete)) :
    database.facts.get? fact.fact.id = none ∧
      next = { database.insertFact fact with
        rebuilt := some complete, receipts := ∅ } ∧
      (∃ facts, loadFacts (database.insertFact fact) = .ok facts ∧
        buildCompleteSnapshot facts policy = .ok complete) ∧
      validateIncrementalChange database.rebuilt complete fact.fact.id =
        .ok () := by
  unfold materialize at h
  obtain ⟨⟨appended, found⟩, happend, h⟩ := bind_eq_ok.1 h
  simp only at h
  split at h
  · cases h
  next hfound =>
    obtain ⟨facts, hfacts, h⟩ := bind_eq_ok.1 h
    obtain ⟨built, hbuilt, h⟩ := bind_eq_ok.1 h
    obtain ⟨⟨⟩, hcovered, h⟩ := bind_eq_ok.1 h
    obtain ⟨⟨⟩, -, h⟩ := bind_eq_ok.1 h
    cases h
    rcases appendInTransaction_eq_ok happend with ⟨rfl, -⟩ | ⟨rfl, habsent, rfl⟩
    · simp at hfound
    · exact ⟨habsent, rfl, ⟨facts, hfacts, hbuilt⟩, hcovered⟩

/-- An ingest finds its fact in place or commits it. -/
theorem ingestInTransaction_eq_ok {outcome : IngestOutcome}
    (h : ingestInTransaction environment database fact policy =
      .ok (next, outcome)) : Ingests database fact policy next outcome := by
  unfold ingestInTransaction at h
  split at h
  next revision hcommitted =>
    obtain ⟨⟨appended, found⟩, happend, h⟩ := bind_eq_ok.1 h
    simp only at h
    split at h
    · cases h
    next hfound =>
      cases h
      rcases appendInTransaction_eq_ok happend with
        ⟨-, rfl, stored, hstored, hequal⟩ | ⟨rfl, -⟩
      · exact .again hcommitted hstored hequal
      · simp at hfound
  next huncommitted =>
    obtain ⟨⟨materialized, complete⟩, hmaterialize, h⟩ := bind_eq_ok.1 h
    obtain ⟨⟨allocated, revision⟩, hallocate, h⟩ := bind_eq_ok.1 h
    obtain ⟨filed, hfiled, h⟩ := bind_eq_ok.1 h
    obtain ⟨committed, hcommitted, h⟩ := bind_eq_ok.1 h
    cases h
    obtain ⟨habsent, rfl, hreduced, hcovered⟩ := materialize_eq_ok hmaterialize
    obtain ⟨rfl, rfl⟩ := allocateRevision_eq_ok hallocate
    obtain ⟨hfiledEq, hfiles⟩ := putOutboxIntents_eq_ok hfiled
    have hfiledCommits : filed.commits = database.commits := by
      rw [hfiledEq]
      rfl
    have hnext := putCanonicalCommit_eq_ok
      (by rw [hfiledCommits]; exact huncommitted) hcommitted
    rw [hfiledEq] at hnext
    subst hnext
    exact @Ingests.anew database fact policy _ complete
      { uncommitted := huncommitted
        absent := habsent
        facts_eq := rfl
        reduced := hreduced
        covered := hcovered
        rebuilt_eq := rfl
        revision_eq := rfl
        files := hfiles
        commits_eq := rfl
        receipts_eq := rfl
        drafts_eq := rfl }

end Steps

/-! Mutations. -/

def IngestOutcome.revision : IngestOutcome → Nat
  | .inserted revision | .alreadyPresent revision => revision

def IngestOutcome.isInserted : IngestOutcome → Bool
  | .inserted _ => true
  | .alreadyPresent _ => false

/-- The decision of a request over the reduced facts of a database. -/
def Decides (database : Database) (request : LocalMutationRequest)
    (decision : LocalMutationDecision) : Prop :=
  ∃ facts complete, loadFacts database = .ok facts ∧
    buildCompleteSnapshot facts request.policy = .ok complete ∧
    request.decide complete (requestDraft database request) = decision

/-- The receipt of a request. -/
def LocalMutationRequest.receipt (request : LocalMutationRequest)
    (kind : MutationResultKind) (result : MutationResultBytes)
    (revision : Nat) : MutationReceipt :=
  ⟨request.commandId, request.requestDigest, kind, result, revision⟩

/-- What a mutation leads to. -/
inductive Mutates {D : Type} [LinearOrder D]
    (environment : StoreEnvironment D) (database : Database)
    (request : LocalMutationRequest) :
    Database → MutationReceipt → Bool → Prop
  | replayed {receipt : MutationReceipt}
      (recorded : database.receipts.get? request.commandId = some receipt)
      (digest : receipt.requestDigest = request.requestDigest) :
      Mutates environment database request database receipt false
  | rejected {result : MutationResultBytes}
      (fresh : database.receipts.get? request.commandId = none)
      (decided : Decides database request (.reject result)) :
      Mutates environment database request
        { database with
          revision := database.revision + 1
          receipts := database.receipts.insert request.commandId
            (request.receipt .rejected result (database.revision + 1)) }
        (request.receipt .rejected result (database.revision + 1)) true
  | committed {plan : CanonicalEventPlan}
      {auxiliaryRandomness : List UInt8} {result : MutationResultBytes}
      {fact : VerifiedSemanticFact} {ingested : Database}
      {outcome : IngestOutcome} {complete : CompleteSnapshot}
      {drafts : OrderedMap OperationId MailboxDraft}
      (fresh : database.receipts.get? request.commandId = none)
      (decided : Decides database request
        (.commit plan auxiliaryRandomness result))
      (signed : request.sign plan auxiliaryRandomness = some fact)
      (step : ingestInTransaction environment database fact request.policy =
        .ok (ingested, outcome))
      (rebuilt : ingested.rebuilt = some complete)
      (admitted : factIsAdmitted (normalize complete) fact.fact.id = true) :
      Mutates environment database request
        { ingested with
          receipts := ingested.receipts.insert request.commandId
            (request.receipt .committed result outcome.revision)
          drafts }
        (request.receipt .committed result outcome.revision)
        outcome.isInserted

section Mutation

variable {D : Type} [LinearOrder D] {environment : StoreEnvironment D}
  {database next : Database} {request : LocalMutationRequest}

/-- A new fact takes the receipts away, a known one leaves them. -/
theorem Ingests.receipts_eq {fact : VerifiedSemanticFact}
    {policy : AuthorityPolicy} {outcome : IngestOutcome}
    (h : Ingests database fact policy next outcome) :
    next.receipts = if outcome.isInserted then ∅ else database.receipts := by
  cases h with
  | again => rfl
  | anew commits => exact commits.receipts_eq

/-- The commit of a decision ingests the signed fact and finds it admitted. -/
theorem commitDecision_eq_ok {plan : CanonicalEventPlan}
    {auxiliaryRandomness : List UInt8} {revision : Nat} {changed : Bool}
    (h : commitDecision environment database request plan
      auxiliaryRandomness = .ok (next, revision, changed)) :
    ∃ fact outcome complete, request.sign plan auxiliaryRandomness =
        some fact ∧ ingestInTransaction environment database fact
        request.policy = .ok (next, outcome) ∧
      next.rebuilt = some complete ∧
      factIsAdmitted (normalize complete) fact.fact.id = true ∧
      revision = outcome.revision ∧ changed = outcome.isInserted := by
  unfold commitDecision at h
  split at h
  · cases h
  next fact hsigned =>
    obtain ⟨⟨ingested, outcome⟩, hingest, h⟩ := bind_eq_ok.1 h
    obtain ⟨index, hindex, h⟩ := bind_eq_ok.1 h
    split at h
    next hadmitted =>
      have hparts : ingested = next ∧ revision = outcome.revision ∧
          changed = outcome.isInserted := by
        cases outcome <;> cases h <;> exact ⟨rfl, rfl, rfl⟩
      obtain ⟨rfl, hrevision, hchanged⟩ := hparts
      unfold loadRepaired at hindex
      split at hindex
      · cases hindex
      next complete hcomplete =>
        cases hindex
        exact ⟨fact, outcome, complete, hsigned, hingest, hcomplete, hadmitted,
          hrevision, hchanged⟩
    next => cases h

/-- A mutation replays a receipt, or records one. -/
theorem executeLocalMutation_eq_ok {receipt : MutationReceipt}
    {changed : Bool}
    (h : executeLocalMutation environment database request =
      .ok (next, receipt, changed)) :
    Mutates environment database request next receipt changed := by
  unfold executeLocalMutation at h
  split at h
  next stored hstored =>
    split at h
    · cases h
    next hdigest =>
      cases h
      exact .replayed hstored (not_not.1 hdigest)
  next hfresh =>
    obtain ⟨facts, hfacts, h⟩ := bind_eq_ok.1 h
    obtain ⟨complete, hcomplete, h⟩ := bind_eq_ok.1 h
    cases hdecide : request.decide complete (requestDraft database request) with
    | reject result =>
        rw [hdecide] at h
        obtain ⟨⟨allocated, revision⟩, hallocate, h⟩ := bind_eq_ok.1 h
        obtain ⟨recorded, hrecorded, h⟩ := bind_eq_ok.1 h
        cases h
        obtain ⟨rfl, rfl⟩ := allocateRevision_eq_ok hallocate
        obtain ⟨-, rfl⟩ := putReceipt_eq_ok hrecorded
        exact .rejected hfresh ⟨facts, complete, hfacts, hcomplete, hdecide⟩
    | commit plan auxiliaryRandomness result =>
        rw [hdecide] at h
        obtain ⟨⟨ingested, revision, inserted⟩, hcommit, h⟩ := bind_eq_ok.1 h
        obtain ⟨recorded, hrecorded, h⟩ := bind_eq_ok.1 h
        obtain ⟨consumed, hconsumed, h⟩ := bind_eq_ok.1 h
        cases h
        obtain ⟨fact, outcome, built, hsigned, hstep, hbuilt, hadmitted,
          rfl, rfl⟩ := commitDecision_eq_ok hcommit
        obtain ⟨-, rfl⟩ := putReceipt_eq_ok hrecorded
        have hnext := consumeDraft_eq_ok hconsumed
        rw [hnext]
        exact @Mutates.committed D _ environment database request
          plan auxiliaryRandomness result fact ingested outcome built
          next.drafts hfresh ⟨facts, complete, hfacts, hcomplete, hdecide⟩
          hsigned hstep hbuilt hadmitted

end Mutation

end Hq
