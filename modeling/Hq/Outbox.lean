/-
Delivery over whole runs: which intents the store holds, who may receive a
fact, and when the ancestors of a delivered fact are delivered with it.
-/
import Hq.StoreRuns
import Hq.LocalMutation

namespace Hq

/-! Who may receive a fact. -/

/-- The creator of an account in the authority projections. -/
def IsCreator (authority : AuthorityReport) (account : AccountId)
    (recipient : InstallationId) : Prop :=
  ∃ root creator label, authority.projections.get? (.account account) =
    some (.account root creator label) ∧ creator.installationId = recipient

/-- An active device of an account in the authority projections. -/
def IsActiveDevice (authority : AuthorityReport) (account : AccountId)
    (recipient : InstallationId) : Prop :=
  ∃ view, authority.projections.get? (.membership account recipient) =
    some (.membership view) ∧ view.state = .active

/-- The installations that the scope of a fact, or a grant or revoke in it,
allows to receive it. -/
def Authorised (fact : Fact) (authority : AuthorityReport)
    (recipient : InstallationId) : Prop :=
  match fact.scope with
  | .installationPrivate _ => recipient ∈ namedRecipient fact.payload
  | .peerAddressed mailbox => recipient = mailbox.installationId ∨
      recipient ∈ namedRecipient fact.payload
  | .accountAddressed account => IsCreator authority account recipient ∨
      IsActiveDevice authority account recipient ∨
      recipient ∈ namedRecipient fact.payload
  | .remoteControl account targetHome =>
      IsCreator authority account recipient ∨
      IsActiveDevice authority account recipient ∨
      recipient = targetHome ∨ recipient ∈ namedRecipient fact.payload

section Recipients

variable {authority : AuthorityReport} {account : AccountId}
  {recipient : InstallationId}

theorem mem_accountRecipients :
    recipient ∈ accountRecipients account authority ↔
      IsCreator authority account recipient ∨
        IsActiveDevice authority account recipient := by
  unfold accountRecipients
  rw [List.mem_append]
  refine or_congr ?_ ?_
  · unfold IsCreator
    split
    next root creator label hget =>
      rw [List.mem_singleton, hget]
      constructor
      · rintro rfl
        exact ⟨root, creator, label, rfl, rfl⟩
      · rintro ⟨_, _, _, heq, rfl⟩
        cases heq
        rfl
    next hnone =>
      constructor
      · intro hmem
        cases hmem
      · rintro ⟨root, creator, label, hget, -⟩
        exact absurd hget (hnone root creator label)
  · unfold IsActiveDevice
    rw [List.mem_filterMap]
    constructor
    · rintro ⟨⟨key, value⟩, hmem, hread⟩
      split at hread
      next candidate device view heq =>
        cases heq
        split at hread
        next htest =>
          cases hread
          simp only [Bool.and_eq_true, decide_eq_true_eq] at htest
          obtain ⟨rfl, hactive⟩ := htest
          exact ⟨view, OrderedMap.get?_eq_some_iff.2 hmem, hactive⟩
        next => cases hread
      next => cases hread
    · rintro ⟨view, hget, hactive⟩
      exact ⟨_, OrderedMap.get?_eq_some_iff.1 hget, by simp [hactive]⟩

/-- The store sends a fact to whom it is authorised for, apart from its author
and the store itself. -/
theorem mem_outboxRecipients {fact : Fact} {policy : AuthorityPolicy} :
    recipient ∈ outboxRecipients fact policy authority ↔
      Authorised fact authority recipient ∧ recipient ≠ fact.authorId ∧
        recipient ≠ policy.localInstallation := by
  unfold outboxRecipients
  rw [OrderedSet.mem_filter, OrderedSet.mem_ofList, List.mem_append,
    Bool.and_eq_true, decide_eq_true_eq, decide_eq_true_eq]
  refine and_congr_left fun _ => ?_
  unfold Authorised scopeRecipients
  cases fact.scope with
  | installationPrivate => simp
  | peerAddressed => rw [List.mem_singleton]
  | accountAddressed => rw [mem_accountRecipients, or_assoc]
  | remoteControl =>
      rw [List.mem_append, mem_accountRecipients, List.mem_singleton,
        or_assoc, or_assoc]

end Recipients

variable {attempts : List StoreAttempt} {fact : VerifiedSemanticFact}
  {recipient : InstallationId} {complete : CompleteSnapshot}
  {attempt : StoreAttempt} {database : Database}

/-! The commits of a run. -/

section Commits

variable {D : Type} [LinearOrder D] (environment : StoreEnvironment D)

/-- The policy a command is carried out under. -/
def StoreCommand.policy : StoreCommand → AuthorityPolicy
  | .ingest _ policy => policy
  | .mutate request => request.policy

/-- An attempt commits a fact under its own policy, over the reduction that it
leaves in the store. -/
structure CommitsBy (database : Database) (attempt : StoreAttempt)
    (fact : VerifiedSemanticFact) (policy : AuthorityPolicy)
    (complete : CompleteSnapshot) : Prop where
  policy_eq : attempt.command.policy = policy
  rebuilt_eq : (perform environment database attempt).rebuilt = some complete
  commits : ∃ committed, CommitsAnew database fact policy complete committed ∧
    (perform environment database attempt).facts = committed.facts ∧
    (perform environment database attempt).outbox = committed.outbox

/-- Some attempt of a run from the empty store commits a fact over a
reduction. -/
def CommittedIn (attempts : List StoreAttempt) (fact : VerifiedSemanticFact)
    (policy : AuthorityPolicy) (complete : CompleteSnapshot) : Prop :=
  ∃ earlier attempt later, attempts = earlier ++ attempt :: later ∧
    CommitsBy environment (runStore environment .empty earlier) attempt fact
      policy complete

variable {environment}

/-- An attempt leaves facts, reduction and intents alone or commits one
fact. -/
theorem perform_commits (database : Database) (attempt : StoreAttempt) :
    ((perform environment database attempt).facts = database.facts ∧
      (perform environment database attempt).rebuilt = database.rebuilt ∧
      (perform environment database attempt).outbox = database.outbox) ∨
    ∃ fact policy complete,
      CommitsBy environment database attempt fact policy complete := by
  have hingests : ∀ {next fact outcome},
      Ingests database fact attempt.command.policy next outcome →
      (perform environment database attempt).facts = next.facts →
      (perform environment database attempt).rebuilt = next.rebuilt →
      (perform environment database attempt).outbox = next.outbox →
      ((perform environment database attempt).facts = database.facts ∧
        (perform environment database attempt).rebuilt = database.rebuilt ∧
        (perform environment database attempt).outbox = database.outbox) ∨
      ∃ fact policy complete,
        CommitsBy environment database attempt fact policy complete := by
    intro next fact outcome hingests hfacts hrebuilt houtbox
    cases hingests with
    | again => exact .inl ⟨hfacts, hrebuilt, houtbox⟩
    | anew commits =>
        exact .inr ⟨fact, _, _, rfl, hrebuilt.trans commits.rebuilt_eq, _,
          commits, hfacts, houtbox⟩
  have hperforms := performs environment database attempt
  generalize hnext : perform environment database attempt = next at *
  cases hperforms with
  | nothing => exact .inl ⟨rfl, rfl, rfl⟩
  | ingest ingests => exact hingests ingests rfl rfl rfl
  | mutate mutates =>
      cases mutates with
      | replayed => exact .inl ⟨rfl, rfl, rfl⟩
      | rejected => exact .inl ⟨rfl, rfl, rfl⟩
      | committed _ _ _ step =>
          exact hingests (ingestInTransaction_eq_ok step) rfl rfl rfl

/-- What an attempt makes of the facts. -/
theorem get?_facts_perform {id : FactId} :
    (perform environment database attempt).facts.get? id = some fact ↔
      database.facts.get? id = some fact ∨ (fact.fact.id = id ∧
        ∃ policy complete,
          CommitsBy environment database attempt fact policy complete) := by
  constructor
  · intro hget
    rcases @perform_commits D _ environment database attempt with
      ⟨hfacts, -⟩ | ⟨added, policy, complete, hcommits⟩
    · exact .inl (hfacts ▸ hget)
    · obtain ⟨committed, hadds, hfacts, -⟩ := hcommits.commits
      rw [hfacts, hadds.facts_eq, OrderedMap.get?_insert] at hget
      split at hget
      next heq =>
        obtain rfl := Option.some.inj hget
        exact .inr ⟨heq.symm, policy, complete, hcommits⟩
      next => exact .inl hget
  · rintro (hget | ⟨rfl, policy, complete, -, -, committed, hadds, hfacts, -⟩)
    · rcases @perform_commits D _ environment database attempt with
        ⟨hfacts, -⟩ | ⟨added, policy, complete, hcommits⟩
      · exact hfacts ▸ hget
      · obtain ⟨committed, hadds, hfacts, -⟩ := hcommits.commits
        rw [hfacts, hadds.facts_eq, OrderedMap.get?_insert, if_neg, hget]
        rintro rfl
        rw [hadds.absent] at hget
        cases hget
    · rw [hfacts, hadds.facts_eq, OrderedMap.get?_insert, if_pos rfl]

/-- What an attempt makes of the intents. -/
theorem get?_outbox_perform {id : FactId} :
    ((perform environment database attempt).outbox.get?
        (toLex (id, recipient))).isSome = true ↔
      (database.outbox.get? (toLex (id, recipient))).isSome = true ∨
      ∃ fact policy complete,
        CommitsBy environment database attempt fact policy complete ∧
        fact.fact.id = id ∧
        recipient ∈ filedRecipients fact.fact policy complete := by
  constructor
  · intro hsome
    rcases @perform_commits D _ environment database attempt with
      ⟨-, -, houtbox⟩ | ⟨added, policy, complete, hcommits⟩
    · exact .inl (houtbox ▸ hsome)
    · obtain ⟨committed, hadds, -, houtbox⟩ := hcommits.commits
      obtain ⟨intent, hget⟩ := Option.isSome_iff_exists.1 hsome
      rw [houtbox] at hget
      rcases hadds.files.origin _ intent hget with
        hbefore | ⟨other, hother, hkey, -⟩
      · exact .inl (by rw [hbefore]; rfl)
      · obtain ⟨rfl, rfl⟩ := Prod.mk.inj (toLex.injective hkey)
        exact .inr ⟨added, policy, complete, hcommits, rfl, hother⟩
  · rintro (hsome | ⟨fact, policy, complete,
      ⟨-, -, committed, hadds, -, houtbox⟩, rfl, hrecipient⟩)
    · obtain ⟨intent, hget⟩ := Option.isSome_iff_exists.1 hsome
      rcases @perform_commits D _ environment database attempt with
        ⟨-, -, houtbox⟩ | ⟨added, policy, complete, hcommits⟩
      · exact houtbox ▸ hsome
      · obtain ⟨committed, hadds, -, houtbox⟩ := hcommits.commits
        rw [houtbox, hadds.files.kept _ intent hget]
        rfl
    · rw [houtbox]
      exact hadds.files.filed recipient hrecipient

theorem committedIn_snoc {policy : AuthorityPolicy} :
    CommittedIn environment (attempts ++ [attempt]) fact policy complete ↔
      CommittedIn environment attempts fact policy complete ∨
        CommitsBy environment (runStore environment .empty attempts) attempt
          fact policy complete := by
  constructor
  · rintro ⟨earlier, found, later, heq, hcommits⟩
    rcases List.eq_nil_or_concat later with rfl | ⟨rest, last, rfl⟩
    · obtain ⟨rfl, hlast⟩ := List.append_inj' heq rfl
      obtain rfl := List.singleton_inj.1 hlast
      exact .inr hcommits
    · rw [List.concat_eq_append, ← List.cons_append, ← List.append_assoc] at heq
      obtain ⟨rfl, -⟩ := List.append_inj' heq rfl
      exact .inl ⟨earlier, found, rest, rfl, hcommits⟩
  · rintro (⟨earlier, found, rest, rfl, hcommits⟩ | hcommits)
    · exact ⟨earlier, found, rest ++ [attempt], by simp, hcommits⟩
    · exact ⟨attempts, attempt, [], rfl, hcommits⟩

theorem runStore_snoc (environment : StoreEnvironment D)
    (attempts : List StoreAttempt) (attempt : StoreAttempt) :
    runStore environment .empty (attempts ++ [attempt]) =
      perform environment (runStore environment .empty attempts) attempt :=
  runStore_append environment .empty attempts [attempt]

theorem not_committedIn_nil {policy : AuthorityPolicy} :
    ¬ CommittedIn environment [] fact policy complete := by
  rintro ⟨earlier, attempt, later, heq, -⟩
  simp at heq

/-- The facts of a run are those it committed. -/
theorem get?_facts_runStore {id : FactId} :
    (runStore environment .empty attempts).facts.get? id = some fact ↔
      fact.fact.id = id ∧ ∃ policy complete,
        CommittedIn environment attempts fact policy complete := by
  induction attempts using List.reverseRecOn with
  | nil =>
      refine ⟨fun h => by simp [runStore, Database.empty] at h, ?_⟩
      rintro ⟨-, policy, complete, hcommitted⟩
      exact absurd hcommitted not_committedIn_nil
  | append_singleton attempts attempt ih =>
      rw [runStore_snoc, get?_facts_perform, ih, ← and_or_left]
      simp only [committedIn_snoc, exists_or]

/-- The intents of a run are those filed at its commits. -/
theorem get?_outbox_runStore {id : FactId} :
    ((runStore environment .empty attempts).outbox.get?
        (toLex (id, recipient))).isSome = true ↔
      ∃ fact policy complete,
        CommittedIn environment attempts fact policy complete ∧
        fact.fact.id = id ∧
        recipient ∈ filedRecipients fact.fact policy complete := by
  induction attempts using List.reverseRecOn with
  | nil =>
      refine ⟨fun h => by simp [runStore, Database.empty] at h, ?_⟩
      rintro ⟨fact, policy, complete, hcommitted, -⟩
      exact absurd hcommitted not_committedIn_nil
  | append_singleton attempts attempt ih =>
      rw [runStore_snoc, get?_outbox_perform, ih]
      simp only [committedIn_snoc, or_and_right, exists_or]

end Commits

/-! Confidentiality. -/

/-- A fact, as committed over a reduction, may go to an installation. -/
structure Entitled (fact : Fact) (policy : AuthorityPolicy)
    (complete : CompleteSnapshot) (recipient : InstallationId) : Prop where
  projected : ∃ domain, IndexProjects complete domain fact.id
  authorised : Authorised fact complete.authority recipient
  notAuthor : recipient ≠ fact.authorId
  notLocal : recipient ≠ policy.localInstallation

theorem mem_filedRecipients {fact : Fact} {policy : AuthorityPolicy} :
    recipient ∈ filedRecipients fact policy complete ↔
      Entitled fact policy complete recipient := by
  unfold filedRecipients
  split
  next hadmitted =>
    rw [← OrderedSet.mem_def, mem_outboxRecipients]
    exact ⟨fun ⟨hauthorised, hauthor, hlocal⟩ =>
        ⟨factIsAdmitted_iff.1 hadmitted, hauthorised, hauthor, hlocal⟩,
      fun h => ⟨h.authorised, h.notAuthor, h.notLocal⟩⟩
  next hrefused =>
    refine ⟨fun hmem => (by cases hmem), fun h => ?_⟩
    exact absurd (factIsAdmitted_iff.2 h.projected) hrefused

/-- The store holds an intent to deliver a fact to an installation. -/
def Filed (database : Database) (id : FactId) (recipient : InstallationId) :
    Prop :=
  (database.outbox.get? (toLex (id, recipient))).isSome = true

theorem filed_runStore {D : Type} [LinearOrder D]
    {environment : StoreEnvironment D}
    {id : FactId} :
    Filed (runStore environment .empty attempts) id recipient ↔
      ∃ fact policy complete,
        (runStore environment .empty attempts).facts.get? id = some fact ∧
        CommittedIn environment attempts fact policy complete ∧
        Entitled fact.fact policy complete recipient := by
  unfold Filed
  rw [get?_outbox_runStore]
  constructor
  · rintro ⟨fact, policy, complete, hcommitted, rfl, hrecipient⟩
    exact ⟨fact, policy, complete,
      get?_facts_runStore.2 ⟨rfl, policy, complete, hcommitted⟩, hcommitted,
      mem_filedRecipients.1 hrecipient⟩
  · rintro ⟨fact, policy, complete, hget, hcommitted, hentitled⟩
    exact ⟨fact, policy, complete, hcommitted, (get?_facts_runStore.1 hget).1,
      mem_filedRecipients.2 hentitled⟩

/-- Every intent of a run goes to an installation that the fact was authorised
for when it was committed. -/
theorem outbox_confidential {D : Type} [LinearOrder D]
    (environment : StoreEnvironment D) (attempts : List StoreAttempt)
    {id : FactId} {recipient : InstallationId}
    (h : Filed (runStore environment .empty attempts) id recipient) :
    ∃ fact policy complete,
      (runStore environment .empty attempts).facts.get? id = some fact ∧
      CommittedIn environment attempts fact policy complete ∧
      Entitled fact.fact policy complete recipient :=
  filed_runStore.1 h

/-! Ancestors of a delivered fact. -/

/-- A stored fact is above another by citations. -/
def Ancestor (database : Database) : FactId → FactId → Prop :=
  Relation.TransGen fun parent child => ∃ stored,
    database.facts.get? child = some stored ∧
      parent ∈ stored.fact.causal.parents

def isAccountAddressed : FactScope → Bool
  | .accountAddressed _ => true
  | _ => false

/-- A fact of an installation to be delivered, and an account fact of the same
installation above it. -/
structure DeliversBelow (database : Database) (home : InstallationId)
    (ancestor : VerifiedSemanticFact) (recipient : InstallationId) :
    Prop where
  stored : database.facts.get? ancestor.fact.id = some ancestor
  author : ancestor.fact.authorId = home
  account : isAccountAddressed ancestor.fact.scope = true
  below : ∃ id fact, database.facts.get? id = some fact ∧
    fact.fact.authorId = home ∧ Ancestor database ancestor.fact.id id ∧
    Filed database id recipient

/-- Whoever is sent a fact of an installation is sent the account facts of that
installation above it. -/
def DeliversAncestors (database : Database) (home : InstallationId) : Prop :=
  ∀ ancestor recipient, DeliversBelow database home ancestor recipient →
    Filed database ancestor.fact.id recipient

/-- Ancestors are delivered exactly when their recipients were entitled to them
at their own commits. -/
theorem delivers_ancestors_iff {D : Type} [LinearOrder D]
    (environment : StoreEnvironment D) (attempts : List StoreAttempt)
    (home : InstallationId) :
    DeliversAncestors (runStore environment .empty attempts) home ↔
      ∀ ancestor recipient, DeliversBelow
          (runStore environment .empty attempts) home ancestor recipient →
        ∃ policy complete,
          CommittedIn environment attempts ancestor policy complete ∧
          Entitled ancestor.fact policy complete recipient := by
  refine forall₃_congr fun ancestor recipient hbelow => ?_
  rw [filed_runStore]
  constructor
  · rintro ⟨fact, policy, complete, hget, hcommitted, hentitled⟩
    obtain rfl := Option.some.inj (hbelow.stored.symm.trans hget)
    exact ⟨policy, complete, hcommitted, hentitled⟩
  · rintro ⟨policy, complete, hcommitted, hentitled⟩
    exact ⟨ancestor, policy, complete, hbelow.stored, hcommitted, hentitled⟩

/-! A device that joins an account after a project was created. -/

/-- A grant of the account to the second installation. -/
def deviceGrant : Fact where
  id := .ofNat 21
  author := signer 1
  authoredAt := ⟨0⟩
  scope := .accountAddressed (.ofNat 20)
  causal := citing [(.accountCreator, 20)] []
  payload := .humanDeviceGranted (.ofNat 20) (.ofNat 21) (signer 2) none
    ⟨[], by simp⟩
  protocol_scope := rfl
  admissible := rfl

def deviceAcceptance : Fact where
  id := .ofNat 22
  author := signer 2
  authoredAt := ⟨0⟩
  scope := .accountAddressed (.ofNat 20)
  causal := citing [(.deviceGrant, 21)] []
  payload := .humanDeviceAccepted (.ofNat 20) (.ofNat 21) (signer 2)
  protocol_scope := rfl
  admissible := rfl

def ingestAttempt (fact : Fact) : StoreAttempt :=
  ⟨.ingest (signedEvent fact) samplePolicy, false⟩

/-- The project of an account is closed after a second device has joined. -/
def lateDevice : List StoreAttempt :=
  [declaration 1 1, declaration 2 2, accountCreation 20 1,
    projectCreation 30 20 (workingTree 1 'a') .opened, deviceGrant,
    deviceAcceptance, projectTransition 31 20 30 []
      (.projectClosingStarted (.ofNat 30))].map ingestAttempt

/-- What the run stores: intents for the device, and the two project facts. -/
theorem lateDevice_stores :
    ((runStore sampleEnvironment .empty lateDevice).outbox.keys.toList,
      (runStore sampleEnvironment .empty lateDevice).facts.get? (.ofNat 30),
      (runStore sampleEnvironment .empty lateDevice).facts.get? (.ofNat 31)) =
    ([toLex (.ofNat 21, .ofNat 2), toLex (.ofNat 31, .ofNat 2)],
      some (signedEvent (projectCreation 30 20 (workingTree 1 'a') .opened)),
      some (signedEvent (projectTransition 31 20 30 []
        (.projectClosingStarted (.ofNat 30))))) := by
  decide +kernel

theorem lateDevice_filed {id : FactId} :
    Filed (runStore sampleEnvironment .empty lateDevice) id recipient ↔
      (id, recipient) = (.ofNat 21, .ofNat 2) ∨
        (id, recipient) = (.ofNat 31, .ofNat 2) := by
  unfold Filed
  rw [← OrderedMap.mem_keys, OrderedSet.mem_def,
    (Prod.mk.inj lateDevice_stores).1]
  simp

/-- The grant of a device is sent to the device it names. -/
theorem outbox_confidential_lateDevice :
    ∃ fact policy complete,
      (runStore sampleEnvironment .empty lateDevice).facts.get? (.ofNat 21) =
        some fact ∧
      CommittedIn sampleEnvironment lateDevice fact policy complete ∧
      Entitled fact.fact policy complete (.ofNat 2) :=
  outbox_confidential sampleEnvironment lateDevice
    (lateDevice_filed.2 (.inl rfl))

/-- The device is sent the closing of a project whose creation it is not
sent. -/
theorem late_device_misses_creation :
    ¬ DeliversAncestors (runStore sampleEnvironment .empty lateDevice)
      (.ofNat 1) := by
  obtain ⟨-, hstored⟩ := Prod.mk.inj lateDevice_stores
  obtain ⟨hcreation, hclosing⟩ := Prod.mk.inj hstored
  intro hdelivers
  have hfiled := hdelivers
    (signedEvent (projectCreation 30 20 (workingTree 1 'a') .opened)) (.ofNat 2)
    { stored := hcreation
      author := rfl
      account := rfl
      below := ⟨.ofNat 31, _, hclosing, rfl,
        .single ⟨_, hclosing, by decide⟩, lateDevice_filed.2 (.inr rfl)⟩ }
  rcases lateDevice_filed.1 hfiled with heq | heq
  · exact absurd (Prod.mk.inj heq).1 (by decide)
  · exact absurd (Prod.mk.inj heq).1 (by decide)

theorem reached_runStore {D : Type} [LinearOrder D]
    (environment : StoreEnvironment D) (attempts : List StoreAttempt) :
    Reached environment (runStore environment .empty attempts) := by
  induction attempts using List.reverseRecOn with
  | nil => exact .empty
  | append_singleton attempts attempt ih =>
      rw [runStore_snoc]
      unfold perform
      split
      · exact ih
      · split
        · split
          next hstep => exact ih.ingested hstep
          next => exact ih
        · split
          next hstep => exact ih.mutated hstep
          next => exact ih

/-- A run that has stored a fact has a reduction. -/
theorem rebuilt_runStore {D : Type} [LinearOrder D]
    {environment : StoreEnvironment D}
    {id : FactId}
    (h : (runStore environment .empty attempts).facts.get? id = some fact) :
    ∃ complete, (runStore environment .empty attempts).rebuilt =
      some complete := by
  induction attempts using List.reverseRecOn with
  | nil => simp [runStore, Database.empty] at h
  | append_singleton attempts attempt ih =>
      rw [runStore_snoc] at h ⊢
      rcases @perform_commits D _ environment
          (runStore environment .empty attempts) attempt with
        ⟨hfacts, hrebuilt, -⟩ | ⟨added, policy, complete, hcommits⟩
      · rw [hfacts] at h
        rw [hrebuilt]
        exact ih h
      · exact ⟨complete, hcommits.rebuilt_eq⟩

/-- The facts of a store under their identities, without the event bytes. -/
def Database.corpus (database : Database) : OrderedMap FactId Fact :=
  database.facts.mapValues fun _ stored => stored.fact

theorem loadFacts_corpus {facts : List Fact}
    (h : loadFacts database = .ok facts) : facts = database.corpus.values := by
  unfold loadFacts at h
  split at h <;> cases h
  simp [Database.corpus, OrderedMap.values, OrderedMap.mapValues]

/-- What ingests, mutations and crashes leave: the reduction of the stored
facts, there as soon as a fact is and in which authority projects whatever
another domain does; rows that no later attempt changes and that answer each
further event of their identity; and the reduction of any other store with
these facts and policy. -/
theorem runs_coherent {D : Type} [LinearOrder D]
    (here there : StoreEnvironment D)
    (earlier later others : List StoreAttempt) :
    let before := runStore here .empty earlier
    let after := runStore here .empty (earlier ++ later)
    let other := runStore there .empty others
    (Materialized before ∧
      (∀ id stored, before.facts.get? id = some stored →
        ∃ complete, before.rebuilt = some complete) ∧
      ∀ complete, before.rebuilt = some complete →
        ∀ domain id, IndexProjects complete domain id →
          IndexProjects complete .authority id) ∧
    (∀ id stored, before.facts.get? id = some stored →
      after.facts.get? id = some stored ∧
      ∃ revision, ∀ fact policy, fact.fact.id = id →
        ingestInTransaction here after fact policy =
          if immutableRowEqual stored fact then
            .ok (after, .alreadyPresent revision)
          else .error .identityCollision) ∧
    (before.corpus = other.corpus → ∀ mine theirs,
      before.rebuilt = some mine → other.rebuilt = some theirs →
        mine.policy = theirs.policy → mine = theirs) := by
  intro before after other
  have hbuilt : Materialized before :=
    (reached_runStore here earlier).materialized
  refine ⟨⟨hbuilt, fun _ _ => rebuilt_runStore, ?_⟩, ?_, ?_⟩
  · intro complete hcomplete domain id hid
    obtain ⟨facts, -, hreduced⟩ := hbuilt complete hcomplete
    rw [indexProjects_iff (FactSet.fromFacts facts)] at hid ⊢
    exact authority_projects_of_stable (reduces_of_build hreduced).authority
      ((aligned_of_build hreduced).authorityStable domain) hid
  · intro id stored hstored
    have hkept : after.facts.get? id = some stored := by
      obtain ⟨rfl, policy, complete, front, attempt, back, rfl, hcommits⟩ :=
        get?_facts_runStore.1 hstored
      exact get?_facts_runStore.2 ⟨rfl, policy, complete, front, attempt,
        back ++ later, by simp, hcommits⟩
    have hledger : Ledger after := runStore_ledger Ledger.empty _
    obtain ⟨revision, hrevision⟩ := Option.isSome_iff_exists.1
      ((hledger.rows id).1 (by simp [hkept]))
    refine ⟨hkept, revision, ?_⟩
    rintro fact policy rfl
    simp only [ingestInTransaction, appendInTransaction, hrevision, hkept]
    split <;> rfl
  · intro hsame mine theirs hmine htheirs hpolicy
    obtain ⟨left, hleft, hreduced⟩ := hbuilt mine hmine
    obtain ⟨right, hright, hother⟩ :=
      (reached_runStore there others).materialized theirs htheirs
    rw [loadFacts_corpus hleft, hsame, ← loadFacts_corpus hright, hpolicy,
      hother] at hreduced
    exact (Except.ok.inj hreduced).symm

end Hq
