/-
What an admitted authority fact has passed: one lemma for each validator.
-/
import Hq.AuthorityRules

namespace Hq

section Specs

variable {policy : AuthorityPolicy} {fact : Fact} {context : ReductionContext}

theorem isSignerRoot_iff {installationId : InstallationId} {candidate : Fact} :
    isSignerRoot fact installationId candidate = true ↔
      ∃ encryptionKey label, candidate.payload = .installationDeclared
        installationId fact.author.signingKey encryptionKey label := by
  unfold isSignerRoot
  split
  next h =>
    simp only [h, Bool.and_eq_true, decide_eq_true_eq,
      SemanticPayload.installationDeclared.injEq]
    aesop
  next h => simpa using fun encryptionKey label heq => h _ _ _ _ heq

/-- A local fact cites the declaration of its signer. -/
theorem validateLocalFact_ok :
    validateLocalFact fact context = .ok () ↔
      fact.scope = .installationPrivate fact.authorId ∧
      ∃ id root, fact.causal.authority .localInstallation = some id ∧
        context.facts.get? id = some root ∧
        isSignerRoot fact fact.authorId root = true := by
  unfold validateLocalFact
  split
  next installationId hscope =>
    simp only [require_bind_eq_ok, requiredAuthority_bind_eq_ok,
      requireCited_eq_ok, decide_eq_true_eq, hscope,
      FactScope.installationPrivate.injEq]
    constructor
    · rintro ⟨rfl, id, hid, root, hget, hroot⟩
      exact ⟨rfl, id, root, hid, hget, hroot⟩
    · rintro ⟨rfl, id, root, hid, hget, hroot⟩
      exact ⟨rfl, id, hid, root, hget, hroot⟩
  next hscope => simpa using fun h => absurd h (hscope _)

theorem validateInstallationRoot_ok {installationId : InstallationId} :
    validateInstallationRoot fact installationId context = .ok () ↔
      fact.causal.parents = ∅ ∧
        countFacts context (declaresInstallation installationId) ≤ 1 := by
  simp [validateInstallationRoot]

theorem validateMailboxRoot_ok {mailboxId : MailboxId} {kind : MailboxKind} :
    validateMailboxRoot policy fact mailboxId kind context = .ok () ↔
      validateLocalFact fact context = .ok () ∧
      ¬ (kind = .human ∧ fact.authorId = policy.localInstallation ∧
        mailboxId ≠ policy.localHumanMailbox) ∧
      countFacts context (fun candidate =>
        mailboxSubject candidate = some ⟨fact.authorId, mailboxId⟩) ≤ 1 ∧
      (createsHumanMailbox fact = true →
        fact.authorId ≠ policy.localInstallation →
        countFacts context (fun candidate =>
          candidate.authorId = fact.authorId &&
            createsHumanMailbox candidate) ≤ 1) := by
  simp only [validateMailboxRoot, unit_bind_eq_ok, require_eq_ok,
    Bool.not_eq_true', Bool.or_eq_false_iff, decide_eq_false_iff_not, not_lt,
    Bool.and_eq_false_imp, decide_eq_true_eq, Bool.and_eq_true]
  tauto

theorem validateMailboxGrant_ok {grantId : GrantId} {mailbox : MailboxAddress}
    {grantee : InstallationAddress} :
    validateMailboxGrant fact grantId mailbox grantee context = .ok () ↔
      (fact.scope = .peerAddressed mailbox ∧
        fact.authorId = mailbox.installationId ∧
        grantee.installationId ≠ mailbox.installationId) ∧
      (∃ id owner, fact.causal.authority .mailboxOwner = some id ∧
        context.facts.get? id = some owner ∧
        mailboxSubject owner = some mailbox ∧ owner.author = fact.author) ∧
      countFacts context (grantsMailbox grantId) ≤ 1 ∧
      coversRevokes context fact
        (mailboxLineageRevokes context mailbox grantee.installationId) = true := by
  simp only [validateMailboxGrant, requiredAuthority_bind_eq_ok,
    unit_bind_eq_ok, requireCited_eq_ok, require_eq_ok, Bool.and_eq_true,
    decide_eq_true_eq]
  constructor
  · rintro ⟨hscope, id, hid, ⟨owner, hget, howner⟩, hcount, hcovers⟩
    exact ⟨⟨hscope.1.1, hscope.1.2, hscope.2⟩, ⟨id, owner, hid, hget, howner⟩,
      hcount, hcovers⟩
  · rintro ⟨hscope, ⟨id, owner, hid, hget, howner⟩, hcount, hcovers⟩
    exact ⟨⟨⟨hscope.1, hscope.2.1⟩, hscope.2.2⟩, id, hid,
      ⟨owner, hget, howner⟩, hcount, hcovers⟩

theorem validateMailboxRevoke_ok {grantId : GrantId}
    {mailbox : MailboxAddress} {granteeId : InstallationId} :
    validateMailboxRevoke fact grantId mailbox granteeId context = .ok () ↔
      (fact.scope = .peerAddressed mailbox ∧
        fact.authorId = mailbox.installationId) ∧
      ∃ id grant, fact.causal.authority .mailboxGrant = some id ∧
        context.facts.get? id = some grant ∧
        isRevokedGrant fact grantId mailbox granteeId grant = true := by
  simp only [validateMailboxRevoke, require_bind_eq_ok,
    requiredAuthority_bind_eq_ok, requireCited_eq_ok, Bool.and_eq_true,
    decide_eq_true_eq]
  refine and_congr_right fun _ => exists_congr fun id => ?_
  rw [← exists_and_left]

theorem validateAccountRoot_ok {accountId : AccountId}
    {creator : InstallationAddress} :
    validateAccountRoot fact accountId creator context = .ok () ↔
      validateLocalFact fact context = .ok () ∧ creator = fact.author ∧
        countFacts context (fun candidate =>
          accountRootSubject candidate = some accountId) ≤ 1 := by
  simp only [validateAccountRoot, unit_bind_eq_ok, require_eq_ok,
    decide_eq_true_eq]

theorem validateDeviceGrant_ok {accountId : AccountId} {grantId : GrantId}
    {device : InstallationAddress} :
    validateDeviceGrant fact accountId grantId device context = .ok () ↔
      fact.scope = .accountAddressed accountId ∧
      (∃ id root, fact.causal.authority .accountCreator = some id ∧
        context.facts.get? id = some root ∧
        accountCreator accountId root = some fact.author) ∧
      device.installationId ≠ fact.authorId ∧
      countFacts context (grantsDevice grantId) ≤ 1 ∧
      coversRevokes context fact
        (accountRevokes context accountId device.installationId) = true := by
  simp only [validateDeviceGrant, requiredAuthority_bind_eq_ok,
    unit_bind_eq_ok, requireCited_eq_ok, require_eq_ok, Bool.and_eq_true,
    decide_eq_true_eq]
  constructor
  · rintro ⟨hscope, id, hid, ⟨root, hget, -⟩, ⟨hcreator, hdevice⟩, hrest⟩
    exact ⟨hscope, ⟨id, root, hid, hget, by simpa [hget] using hcreator⟩,
      hdevice, hrest⟩
  · rintro ⟨hscope, ⟨id, root, hid, hget, hcreator⟩, hdevice, hrest⟩
    exact ⟨hscope, id, hid, ⟨root, hget, by simp [hcreator]⟩,
      ⟨by simp [hget, hcreator], hdevice⟩, hrest⟩

theorem validateDeviceAcceptance_ok {accountId : AccountId}
    {grantId : GrantId} {device : InstallationAddress} :
    validateDeviceAcceptance fact accountId grantId device context = .ok () ↔
      (fact.scope = .accountAddressed accountId ∧ fact.author = device) ∧
      ∃ id grant, fact.causal.authority .deviceGrant = some id ∧
        context.facts.get? id = some grant ∧
        isDeviceGrant accountId grantId (fun expected => expected = device)
          grant = true ∧
        ∀ revoke ∈ context.facts.facts,
          revokesDevice accountId device.installationId revoke = true →
          reachesWithCandidate context revoke.id fact.id fact.id = true →
          context.usablyReaches revoke.id id = true := by
  simp only [validateDeviceAcceptance, requiredAuthority_bind_eq_ok,
    unit_bind_eq_ok, requireCited_eq_ok, require_eq_ok, Bool.and_eq_true,
    decide_eq_true_eq, accountRevokes_eq,
    Bool.not_eq_true', List.any_eq_false, List.mem_filter, not_and,
    Bool.not_eq_false, and_imp]
  refine and_congr_right fun _ => exists_congr fun id => ?_
  constructor
  · rintro ⟨hid, ⟨grant, hget, hgrant⟩, hrevokes⟩
    exact ⟨grant, hid, hget, hgrant, hrevokes⟩
  · rintro ⟨grant, hid, hget, hgrant, hrevokes⟩
    exact ⟨hid, ⟨grant, hget, hgrant⟩, hrevokes⟩

theorem validateDeviceRevoke_ok {accountId : AccountId} {grantId : GrantId}
    {deviceId : InstallationId} :
    validateDeviceRevoke fact accountId grantId deviceId context = .ok () ↔
      fact.scope = .accountAddressed accountId ∧
      (∃ id root, fact.causal.authority .accountCreator = some id ∧
        context.facts.get? id = some root ∧
        accountCreator accountId root = some fact.author) ∧
      ∃ id grant, fact.causal.authority .deviceGrant = some id ∧
        context.facts.get? id = some grant ∧
        isDeviceGrant accountId grantId
          (fun device => device.installationId = deviceId) grant = true := by
  simp only [validateDeviceRevoke, require_bind_eq_ok,
    requiredAuthority_bind_eq_ok, require_eq_ok, Bool.and_eq_true,
    decide_eq_true_eq, Option.any_eq_true]
  refine and_congr_right fun _ => ?_
  constructor
  · rintro ⟨creator, hcreator, grant, hgrant, ⟨root, hroot, hauthor⟩,
      ⟨granted, hgranted, hmatch⟩⟩
    exact ⟨⟨creator, root, hcreator, hroot, hauthor⟩,
      grant, granted, hgrant, hgranted, hmatch⟩
  · rintro ⟨⟨creator, root, hcreator, hroot, hauthor⟩,
      grant, granted, hgrant, hgranted, hmatch⟩
    exact ⟨creator, hcreator, grant, hgrant, ⟨root, hroot, hauthor⟩,
      ⟨granted, hgranted, hmatch⟩⟩

theorem peerGrantId_eq_some {target : MailboxAddress} {candidate : Fact}
    {grantId : GrantId} :
    peerGrantId fact target candidate = some grantId ↔
      candidate.payload = .mailboxAccessGranted grantId target fact.author := by
  unfold peerGrantId
  split
  next h =>
    simp only [h, SemanticPayload.mailboxAccessGranted.injEq]
    split <;> simp_all
  next h => simpa using fun heq => h _ _ _ heq

/-- An admitted peer action is made under a grant to its author, and stands
above every revoke of that grant. -/
theorem validatePeerAction_ok {target : MailboxAddress} :
    validatePeerAction fact target context = .ok () ↔
      ∃ id grant grantId, fact.causal.authority .mailboxGrant = some id ∧
        context.facts.get? id = some grant ∧
        grant.payload = .mailboxAccessGranted grantId target fact.author ∧
        ∀ revoke ∈ context.facts.facts, revokesGrant grantId revoke = true →
          reachesWithCandidate context fact.id revoke.id fact.id = true := by
  unfold validatePeerAction
  rw [requiredAuthority_bind_eq_ok]
  refine exists_congr fun id => ?_
  constructor
  · rintro ⟨hid, hcheck⟩
    split at hcheck
    · cases hcheck
    next grant hget =>
      split at hcheck
      · cases hcheck
      next grantId hpeer =>
        rw [unit_bind_eq_ok, require_eq_ok] at hcheck
        refine ⟨grant, grantId, hid, hget, peerGrantId_eq_some.1 hpeer, ?_⟩
        simpa [mailboxRevokes_eq] using hcheck.2
  · rintro ⟨grant, grantId, hid, hget, hpayload, hrevokes⟩
    refine ⟨hid, ?_⟩
    simp only [hget, peerGrantId_eq_some.2 hpayload]
    rw [unit_bind_eq_ok, require_eq_ok]
    refine ⟨requireCited_eq_ok.2 ⟨grant, hget, ?_⟩, ?_⟩
    · simp [isGrantForAction, hpayload]
    · simpa [mailboxRevokes_eq] using hrevokes

/-- An admitted account action is the creator's, or a device's under an
acceptance, above every revoke that does not stand above the acceptance. -/
theorem validateAccountAction_ok {accountId : AccountId} :
    validateAccountAction fact accountId context = .ok () ↔
      ∃ id membership, fact.causal.authority .accountMembership = some id ∧
        context.facts.get? id = some membership ∧
        ((∃ label, membership.payload =
            .humanAccountCreated accountId fact.author label) ∨
          ∃ grantId, membership.payload =
            .humanDeviceAccepted accountId grantId fact.author ∧
            ∀ revoke ∈ context.facts.facts,
              revokesDevice accountId fact.authorId revoke = true →
              reachesWithCandidate context fact.id revoke.id fact.id = true ∨
                context.usablyReaches revoke.id id = true) := by
  unfold validateAccountAction
  rw [requiredAuthority_bind_eq_ok]
  refine exists_congr fun id => ?_
  rw [requireCited_eq_ok, ← exists_and_left]
  refine exists_congr fun membership => and_congr_right fun _ =>
    and_congr_right fun _ => ?_
  unfold membershipAuthorises
  split
  next hpayload =>
    simp only [hpayload, Bool.and_eq_true, decide_eq_true_eq,
      SemanticPayload.humanAccountCreated.injEq, reduceCtorEq, false_and,
      exists_false, or_false]
    constructor
    · rintro ⟨rfl, rfl⟩
      exact ⟨_, rfl, rfl, rfl⟩
    · rintro ⟨_, rfl, rfl, rfl⟩
      exact ⟨rfl, rfl⟩
  next expected grantId device hpayload =>
    simp only [hpayload, Bool.and_eq_true, decide_eq_true_eq,
      SemanticPayload.humanDeviceAccepted.injEq, reduceCtorEq,
      exists_false, false_or, accountActionSurvivesRevokes, accountRevokes_eq,
      List.all_eq_true, List.mem_filter, Bool.or_eq_true, and_imp]
    constructor
    · rintro ⟨⟨rfl, rfl⟩, hsurvives⟩
      exact ⟨grantId, ⟨rfl, rfl, rfl⟩, hsurvives⟩
    · rintro ⟨_, ⟨rfl, -, rfl⟩, hsurvives⟩
      exact ⟨⟨rfl, rfl⟩, hsurvives⟩
  next hcreated haccepted =>
    simp only [Bool.false_eq_true, false_iff]
    rintro (⟨label, h⟩ | ⟨grantId, h, -⟩)
    · exact hcreated _ _ _ h
    · exact haccepted _ _ _ h

theorem classifyFact_projected :
    classifyFact policy fact context = .projected ↔
      validateFact policy fact context = .ok () := by
  unfold classifyFact
  split <;> simp_all

end Specs

end Hq
