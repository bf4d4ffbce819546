/-
Authority classification: installation roots, mailboxes, peer grants, human
accounts and device memberships.  Every validator checks one hop of a chain
against the complete fact set and the current snapshot of decisions.
-/
import Hq.Fallible
import Hq.Reduce

namespace Hq

/-- Installation-local inputs of authority reduction. -/
structure AuthorityPolicy where
  localInstallation : InstallationId
  localHumanMailbox : MailboxId
deriving DecidableEq

inductive AuthorityReason where
  | scopeMismatch
  | signerMismatch
  | subjectMismatch
  | missingAuthority (role : AuthorityRole)
  | authorityKindMismatch (role : AuthorityRole)
  | rootHasParents
  | uniqueRootConflict
  | concurrentRegisterConflict
  | incompleteRevocationFrontier
  | revokedMailboxGrant
  | inactiveAccountMembership
deriving DecidableEq

instance : FieldCoded AuthorityReason where
  field
    | .scopeMismatch => [0]
    | .signerMismatch => [1]
    | .subjectMismatch => [2]
    | .missingAuthority role => [3, role.rank]
    | .authorityKindMismatch role => [4, role.rank]
    | .rootHasParents => [5]
    | .uniqueRootConflict => [6]
    | .concurrentRegisterConflict => [7]
    | .incompleteRevocationFrontier => [8]
    | .revokedMailboxGrant => [9]
    | .inactiveAccountMembership => [10]
  field_injective := by
    intro left right h
    cases left <;> cases right <;>
      simp_all [AuthorityRole.rank_injective.eq_iff]

def requiredAuthority (fact : Fact) (role : AuthorityRole) :
    Except AuthorityReason FactId :=
  match fact.causal.authority role with
  | some id => .ok id
  | none => .error (.missingAuthority role)

/-- The cited fact must be retained and pass a test. -/
def requireCited (context : ReductionContext) (cited : FactId)
    (test : Fact → Bool) (mismatch missing : AuthorityReason) :
    Except AuthorityReason Unit :=
  match context.facts.get? cited with
  | none => .error missing
  | some candidate => require (test candidate) mismatch

/-! Subjects of root facts and the scans over retained facts. -/

def mailboxSubject (fact : Fact) : Option MailboxAddress :=
  match fact.payload with
  | .mailboxCreated mailboxId _ _ => some ⟨fact.authorId, mailboxId⟩
  | _ => none

def accountRootSubject (fact : Fact) : Option AccountId :=
  match fact.payload with
  | .humanAccountCreated accountId _ _ => some accountId
  | _ => none

def declaresInstallation (installationId : InstallationId)
    (candidate : Fact) : Bool :=
  match candidate.payload with
  | .installationDeclared candidateId _ _ _ => candidateId = installationId
  | _ => false

def createsHumanMailbox (candidate : Fact) : Bool :=
  match candidate.payload with
  | .mailboxCreated _ .human _ => true
  | _ => false

def grantsMailbox (grantId : GrantId) (candidate : Fact) : Bool :=
  match candidate.payload with
  | .mailboxAccessGranted candidateId _ _ => candidateId = grantId
  | _ => false

def grantsDevice (grantId : GrantId) (candidate : Fact) : Bool :=
  match candidate.payload with
  | .humanDeviceGranted _ candidateId _ _ _ => candidateId = grantId
  | _ => false

/-- How many retained facts pass a test. -/
def countFacts (context : ReductionContext) (test : Fact → Bool) : Nat :=
  (context.facts.facts.filter test).length

def mailboxRevokes (context : ReductionContext) (grantId : GrantId) :
    List Fact :=
  context.facts.facts.filter fun candidate =>
    match candidate.payload with
    | .mailboxAccessRevoked candidateId _ _ => candidateId = grantId
    | _ => false

def mailboxLineageRevokes (context : ReductionContext)
    (mailbox : MailboxAddress) (grantee : InstallationId) : List Fact :=
  context.facts.facts.filter fun candidate =>
    match candidate.payload with
    | .mailboxAccessRevoked _ candidateMailbox granteeId =>
        candidateMailbox = mailbox && granteeId = grantee
    | _ => false

def accountRevokes (context : ReductionContext) (accountId : AccountId)
    (deviceId : InstallationId) : List Fact :=
  context.facts.facts.filter fun candidate =>
    match candidate.payload with
    | .humanDeviceRevoked candidateAccount _ candidateDevice =>
        candidateAccount = accountId && candidateDevice = deviceId
    | _ => false

/-- Usable reachability that also admits one candidate fact. -/
def reachesWithCandidate (context : ReductionContext)
    (ancestor descendant candidate : FactId) : Bool :=
  let usable := fun id => id = candidate || context.isProjected id
  if !usable ancestor || !usable descendant then false
  else if ancestor = descendant then true
  else context.graph.reachesThrough usable ancestor descendant

def activeAcceptance (context : ReductionContext) (acceptance : FactId)
    (accountId : AccountId) (deviceId : InstallationId) : Bool :=
  (accountRevokes context accountId deviceId).all fun revoke =>
    context.usablyReaches revoke.id acceptance

def accountActionSurvivesRevokes (context : ReductionContext)
    (action acceptance : FactId) (accountId : AccountId)
    (deviceId : InstallationId) : Bool :=
  (accountRevokes context accountId deviceId).all fun revoke =>
    reachesWithCandidate context action revoke.id action ||
      context.usablyReaches revoke.id acceptance

/-- A revoke neither above nor below a grant leaves its frontier incomplete. -/
def coversRevokes (context : ReductionContext) (fact : Fact)
    (revokes : List Fact) : Bool :=
  revokes.all fun revoke =>
    context.graph.structurallyReaches revoke.id fact.id ||
      context.graph.structurallyReaches fact.id revoke.id

/-! The validators, one for each payload family. -/

def validateInstallationRoot (fact : Fact) (installationId : InstallationId)
    (context : ReductionContext) : Except AuthorityReason Unit := do
  require fact.causal.parents.isEmpty .rootHasParents
  require (countFacts context (declaresInstallation installationId) ≤ 1)
    .uniqueRootConflict

/-- The declaration of an installation under the signing key of a fact. -/
def isSignerRoot (fact : Fact) (installationId : InstallationId)
    (candidate : Fact) : Bool :=
  match candidate.payload with
  | .installationDeclared rootId signingKey _ _ =>
      rootId = installationId && signingKey = fact.author.signingKey
  | _ => false

def validateLocalFact (fact : Fact) (context : ReductionContext) :
    Except AuthorityReason Unit :=
  match fact.scope with
  | .installationPrivate installationId => do
      require (fact.authorId = installationId) .signerMismatch
      let authority ← requiredAuthority fact .localInstallation
      requireCited context authority (isSignerRoot fact installationId)
        (.authorityKindMismatch .localInstallation)
        (.missingAuthority .localInstallation)
  | _ => .error .scopeMismatch

def validateMailboxRoot (policy : AuthorityPolicy) (fact : Fact)
    (mailboxId : MailboxId) (kind : MailboxKind) (context : ReductionContext) :
    Except AuthorityReason Unit := do
  validateLocalFact fact context
  require (!(kind = .human && fact.authorId = policy.localInstallation &&
    mailboxId ≠ policy.localHumanMailbox)) .subjectMismatch
  let conflicts := countFacts context fun candidate =>
    mailboxSubject candidate = some ⟨fact.authorId, mailboxId⟩
  let humanConflicts := createsHumanMailbox fact &&
    fact.authorId ≠ policy.localInstallation &&
    1 < countFacts context fun candidate =>
      candidate.authorId = fact.authorId && createsHumanMailbox candidate
  require (!(1 < conflicts || humanConflicts)) .uniqueRootConflict

def validateMailboxBinding (fact : Fact) (mailboxId : MailboxId)
    (context : ReductionContext) : Except AuthorityReason Unit := do
  validateLocalFact fact context
  require (fact.causal.parents.toList.any fun parent =>
    (context.facts.get? parent).any fun candidate =>
      mailboxSubject candidate = some ⟨fact.authorId, mailboxId⟩)
    .subjectMismatch

def validatePeerRoute (fact : Fact) (peerId : InstallationId)
    (context : ReductionContext) : Except AuthorityReason Unit := do
  validateLocalFact fact context
  require (peerId ≠ fact.authorId) .subjectMismatch

def validateMailboxGrant (fact : Fact) (grantId : GrantId)
    (mailbox : MailboxAddress) (grantee : InstallationAddress)
    (context : ReductionContext) : Except AuthorityReason Unit := do
  require (fact.scope = .peerAddressed mailbox &&
    fact.authorId = mailbox.installationId &&
    grantee.installationId ≠ mailbox.installationId) .scopeMismatch
  let owner ← requiredAuthority fact .mailboxOwner
  requireCited context owner
    (fun candidate => mailboxSubject candidate = some mailbox &&
      candidate.author = fact.author)
    (.authorityKindMismatch .mailboxOwner) (.missingAuthority .mailboxOwner)
  require (countFacts context (grantsMailbox grantId) ≤ 1) .uniqueRootConflict
  require (coversRevokes context fact
    (mailboxLineageRevokes context mailbox grantee.installationId))
    .incompleteRevocationFrontier

/-- The grant a mailbox revoke withdraws. -/
def isRevokedGrant (fact : Fact) (grantId : GrantId) (mailbox : MailboxAddress)
    (granteeId : InstallationId) (candidate : Fact) : Bool :=
  candidate.author = fact.author &&
    match candidate.payload with
    | .mailboxAccessGranted expected expectedMailbox grantee =>
        expected = grantId && expectedMailbox = mailbox &&
          grantee.installationId = granteeId
    | _ => false

def validateMailboxRevoke (fact : Fact) (grantId : GrantId)
    (mailbox : MailboxAddress) (granteeId : InstallationId)
    (context : ReductionContext) : Except AuthorityReason Unit := do
  require (fact.scope = .peerAddressed mailbox &&
    fact.authorId = mailbox.installationId) .scopeMismatch
  let grant ← requiredAuthority fact .mailboxGrant
  requireCited context grant (isRevokedGrant fact grantId mailbox granteeId)
    .subjectMismatch (.missingAuthority .mailboxGrant)

/-- A grant of one identity for one mailbox. -/
def isGrantForAction (grantId : GrantId) (target : MailboxAddress)
    (candidate : Fact) : Bool :=
  match candidate.payload with
  | .mailboxAccessGranted expected mailbox _ =>
      expected = grantId && mailbox = target
  | _ => false

def validateGrantForAction (grant : FactId) (grantId : GrantId)
    (target : MailboxAddress) (context : ReductionContext) :
    Except AuthorityReason Unit :=
  requireCited context grant (isGrantForAction grantId target)
    .subjectMismatch (.missingAuthority .mailboxGrant)

def validateMailboxObservation (fact : Fact) (grantId : GrantId)
    (actionId : FactId) (context : ReductionContext) :
    Except AuthorityReason Unit :=
  match fact.scope with
  | .peerAddressed target => do
      require (fact.authorId = target.installationId &&
        actionId ∈ fact.causal.parents) .subjectMismatch
      let grant ← requiredAuthority fact .mailboxGrant
      validateGrantForAction grant grantId target context
      require (!(context.facts.get? grant).any fun grantFact =>
        grantFact.author ≠ fact.author) .signerMismatch
      requireCited context actionId
        (fun action => action.causal.authority .mailboxGrant = some grant &&
          action.scope = .peerAddressed target)
        .subjectMismatch .subjectMismatch
  | _ => .error .scopeMismatch

def validateAccountRoot (fact : Fact) (accountId : AccountId)
    (creator : InstallationAddress) (context : ReductionContext) :
    Except AuthorityReason Unit := do
  validateLocalFact fact context
  require (creator = fact.author) .subjectMismatch
  require (countFacts context (fun candidate =>
    accountRootSubject candidate = some accountId) ≤ 1) .uniqueRootConflict

/-- The creator named by the root of an account. -/
def accountCreator (accountId : AccountId) (candidate : Fact) :
    Option InstallationAddress :=
  match candidate.payload with
  | .humanAccountCreated expected creator _ =>
      if expected = accountId then some creator else none
  | _ => none

def validateDeviceGrant (fact : Fact) (accountId : AccountId)
    (grantId : GrantId) (device : InstallationAddress)
    (context : ReductionContext) : Except AuthorityReason Unit := do
  require (fact.scope = .accountAddressed accountId) .scopeMismatch
  let creator ← requiredAuthority fact .accountCreator
  requireCited context creator
    (fun candidate => (accountCreator accountId candidate).isSome)
    (.authorityKindMismatch .accountCreator) (.missingAuthority .accountCreator)
  let creatorAddress :=
    (context.facts.get? creator).bind (accountCreator accountId)
  require (creatorAddress = some fact.author &&
    device.installationId ≠ fact.authorId) .signerMismatch
  require (countFacts context (grantsDevice grantId) ≤ 1) .uniqueRootConflict
  require (coversRevokes context fact
    (accountRevokes context accountId device.installationId))
    .incompleteRevocationFrontier

/-- The grant of a device to an account. -/
def isDeviceGrant (accountId : AccountId) (grantId : GrantId)
    (test : InstallationAddress → Bool) (candidate : Fact) : Bool :=
  match candidate.payload with
  | .humanDeviceGranted expectedAccount expectedGrant device _ _ =>
      expectedAccount = accountId && expectedGrant = grantId && test device
  | _ => false

def validateDeviceAcceptance (fact : Fact) (accountId : AccountId)
    (grantId : GrantId) (device : InstallationAddress)
    (context : ReductionContext) : Except AuthorityReason Unit := do
  require (fact.scope = .accountAddressed accountId && fact.author = device)
    .signerMismatch
  let grant ← requiredAuthority fact .deviceGrant
  requireCited context grant
    (isDeviceGrant accountId grantId fun expected => expected = device)
    .subjectMismatch (.missingAuthority .deviceGrant)
  require (!(accountRevokes context accountId device.installationId).any
    fun revoke => reachesWithCandidate context revoke.id fact.id fact.id &&
      !context.usablyReaches revoke.id grant) .inactiveAccountMembership

def validateDeviceRevoke (fact : Fact) (accountId : AccountId)
    (grantId : GrantId) (deviceId : InstallationId)
    (context : ReductionContext) : Except AuthorityReason Unit := do
  require (fact.scope = .accountAddressed accountId) .scopeMismatch
  let creator ← requiredAuthority fact .accountCreator
  let grant ← requiredAuthority fact .deviceGrant
  let creatorMatches := (context.facts.get? creator).any fun candidate =>
    accountCreator accountId candidate = some fact.author
  let grantMatches := (context.facts.get? grant).any
    (isDeviceGrant accountId grantId fun device =>
      device.installationId = deviceId)
  require (creatorMatches && grantMatches) .subjectMismatch

/-- The grant identity of a peer grant made to the author of an action. -/
def peerGrantId (fact : Fact) (target : MailboxAddress) (candidate : Fact) :
    Option GrantId :=
  match candidate.payload with
  | .mailboxAccessGranted grantId mailbox grantee =>
      if mailbox = target && grantee = fact.author then some grantId else none
  | _ => none

def validatePeerAction (fact : Fact) (target : MailboxAddress)
    (context : ReductionContext) : Except AuthorityReason Unit := do
  let grant ← requiredAuthority fact .mailboxGrant
  match context.facts.get? grant with
  | none => .error (.missingAuthority .mailboxGrant)
  | some candidate =>
      match peerGrantId fact target candidate with
      | none => .error .subjectMismatch
      | some grantId => do
          validateGrantForAction grant grantId target context
          require (!(mailboxRevokes context grantId).any fun revoke =>
            !reachesWithCandidate context fact.id revoke.id fact.id)
            .revokedMailboxGrant

/-- The cited membership authorises the author of an account action. -/
def membershipAuthorises (fact : Fact) (accountId : AccountId)
    (authority : FactId) (context : ReductionContext) (candidate : Fact) :
    Bool :=
  match candidate.payload with
  | .humanAccountCreated expected creator _ =>
      expected = accountId && creator = fact.author
  | .humanDeviceAccepted expected _ device =>
      expected = accountId && device = fact.author &&
        accountActionSurvivesRevokes context fact.id authority accountId
          device.installationId
  | _ => false

def validateAccountAction (fact : Fact) (accountId : AccountId)
    (context : ReductionContext) : Except AuthorityReason Unit := do
  let authority ← requiredAuthority fact .accountMembership
  requireCited context authority
    (membershipAuthorises fact accountId authority context)
    .inactiveAccountMembership (.missingAuthority .accountMembership)

def validateScopedAction (fact : Fact) (context : ReductionContext) :
    Except AuthorityReason Unit :=
  match fact.scope with
  | .installationPrivate _ => validateLocalFact fact context
  | .peerAddressed target => validatePeerAction fact target context
  | .accountAddressed accountId | .remoteControl accountId _ =>
      validateAccountAction fact accountId context

/-- The validator of a payload family; families without one of their own are
actions judged by their scope. -/
def validateFact (policy : AuthorityPolicy) (fact : Fact)
    (context : ReductionContext) : Except AuthorityReason Unit :=
  match fact.payload with
  | .installationDeclared installationId _ _ _ =>
      validateInstallationRoot fact installationId context
  | .mailboxCreated mailboxId kind _ =>
      validateMailboxRoot policy fact mailboxId kind context
  | .mailboxSessionBound mailboxId _ _
  | .mailboxContextRecorded mailboxId _ =>
      validateMailboxBinding fact mailboxId context
  | .peerRouteSet peer _ _ _ =>
      validatePeerRoute fact peer.installationId context
  | .peerRouteBlocked peerId _ => validatePeerRoute fact peerId context
  | .mailboxAccessGranted grantId mailbox grantee =>
      validateMailboxGrant fact grantId mailbox grantee context
  | .mailboxAccessRevoked grantId mailbox granteeId =>
      validateMailboxRevoke fact grantId mailbox granteeId context
  | .mailboxActionObserved grantId actionId =>
      validateMailboxObservation fact grantId actionId context
  | .humanAccountCreated accountId creator _ =>
      validateAccountRoot fact accountId creator context
  | .humanDeviceGranted accountId grantId device _ _ =>
      validateDeviceGrant fact accountId grantId device context
  | .humanDeviceAccepted accountId grantId device =>
      validateDeviceAcceptance fact accountId grantId device context
  | .humanDeviceRevoked accountId grantId deviceId =>
      validateDeviceRevoke fact accountId grantId deviceId context
  | .humanAccountSelected accountId => do
      validateLocalFact fact context
      validateAccountAction fact accountId context
  | _ => validateScopedAction fact context

/-- Two roots that compete for one unique subject. -/
def competesForRoot (fact candidate : Fact) : Bool :=
  match fact.payload, candidate.payload with
  | .installationDeclared installationId _ _ _,
    .installationDeclared candidateId _ _ _ => installationId = candidateId
  | .mailboxCreated mailboxId kind _, .mailboxCreated candidateId candidateKind _ =>
      (fact.authorId = candidate.authorId && mailboxId = candidateId) ||
        (kind = .human && candidateKind = .human &&
          fact.authorId = candidate.authorId)
  | .mailboxAccessGranted grantId _ _, .mailboxAccessGranted candidateId _ _ =>
      grantId = candidateId
  | .humanDeviceGranted _ grantId _ _ _,
    .humanDeviceGranted _ candidateId _ _ _ => grantId = candidateId
  | .humanAccountCreated accountId _ _, .humanAccountCreated candidateId _ _ =>
      accountId = candidateId
  | _, _ => false

def uniqueConflictParticipants (fact : Fact) (context : ReductionContext) :
    OrderedSet FactId :=
  OrderedSet.ofList
    ((context.facts.facts.filter (competesForRoot fact)).map Fact.id)

def failedRole : AuthorityReason → OrderedSet AuthorityRole
  | .missingAuthority role | .authorityKindMismatch role =>
      OrderedSet.ofList [role]
  | .revokedMailboxGrant => OrderedSet.ofList [.mailboxGrant]
  | .inactiveAccountMembership => OrderedSet.ofList [.accountMembership]
  | _ => ∅

def classifyFact (policy : AuthorityPolicy) (fact : Fact)
    (context : ReductionContext) : DomainDecision AuthorityReason :=
  match validateFact policy fact context with
  | .ok () => .projected
  | .error .uniqueRootConflict =>
      .conflicted .uniqueRootConflict (uniqueConflictParticipants fact context)
  | .error .scopeMismatch => .invalid .scopeMismatch
  | .error .signerMismatch => .invalid .signerMismatch
  | .error .subjectMismatch => .invalid .subjectMismatch
  | .error .rootHasParents => .invalid .rootHasParents
  | .error reason => .unauthorized reason (failedRole reason)

end Hq
