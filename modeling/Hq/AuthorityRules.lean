/-
What the authority rules read: the cited parents of a fact, a scan of the
retained facts for rivals and revokes, and reachability between the fact and
the scanned revokes.
-/
import Hq.Authority
import Hq.Rounds

namespace Hq

theorem all_congr_mem {α : Type} {list : List α} {left right : α → Bool}
    (h : ∀ x ∈ list, left x = right x) : list.all left = list.all right := by
  rw [Bool.eq_iff_iff, List.all_eq_true, List.all_eq_true]
  exact forall₂_congr fun x hx => by rw [h x hx]

theorem any_congr_mem {α : Type} {list : List α} {left right : α → Bool}
    (h : ∀ x ∈ list, left x = right x) : list.any left = list.any right := by
  rw [Bool.eq_iff_iff, List.any_eq_true, List.any_eq_true]
  exact exists_congr fun x => and_congr_right fun hx => by rw [h x hx]

variable {test : Fact → Bool} {policy : AuthorityPolicy} {accountId : AccountId}
  {context right left : ReductionContext} {mismatch missing : AuthorityReason}
  {role : AuthorityRole} {fact : Fact} {grantId : GrantId} {cited : FactId}

theorem requiredAuthority_eq_ok {id : FactId} :
    requiredAuthority fact role = .ok id ↔
      fact.causal.authority role = some id := by
  unfold requiredAuthority
  split <;> simp_all

theorem requiredAuthority_bind_eq_ok {β : Type}
    {next : FactId → Except AuthorityReason β}
    {value : β} :
    (requiredAuthority fact role >>= next) = .ok value ↔
      ∃ id, fact.causal.authority role = some id ∧ next id = .ok value := by
  rw [bind_eq_ok]
  simp only [requiredAuthority_eq_ok]

theorem requireCited_eq_ok :
    requireCited context cited test mismatch missing = .ok () ↔
      ∃ candidate, context.facts.get? cited = some candidate ∧
        test candidate = true := by
  unfold requireCited
  split <;> simp_all

theorem requireCited_congr {leftTest rightTest : Fact → Bool}
    (hget : left.facts.get? cited = right.facts.get? cited)
    (htest : ∀ candidate, left.facts.get? cited = some candidate →
      leftTest candidate = rightTest candidate) :
    requireCited left cited leftTest mismatch missing =
      requireCited right cited rightTest mismatch missing := by
  unfold requireCited
  rw [← hget]
  split
  · rfl
  next candidate hcandidate => rw [htest candidate hcandidate]

/-! What a failing check says. -/

theorem bind_eq_error {R α β : Type} {step : Except R α}
    {next : α → Except R β} {error : R} :
    (step >>= next) = .error error ↔ step = .error error ∨
      ∃ value, step = .ok value ∧ next value = .error error := by
  cases step with
  | error found => simp [bind, Except.bind]
  | ok value => simp [bind, Except.bind]

theorem require_eq_error {R : Type} {condition : Bool} {reason error : R} :
    require condition reason = .error error ↔
      condition = false ∧ reason = error := by
  cases condition <;> simp [require]

theorem requiredAuthority_eq_error {error : AuthorityReason} :
    requiredAuthority fact role = .error error ↔
      fact.causal.authority role = none ∧ .missingAuthority role = error := by
  unfold requiredAuthority
  split <;> simp_all

theorem requireCited_eq_error {error : AuthorityReason} :
    requireCited context cited test mismatch missing = .error error ↔
      context.facts.get? cited = none ∧ missing = error ∨
        ∃ candidate, context.facts.get? cited = some candidate ∧
          test candidate = false ∧ mismatch = error := by
  unfold requireCited
  split <;> simp_all [require_eq_error]

/-! The facts a rule scans for. -/

def revokesGrant (grantId : GrantId) (candidate : Fact) : Bool :=
  match candidate.payload with
  | .mailboxAccessRevoked candidateId _ _ => candidateId = grantId
  | _ => false

def revokesLineage (mailbox : MailboxAddress) (grantee : InstallationId)
    (candidate : Fact) : Bool :=
  match candidate.payload with
  | .mailboxAccessRevoked _ candidateMailbox granteeId =>
      candidateMailbox = mailbox && granteeId = grantee
  | _ => false

def revokesDevice (accountId : AccountId) (deviceId : InstallationId)
    (candidate : Fact) : Bool :=
  match candidate.payload with
  | .humanDeviceRevoked candidateAccount _ candidateDevice =>
      candidateAccount = accountId && candidateDevice = deviceId
  | _ => false

theorem mailboxRevokes_eq (context : ReductionContext) (grantId : GrantId) :
    mailboxRevokes context grantId =
      context.facts.facts.filter (revokesGrant grantId) := rfl

theorem mailboxLineageRevokes_eq (context : ReductionContext)
    (mailbox : MailboxAddress) (grantee : InstallationId) :
    mailboxLineageRevokes context mailbox grantee =
      context.facts.facts.filter (revokesLineage mailbox grantee) := rfl

theorem accountRevokes_eq (context : ReductionContext) (accountId : AccountId)
    (deviceId : InstallationId) :
    accountRevokes context accountId deviceId =
      context.facts.facts.filter (revokesDevice accountId deviceId) := rfl

/-- The grant identity a peer action is judged under. -/
def actionGrant (context : ReductionContext) (fact : Fact)
    (target : MailboxAddress) : Option GrantId :=
  (fact.causal.authority .mailboxGrant).bind fun grant =>
    (context.facts.get? grant).bind (peerGrantId fact target)

def acceptsDevice (candidate : Fact) : Bool :=
  match candidate.payload with
  | .humanDeviceAccepted .. => true
  | _ => false

/-- A revoke of the device whose acceptance an account action cites. -/
def accountAwaits (context : ReductionContext) (fact : Fact)
    (accountId : AccountId) (candidate : Fact) : Bool :=
  ((fact.causal.authority .accountMembership).bind
    context.facts.get?).any acceptsDevice &&
    revokesDevice accountId fact.authorId candidate

/-- The revokes an action of a scope must answer to. -/
def answersTo (context : ReductionContext) (fact candidate : Fact) : Bool :=
  match fact.scope with
  | .installationPrivate _ => false
  | .peerAddressed target =>
      (actionGrant context fact target).any fun grantId =>
        revokesGrant grantId candidate
  | .accountAddressed accountId | .remoteControl accountId _ =>
      accountAwaits context fact accountId candidate

/-- The families that are judged by their scope. -/
def isScopedAction : SemanticPayload → Bool
  | .installationDeclared .. | .mailboxCreated .. | .mailboxSessionBound ..
  | .mailboxContextRecorded .. | .peerRouteSet .. | .peerRouteBlocked ..
  | .mailboxAccessGranted .. | .mailboxAccessRevoked ..
  | .mailboxActionObserved .. | .humanAccountCreated ..
  | .humanDeviceGranted .. | .humanDeviceAccepted .. | .humanDeviceRevoked ..
  | .humanAccountSelected .. => false
  | _ => true

/-- The revokes that an action must stand above. -/
def awaitedBy (context : ReductionContext) (fact candidate : Fact) : Bool :=
  match fact.payload with
  | .humanAccountSelected accountId =>
      accountAwaits context fact accountId candidate
  | payload => isScopedAction payload && answersTo context fact candidate

/-- A retained fact that the rule of another fact scans for. -/
def scannedBy (policy : AuthorityPolicy) (context : ReductionContext)
    (fact candidate : Fact) : Bool :=
  match fact.payload with
  | .installationDeclared installationId _ _ _ =>
      declaresInstallation installationId candidate
  | .mailboxCreated mailboxId _ _ =>
      mailboxSubject candidate = some ⟨fact.authorId, mailboxId⟩ ||
        (createsHumanMailbox fact && fact.authorId ≠ policy.localInstallation &&
          candidate.authorId = fact.authorId && createsHumanMailbox candidate)
  | .mailboxAccessGranted grantId mailbox grantee =>
      grantsMailbox grantId candidate ||
        revokesLineage mailbox grantee.installationId candidate
  | .humanAccountCreated accountId _ _ =>
      accountRootSubject candidate = some accountId
  | .humanDeviceGranted accountId grantId device _ _ =>
      grantsDevice grantId candidate ||
        revokesDevice accountId device.installationId candidate
  | .humanDeviceAccepted accountId _ device =>
      revokesDevice accountId device.installationId candidate
  | _ => awaitedBy context fact candidate

/-- Two contexts in which the authority rule of a fact reads the same. -/
structure SameAuthority (policy : AuthorityPolicy) (fact : Fact)
    (left right : ReductionContext) : Prop where
  cited : ∀ id ∈ fact.causal.parents,
    left.facts.get? id = right.facts.get? id
  scan : ∀ test : Fact → Bool,
    (∀ candidate, test candidate = true →
      scannedBy policy left fact candidate = true) →
    left.facts.facts.filter test = right.facts.facts.filter test
  above : ∀ candidate ∈ left.facts.facts,
    left.graph.structurallyReaches candidate.id fact.id =
      right.graph.structurallyReaches candidate.id fact.id
  below : ∀ candidate ∈ left.facts.facts,
    left.graph.structurallyReaches fact.id candidate.id =
      right.graph.structurallyReaches fact.id candidate.id
  usable : ∀ candidate ∈ left.facts.facts,
    ∀ id ∈ fact.causal.parents, left.usablyReaches candidate.id id =
      right.usablyReaches candidate.id id
  into : ∀ candidate ∈ left.facts.facts,
    reachesWithCandidate left candidate.id fact.id fact.id =
      reachesWithCandidate right candidate.id fact.id fact.id
  forward : ∀ candidate ∈ left.facts.facts,
    awaitedBy left fact candidate = true →
    reachesWithCandidate left fact.id candidate.id fact.id =
      reachesWithCandidate right fact.id candidate.id fact.id

namespace SameAuthority

variable {policy : AuthorityPolicy} {fact : Fact}
  {left right : ReductionContext}

theorem countFacts_eq (h : SameAuthority policy fact left right)
    (htest : ∀ candidate, test candidate = true →
      scannedBy policy left fact candidate = true) :
    countFacts left test = countFacts right test := by
  unfold countFacts
  rw [h.scan test htest]

/-- A check of every scanned fact has the same outcome in both contexts. -/
theorem all_eq (h : SameAuthority policy fact left right)
    {leftCheck rightCheck : Fact → Bool}
    (htest : ∀ candidate, test candidate = true →
      scannedBy policy left fact candidate = true)
    (hcheck : ∀ candidate ∈ left.facts.facts, test candidate = true →
      leftCheck candidate = rightCheck candidate) :
    (left.facts.facts.filter test).all leftCheck =
      (right.facts.facts.filter test).all rightCheck := by
  rw [← h.scan test htest]
  refine all_congr_mem fun candidate hcandidate => ?_
  obtain ⟨hmem, htrue⟩ := List.mem_filter.1 hcandidate
  exact hcheck candidate hmem htrue

theorem any_eq (h : SameAuthority policy fact left right)
    {leftCheck rightCheck : Fact → Bool}
    (htest : ∀ candidate, test candidate = true →
      scannedBy policy left fact candidate = true)
    (hcheck : ∀ candidate ∈ left.facts.facts, test candidate = true →
      leftCheck candidate = rightCheck candidate) :
    (left.facts.facts.filter test).any leftCheck =
      (right.facts.facts.filter test).any rightCheck := by
  rw [← h.scan test htest]
  refine any_congr_mem fun candidate hcandidate => ?_
  obtain ⟨hmem, htrue⟩ := List.mem_filter.1 hcandidate
  exact hcheck candidate hmem htrue

theorem coversRevokes_eq (h : SameAuthority policy fact left right)
    (htest : ∀ candidate, test candidate = true →
      scannedBy policy left fact candidate = true) :
    coversRevokes left fact (left.facts.facts.filter test) =
      coversRevokes right fact (right.facts.facts.filter test) := by
  refine h.all_eq htest fun candidate hmem _ => ?_
  rw [h.above candidate hmem, h.below candidate hmem]

theorem validateLocalFact_eq (h : SameAuthority policy fact left right) :
    validateLocalFact fact left = validateLocalFact fact right := by
  unfold validateLocalFact
  split
  · refine bind_congr_ok fun _ _ => bind_congr_ok fun id hid => ?_
    exact requireCited_congr (h.cited id (fact.mem_parents_of_authority
      (requiredAuthority_eq_ok.1 hid))) fun _ _ => rfl
  · rfl

theorem validateInstallationRoot_eq (h : SameAuthority policy fact left right)
    {installationId : InstallationId}
    (hscan : ∀ candidate, declaresInstallation installationId candidate = true →
      scannedBy policy left fact candidate = true) :
    validateInstallationRoot fact installationId left =
      validateInstallationRoot fact installationId right := by
  unfold validateInstallationRoot
  rw [h.countFacts_eq hscan]

theorem validateMailboxRoot_eq (h : SameAuthority policy fact left right)
    {mailboxId : MailboxId} {kind : MailboxKind}
    (hsubject : ∀ candidate,
      mailboxSubject candidate = some ⟨fact.authorId, mailboxId⟩ →
      scannedBy policy left fact candidate = true)
    (hhuman : createsHumanMailbox fact = true →
      fact.authorId ≠ policy.localInstallation → ∀ candidate,
      candidate.authorId = fact.authorId →
      createsHumanMailbox candidate = true →
      scannedBy policy left fact candidate = true) :
    validateMailboxRoot policy fact mailboxId kind left =
      validateMailboxRoot policy fact mailboxId kind right := by
  unfold validateMailboxRoot
  rw [h.validateLocalFact_eq, h.countFacts_eq fun candidate hcandidate =>
    hsubject candidate (by simpa using hcandidate)]
  by_cases hguard : createsHumanMailbox fact = true ∧
      fact.authorId ≠ policy.localInstallation
  · have hcount : countFacts left (fun candidate =>
        candidate.authorId = fact.authorId && createsHumanMailbox candidate) =
        countFacts right fun candidate =>
          candidate.authorId = fact.authorId &&
            createsHumanMailbox candidate := by
      refine h.countFacts_eq fun candidate hcandidate => ?_
      simp only [Bool.and_eq_true, decide_eq_true_eq] at hcandidate
      exact hhuman hguard.1 hguard.2 candidate hcandidate.1 hcandidate.2
    rw [hcount]
  · have hfalse : (createsHumanMailbox fact &&
        decide (fact.authorId ≠ policy.localInstallation)) = false := by
      simpa using hguard
    simp only [hfalse, Bool.false_and]

theorem validateMailboxBinding_eq (h : SameAuthority policy fact left right)
    (mailboxId : MailboxId) :
    validateMailboxBinding fact mailboxId left =
      validateMailboxBinding fact mailboxId right := by
  unfold validateMailboxBinding
  rw [h.validateLocalFact_eq]
  congr 2
  funext _
  congr 1
  exact any_congr_mem fun parent hparent => by rw [h.cited parent hparent]

theorem validatePeerRoute_eq (h : SameAuthority policy fact left right)
    (peerId : InstallationId) :
    validatePeerRoute fact peerId left = validatePeerRoute fact peerId right := by
  unfold validatePeerRoute
  rw [h.validateLocalFact_eq]

theorem cited_of_required (h : SameAuthority policy fact left right)
    {id : FactId}
    (hid : requiredAuthority fact role = .ok id) :
    left.facts.get? id = right.facts.get? id :=
  h.cited id (fact.mem_parents_of_authority (requiredAuthority_eq_ok.1 hid))

theorem validateMailboxGrant_eq (h : SameAuthority policy fact left right)
    {mailbox : MailboxAddress}
    {grantee : InstallationAddress}
    (hgrant : ∀ candidate, grantsMailbox grantId candidate = true →
      scannedBy policy left fact candidate = true)
    (hrevoke : ∀ candidate,
      revokesLineage mailbox grantee.installationId candidate = true →
      scannedBy policy left fact candidate = true) :
    validateMailboxGrant fact grantId mailbox grantee left =
      validateMailboxGrant fact grantId mailbox grantee right := by
  unfold validateMailboxGrant
  rw [h.countFacts_eq hgrant, mailboxLineageRevokes_eq,
    mailboxLineageRevokes_eq, h.coversRevokes_eq hrevoke]
  refine bind_congr_ok fun _ _ => bind_congr_ok fun id hid => ?_
  rw [requireCited_congr (h.cited_of_required hid) fun _ _ => rfl]

theorem validateMailboxRevoke_eq (h : SameAuthority policy fact left right)
    (grantId : GrantId) (mailbox : MailboxAddress)
    (granteeId : InstallationId) :
    validateMailboxRevoke fact grantId mailbox granteeId left =
      validateMailboxRevoke fact grantId mailbox granteeId right := by
  unfold validateMailboxRevoke
  refine bind_congr_ok fun _ _ => bind_congr_ok fun id hid => ?_
  exact requireCited_congr (h.cited_of_required hid) fun _ _ => rfl

theorem validateMailboxObservation_eq
    (h : SameAuthority policy fact left right) (grantId : GrantId)
    (actionId : FactId) :
    validateMailboxObservation fact grantId actionId left =
      validateMailboxObservation fact grantId actionId right := by
  unfold validateMailboxObservation
  split
  next target =>
    refine bind_congr_ok fun _ hguard => bind_congr_ok fun id hid => ?_
    have hguard := require_eq_ok.1 hguard
    simp only [Bool.and_eq_true, decide_eq_true_eq] at hguard
    unfold validateGrantForAction
    rw [requireCited_congr (h.cited_of_required hid) fun _ _ => rfl,
      h.cited_of_required hid,
      requireCited_congr (h.cited actionId hguard.2) fun _ _ => rfl]
  next => rfl

theorem validateAccountRoot_eq (h : SameAuthority policy fact left right)
    (creator : InstallationAddress)
    (hscan : ∀ candidate, accountRootSubject candidate = some accountId →
      scannedBy policy left fact candidate = true) :
    validateAccountRoot fact accountId creator left =
      validateAccountRoot fact accountId creator right := by
  unfold validateAccountRoot
  rw [h.validateLocalFact_eq, h.countFacts_eq fun candidate hcandidate =>
    hscan candidate (by simpa using hcandidate)]

theorem validateDeviceGrant_eq (h : SameAuthority policy fact left right)
    {device : InstallationAddress}
    (hgrant : ∀ candidate, grantsDevice grantId candidate = true →
      scannedBy policy left fact candidate = true)
    (hrevoke : ∀ candidate,
      revokesDevice accountId device.installationId candidate = true →
      scannedBy policy left fact candidate = true) :
    validateDeviceGrant fact accountId grantId device left =
      validateDeviceGrant fact accountId grantId device right := by
  unfold validateDeviceGrant
  rw [h.countFacts_eq hgrant, accountRevokes_eq, accountRevokes_eq,
    h.coversRevokes_eq hrevoke]
  refine bind_congr_ok fun _ _ => bind_congr_ok fun id hid => ?_
  rw [requireCited_congr (h.cited_of_required hid) fun _ _ => rfl,
    h.cited_of_required hid]

theorem validateDeviceAcceptance_eq (h : SameAuthority policy fact left right)
    {device : InstallationAddress}
    (hrevoke : ∀ candidate,
      revokesDevice accountId device.installationId candidate = true →
      scannedBy policy left fact candidate = true) :
    validateDeviceAcceptance fact accountId grantId device left =
      validateDeviceAcceptance fact accountId grantId device right := by
  unfold validateDeviceAcceptance
  refine bind_congr_ok fun _ _ => bind_congr_ok fun id hid => ?_
  rw [requireCited_congr (h.cited_of_required hid) fun _ _ => rfl,
    accountRevokes_eq, accountRevokes_eq]
  congr 2
  funext _
  congr 2
  refine h.any_eq hrevoke fun candidate hmem _ => ?_
  rw [h.into candidate hmem, h.usable candidate hmem id
    (fact.mem_parents_of_authority (requiredAuthority_eq_ok.1 hid))]

theorem validateDeviceRevoke_eq (h : SameAuthority policy fact left right)
    (accountId : AccountId) (grantId : GrantId) (deviceId : InstallationId) :
    validateDeviceRevoke fact accountId grantId deviceId left =
      validateDeviceRevoke fact accountId grantId deviceId right := by
  unfold validateDeviceRevoke
  refine bind_congr_ok fun _ _ => bind_congr_ok fun creator hcreator =>
    bind_congr_ok fun grant hgrant => ?_
  rw [h.cited_of_required hcreator, h.cited_of_required hgrant]

theorem validatePeerAction_eq (h : SameAuthority policy fact left right)
    {target : MailboxAddress}
    (hawaited : ∀ grantId, actionGrant left fact target = some grantId →
      ∀ candidate, revokesGrant grantId candidate = true →
      awaitedBy left fact candidate = true)
    (hscan : ∀ candidate, awaitedBy left fact candidate = true →
      scannedBy policy left fact candidate = true) :
    validatePeerAction fact target left =
      validatePeerAction fact target right := by
  unfold validatePeerAction
  refine bind_congr_ok fun grant hgrant => ?_
  have hcited := h.cited_of_required hgrant
  simp only [← hcited]
  split
  · rfl
  next cited hget =>
    split
    · rfl
    next grantId hpeer =>
      have hgrantId : actionGrant left fact target = some grantId := by
        simp [actionGrant, requiredAuthority_eq_ok.1 hgrant, hget, hpeer]
      unfold validateGrantForAction
      rw [requireCited_congr hcited fun _ _ => rfl, mailboxRevokes_eq,
        mailboxRevokes_eq]
      congr 2
      funext _
      congr 2
      refine h.any_eq (fun candidate hcandidate => hscan candidate
        (hawaited grantId hgrantId candidate hcandidate))
        fun candidate hmem hcandidate => ?_
      rw [h.forward candidate hmem
        (hawaited grantId hgrantId candidate hcandidate)]

theorem validateAccountAction_eq (h : SameAuthority policy fact left right)
    (hawaited : ∀ candidate,
      accountAwaits left fact accountId candidate = true →
      awaitedBy left fact candidate = true)
    (hscan : ∀ candidate, awaitedBy left fact candidate = true →
      scannedBy policy left fact candidate = true) :
    validateAccountAction fact accountId left =
      validateAccountAction fact accountId right := by
  unfold validateAccountAction
  refine bind_congr_ok fun id hid => ?_
  refine requireCited_congr (h.cited_of_required hid) fun membership hget => ?_
  unfold membershipAuthorises
  split
  · rfl
  next expected grantId device hpayload =>
    by_cases hdevice : device = fact.author
    · subst hdevice
      congr 1
      have hawaits : ∀ candidate,
          revokesDevice accountId fact.authorId candidate = true →
          awaitedBy left fact candidate = true := by
        intro candidate hcandidate
        refine hawaited candidate ?_
        simp [accountAwaits, requiredAuthority_eq_ok.1 hid, hget, acceptsDevice,
          hpayload, hcandidate]
      unfold accountActionSurvivesRevokes
      rw [accountRevokes_eq, accountRevokes_eq]
      refine h.all_eq (fun candidate hcandidate =>
        hscan candidate (hawaits candidate hcandidate))
        fun candidate hmem hcandidate => ?_
      rw [h.forward candidate hmem (hawaits candidate hcandidate),
        h.usable candidate hmem id
          (fact.mem_parents_of_authority (requiredAuthority_eq_ok.1 hid))]
    · simp [hdevice]
  · rfl

theorem validateScopedAction_eq (h : SameAuthority policy fact left right)
    (hawaited : ∀ candidate, answersTo left fact candidate = true →
      awaitedBy left fact candidate = true)
    (hscan : ∀ candidate, awaitedBy left fact candidate = true →
      scannedBy policy left fact candidate = true) :
    validateScopedAction fact left = validateScopedAction fact right := by
  unfold validateScopedAction
  split
  next => exact h.validateLocalFact_eq
  next target hscope =>
    refine h.validatePeerAction_eq (fun grantId hgrant candidate hcandidate => ?_)
      hscan
    exact hawaited candidate (by simp [answersTo, hscope, hgrant, hcandidate])
  next accountId hscope =>
    refine h.validateAccountAction_eq (fun candidate hcandidate => ?_) hscan
    exact hawaited candidate (by simpa [answersTo, hscope] using hcandidate)
  next accountId home hscope =>
    refine h.validateAccountAction_eq (fun candidate hcandidate => ?_) hscan
    exact hawaited candidate (by simpa [answersTo, hscope] using hcandidate)

end SameAuthority

theorem validateFact_of_scopedAction
    (h : isScopedAction fact.payload = true) (context : ReductionContext) :
    validateFact policy fact context = validateScopedAction fact context := by
  unfold validateFact
  split <;> simp_all [isScopedAction]

theorem awaitedBy_of_scopedAction
    (h : isScopedAction fact.payload = true) (context : ReductionContext)
    (candidate : Fact) :
    awaitedBy context fact candidate = answersTo context fact candidate := by
  unfold awaitedBy
  split <;> simp_all [isScopedAction]

theorem scannedBy_of_awaitedBy {candidate : Fact}
    (h : awaitedBy context fact candidate = true) :
    scannedBy policy context fact candidate = true := by
  unfold scannedBy
  split <;> simp_all [awaitedBy, isScopedAction]

/-- Contexts that read the same give the same verdict. -/
theorem SameAuthority.validateFact_eq
    (h : SameAuthority policy fact left right) :
    validateFact policy fact left = validateFact policy fact right := by
  by_cases haction : isScopedAction fact.payload = true
  · rw [validateFact_of_scopedAction haction,
      validateFact_of_scopedAction haction]
    refine h.validateScopedAction_eq (fun candidate hcandidate => ?_)
      fun _ => scannedBy_of_awaitedBy
    rwa [awaitedBy_of_scopedAction haction]
  · unfold validateFact
    split
    next hpayload =>
      exact h.validateInstallationRoot_eq fun candidate hcandidate => by
        simpa [scannedBy, hpayload] using hcandidate
    next hpayload =>
      refine h.validateMailboxRoot_eq (fun candidate hcandidate => ?_)
        fun hhuman hauthor candidate hsame hcandidate => ?_
      · simp [scannedBy, hpayload, hcandidate]
      · simp [scannedBy, hpayload, hhuman, hauthor, hsame, hcandidate]
    next => exact h.validateMailboxBinding_eq _
    next => exact h.validateMailboxBinding_eq _
    next => exact h.validatePeerRoute_eq _
    next => exact h.validatePeerRoute_eq _
    next hpayload =>
      refine h.validateMailboxGrant_eq (fun candidate hcandidate => ?_)
        fun candidate hcandidate => ?_
      · simp [scannedBy, hpayload, hcandidate]
      · simp [scannedBy, hpayload, hcandidate]
    next => exact h.validateMailboxRevoke_eq _ _ _
    next => exact h.validateMailboxObservation_eq _ _
    next hpayload =>
      exact h.validateAccountRoot_eq _ fun candidate hcandidate => by
        simpa [scannedBy, hpayload] using hcandidate
    next hpayload =>
      refine h.validateDeviceGrant_eq (fun candidate hcandidate => ?_)
        fun candidate hcandidate => ?_
      · simp [scannedBy, hpayload, hcandidate]
      · simp [scannedBy, hpayload, hcandidate]
    next hpayload =>
      exact h.validateDeviceAcceptance_eq fun candidate hcandidate => by
        simpa [scannedBy, hpayload] using hcandidate
    next => exact h.validateDeviceRevoke_eq _ _ _
    next hpayload =>
      rw [h.validateLocalFact_eq, h.validateAccountAction_eq
        (fun candidate hcandidate => by simpa [awaitedBy, hpayload] using hcandidate)
        fun _ => scannedBy_of_awaitedBy]
    next => simp_all [isScopedAction]

/-- Contexts that read the same and hold the same rivals decide the same. -/
theorem SameAuthority.classifyFact_eq (h : SameAuthority policy fact left right)
    (hrivals : left.facts.facts.filter (competesForRoot fact) =
      right.facts.facts.filter (competesForRoot fact)) :
    classifyFact policy fact left = classifyFact policy fact right := by
  unfold classifyFact uniqueConflictParticipants
  rw [h.validateFact_eq, hrivals]

end Hq
