/-
What stands behind a projected fact: chains of projected facts from the
declaration of an installation key down to a peer or an account action.
-/
import Hq.AuthorityReduction

namespace Hq

variable {account : AccountId} {fact action : Fact} {mailbox : MailboxAddress}

section Reports

variable {A K V R : Type} [LinearOrder A] [LinearOrder K] [FieldCoded R]

/-- A retained fact that a report decides to be projected. -/
def ReductionReport.Projects (report : ReductionReport A K V R) (fact : Fact) :
    Prop :=
  report.facts.get? fact.id = some fact ∧
    ∃ decision, report.decisions.get? fact.id = some decision ∧
      decision.status = .projected

/-- One fact stands strictly above another in the causal graph. -/
def ReductionReport.Above (report : ReductionReport A K V R)
    (ancestor fact : Fact) : Prop :=
  Relation.TransGen report.graph.Child ancestor.id fact.id

/-- The one projected declaration of a signer. -/
structure DeclaresSigner (report : ReductionReport A K V R)
    (signer : InstallationAddress) (root : Fact) : Prop where
  projected : report.Projects root
  declares : ∃ encryptionKey label, root.payload = .installationDeclared
    signer.installationId signer.signingKey encryptionKey label
  unique : ∀ other, report.Projects other →
    declaresInstallation signer.installationId other = true → other = root

/-- A peer action under a grant of the owner of the mailbox, below the
creation of the mailbox and the declaration of the owner. -/
structure PeerChain (report : ReductionReport A K V R)
    (mailbox : MailboxAddress) (action grant box root : Fact) : Prop where
  cites : action.causal.authority .mailboxGrant = some grant.id
  grant_projected : report.Projects grant
  grants : ∃ grantId, grant.payload =
    .mailboxAccessGranted grantId mailbox action.author
  owner : grant.authorId = mailbox.installationId
  box_projected : report.Projects box
  creates : mailboxSubject box = some mailbox
  box_signed : box.author = grant.author
  box_above : report.Above box grant
  declared : DeclaresSigner report grant.author root
  root_above : report.Above root box

/-- The one projected root of an account, below the declaration of its
creator. -/
structure AccountRooted (report : ReductionReport A K V R)
    (account : AccountId) (creation root : Fact) : Prop where
  projected : report.Projects creation
  creates : ∃ label, creation.payload =
    .humanAccountCreated account creation.author label
  unique : ∀ other, report.Projects other →
    accountRootSubject other = some account → other = creation
  declared : DeclaresSigner report creation.author root
  root_above : report.Above root creation

/-- A device that accepted a grant of the account creator. -/
structure AcceptedDevice (report : ReductionReport A K V R)
    (account : AccountId) (device : InstallationAddress)
    (creation grant acceptance : Fact) : Prop where
  acceptance_projected : report.Projects acceptance
  grant_projected : report.Projects grant
  accepts : ∃ grantId label relayHints,
    acceptance.payload = .humanDeviceAccepted account grantId device ∧
    grant.payload = .humanDeviceGranted account grantId device label relayHints
  signed : acceptance.author = device
  granted : grant.author = creation.author
  grant_above : report.Above grant acceptance
  creation_above : report.Above creation grant

/-- An account action of the creator, or of a device with an acceptance. -/
def AccountChain (report : ReductionReport A K V R) (account : AccountId)
    (action creation root : Fact) : Prop :=
  AccountRooted report account creation root ∧
    report.Above creation action ∧
    (action.author = creation.author ∨
      ∃ grant acceptance,
        AcceptedDevice report account action.author creation grant acceptance ∧
        (acceptance = action ∨ report.Above acceptance action))

/-- A report is about the set it reduces. -/
theorem reduceSet_facts [DecidableEq V] [DecidableEq R]
    {domain : DomainReducer A K V R} {facts : FactSet}
    {report : ReductionReport A K V R}
    (h : reduceSet domain facts = .ok report) :
    report.facts = facts ∧ report.graph = facts.graph := by
  unfold reduceSet at h
  split at h
  · cases h
  next decisions _ =>
    simp only [deriveReport] at h
    split at h
    · cases h
    split at h
    · cases h
    split at h
    · cases h
    · cases h
      exact ⟨rfl, rfl⟩

theorem projects_of_reportedStatus [DecidableEq V] [DecidableEq R]
    {domain : DomainReducer A K V R} {facts : List Fact}
    {report : ReductionReport A K V R}
    (h : reduceComplete domain facts = .ok report)
    (hget : (FactSet.fromFacts facts).get? fact.id = some fact)
    (hstatus : reportedStatus (reduceComplete domain facts) fact.id =
      some .projected) : report.Projects fact := by
  rw [h] at hstatus
  obtain ⟨decision, hdecision, hprojected⟩ := Option.map_eq_some_iff.1 hstatus
  exact ⟨(reduceSet_facts h).1 ▸ hget, decision, hdecision, hprojected⟩

/-- A reported status comes from a report. -/
theorem exists_report_of_reportedStatus [DecidableEq V] [DecidableEq R]
    {domain : DomainReducer A K V R} {facts : List Fact}
    (hget : (FactSet.fromFacts facts).get? fact.id = some fact)
    (hstatus : reportedStatus (reduceComplete domain facts) fact.id =
      some .projected) :
    ∃ report, reduceComplete domain facts = .ok report ∧
      report.Projects fact := by
  cases hreduce : reduceComplete domain facts with
  | error error => simp [hreduce, reportedStatus] at hstatus
  | ok report =>
      exact ⟨report, rfl, projects_of_reportedStatus hreduce hget hstatus⟩

variable {domain : DomainReducer A K V R} {facts : FactSet}
  {decisions : Decisions R} {report : ReductionReport A K V R}

theorem ReportsOn.projects_iff (hon : ReportsOn domain facts decisions report)
    : report.Projects fact ↔
      fact ∈ (snapshot facts (statusesIn decisions)).projectedFacts := by
  rw [mem_projectedFacts, ← contextOf_eq, contextOf_isProjected]
  change _ ↔ fact ∈ facts.facts ∧ _
  unfold ReductionReport.Projects
  rw [hon.facts_eq, hon.decisions_eq, FactSet.mem_facts,
    FactSet.get?_eq_some_iff]
  rfl

/-- A cited fact is projected with the fact that cites it, and above it. -/
theorem cited_above {policy : AuthorityPolicy}
    (h : AuthorityStable policy facts (statusesIn decisions))
    (hon : ReportsOn domain facts decisions report) {cited : Fact}
    {role : AuthorityRole} {id : FactId} (hfact : report.Projects fact)
    (hrole : fact.causal.authority role = some id)
    (hget : facts.get? id = some cited) :
    report.Projects cited ∧ report.Above cited fact := by
  have hparent := Fact.mem_parents_of_authority hrole
  obtain ⟨hready, hparents, -⟩ := h.projected (hon.projects_iff.1 hfact)
  obtain rfl := FactSet.id_of_get? hget
  refine ⟨hon.projects_iff.2 (mem_projectedFacts.2
    ⟨FactSet.mem_facts_of_get? hget, hparents _ hparent⟩), ?_⟩
  unfold ReductionReport.Above
  rw [hon.graph_eq]
  exact .single ((child_iff_of_get? hready.retained).2 hparent)

end Reports

section Chains

variable {policy : AuthorityPolicy} {facts : FactSet}
  {decisions : Decisions AuthorityReason}
  {report : ReductionReport AuthorityAggregateKey AuthorityProjectionKey
    AuthorityProjection AuthorityReason}

theorem validateFact_of_projects
    (h : AuthorityStable policy facts (statusesIn decisions))
    (hon : ReportsOn (authorityReducer policy) facts decisions report)
    (hfact : report.Projects fact) :
    validateFact policy fact (snapshot facts (statusesIn decisions)) =
      .ok () :=
  (h.projected (hon.projects_iff.1 hfact)).2.2

/-- A projected local fact stands below the one declaration of its signer. -/
theorem declared_of_local
    (h : AuthorityStable policy facts (statusesIn decisions))
    (hon : ReportsOn (authorityReducer policy) facts decisions report)
    (hfact : report.Projects fact)
    (hlocal : validateLocalFact fact
      (snapshot facts (statusesIn decisions)) = .ok ()) :
    ∃ root, DeclaresSigner report fact.author root ∧
      report.Above root fact := by
  obtain ⟨-, id, root, hrole, hget, hroot⟩ := validateLocalFact_ok.1 hlocal
  obtain ⟨encryptionKey, label, hpayload⟩ := isSignerRoot_iff.1 hroot
  obtain ⟨hprojects, habove⟩ := cited_above h hon hfact hrole hget
  refine ⟨root, ⟨hprojects, ⟨encryptionKey, label, hpayload⟩, ?_⟩, habove⟩
  intro other hother hdeclares
  have hvalid := validateFact_of_projects h hon hprojects
  rw [validateFact, hpayload, validateInstallationRoot_ok] at hvalid
  exact eq_of_countFacts_le_one hvalid.2
    (mem_projectedFacts.1 (hon.projects_iff.1 hother)).1 hdeclares
    (mem_projectedFacts.1 (hon.projects_iff.1 hprojects)).1
    (by simp [declaresInstallation, hpayload, Fact.authorId])

theorem mailboxSubject_eq_some :
    mailboxSubject fact = some mailbox ↔
      fact.authorId = mailbox.installationId ∧ ∃ kind label,
        fact.payload = .mailboxCreated mailbox.mailboxId kind label := by
  unfold mailboxSubject
  split
  next h =>
    simp only [h, Option.some.injEq, MailboxAddress.ext_iff,
      SemanticPayload.mailboxCreated.injEq]
    aesop
  next h => simpa using fun _ kind label heq => h _ _ _ heq

/-- The chain behind a peer action of an admitted grant. -/
theorem peerChain_of_validatePeerAction
    (h : AuthorityStable policy facts (statusesIn decisions))
    (hon : ReportsOn (authorityReducer policy) facts decisions report)
    (haction : report.Projects action)
    (hvalid : validatePeerAction action mailbox
      (snapshot facts (statusesIn decisions)) = .ok ()) :
    ∃ grant box root, PeerChain report mailbox action grant box root := by
  obtain ⟨id, grant, grantId, hrole, hget, hpayload, -⟩ :=
    validatePeerAction_ok.1 hvalid
  obtain ⟨hgrant, -⟩ := cited_above h hon haction hrole hget
  have hgrantValid := validateFact_of_projects h hon hgrant
  rw [validateFact, hpayload, validateMailboxGrant_ok] at hgrantValid
  obtain ⟨⟨-, howner, -⟩, ⟨boxId, box, hboxRole, hboxGet, hsubject, hauthor⟩, -⟩ :=
    hgrantValid
  obtain ⟨hbox, hboxAbove⟩ := cited_above h hon hgrant hboxRole hboxGet
  obtain ⟨-, kind, label, hboxPayload⟩ := mailboxSubject_eq_some.1 hsubject
  have hboxValid := validateFact_of_projects h hon hbox
  rw [validateFact, hboxPayload, validateMailboxRoot_ok] at hboxValid
  obtain ⟨root, hroot, hrootAbove⟩ := declared_of_local h hon hbox hboxValid.1
  exact ⟨grant, box, root, FactSet.id_of_get? hget ▸ hrole, hgrant,
    ⟨grantId, hpayload⟩, howner, hbox, hsubject, hauthor, hboxAbove,
    hauthor ▸ hroot, hrootAbove⟩

theorem accountCreator_eq_some {creator : InstallationAddress} :
    accountCreator account fact = some creator ↔
      ∃ label, fact.payload = .humanAccountCreated account creator label := by
  unfold accountCreator
  split
  next h =>
    simp only [h, SemanticPayload.humanAccountCreated.injEq]
    split <;> simp_all
  next h => simpa using fun label heq => h _ _ _ heq

/-- A projected account root is the only one and stands below the declaration
of its creator. -/
theorem accountRooted_of_projects
    (h : AuthorityStable policy facts (statusesIn decisions))
    (hon : ReportsOn (authorityReducer policy) facts decisions report)
    {creation : Fact} {creator : InstallationAddress}
    {label : Option ShortText} (hcreation : report.Projects creation)
    (hpayload : creation.payload = .humanAccountCreated account creator label) :
    creator = creation.author ∧
      ∃ root, AccountRooted report account creation root := by
  have hvalid := validateFact_of_projects h hon hcreation
  rw [validateFact, hpayload, validateAccountRoot_ok] at hvalid
  obtain ⟨hlocal, hcreator, hcount⟩ := hvalid
  obtain ⟨root, hroot, habove⟩ := declared_of_local h hon hcreation hlocal
  refine ⟨hcreator, root, hcreation, ⟨label, hcreator ▸ hpayload⟩, ?_, hroot,
    habove⟩
  intro other hother hsubject
  exact eq_of_countFacts_le_one hcount
    (mem_projectedFacts.1 (hon.projects_iff.1 hother)).1 (by simpa using hsubject)
    (mem_projectedFacts.1 (hon.projects_iff.1 hcreation)).1
    (by simp [accountRootSubject, hpayload])

/-- A fact that cites the account root signed by its author. -/
theorem accountChain_of_creator
    (h : AuthorityStable policy facts (statusesIn decisions))
    (hon : ReportsOn (authorityReducer policy) facts decisions report)
    {creation : Fact} {role : AuthorityRole}
    {id : FactId} (haction : report.Projects action)
    (hrole : action.causal.authority role = some id)
    (hget : facts.get? id = some creation)
    (hcreator : accountCreator account creation = some action.author) :
    ∃ root, AccountChain report account action creation root := by
  obtain ⟨label, hpayload⟩ := accountCreator_eq_some.1 hcreator
  obtain ⟨hcreation, habove⟩ := cited_above h hon haction hrole hget
  obtain ⟨hauthor, root, hrooted⟩ :=
    accountRooted_of_projects h hon hcreation hpayload
  exact ⟨root, hrooted, habove, Or.inl hauthor⟩

theorem isDeviceGrant_iff {grantId : GrantId}
    {test : InstallationAddress → Bool} :
    isDeviceGrant account grantId test fact = true ↔
      ∃ device label relayHints, fact.payload =
        .humanDeviceGranted account grantId device label relayHints ∧
        test device = true := by
  unfold isDeviceGrant
  split
  next h =>
    simp only [h, Bool.and_eq_true, decide_eq_true_eq,
      SemanticPayload.humanDeviceGranted.injEq]
    aesop
  next h => simpa using fun device label hints heq => absurd heq (h _ _ _ _ _)

/-- A projected acceptance answers a grant signed by the account creator. -/
theorem acceptedDevice_of_projects
    (h : AuthorityStable policy facts (statusesIn decisions))
    (hon : ReportsOn (authorityReducer policy) facts decisions report)
    {acceptance : Fact} {grantId : GrantId}
    {device : InstallationAddress} (hacceptance : report.Projects acceptance)
    (hpayload : acceptance.payload =
      .humanDeviceAccepted account grantId device) :
    ∃ creation root grant, AccountRooted report account creation root ∧
      AcceptedDevice report account device creation grant acceptance := by
  have hvalid := validateFact_of_projects h hon hacceptance
  rw [validateFact, hpayload, validateDeviceAcceptance_ok] at hvalid
  obtain ⟨⟨-, hauthor⟩, id, grant, hrole, hget, hmatches, -⟩ := hvalid
  obtain ⟨granted, label, relayHints, hgrantPayload, hdevice⟩ :=
    isDeviceGrant_iff.1 hmatches
  obtain rfl : granted = device := by simpa using hdevice
  obtain ⟨hgrant, hgrantAbove⟩ := cited_above h hon hacceptance hrole hget
  have hgrantValid := validateFact_of_projects h hon hgrant
  rw [validateFact, hgrantPayload, validateDeviceGrant_ok] at hgrantValid
  obtain ⟨-, ⟨rootId, creation, hrootRole, hrootGet, hcreator⟩, -⟩ := hgrantValid
  obtain ⟨root, hrooted, hcreationAbove, -⟩ :=
    accountChain_of_creator h hon hgrant hrootRole hrootGet hcreator
  obtain ⟨creationLabel, hcreation⟩ := accountCreator_eq_some.1 hcreator
  have hsigned := (accountRooted_of_projects h hon hrooted.projected
    hcreation).1
  exact ⟨creation, root, grant, hrooted, hacceptance, hgrant,
    ⟨grantId, label, relayHints, hpayload, hgrantPayload⟩, hauthor,
    hsigned, hgrantAbove, hcreationAbove⟩

/-- The chain behind an admitted account action. -/
theorem accountChain_of_validateAccountAction
    (h : AuthorityStable policy facts (statusesIn decisions))
    (hon : ReportsOn (authorityReducer policy) facts decisions report)
    (haction : report.Projects action)
    (hvalid : validateAccountAction action account
      (snapshot facts (statusesIn decisions)) = .ok ()) :
    ∃ creation root, AccountChain report account action creation root := by
  obtain ⟨id, membership, hrole, hget, hmembership⟩ :=
    validateAccountAction_ok.1 hvalid
  rcases hmembership with ⟨label, hpayload⟩ | ⟨grantId, hpayload, -⟩
  · obtain ⟨root, hchain⟩ := accountChain_of_creator h hon haction hrole hget
      (accountCreator_eq_some.2 ⟨label, hpayload⟩)
    exact ⟨membership, root, hchain⟩
  · obtain ⟨haccepted, habove⟩ := cited_above h hon haction hrole hget
    obtain ⟨creation, root, grant, hrooted, hdevice⟩ :=
      acceptedDevice_of_projects h hon haccepted hpayload
    exact ⟨creation, root, hrooted, (hdevice.creation_above.trans
      hdevice.grant_above).trans habove,
      Or.inr ⟨grant, membership, hdevice, Or.inr habove⟩⟩

/-- The families with a validator of their own are local, signed by the owner
of the mailbox they address, or device memberships. -/
theorem scope_of_validateFact {context : ReductionContext}
    (hvalid : validateFact policy fact context = .ok ())
    (haction : isScopedAction fact.payload = false) :
    fact.scope = .installationPrivate fact.authorId ∨
      (∃ mailbox, fact.scope = .peerAddressed mailbox ∧
        fact.authorId = mailbox.installationId) ∨
      ∃ account grantId, fact.scope = .accountAddressed account ∧
        ((∃ device label relayHints, fact.payload =
            .humanDeviceGranted account grantId device label relayHints) ∨
          (∃ device, fact.payload =
            .humanDeviceAccepted account grantId device) ∨
          ∃ device, fact.payload =
            .humanDeviceRevoked account grantId device) := by
  unfold validateFact at hvalid
  split at hvalid
  case h_1 hpayload =>
    have hadmissible := fact.admissible
    simp only [hpayload, SemanticPayload.isAdmissible, Bool.and_eq_true,
      decide_eq_true_eq] at hadmissible
    exact Or.inl (hadmissible.2.trans (by rw [← hadmissible.1.1]; rfl))
  case h_2 =>
    exact Or.inl
      (validateLocalFact_ok.1 (validateMailboxRoot_ok.1 hvalid).1).1
  case h_7 =>
    obtain ⟨⟨hscope, howner, -⟩, -⟩ := validateMailboxGrant_ok.1 hvalid
    exact Or.inr (Or.inl ⟨_, hscope, howner⟩)
  case h_8 =>
    obtain ⟨⟨hscope, howner⟩, -⟩ := validateMailboxRevoke_ok.1 hvalid
    exact Or.inr (Or.inl ⟨_, hscope, howner⟩)
  case h_9 =>
    unfold validateMailboxObservation at hvalid
    split at hvalid
    next target hscope =>
      rw [require_bind_eq_ok] at hvalid
      simp only [Bool.and_eq_true, decide_eq_true_eq] at hvalid
      exact Or.inr (Or.inl ⟨target, hscope, hvalid.1.1⟩)
    next => cases hvalid
  case h_10 =>
    exact Or.inl
      (validateLocalFact_ok.1 (validateAccountRoot_ok.1 hvalid).1).1
  case h_11 hpayload =>
    exact Or.inr (Or.inr ⟨_, _, (validateDeviceGrant_ok.1 hvalid).1,
      Or.inl ⟨_, _, _, hpayload⟩⟩)
  case h_12 hpayload =>
    exact Or.inr (Or.inr ⟨_, _, (validateDeviceAcceptance_ok.1 hvalid).1.1,
      Or.inr (Or.inl ⟨_, hpayload⟩)⟩)
  case h_13 hpayload =>
    exact Or.inr (Or.inr ⟨_, _, (validateDeviceRevoke_ok.1 hvalid).1,
      Or.inr (Or.inr ⟨_, hpayload⟩)⟩)
  case h_15 => simp_all [isScopedAction]
  all_goals
    exact Or.inl (validateLocalFact_ok.1 (unit_bind_eq_ok.1 hvalid).1).1

/-- Another installation than the owner addresses a mailbox by peer actions
only. -/
theorem validatePeerAction_of_foreign {context : ReductionContext}
    (hvalid : validateFact policy action context = .ok ())
    (hscope : action.scope = .peerAddressed mailbox)
    (hforeign : action.authorId ≠ mailbox.installationId) :
    validatePeerAction action mailbox context = .ok () := by
  cases hfamily : isScopedAction action.payload with
  | true =>
      rw [validateFact_of_scopedAction hfamily] at hvalid
      simpa only [validateScopedAction, hscope] using hvalid
  | false =>
      rcases scope_of_validateFact hvalid hfamily with
        hlocal | ⟨other, hother, howner⟩ | ⟨account, grantId, haccount, -⟩
      · simp [hscope] at hlocal
      · rw [hscope, FactScope.peerAddressed.injEq] at hother
        exact absurd (hother ▸ howner) hforeign
      · simp [hscope] at haccount

/-- A projected fact addressed to the mailbox of another installation. -/
theorem peerChain_of_projects
    (h : AuthorityStable policy facts (statusesIn decisions))
    (hon : ReportsOn (authorityReducer policy) facts decisions report)
    (haction : report.Projects action)
    (hscope : action.scope = .peerAddressed mailbox)
    (hforeign : action.authorId ≠ mailbox.installationId) :
    ∃ grant box root, PeerChain report mailbox action grant box root :=
  peerChain_of_validatePeerAction h hon haction
    (validatePeerAction_of_foreign (validateFact_of_projects h hon haction)
      hscope hforeign)

/-- A projected fact addressed to an account. -/
theorem accountChain_of_projects
    (h : AuthorityStable policy facts (statusesIn decisions))
    (hon : ReportsOn (authorityReducer policy) facts decisions report)
    (haction : report.Projects action)
    (hscope : action.scope = .accountAddressed account ∨
      ∃ home, action.scope = .remoteControl account home) :
    ∃ creation root, AccountChain report account action creation root := by
  have hvalid := validateFact_of_projects h hon haction
  cases hfamily : isScopedAction action.payload with
  | true =>
      rw [validateFact_of_scopedAction hfamily] at hvalid
      have hvalid : validateAccountAction action account
          (snapshot facts (statusesIn decisions)) = .ok () := by
        rcases hscope with hscope | ⟨home, hscope⟩ <;>
          simpa only [validateScopedAction, hscope] using hvalid
      exact accountChain_of_validateAccountAction h hon haction hvalid
  | false =>
      have hfamilyScope := scope_of_validateFact hvalid hfamily
      rcases hscope with hscope | ⟨home, hscope⟩
      · rcases hfamilyScope with
          hlocal | ⟨other, hother, -⟩ | ⟨other, grantId, hother, hpayload⟩
        · simp [hscope] at hlocal
        · simp [hscope] at hother
        · rw [hscope, FactScope.accountAddressed.injEq] at hother
          subst hother
          rcases hpayload with ⟨device, label, hints, hpayload⟩ |
            ⟨device, hpayload⟩ | ⟨device, hpayload⟩
          · rw [validateFact, hpayload, validateDeviceGrant_ok] at hvalid
            obtain ⟨-, ⟨id, creation, hrole, hget, hcreator⟩, -⟩ := hvalid
            exact ⟨creation,
              accountChain_of_creator h hon haction hrole hget hcreator⟩
          · obtain ⟨creation, root, grant, hrooted, hdevice⟩ :=
              acceptedDevice_of_projects h hon haction hpayload
            refine ⟨creation, root, hrooted,
              hdevice.creation_above.trans hdevice.grant_above, Or.inr
                ⟨grant, action, ?_, Or.inl rfl⟩⟩
            rw [hdevice.signed]
            exact hdevice
          · rw [validateFact, hpayload, validateDeviceRevoke_ok] at hvalid
            obtain ⟨-, ⟨id, creation, hrole, hget, hcreator⟩, -⟩ := hvalid
            exact ⟨creation,
              accountChain_of_creator h hon haction hrole hget hcreator⟩
      · rcases hfamilyScope with
          hlocal | ⟨other, hother, -⟩ | ⟨other, grantId, hother, -⟩
        · simp [hscope] at hlocal
        · simp [hscope] at hother
        · simp [hscope] at hother

/-- Every fact above a projected fact is projected. -/
theorem projects_of_above
    (h : AuthorityStable policy facts (statusesIn decisions))
    (hon : ReportsOn (authorityReducer policy) facts decisions report)
    (hfact : report.Projects fact) {id : FactId}
    (hpath : Relation.TransGen report.graph.Child id fact.id) :
    ∃ ancestor, ancestor.id = id ∧ report.Projects ancestor := by
  rw [hon.graph_eq] at hpath
  have hprojected := h.isProjected_of_above
    (mem_projectedFacts.1 (hon.projects_iff.1 hfact)).2 hpath
  obtain ⟨ancestor, hready, rfl, -⟩ := h id hprojected
  exact ⟨ancestor, rfl, hon.projects_iff.2 (mem_projectedFacts.2
    ⟨FactSet.mem_facts_of_get? hready.retained, hprojected⟩)⟩

end Chains

/-! A small network for the witnesses: installations with a key each, the
mailbox of the first and a grant of it to the second. -/

def signer (n : Nat) : InstallationAddress := ⟨.ofNat n, .ofNat (n + 100)⟩

def samplePolicy : AuthorityPolicy := ⟨.ofNat 1, .ofNat 10⟩

def sampleMailbox : MailboxAddress := ⟨.ofNat 1, .ofNat 10⟩

def declaration (id installation : Nat) : Fact where
  id := .ofNat id
  author := signer installation
  authoredAt := ⟨0⟩
  scope := .installationPrivate (.ofNat installation)
  causal := .none
  payload := .installationDeclared (.ofNat installation)
    (.ofNat (installation + 100)) (.ofNat 0) none
  protocol_scope := rfl
  admissible := by simp [SemanticPayload.isAdmissible, signer]

theorem canonical_scope {payload : SemanticPayload}
    (hlocal : payload.isRemoteControl = false) :
    false = payload.isRemoteControl :=
  hlocal.symm

/-- A private fact under the declaration of its installation. -/
def privateFact (installation root id : Nat) (parents : List Nat)
    (payload : SemanticPayload) (hlocal : payload.isRemoteControl = false)
    (hadmissible : payload.isAdmissible (signer installation)
      (.installationPrivate (.ofNat installation)) = true) : Fact where
  id := .ofNat id
  author := signer installation
  authoredAt := ⟨0⟩
  scope := .installationPrivate (.ofNat installation)
  causal := citing [(.localInstallation, root)] parents
  payload := payload
  protocol_scope := canonical_scope hlocal
  admissible := hadmissible

def mailboxCreation : Fact where
  id := .ofNat 10
  author := signer 1
  authoredAt := ⟨0⟩
  scope := .installationPrivate (.ofNat 1)
  causal := citing [(.localInstallation, 1)] []
  payload := .mailboxCreated (.ofNat 10) .human none
  protocol_scope := rfl
  admissible := rfl

/-- A grant of the mailbox to the second installation. -/
def mailboxGrant (id : Nat) : Fact where
  id := .ofNat id
  author := signer 1
  authoredAt := ⟨0⟩
  scope := .peerAddressed sampleMailbox
  causal := citing [(.mailboxOwner, 10)] []
  payload := .mailboxAccessGranted (.ofNat id) sampleMailbox (signer 2)
  protocol_scope := rfl
  admissible := rfl

/-- An action of the second installation under a grant. -/
def peerAction (id grant : Nat) : Fact where
  id := .ofNat id
  author := signer 2
  authoredAt := ⟨0⟩
  scope := .peerAddressed sampleMailbox
  causal := citing [(.mailboxGrant, grant)] []
  payload := .threadCancelled (.ofNat id) none
  protocol_scope := rfl
  admissible := rfl

def peerNetwork : List Fact :=
  [declaration 1 1, mailboxCreation, mailboxGrant 11, peerAction 12 11]

/-- Authority reduction returns a report in which every action outside its
own installation rests on a chain of projected facts down from the declared
keys, and nothing above a projected fact is withheld. -/
theorem authority_chains_rooted (policy : AuthorityPolicy)
    (facts : List Fact) :
    ∃ report, reduceComplete (authorityReducer policy) facts = .ok report ∧
      (∀ action mailbox, report.Projects action →
        action.scope = .peerAddressed mailbox →
        action.authorId ≠ mailbox.installationId →
        ∃ grant box root, PeerChain report mailbox action grant box root) ∧
      (∀ action account, report.Projects action →
        (action.scope = .accountAddressed account ∨
          ∃ home, action.scope = .remoteControl account home) →
        ∃ creation root, AccountChain report account action creation root) ∧
      ∀ fact, report.Projects fact → ∀ id,
        Relation.TransGen report.graph.Child id fact.id →
        ∃ ancestor, ancestor.id = id ∧ report.Projects ancestor := by
  obtain ⟨decisions, report, hreduce, hfix, -, hon⟩ :=
    authority_reduceSet policy (FactSet.fromFacts facts)
  have hstable := authorityStable_of_fixed hfix
  exact ⟨report, hreduce,
    fun action mailbox => peerChain_of_projects hstable hon,
    fun action account => accountChain_of_projects hstable hon,
    fun fact hfact id => projects_of_above hstable hon hfact⟩

/-- The action of the small network rests on the grant of the owner. -/
theorem peerNetwork_rooted :
    ∃ report, reduceComplete (authorityReducer samplePolicy) peerNetwork =
        .ok report ∧ report.Projects (peerAction 12 11) ∧
      ∃ grant box root,
        PeerChain report sampleMailbox (peerAction 12 11) grant box root := by
  obtain ⟨report, hreduce, hpeer, -⟩ :=
    authority_chains_rooted samplePolicy peerNetwork
  have hprojects : report.Projects (peerAction 12 11) :=
    projects_of_reportedStatus hreduce (by decide +kernel) (by decide +kernel)
  exact ⟨report, hreduce, hprojects, hpeer _ _ hprojects rfl (by decide)⟩

end Hq
