/-
Revocation is permanent: whatever facts join the set, an action of a revoked
peer or device stands above the revoke or rests on authority given below it.
-/
import Hq.AuthorityChains

namespace Hq

/-- Usable reachability stays when a candidate joins the usable facts. -/
theorem reachesWithCandidate_of_usablyReaches {context : ReductionContext}
    {ancestor descendant : FactId}
    (h : context.usablyReaches ancestor descendant = true)
    (candidate : FactId) :
    reachesWithCandidate context ancestor descendant candidate = true := by
  have husable : ∀ id, context.isProjected id = true →
      context.usableWith candidate id = true := by
    intro id hid
    simp [ReductionContext.usableWith, hid]
  obtain ⟨hleft, hright, hpath⟩ := ReductionContext.usablyReaches_iff.1 h
  refine reachesWithCandidate_iff.2 ⟨husable _ hleft, husable _ hright,
    hpath.imp_right ?_⟩
  exact Relation.TransGen.mono (fun _ _ hedge => ⟨hedge.1, husable _ hedge.2⟩)
    _ _

/-- Two different facts, one of which reaches the other. -/
theorem above_of_path {facts : FactSet} {left right : Fact}
    (hleft : left ∈ facts.facts) (hright : right ∈ facts.facts)
    (hne : left ≠ right)
    (hpath : Relation.ReflTransGen facts.graph.Child left.id right.id) :
    Relation.TransGen facts.graph.Child left.id right.id := by
  rcases Relation.reflTransGen_iff_eq_or_transGen.1 hpath with heq | htrans
  · exact absurd (FactSet.eq_of_mem_facts_of_id_eq hright hleft heq).symm hne
  · exact htrans

/-- An action made for an account. -/
def ActsFor (action : Fact) (account : AccountId) : Prop :=
  action.payload = .humanAccountSelected account ∨
    isScopedAction action.payload = true ∧
      (action.scope = .accountAddressed account ∨
        ∃ home, action.scope = .remoteControl account home)

theorem validateAccountAction_of_actsFor {policy : AuthorityPolicy}
    {action : Fact} {account : AccountId} {context : ReductionContext}
    (hacts : ActsFor action account)
    (hvalid : validateFact policy action context = .ok ()) :
    validateAccountAction action account context = .ok () := by
  rcases hacts with hpayload | ⟨hfamily, hscope⟩
  · rw [validateFact, hpayload] at hvalid
    exact (unit_bind_eq_ok.1 hvalid).2
  · rw [validateFact_of_scopedAction hfamily] at hvalid
    rcases hscope with hscope | ⟨home, hscope⟩ <;>
      simpa only [validateScopedAction, hscope] using hvalid

section Revoked

variable {policy : AuthorityPolicy} {facts : FactSet}
  {statuses : OrderedMap FactId DecisionStatus} {revoke action : Fact}

/-- An admitted action of a revoked peer. -/
theorem peer_revoked (h : AuthorityStable policy facts statuses)
    (hrevoke : revoke ∈ facts.facts) {grantId : GrantId}
    {mailbox : MailboxAddress}
    (hpayload : revoke.payload =
      .mailboxAccessRevoked grantId mailbox action.authorId)
    (haction : action ∈ (snapshot facts statuses).projectedFacts)
    (hscope : action.scope = .peerAddressed mailbox)
    {grant : Fact} {citedId : GrantId}
    (hcites : action.causal.authority .mailboxGrant = some grant.id)
    (hget : facts.get? grant.id = some grant)
    (hgrant : grant.payload =
      .mailboxAccessGranted citedId mailbox action.author) :
    Relation.TransGen facts.graph.Child action.id revoke.id ∨
      Relation.TransGen facts.graph.Child revoke.id grant.id ∨
      citedId ≠ grantId ∧
        Relation.TransGen facts.graph.Child grant.id revoke.id := by
  obtain ⟨hready, hparents, hvalid⟩ := h.projected haction
  have hgrantMem := FactSet.mem_facts_of_get? hget
  have hgrantValid := (h.projected (mem_projectedFacts.2 ⟨hgrantMem,
    hparents _ (Fact.mem_parents_of_authority hcites)⟩)).2.2
  rw [validateFact, hgrant, validateMailboxGrant_ok] at hgrantValid
  obtain ⟨⟨-, -, hforeign⟩, -, -, hcovers⟩ := hgrantValid
  have hpeer := validatePeerAction_of_foreign hvalid hscope hforeign
  obtain ⟨id, cited, foundId, hcited, hcitedGet, hcitedPayload, hrevokes⟩ :=
    validatePeerAction_ok.1 hpeer
  obtain rfl : grant.id = id := Option.some.inj (hcites.symm.trans hcited)
  obtain rfl : grant = cited := Option.some.inj (hget.symm.trans hcitedGet)
  rw [hgrant, SemanticPayload.mailboxAccessGranted.injEq] at hcitedPayload
  obtain rfl := hcitedPayload.1
  by_cases hsame : citedId = grantId
  · left
    have hreach := hrevokes revoke hrevoke (by simp [revokesGrant, hpayload,
      hsame])
    obtain ⟨-, -, heq | hpath⟩ := reachesWithCandidate_iff.1 hreach
    · obtain rfl := FactSet.eq_of_mem_facts_of_id_eq
        (mem_projectedFacts.1 haction).1 hrevoke heq
      rw [validateFact, hpayload, validateMailboxRevoke_ok] at hvalid
      exact absurd hvalid.1.2 hforeign
    · exact CausalIndex.transGen_child hpath
  · right
    have hne : revoke ≠ grant := by
      rintro rfl
      simp [hpayload] at hgrant
    have hcover := List.all_eq_true.1 hcovers revoke (List.mem_filter.2
      ⟨hrevoke, by simp [hpayload, Fact.authorId]⟩)
    rw [Bool.or_eq_true] at hcover
    rcases hcover with hreach | hreach
    · left
      exact above_of_path hrevoke hgrantMem hne
        ((CausalIndex.structurallyReaches_iff _).1 hreach).2.2
    · right
      exact ⟨hsame, above_of_path hgrantMem hrevoke hne.symm
        ((CausalIndex.structurallyReaches_iff _).1 hreach).2.2⟩

/-- An admitted action of a revoked device. -/
theorem device_revoked (h : AuthorityStable policy facts statuses)
    (hrevoke : revoke ∈ facts.facts) {account : AccountId}
    {revokedId grantId : GrantId}
    (hpayload : revoke.payload =
      .humanDeviceRevoked account revokedId action.authorId)
    (haction : action ∈ (snapshot facts statuses).projectedFacts)
    (hacts : ActsFor action account) {acceptance : Fact}
    (hcites : action.causal.authority .accountMembership = some acceptance.id)
    (hget : facts.get? acceptance.id = some acceptance)
    (haccepted : acceptance.payload =
      .humanDeviceAccepted account grantId action.author) :
    Relation.TransGen facts.graph.Child action.id revoke.id ∨
      Relation.TransGen facts.graph.Child revoke.id acceptance.id ∧
      ∃ grant, grant ∈ (snapshot facts statuses).projectedFacts ∧
        acceptance.causal.authority .deviceGrant = some grant.id ∧
        Relation.TransGen facts.graph.Child revoke.id grant.id := by
  obtain ⟨hready, hparents, hvalid⟩ := h.projected haction
  have hacceptanceMem := FactSet.mem_facts_of_get? hget
  have hacceptance := mem_projectedFacts.2 ⟨hacceptanceMem,
    hparents _ (Fact.mem_parents_of_authority hcites)⟩
  obtain ⟨id, membership, hrole, hmembership, hcase⟩ :=
    validateAccountAction_ok.1 (validateAccountAction_of_actsFor hacts hvalid)
  obtain rfl : acceptance.id = id := Option.some.inj (hcites.symm.trans hrole)
  obtain rfl : acceptance = membership :=
    Option.some.inj (hget.symm.trans hmembership)
  rcases hcase with ⟨label, hcreated⟩ | ⟨foundId, -, hrevokes⟩
  · simp [haccepted] at hcreated
  rcases hrevokes revoke hrevoke (by simp [revokesDevice, hpayload]) with
    hreach | hreach
  · left
    obtain ⟨-, -, heq | hpath⟩ := reachesWithCandidate_iff.1 hreach
    · obtain rfl := FactSet.eq_of_mem_facts_of_id_eq
        (mem_projectedFacts.1 haction).1 hrevoke heq
      rcases hacts with hselected | ⟨hfamily, -⟩
      · simp [hpayload] at hselected
      · simp [hpayload, isScopedAction] at hfamily
    · exact CausalIndex.transGen_child hpath
  · right
    have hne : revoke ≠ acceptance := by
      rintro rfl
      simp [hpayload] at haccepted
    refine ⟨above_of_path hrevoke hacceptanceMem hne (usablyReaches_path hreach),
      ?_⟩
    obtain ⟨-, hacceptanceParents, hacceptanceValid⟩ := h.projected hacceptance
    rw [validateFact, haccepted, validateDeviceAcceptance_ok] at hacceptanceValid
    obtain ⟨-, grant, granted, hgrantRole, hgrantGet, hmatches, hbefore⟩ :=
      hacceptanceValid
    obtain rfl := FactSet.id_of_get? hgrantGet
    have hgrantMem := FactSet.mem_facts_of_get? hgrantGet
    have hgrantReach := hbefore revoke hrevoke
      (by simp [revokesDevice, hpayload, Fact.authorId])
      (reachesWithCandidate_of_usablyReaches hreach _)
    have hgrantNe : revoke ≠ granted := by
      rintro rfl
      simp [isDeviceGrant, hpayload] at hmatches
    exact ⟨granted, mem_projectedFacts.2 ⟨hgrantMem, hacceptanceParents _
      (Fact.mem_parents_of_authority hgrantRole)⟩, hgrantRole,
      above_of_path hrevoke hgrantMem hgrantNe (usablyReaches_path hgrantReach)⟩

/-- A projected mailbox revoke withdraws access from another installation. -/
theorem foreign_of_revoked (h : AuthorityStable policy facts statuses)
    (hrevoke : revoke ∈ (snapshot facts statuses).projectedFacts)
    {grantId : GrantId} {mailbox : MailboxAddress} {grantee : InstallationId}
    (hpayload : revoke.payload =
      .mailboxAccessRevoked grantId mailbox grantee) :
    grantee ≠ mailbox.installationId := by
  obtain ⟨-, hparents, hvalid⟩ := h.projected hrevoke
  rw [validateFact, hpayload, validateMailboxRevoke_ok] at hvalid
  obtain ⟨-, id, grant, hrole, hget, hmatches⟩ := hvalid
  obtain rfl := FactSet.id_of_get? hget
  have hgrant := (h.projected (mem_projectedFacts.2
    ⟨FactSet.mem_facts_of_get? hget, hparents _
      (Fact.mem_parents_of_authority hrole)⟩)).2.2
  unfold isRevokedGrant at hmatches
  split at hmatches
  next hgranted =>
    rw [validateFact, hgranted, validateMailboxGrant_ok] at hgrant
    simp only [Bool.and_eq_true, decide_eq_true_eq] at hmatches
    obtain ⟨-, ⟨-, rfl⟩, rfl⟩ := hmatches
    exact hgrant.1.2.2
  next => simp at hmatches

end Revoked

/-- A revoke that one reduction projects binds every later reduction that
keeps it.  A peer action of the revoked installation stands above the revoke,
or rests on a grant below the revoke, or on a different grant that the revoke
knew.  An account action under an acceptance of the revoked device stands
above the revoke, or the acceptance and its grant both stand below it. -/
theorem revocation_permanent (policy : AuthorityPolicy)
    {before after : List Fact} (hsubset : ∀ fact ∈ before, fact ∈ after)
    {revoke : Fact}
    (hrevoked : ∃ report, reduceComplete (authorityReducer policy) before =
      .ok report ∧ report.Projects revoke)
    (hidentity : ∀ other ∈ after, other.id = revoke.id → other = revoke) :
    ∃ report, reduceComplete (authorityReducer policy) after = .ok report ∧
      (∀ grantId mailbox action, revoke.payload =
          .mailboxAccessRevoked grantId mailbox action.authorId →
        report.Projects action → action.scope = .peerAddressed mailbox →
        ∃ grant citedId, report.Projects grant ∧
          action.causal.authority .mailboxGrant = some grant.id ∧
          grant.payload =
            .mailboxAccessGranted citedId mailbox action.author ∧
          (report.Above action revoke ∨ report.Above revoke grant ∨
            citedId ≠ grantId ∧ report.Above grant revoke)) ∧
      ∀ account revokedId grantId action acceptance, revoke.payload =
          .humanDeviceRevoked account revokedId action.authorId →
        report.Projects action → ActsFor action account →
        action.causal.authority .accountMembership = some acceptance.id →
        report.facts.get? acceptance.id = some acceptance →
        acceptance.payload =
          .humanDeviceAccepted account grantId action.author →
        report.Above action revoke ∨ report.Above revoke acceptance ∧
          ∃ grant, report.Projects grant ∧
            acceptance.causal.authority .deviceGrant = some grant.id ∧
            report.Above revoke grant := by
  obtain ⟨earlier, hearlier, hprojected⟩ := hrevoked
  obtain ⟨first, firstReport, hfirst, hfirstFix, -, hfirstOn⟩ :=
    authority_reduceSet policy (FactSet.fromFacts before)
  obtain rfl : firstReport = earlier :=
    Except.ok.inj (hfirst.symm.trans hearlier)
  obtain ⟨decisions, report, hreduce, hfix, -, hon⟩ :=
    authority_reduceSet policy (FactSet.fromFacts after)
  have hstable := authorityStable_of_fixed hfix
  have hmem : revoke ∈ (FactSet.fromFacts after).facts := by
    have hget := hprojected.1
    rw [hfirstOn.facts_eq, FactSet.get?_fromFacts_eq_some_iff] at hget
    exact FactSet.mem_facts.2 (FactSet.get?_fromFacts_eq_some_iff.2
      ⟨hsubset revoke hget.1, rfl, hidentity⟩)
  refine ⟨report, hreduce, ?_, ?_⟩
  · intro grantId mailbox action hpayload haction hscope
    have hforeign := foreign_of_revoked (authorityStable_of_fixed hfirstFix)
      (hfirstOn.projects_iff.1 hprojected) hpayload
    obtain ⟨grant, box, root, hchain⟩ :=
      peerChain_of_projects hstable hon haction hscope hforeign
    obtain ⟨citedId, hgranted⟩ := hchain.grants
    refine ⟨grant, citedId, hchain.grant_projected, hchain.cites, hgranted, ?_⟩
    have hget := hchain.grant_projected.1
    rw [hon.facts_eq] at hget
    unfold ReductionReport.Above
    rw [hon.graph_eq]
    exact peer_revoked hstable hmem hpayload (hon.projects_iff.1 haction) hscope
      hchain.cites hget hgranted
  · intro account revokedId grantId action acceptance hpayload haction hacts
      hcites hget haccepted
    rw [hon.facts_eq] at hget
    unfold ReductionReport.Above
    rw [hon.graph_eq]
    refine (device_revoked hstable hmem hpayload (hon.projects_iff.1 haction)
      hacts hcites hget haccepted).imp_right (And.imp_right ?_)
    rintro ⟨grant, hgrant, hrole, hbelow⟩
    exact ⟨grant, hon.projects_iff.2 hgrant, hrole, hbelow⟩

/-- A revoke of a grant of the small network. -/
def mailboxRevoke (id grant : Nat) (parents : List Nat) : Fact where
  id := .ofNat id
  author := signer 1
  authoredAt := ⟨0⟩
  scope := .peerAddressed sampleMailbox
  causal := citing [(.mailboxGrant, grant)] parents
  payload := .mailboxAccessRevoked (.ofNat grant) sampleMailbox (.ofNat 2)
  protocol_scope := .refl false
  admissible := rfl

/-- The action the revoke has seen stays projected, above the revoke. -/
theorem revocation_permanent_peerNetwork :
    ∃ report, reduceComplete (authorityReducer samplePolicy)
        (peerNetwork ++ [mailboxRevoke 13 11 [12], peerAction 14 11]) =
        .ok report ∧ report.Projects (peerAction 12 11) ∧
      ∃ grant citedId, report.Projects grant ∧
        (peerAction 12 11).causal.authority .mailboxGrant = some grant.id ∧
        grant.payload = .mailboxAccessGranted citedId sampleMailbox
          (peerAction 12 11).author ∧
        (report.Above (peerAction 12 11) (mailboxRevoke 13 11 [12]) ∨
          report.Above (mailboxRevoke 13 11 [12]) grant ∨
          citedId ≠ .ofNat 11 ∧
            report.Above grant (mailboxRevoke 13 11 [12])) := by
  have hsubset : ∀ fact ∈ peerNetwork ++ [mailboxRevoke 13 11 [12]],
      fact ∈ peerNetwork ++ [mailboxRevoke 13 11 [12], peerAction 14 11] := by
    decide +kernel
  have hrevoked : ∃ report, reduceComplete (authorityReducer samplePolicy)
      (peerNetwork ++ [mailboxRevoke 13 11 [12]]) = .ok report ∧
        report.Projects (mailboxRevoke 13 11 [12]) :=
    exists_report_of_reportedStatus (by decide +kernel) (by decide +kernel)
  obtain ⟨report, hreduce, hpeer, -⟩ := revocation_permanent samplePolicy
    hsubset hrevoked (by decide +kernel)
  have hprojects : report.Projects (peerAction 12 11) :=
    projects_of_reportedStatus hreduce (by decide +kernel) (by decide +kernel)
  exact ⟨report, hreduce, hprojects, hpeer _ _ _ rfl hprojects rfl⟩

/-- Two ways a concurrent action of a revoked peer comes back or stays: the
identity of the revoke is given to another fact as well, so that no fact is
retained for it; or the action rests on a second grant of the same mailbox to
the same peer, which the revoke has seen but does not name. -/
theorem revocation_not_by_lineage :
    (reportedStatus (reduceComplete (authorityReducer samplePolicy)
        (peerNetwork ++ [mailboxRevoke 13 11 []])) (.ofNat 13) =
          some .projected ∧
      reportedStatus (reduceComplete (authorityReducer samplePolicy)
        (peerNetwork ++ [mailboxRevoke 13 11 []])) (.ofNat 12) =
          some .unauthorized ∧
      reportedStatus (reduceComplete (authorityReducer samplePolicy)
        (peerNetwork ++ [mailboxRevoke 13 11 [], declaration 13 3]))
          (.ofNat 12) = some .projected) ∧
    (reportedStatus (reduceComplete (authorityReducer samplePolicy)
        [declaration 1 1, mailboxCreation, mailboxGrant 11, mailboxGrant 14,
          mailboxRevoke 13 11 [14]]) (.ofNat 13) = some .projected ∧
      reportedStatus (reduceComplete (authorityReducer samplePolicy)
        [declaration 1 1, mailboxCreation, mailboxGrant 11, mailboxGrant 14,
          mailboxRevoke 13 11 [14], peerAction 15 14]) (.ofNat 15) =
          some .projected) := by
  decide +kernel

end Hq
