/-
What a committed receipt says: the recorded fact is projected by the authority
domain, and by the domain its kind belongs to exactly when the rules of that
domain accept it over the facts stored before.
-/
import Hq.StoreSteps
import Hq.AgentReduction
import Hq.RoundExtension

namespace Hq

/-- The reducer package that a kind of fact belongs to. -/
inductive MutationDomain where
  | authority | conversation | agent | project
deriving DecidableEq

namespace MutationDomain

def forKind : SemanticPayload → MutationDomain
  | .installationDeclared .. | .mailboxCreated .. | .mailboxSessionBound ..
  | .mailboxContextRecorded .. | .peerRouteSet .. | .peerRouteBlocked ..
  | .mailboxAccessGranted .. | .mailboxAccessRevoked ..
  | .mailboxActionObserved .. | .humanAccountCreated ..
  | .humanAccountSelected .. | .humanDeviceGranted ..
  | .humanDeviceAccepted .. | .humanDeviceRevoked .. => authority
  | .questionAsked .. | .asynchronousMessageSent .. | .answerGiven ..
  | .threadCancelled .. | .messageArchived .. | .messageRestored ..
  | .messageRejected .. | .harnessActivityRecorded ..
  | .conversationArchived .. => conversation
  | .agentNameClaimed .. | .agentRetired .. | .providerSessionSelected ..
  | .providerSessionRenamed .. => agent
  | .projectCreated .. | .projectOpened .. | .projectClosingStarted ..
  | .projectClosed .. | .projectArchived .. | .projectUnarchived ..
  | .projectMetadataUpdated .. | .projectResourceAdded ..
  | .projectResourceRemoved .. | .projectResourceReplaced ..
  | .projectPrimaryResourceChanged .. | .projectResourceHealthObserved ..
  | .projectAssignmentConfiguring .. | .projectAssignmentRunnable ..
  | .projectAssignmentBlocked .. | .projectAssignmentEnded ..
  | .projectInputAccepted .. | .projectInputDispatched ..
  | .projectOutputRecorded .. | .remoteProjectCommandRequested ..
  | .remoteProjectCommandReceipt .. | .remoteProjectCommandOutcome .. => project

/-- The reducer of a package. -/
def reduction : MutationDomain → ReductionDomain
  | authority => .authority
  | conversation => .conversation
  | agent => .agent
  | project => .project

end MutationDomain

/-! Domains layered over one set of facts. -/

section Layers

variable {policy : AuthorityPolicy} {facts : FactSet}

theorem AuthorityStable.mem_ids
    {statuses : OrderedMap FactId DecisionStatus}
    (h : AuthorityStable policy facts statuses) {id : FactId}
    (hid : (snapshot facts statuses).isProjected id = true) :
    id ∈ facts.ids := by
  obtain ⟨fact, hready, rfl, -⟩ := h _ hid
  exact hready.mem_ids

/-- Whatever a layered domain projects, the authority domain projects. -/
theorem authority_projects_of_stable {report : AuthorityReport}
    (hreport : reduceSet (authorityReducer policy) facts = .ok report)
    {statuses : OrderedMap FactId DecisionStatus}
    (h : AuthorityStable policy facts statuses) {id : FactId}
    (hid : (snapshot facts statuses).isProjected id = true) :
    (snapshot facts (statusesIn report.decisions)).isProjected id = true := by
  obtain ⟨decisions, found, hfound, -, hsettled, hon⟩ :=
    authority_reduceSet policy facts
  obtain rfl : found = report := by
    rw [hfound] at hreport
    exact Except.ok.inj hreport
  have hmem : ∀ id, id ∈ {id | (snapshot facts statuses).isProjected id = true} ↔
      (snapshot facts (statusesOf facts
        {id | (snapshot facts statuses).isProjected id = true})).isProjected id =
        true := by
    intro id
    rw [snapshot_statusesOf]
    exact ⟨fun hid => ⟨h.mem_ids hid, hid⟩, And.right⟩
  have hself : CausallyJudged.SelfSupporting (authorityReducer policy) facts
      {id | (snapshot facts statuses).isProjected id = true} := by
    intro id hid
    obtain ⟨fact, hready, hfact, hparents, hok⟩ := h _ hid
    refine ⟨fact, hready, hfact, hparents, ?_⟩
    rw [← (authority_causallyJudged policy facts).congr hready
      fun id => Bool.eq_iff_iff.2 (hmem id)]
    exact classifyFact_projected.2 hok
  have hin := (authority_causallyJudged policy facts).subset_settled hself hid
  rw [← hsettled] at hin
  rw [hon.decisions_eq, ← contextOf_eq, contextOf_isProjected]
  exact hin

/-- A fact whose parents and awaited revokes a domain projects, and which the
own rules of the domain accept. -/
structure PassesOwn {R : Type} (facts : FactSet)
    (statuses : OrderedMap FactId DecisionStatus)
    (layer : Fact → ReductionContext → DomainDecision R) (fact : Fact) :
    Prop where
  parents : ∀ parent ∈ fact.causal.parents,
    (snapshot facts statuses).isProjected parent = true
  revokes : ∀ revoke, Awaits facts revoke fact.id →
    (snapshot facts statuses).isProjected revoke = true
  accepted : layer fact (snapshot facts statuses) = .projected

/-- A layered domain projects a fact of the authority domain exactly when it
passes the own part of the domain: the authority stage never refuses it. -/
theorem layered_projects_iff {A K V R : Type}
    {domain : DomainReducer A K V R} {wrap : AuthorityReason → R}
    {layer : Fact → ReductionContext → DomainDecision R}
    (hclassify : ∀ fact context, domain.classify fact context =
      layeredDecision wrap policy layer fact context)
    {decisions : Decisions R}
    (hfix : nextDecisions domain facts facts.graph decisions = decisions)
    {statuses : OrderedMap FactId DecisionStatus}
    (hauthority : AuthorityStable policy facts statuses) {fact : Fact}
    (hfact : facts.get? fact.id = some fact)
    (hprojected : (snapshot facts statuses).isProjected fact.id = true) :
    (snapshot facts (statusesIn decisions)).isProjected fact.id = true ↔
      PassesOwn facts (statusesIn decisions) layer fact := by
  have hstable : AuthorityStable policy facts (statusesIn decisions) := by
    intro id hid
    obtain ⟨other, hready, hid, hparents, hother⟩ := (stable_projected hfix).1 hid
    rw [hclassify, layeredDecision_projected] at hother
    exact ⟨other, hready, hid, hparents, hother.1⟩
  constructor
  · intro hid
    obtain ⟨other, hready, hotherId, hparents, hother⟩ :=
      (stable_projected hfix).1 hid
    obtain rfl : other = fact := by
      have hget := hready.retained
      rw [hotherId, hfact] at hget
      exact (Option.some.inj hget).symm
    rw [hclassify, layeredDecision_projected] at hother
    exact ⟨hparents, fun revoke hrevoke =>
      (awaits_target hready hother.1 hrevoke).1, hother.2⟩
  · intro hpasses
    obtain ⟨other, hready, hotherId, -, hok⟩ := hauthority _ hprojected
    obtain rfl : other = fact := by
      have hget := hready.retained
      rw [hotherId, hfact] at hget
      exact (Option.some.inj hget).symm
    have hideal : validateFact policy other (idealContext facts) = .ok () := by
      rw [← (sameAuthority_ideal_of_admitted hready hok fun z hz =>
        ⟨hauthority.isProjected_of_above hprojected hz, hauthority.mem_ids
          (hauthority.isProjected_of_above hprojected hz)⟩).validateFact_eq]
      exact hok
    have hpast : ∀ z, Relation.TransGen facts.graph.Child z other.id →
        (snapshot facts (statusesIn decisions)).isProjected z = true := by
      intro z hz
      obtain ⟨parent, hpath, hedge⟩ := Relation.TransGen.tail'_iff.1 hz
      have hparent := hpasses.parents parent
        ((child_iff_of_get? hready.retained).1 hedge)
      rcases Relation.reflTransGen_iff_eq_or_transGen.1 hpath with rfl | hpath
      · exact hparent
      · exact hstable.isProjected_of_above hparent hpath
    have hsame := sameAuthority_ideal_of_past hready hideal
      (fun z hz => ⟨hpast z hz, hstable.mem_ids (hpast z hz)⟩)
      fun revoke hrevoke => ⟨hpasses.revokes revoke hrevoke, fun z hz =>
        hstable.isProjected_of_above (hpasses.revokes revoke hrevoke) hz⟩
    refine (stable_projected hfix).2 ⟨other, hready, rfl, hpasses.parents, ?_⟩
    rw [hclassify, layeredDecision_projected, hsame.validateFact_eq]
    exact ⟨hideal, hpasses.accepted⟩

/-- No decision of a layered domain over some facts reads a further fact, nor
do the own rules of the domain read its own status. -/
structure Undisturbing {A K V R : Type} (domain : DomainReducer A K V R)
    (layer : Fact → ReductionContext → DomainDecision R) (facts : FactSet)
    (fact : Fact) : Prop extends Unread domain facts fact where
  indifferent : ∀ round status,
    layer fact (snapshot (facts.insert fact)
      ((statusesIn (roundDecisions domain facts round)).insert fact.id
        status)) =
      layer fact (snapshot (facts.insert fact)
        ((statusesIn (roundDecisions domain facts round)).insert fact.id
          .projected))

/-- A further fact over given statuses: its parents are projected, and the own
rules of a domain accept it beside the facts that are there. -/
structure AcceptedOver {R : Type} (facts : FactSet)
    (statuses : OrderedMap FactId DecisionStatus)
    (layer : Fact → ReductionContext → DomainDecision R) (fact : Fact) :
    Prop where
  parents : ∀ parent ∈ fact.causal.parents,
    (snapshot facts statuses).isProjected parent = true
  accepted : layer fact (snapshot (facts.insert fact)
    (statuses.insert fact.id .projected)) = .projected

/-- A layered domain projects an undisturbing fact of the authority domain
exactly when it accepts it over the decisions about the facts before it. -/
theorem inserted_projects_iff {A K V R : Type} [DecidableEq R]
    {domain : DomainReducer A K V R} {wrap : AuthorityReason → R}
    {layer : Fact → ReductionContext → DomainDecision R}
    (hclassify : ∀ fact context, domain.classify fact context =
      layeredDecision wrap policy layer fact context)
    {fact : Fact} (h : Undisturbing domain layer facts fact)
    {before after : Decisions R}
    (hbefore : stabilizeDecisions domain facts facts.graph = .ok before)
    (hafter : stabilizeDecisions domain (facts.insert fact)
      (facts.insert fact).graph = .ok after)
    {statuses : OrderedMap FactId DecisionStatus}
    (hauthority : AuthorityStable policy (facts.insert fact) statuses)
    (hprojected : (snapshot (facts.insert fact) statuses).isProjected fact.id =
      true) :
    (snapshot (facts.insert fact) (statusesIn after)).isProjected fact.id =
        true ↔
      AcceptedOver facts (statusesIn before) layer fact := by
  have hfact := FactSet.get?_insert_self h.fresh
  obtain ⟨status, hstatus⟩ := h.toUnread.stable_statuses hbefore hafter
  obtain ⟨last, hlast⟩ := exists_final_round hbefore
  have hparents : (∀ parent ∈ fact.causal.parents,
      (snapshot (facts.insert fact) (statusesIn after)).isProjected parent =
        true) ↔ ∀ parent ∈ fact.causal.parents,
          (snapshot facts (statusesIn before)).isProjected parent = true := by
    refine forall₂_congr fun parent hparent => ?_
    have hne : parent ≠ fact.id := fun heq => h.own (heq ▸ hparent)
    rw [hstatus, isProjected_insert_of_ne hne]
  have hlayer : layer fact (snapshot (facts.insert fact) (statusesIn after)) =
      layer fact (snapshot (facts.insert fact)
        ((statusesIn before).insert fact.id .projected)) := by
    rw [hstatus, ← hlast last le_rfl]
    exact h.indifferent last status
  rw [layered_projects_iff hclassify (stabilizeFrom_ok hafter).1 hauthority hfact
    hprojected]
  constructor
  · rintro ⟨hpast, -, haccepted⟩
    exact ⟨hparents.1 hpast, hlayer ▸ haccepted⟩
  · rintro ⟨hpast, haccepted⟩
    refine ⟨hparents.2 hpast, fun revoke hawaits => ?_, hlayer.trans haccepted⟩
    -- An awaited revoke descends from the fact, which nothing cites.
    obtain ⟨other, hready, hid, -, hok⟩ := hauthority _ hprojected
    obtain rfl : other = fact := by
      have hget := hready.retained
      rw [hid, hfact] at hget
      exact (Option.some.inj hget).symm
    obtain ⟨-, child, -, hchild⟩ := awaits_target hready hok hawaits
    exact absurd hchild (h.toUncited.not_child child)

end Layers

/-! Steps of the store. -/

section Steps

variable {D : Type} [LinearOrder D] {environment : StoreEnvironment D}
  {database next : Database} {fact : VerifiedSemanticFact}
  {policy : AuthorityPolicy}

/-- The materialized reduction is that of the stored facts. -/
def Materialized (database : Database) : Prop :=
  ∀ complete, database.rebuilt = some complete →
    ∃ facts, loadFacts database = .ok facts ∧
      buildCompleteSnapshot facts complete.policy = .ok complete

theorem CommitsAnew.materialized {built : CompleteSnapshot}
    (h : CommitsAnew database fact policy built next) : Materialized next := by
  obtain ⟨facts, hfacts, hbuilt⟩ := h.reduced
  intro complete hcomplete
  obtain rfl : built = complete :=
    Option.some.inj (h.rebuilt_eq.symm.trans hcomplete)
  refine ⟨facts, hfacts, ?_⟩
  rw [(aligned_of_build hbuilt).policy_eq]
  exact hbuilt

theorem Materialized.of_eq (h : Materialized database)
    (hfacts : next.facts = database.facts)
    (hrebuilt : next.rebuilt = database.rebuilt) : Materialized next := by
  intro complete hcomplete
  rw [loadFacts_congr hfacts]
  exact h complete (hrebuilt ▸ hcomplete)

theorem Ingests.materialized (h : Materialized database)
    {outcome : IngestOutcome}
    (hstep : Ingests database fact policy next outcome) : Materialized next := by
  cases hstep with
  | again => exact h
  | anew commits => exact commits.materialized

/-- In every reached database the reduction is that of the facts. -/
theorem Reached.materialized (h : Reached environment database) :
    Materialized database := by
  induction h with
  | empty =>
      intro complete hcomplete
      cases hcomplete
  | ingested _ hstep ih => exact (ingestInTransaction_eq_ok hstep).materialized ih
  | mutated _ hstep ih =>
      cases executeLocalMutation_eq_ok hstep with
      | replayed => exact ih
      | rejected => exact ih.of_eq rfl rfl
      | committed _ _ _ step =>
          exact ((ingestInTransaction_eq_ok step).materialized ih).of_eq rfl rfl

/-- The fact that a request decides on over the reduced facts of a database,
and signs. -/
structure Signs (database : Database) (request : LocalMutationRequest)
    (facts : List Fact) (before : CompleteSnapshot)
    (fact : VerifiedSemanticFact) : Prop where
  loaded : loadFacts database = .ok facts
  reduced : buildCompleteSnapshot facts request.policy = .ok before
  decided : ∃ plan auxiliaryRandomness result,
    request.decide before (requestDraft database request) =
      .commit plan auxiliaryRandomness result ∧
    request.sign plan auxiliaryRandomness = some fact

end Steps

/-! What the index of a reached database says about a fact. -/

/-- A domain projects an identity, as the index records it. -/
def IndexProjects (complete : CompleteSnapshot) (domain : ReductionDomain)
    (id : FactId) : Prop :=
  ∃ decision, (normalize complete).decision domain id = some decision ∧
    decision.status = .projected

theorem factIsAdmitted_iff {complete : CompleteSnapshot} {id : FactId} :
    factIsAdmitted (normalize complete) id = true ↔
      ∃ domain, IndexProjects complete domain id := by
  unfold factIsAdmitted IndexProjects
  rw [List.any_eq_true]
  constructor
  · rintro ⟨domain, -, hprojected⟩
    obtain ⟨decision, hdecision, hstatus⟩ := (Option.any_eq_true _ _).1 hprojected
    exact ⟨domain, decision, hdecision, by simpa using hstatus⟩
  · rintro ⟨domain, decision, hdecision, hstatus⟩
    exact ⟨domain, domain.mem_all,
      (Option.any_eq_true _ _).2 ⟨decision, hdecision, by simpa using hstatus⟩⟩

section Owner

variable {policy : AuthorityPolicy} {facts : FactSet}
  {complete : CompleteSnapshot}

/-- An indexed decision has the status of the report it was filed from. -/
theorem filed_status_iff {R : Type} {decisions : Decisions R}
    {mapReason : R → ReductionReason} {id : FactId} :
    (∃ decision, (decisions.get? id).map (normalizeDecision mapReason) =
        some decision ∧ decision.status = .projected) ↔
      (snapshot facts (statusesIn decisions)).isProjected id = true := by
  rw [← contextOf_eq, contextOf_isProjected]
  constructor
  · rintro ⟨decision, hdecision, hstatus⟩
    obtain ⟨source, hsource, rfl⟩ := Option.map_eq_some_iff.1 hdecision
    exact ⟨source, hsource, hstatus⟩
  · rintro ⟨source, hsource, hstatus⟩
    exact ⟨_, Option.map_eq_some_iff.2 ⟨source, hsource, rfl⟩, hstatus⟩

/-- The statuses of a domain of a complete reduction. -/
def CompleteSnapshot.statuses (complete : CompleteSnapshot) :
    ReductionDomain → OrderedMap FactId DecisionStatus
  | .authority => statusesIn complete.authority.decisions
  | .conversation => statusesIn complete.conversation.decisions
  | .agent => statusesIn complete.agent.decisions
  | .project => statusesIn complete.project.decisions

theorem indexProjects_iff (facts : FactSet) {domain : ReductionDomain}
    {id : FactId} : IndexProjects complete domain id ↔
      (snapshot facts (complete.statuses domain)).isProjected id = true := by
  unfold IndexProjects ReductionIndexSnapshot.decision
  rw [normalize_decision]
  cases domain <;> exact filed_status_iff

namespace Aligned

variable (h : Aligned policy facts complete)
include h

/-- Every domain admits only what the authority rules admit. -/
theorem authorityStable (domain : ReductionDomain) :
    AuthorityStable policy facts (complete.statuses domain) := by
  have hlayered : ∀ {A K V R : Type} {reducer : DomainReducer A K V R}
      {wrap : AuthorityReason → R}
      {layer : Fact → ReductionContext → DomainDecision R}
      {decisions : Decisions R},
      (∀ fact context, reducer.classify fact context =
        layeredDecision wrap policy layer fact context) →
      nextDecisions reducer facts facts.graph decisions = decisions →
      AuthorityStable policy facts (statusesIn decisions) := by
    intro A K V R reducer wrap layer decisions hclassify hfix id hid
    obtain ⟨fact, hready, hid, hparents, hfact⟩ := (stable_projected hfix).1 hid
    rw [hclassify, layeredDecision_projected] at hfact
    exact ⟨fact, hready, hid, hparents, hfact.1⟩
  cases domain with
  | authority => exact authorityStable_of_fixed h.authority.fixed
  | conversation =>
      exact hlayered (classifyConversationFact_eq policy) h.conversation.fixed
  | agent => exact hlayered (classifyAgentFact_eq policy) h.agent.fixed
  | project =>
      exact hlayered (fun _ _ => classifyProjectFact_eq policy) h.project.fixed

end Aligned

/-- The domain of its kind decides on no stored fact otherwise for the new
one. -/
def Undisturbed (policy : AuthorityPolicy) (facts : FactSet) (fact : Fact) :
    Prop :=
  match MutationDomain.forKind fact.payload with
  | .authority => True
  | .conversation => Undisturbing (conversationReducer policy)
      (classifyConversation policy) facts fact
  | .agent => Undisturbing (agentReducer policy) agentLayer facts fact
  | .project => Undisturbing (projectReducer policy pathConflicts)
      (projectLayer pathConflicts) facts fact

/-- The rules of the domain that a kind belongs to accept a new fact over a
reduction of the stored facts; the authority domain adds none to its own. -/
def OwnRulesAccept (policy : AuthorityPolicy) (facts : FactSet)
    (before : CompleteSnapshot) (fact : Fact) : Prop :=
  match MutationDomain.forKind fact.payload with
  | .authority => True
  | .conversation => AcceptedOver facts (before.statuses .conversation)
      (classifyConversation policy) fact
  | .agent => AcceptedOver facts (before.statuses .agent) agentLayer fact
  | .project => AcceptedOver facts (before.statuses .project)
      (projectLayer pathConflicts) fact

theorem owner_projects_iff {before : CompleteSnapshot} {fact : Fact}
    (hbefore : Reduces policy facts before)
    (hafter : Reduces policy (facts.insert fact) complete)
    (hundisturbed : Undisturbed policy facts fact)
    (hauthority : IndexProjects complete .authority fact.id) :
    IndexProjects complete (MutationDomain.forKind fact.payload).reduction
      fact.id ↔ OwnRulesAccept policy facts before fact := by
  have hstable : AuthorityStable policy (facts.insert fact)
      (complete.statuses .authority) :=
    authorityStable_of_fixed (indexable_of_reduceSet hafter.authority).fixed
  have hprojected := (indexProjects_iff (facts.insert fact)).1 hauthority
  rw [indexProjects_iff (facts.insert fact)]
  unfold Undisturbed at hundisturbed
  unfold OwnRulesAccept
  cases hkind : MutationDomain.forKind fact.payload with
  | authority => exact ⟨fun _ => trivial, fun _ => hprojected⟩
  | conversation =>
      simp only [hkind] at hundisturbed
      exact inserted_projects_iff (classifyConversationFact_eq policy)
        hundisturbed (stabilized_of_reduceSet hbefore.conversation)
        (stabilized_of_reduceSet hafter.conversation) hstable hprojected
  | agent =>
      simp only [hkind] at hundisturbed
      exact inserted_projects_iff (classifyAgentFact_eq policy) hundisturbed
        (stabilized_of_reduceSet hbefore.agent)
        (stabilized_of_reduceSet hafter.agent) hstable hprojected
  | project =>
      simp only [hkind] at hundisturbed
      exact inserted_projects_iff (fun _ _ => classifyProjectFact_eq policy)
        hundisturbed (stabilized_of_reduceSet hbefore.project)
        (stabilized_of_reduceSet hafter.project) hstable hprojected

end Owner

theorem loadFacts_eq_ok {database : Database} {facts : List Fact}
    (h : loadFacts database = .ok facts) :
    facts = database.facts.values.map VerifiedSemanticFact.fact := by
  unfold loadFacts at h
  split at h <;> cases h
  rfl

/-- The facts of a database after a new one is stored. -/
theorem fromFacts_inserted {database next : Database}
    {fact : VerifiedSemanticFact} {facts after : List Fact}
    (hfacts : loadFacts database = .ok facts)
    (hafter : loadFacts next = .ok after)
    (hnext : next.facts = database.facts.insert fact.fact.id fact)
    (habsent : database.facts.get? fact.fact.id = none) :
    FactSet.fromFacts after =
      (FactSet.fromFacts facts).insert fact.fact := by
  have hlist : (FactSet.fromFacts facts).insert fact.fact =
      FactSet.fromFacts (facts ++ [fact.fact]) := by
    simp [FactSet.fromFacts, List.foldl_append]
  obtain rfl := loadFacts_eq_ok hfacts
  obtain rfl := loadFacts_eq_ok hafter
  rw [hlist]
  refine FactSet.fromFacts_congr fun other => ?_
  simp only [List.mem_append, List.mem_map, List.mem_singleton,
    OrderedMap.mem_values, hnext, OrderedMap.get?_insert]
  constructor
  · rintro ⟨stored, ⟨key, hkey⟩, rfl⟩
    split at hkey
    next => cases hkey; exact .inr rfl
    next => exact .inl ⟨stored, ⟨key, hkey⟩, rfl⟩
  · rintro (⟨stored, ⟨key, hkey⟩, rfl⟩ | rfl)
    · refine ⟨stored, ⟨key, ?_⟩, rfl⟩
      rw [if_neg, hkey]
      rintro rfl
      rw [habsent] at hkey
      cases hkey
    · exact ⟨fact, ⟨fact.fact.id, if_pos rfl⟩, rfl⟩

/-- Projections that are always read back, and digests that are keys. -/
def sampleEnvironment : StoreEnvironment ConversationId :=
  ⟨fun _ => .projectThread (.ofNat 0) (.ofNat 0), id, fun _ => .ok ()⟩

def signedEvent (fact : Fact) : VerifiedSemanticFact := ⟨fact, [1]⟩

/-- The database after a list of facts is ingested one by one. -/
def ingestAll (facts : List Fact) : Except StoreErrorClass Database :=
  facts.foldlM (fun database fact => do
    let (next, _) ← ingestInTransaction sampleEnvironment database
      (signedEvent fact) samplePolicy
    .ok next) .empty

theorem reached_of_ingestAll {facts : List Fact} {database : Database}
    (h : ingestAll facts = .ok database) :
    Reached sampleEnvironment database ∧ database.receipts = ∅ := by
  have hfold : ∀ (list : List Fact) (start : Database),
      Reached sampleEnvironment start → start.receipts = ∅ →
      list.foldlM (fun database fact => do
        let (next, _) ← ingestInTransaction sampleEnvironment database
          (signedEvent fact) samplePolicy
        .ok next) start = .ok database →
      Reached sampleEnvironment database ∧ database.receipts = ∅ := by
    intro list
    induction list with
    | nil =>
        intro start hstart hempty hrun
        cases hrun
        exact ⟨hstart, hempty⟩
    | cons fact rest ih =>
        intro start hstart hempty hrun
        rw [List.foldlM_cons] at hrun
        obtain ⟨next, hnext, hrest⟩ := bind_eq_ok.1 hrun
        obtain ⟨⟨ingested, outcome⟩, hingest, hnext⟩ := bind_eq_ok.1 hnext
        obtain rfl : ingested = next := Except.ok.inj hnext
        refine ih ingested (.ingested hstart hingest) ?_ hrest
        rw [(ingestInTransaction_eq_ok hingest).receipts_eq]
        split
        · rfl
        · exact hempty
  exact hfold facts .empty .empty rfl h

/-- A command that commits a given fact. -/
def commitCommand (fact : Fact) : LocalMutationRequest where
  commandId := .ofNat 1
  requestDigest := .ofNat 1
  policy := samplePolicy
  sign _ _ := some (signedEvent fact)
  draftId := none
  decide _ _ := .commit ⟨fact.authorId, fact.authoredAt, fact.scope,
    fact.causal, fact.payload⟩ [] .empty

/-- What a run shows: the facts stored before the command, the kind of its
receipt and the status of its fact in the domain of its kind. -/
def committedStatus (facts : List Fact) (fact : Fact) :
    Option (List Fact × MutationResultKind × Option DecisionStatus) :=
  match ingestAll facts with
  | .error _ => none
  | .ok database =>
      match loadFacts database, executeLocalMutation sampleEnvironment database
          (commitCommand fact) with
      | .ok stored, .ok (next, receipt, _) => some (stored, receipt.resultKind,
          (next.rebuilt.bind fun complete => (normalize complete).decision
            (MutationDomain.forKind fact.payload).reduction fact.id).map
              IndexedDecision.status)
      | _, _ => none

/-- A run that shows a status. -/
structure CommitRun (stored : List Fact) (fact : Fact)
    (kind : MutationResultKind) (status : DecisionStatus)
    (database next : Database) (receipt : MutationReceipt) (changed : Bool) :
    Prop where
  reached : Reached sampleEnvironment database
  receipts_eq : database.receipts = ∅
  loaded : loadFacts database = .ok stored
  step : executeLocalMutation sampleEnvironment database (commitCommand fact) =
    .ok (next, receipt, changed)
  kind_eq : receipt.resultKind = kind
  decided : ∃ complete decision, next.rebuilt = some complete ∧
    (normalize complete).decision
      (MutationDomain.forKind fact.payload).reduction fact.id =
      some decision ∧ decision.status = status

theorem commitRun_of_status {facts stored : List Fact} {fact : Fact}
    {kind : MutationResultKind} {status : DecisionStatus}
    (h : committedStatus facts fact = some (stored, kind, some status)) :
    ∃ database next receipt changed,
      CommitRun stored fact kind status database next receipt changed := by
  unfold committedStatus at h
  split at h
  · cases h
  next database hdatabase =>
    split at h
    next loaded next receipt changed hloaded hstep =>
      simp only [Option.some.injEq, Prod.mk.injEq] at h
      obtain ⟨rfl, hkind, hstatus⟩ := h
      obtain ⟨decision, hdecision, hstatus⟩ := Option.map_eq_some_iff.1 hstatus
      obtain ⟨complete, hcomplete, hdecision⟩ :=
        Option.bind_eq_some_iff.1 hdecision
      obtain ⟨hreached, hreceipts⟩ := reached_of_ingestAll hdatabase
      exact ⟨database, next, receipt, changed, hreached, hreceipts, hloaded,
        hstep, hkind, complete, decision, hcomplete, hdecision, hstatus⟩
    next => cases h

/-- An open project behind an account of its home. -/
def openProject : List Fact :=
  [declaration 1 1, accountCreation 20 1,
    projectCreation 30 20 (workingTree 1 'a') .opened]

def closingOfProject : Fact :=
  projectTransition 31 20 30 [] (.projectClosingStarted (.ofNat 30))

/-- A domain that its first round leaves alone stays as it is. -/
theorem roundDecisions_of_fixed {A K V R : Type} {domain : DomainReducer A K V R}
    {facts : FactSet}
    (h : nextDecisions domain facts facts.graph (roundDecisions domain facts 0) =
      roundDecisions domain facts 0) (round : Nat) :
    roundDecisions domain facts round = roundDecisions domain facts 0 :=
  Function.iterate_fixed h round

theorem undisturbed_closingOfProject :
    Undisturbed samplePolicy (FactSet.fromFacts openProject)
      closingOfProject := by
  have hfixed (round : Nat) : roundDecisions
      (projectReducer samplePolicy pathConflicts)
      (FactSet.fromFacts openProject) round = roundDecisions
        (projectReducer samplePolicy pathConflicts)
        (FactSet.fromFacts openProject) 0 :=
    roundDecisions_of_fixed (by decide +kernel) round
  change Undisturbing (projectReducer samplePolicy pathConflicts)
    (projectLayer pathConflicts) _ _
  refine ⟨⟨⟨?_, ?_, ?_⟩, ?_⟩, ?_⟩
  · decide +kernel
  · decide +kernel
  · decide +kernel
  · intro round status
    rw [hfixed]
    cases status <;> decide +kernel
  · intro round status
    rw [hfixed]
    cases status <;> decide +kernel

end Hq
