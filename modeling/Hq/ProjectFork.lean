/-
The fork law at a head: which of the transitions that cite one head as their
previous state take part in a fork, and what becomes of the others.
-/
import Hq.ProjectLog

namespace Hq

/-- The statuses that keep a fact out of a fork. -/
def DecisionStatus.refuses : DecisionStatus → Bool
  | .invalid | .unauthorized | .unsupported | .unresolved => true
  | .projected | .conflicted => false

theorem mayFork_of_decision {R : Type} {facts : FactSet}
    {decisions : Decisions R} {id : FactId} {decision : FactDecision R}
    (h : decisions.get? id = some decision) :
    mayFork (snapshot facts (statusesIn decisions)) id =
      !decision.status.refuses := by
  have hstatus : (snapshot facts (statusesIn decisions)).statuses.get? id =
      some decision.status := by
    simp [snapshot, statusesIn, h]
  unfold mayFork
  rw [hstatus]
  cases decision.status <;> rfl

/-- Only transitions of a project cite a previous state, as the role table of
the protocol has it. -/
def PreviousStateTyped (facts : FactSet) : Prop :=
  ∀ fact ∈ facts.facts, (fact.causal.authority .previousState).isSome = true →
    isHomeFact fact.payload = true ∧ isCreation fact.payload = false

/-- A head of a project with the snapshot that its siblings are judged in. -/
structure Head where
  policy : AuthorityPolicy
  conflicts : ResourceLocator → ResourceLocator → Bool
  context : ReductionContext
  state : InternalProjectState

namespace Head

/-- The state at the head is the one that the chain replays to. -/
def Replays (head : Head) : Prop :=
  stateAt head.context head.state.head = some head.state

/-- A retained transition that cites the head in its project. -/
structure Sibling (head : Head) (fact : Fact) : Prop where
  retained : fact ∈ head.context.facts.facts
  transition : isCreation fact.payload = false
  home : isHomeFact fact.payload = true
  sameProject : projectIdOf fact = some head.state.projectId
  cites : fact.causal.authority .previousState = some head.state.head

/-- A sibling that passes every check made before its identity and the fork
are looked at: its past is usable, its authority holds, and the home of the
project signed it. -/
structure Reaches (head : Head) (fact : Fact) : Prop where
  sibling : head.Sibling fact
  ready : GraphReady head.context.facts fact
  usable : ∀ parent ∈ fact.causal.parents,
    head.context.isProjected parent = true
  authority : validateFact head.policy fact head.context = .ok ()
  byHome : fact.authorId = head.state.home
  homeCited : validProjectHome fact head.state.home head.context = true

/-- A sibling whose place at the head is disputed only by the fork test or by
an identity that the source answers with a conflict. -/
structure Contends (head : Head) (fact : Fact) : Prop where
  reaches : head.Reaches fact
  identity : ∀ error, stableIdentityConflict fact head.context = some error →
    error.1 ≠ .inputSequenceConflict

/-- A sibling that the fork test is applied to. -/
structure Faces (head : Head) (fact : Fact) : Prop where
  reaches : head.Reaches fact
  identity : stableIdentityConflict fact head.context = none

/-- A sibling that would be invalid at the head if it were alone there. -/
structure Fails (head : Head) (fact : Fact) : Prop where
  faces : head.Faces fact
  fails : ∃ error, applyPayload head.state fact head.context = .error error ∧
    projectDecision error = .invalid error.1

/-- A sibling that would be admitted at the head if it were alone there. -/
structure Admits (head : Head) (fact : Fact) : Prop where
  faces : head.Faces fact
  applies : ∃ next, applyPayload head.state fact head.context = .ok next ∧
    (isOpening fact.payload = true → (claimConflictParticipants head.conflicts
      next fact.id head.context).isEmpty = true)

/-- The siblings that the fork test finds for a fact. -/
def participants (head : Head) (fact : Fact) : OrderedSet FactId :=
  siblingParticipants fact head.state.projectId head.state.head head.context

/-- The fork test finds more than the fact itself. -/
def Forks (head : Head) (fact : Fact) : Prop :=
  1 < (head.participants fact).size

/-- A fact that other siblings count when they are tested. -/
def Counts (head : Head) (fact : Fact) : Prop :=
  mayFork head.context fact.id = true

/-- What is left of the rules once the home is found to have signed. -/
def judged (head : Head) (fact : Fact) : Except ClassificationError Unit :=
  match stableIdentityConflict fact head.context with
  | some error => .error error
  | none => do
      require (!(1 < (head.participants fact).size))
        (.homeLinearFork, head.participants fact)
      let next ← applyPayload head.state fact head.context
      let claims := if isOpening fact.payload then
          claimConflictParticipants head.conflicts next fact.id head.context
        else ∅
      require claims.isEmpty (.resourceClaimConflict, claims)

/-- What is left of the rules once the fork test is passed. -/
def judgedAlone (head : Head) (fact : Fact) : DomainDecision ProjectReason :=
  match applyPayload head.state fact head.context with
  | .error error => projectDecision error
  | .ok next =>
      let claims := if isOpening fact.payload then
          claimConflictParticipants head.conflicts next fact.id head.context
        else ∅
      if claims.isEmpty then .projected
      else .conflicted .resourceClaimConflict claims

end Head

/-- A fact is decided as unresolved, unauthorized, unsupported or invalid. -/
def Refused (decisions : Decisions ProjectReason) (fact : Fact) : Prop :=
  ∃ decision, decisions.get? fact.id = some decision ∧
    decision.status.refuses = true

theorem transition_eq_error {guard : Bool} {reason : ProjectReason}
    {next : InternalProjectState} {error : ClassificationError}
    (h : transition guard reason next = .error error) :
    error = invalid reason := by
  rcases bind_eq_error.1 h with hguard | ⟨-, -, hnext⟩
  · exact (require_eq_error.1 hguard).2.symm
  · cases hnext

theorem humanTransition_eq_error {fact : Fact} {context : ReductionContext}
    {guard : Bool} {reason : ProjectReason} {next : InternalProjectState}
    {error : ClassificationError}
    (h : humanTransition fact context guard reason next = .error error) :
    error = invalid .projectAuthorityMismatch ∨ error = invalid reason := by
  rcases bind_eq_error.1 h with hhuman | ⟨-, -, hnext⟩
  · exact .inl (require_eq_error.1 hhuman).2.symm
  · exact .inr (transition_eq_error hnext)

/-- No transition fails as a fork. -/
theorem applyPayload_ne_fork {state : InternalProjectState} {fact : Fact}
    {context : ReductionContext} {error : ClassificationError}
    (h : applyPayload state fact context = .error error) :
    error.1 ≠ .homeLinearFork := by
  unfold applyPayload at h
  rcases bind_eq_error.1 h with hfamily | ⟨next, -, hnext⟩
  · unfold applyFamily at hfamily
    split at hfamily
    case h_11 =>
      split at hfamily <;> cases hfamily
      simp [invalid]
    case h_12 =>
      rcases bind_eq_error.1 hfamily with hhuman | ⟨-, -, hrest⟩
      · simp [← (require_eq_error.1 hhuman).2, invalid]
      · rcases bind_eq_error.1 hrest with hguard | ⟨-, -, hbinding⟩
        · simp [← (require_eq_error.1 hguard).2, invalid]
        · simp [transition_eq_error hbinding, invalid]
    case h_15 =>
      rcases bind_eq_error.1 hfamily with hforced | ⟨-, -, hbinding⟩
      · simp [← (require_eq_error.1 hforced).2, invalid]
      · simp [transition_eq_error hbinding, invalid]
    case h_19 => cases hfamily
    all_goals first
      | rcases humanTransition_eq_error hfamily with rfl | rfl <;>
          simp [invalid]
      | simp [transition_eq_error hfamily, invalid]
      | split at hfamily
        · cases hfamily
          simp [invalid]
        · simp [transition_eq_error hfamily, invalid]
  · cases hnext

section Rules

variable {R : Type} {policy : AuthorityPolicy} {context : ReductionContext}
  {fact : Fact}

/-- An identity conflict is an input sequence conflict, which is invalid, or a
conflict of its own. -/
theorem projectDecision_identity {error : ClassificationError}
    (h : stableIdentityConflict fact context = some error) :
    (error.1 = .inputSequenceConflict ∧
      projectDecision error = .invalid .inputSequenceConflict) ∨
    (error.1 ≠ .inputSequenceConflict ∧ error.1 ≠ .homeLinearFork ∧
      projectDecision error = .conflicted error.1 error.2) := by
  unfold stableIdentityConflict at h
  split at h
  · cases h
  next reason identity hidentity =>
    simp only at h
    split at h
    · cases h
      unfold stableIdentity at hidentity
      split at hidentity <;> cases hidentity <;> simp [projectDecision]
    · cases h

/-- A transition is never in conflict with the roots of authority. -/
theorem validateScopedAction_ne_rootConflict :
    validateScopedAction fact context ≠ .error .uniqueRootConflict := by
  intro h
  unfold validateScopedAction at h
  split at h
  · unfold validateLocalFact at h
    split at h
    · simp [bind_eq_error, require_eq_error, requiredAuthority_eq_error,
        requireCited_eq_error] at h
    · cases h
  · unfold validatePeerAction at h
    simp only [bind_eq_error, requiredAuthority_eq_error] at h
    rcases h with ⟨-, h⟩ | ⟨grant, -, h⟩
    · cases h
    · split at h
      · cases h
      · split at h
        · cases h
        · simp [bind_eq_error, require_eq_error, validateGrantForAction,
            requireCited_eq_error] at h
  · simp [validateAccountAction, bind_eq_error, requiredAuthority_eq_error,
      requireCited_eq_error] at h
  · simp [validateAccountAction, bind_eq_error, requiredAuthority_eq_error,
      requireCited_eq_error] at h

theorem isScopedAction_of_isHomeFact (h : isHomeFact fact.payload = true) :
    isScopedAction fact.payload = true := by
  cases hpayload : fact.payload <;>
    simp_all [isHomeFact, projectId, isScopedAction]

/-- A fact that authority turns away without a root conflict is refused. -/
theorem refuses_of_classifyFact {wrap : AuthorityReason → R}
    {children : OrderedSet FactId}
    (hrefused : validateFact policy fact context ≠ .ok ())
    (hroot : validateFact policy fact context ≠ .error .uniqueRootConflict) :
    (domainDecision (mapAuthorityDecision wrap
      (classifyFact policy fact context)) children).status.refuses = true := by
  unfold classifyFact
  cases hvalid : validateFact policy fact context with
  | ok value => exact absurd hvalid hrefused
  | error reason =>
      cases reason with
      | uniqueRootConflict => exact absurd hvalid hroot
      | _ => rfl

end Rules

namespace Head

variable {head : Head} {fact other : Fact}

theorem Faces.contends (h : head.Faces fact) : head.Contends fact :=
  ⟨h.reaches, fun error herror => by rw [h.identity] at herror; cases herror⟩

theorem Sibling.eq_of_id (h : head.Sibling fact) (hother : head.Sibling other)
    (hid : fact.id = other.id) : fact = other :=
  FactSet.eq_of_mem_facts_of_id_eq h.retained hother.retained hid

/-- Before its home is checked a sibling has found the head. -/
theorem validateProjectFact_sibling (hreplays : head.Replays)
    (hsibling : head.Sibling fact)
    (husable : head.context.isProjected head.state.head = true) :
    validateProjectFact head.conflicts fact head.context = (do
      require (fact.authorId = head.state.home &&
        validProjectHome fact head.state.home head.context)
        (invalid .projectAuthorityMismatch)
      head.judged fact) := by
  have hparent := Fact.mem_parents_of_authority hsibling.cites
  have hfilter : ((stateAt head.context head.state.head).filter fun found =>
      decide (found.projectId = head.state.projectId)) = some head.state := by
    rw [show stateAt head.context head.state.head = some head.state from
      hreplays]
    simp
  rw [validateProjectFact_of_home hsibling.home hsibling.transition
    hsibling.sameProject]
  unfold validateHomeTransition
  simp only [hsibling.cites, hparent, husable, hfilter]
  rfl

/-- A sibling that the home did not sign is invalid. -/
theorem projectLayer_unsigned (hreplays : head.Replays)
    (hsibling : head.Sibling fact)
    (husable : head.context.isProjected head.state.head = true)
    (hsigned : ¬ (fact.authorId = head.state.home ∧
      validProjectHome fact head.state.home head.context = true)) :
    projectLayer head.conflicts fact head.context =
      .invalid .projectAuthorityMismatch := by
  have hunsigned : (decide (fact.authorId = head.state.home) &&
      validProjectHome fact head.state.home head.context) = false := by
    rw [Bool.eq_false_iff]
    simpa using hsigned
  unfold projectLayer
  rw [validateProjectFact_sibling hreplays hsibling husable, hunsigned]
  rfl

/-- A sibling that the home signed is judged by its identity and at the
fork. -/
theorem validateProjectFact_reaches (hreplays : head.Replays)
    (h : head.Reaches fact) :
    validateProjectFact head.conflicts fact head.context =
      head.judged fact := by
  have hsigned : (decide (fact.authorId = head.state.home) &&
      validProjectHome fact head.state.home head.context) = true := by
    simp [h.byHome, h.homeCited]
  rw [validateProjectFact_sibling hreplays h.sibling
    (h.usable _ (Fact.mem_parents_of_authority h.sibling.cites)), hsigned]
  rfl

/-- An identity conflict decides before the fork test. -/
theorem projectLayer_identity (hreplays : head.Replays)
    (h : head.Reaches fact) {error : ClassificationError}
    (hidentity : stableIdentityConflict fact head.context = some error) :
    projectLayer head.conflicts fact head.context = projectDecision error := by
  rw [projectLayer, validateProjectFact_reaches hreplays h, judged, hidentity]

/-- The identity of a contending sibling is a conflict of its own. -/
theorem Contends.identity_conflicted (h : head.Contends fact)
    (hreplays : head.Replays) {error : ClassificationError}
    (hidentity : stableIdentityConflict fact head.context = some error) :
    error.1 ≠ .homeLinearFork ∧
      projectLayer head.conflicts fact head.context =
        .conflicted error.1 error.2 := by
  rw [projectLayer_identity hreplays h.reaches hidentity]
  exact ((projectDecision_identity hidentity).resolve_left fun hinput =>
    h.identity error hidentity hinput.1).2

/-- The fork test comes before the transition and before its claims. -/
theorem projectLayer_faces (hreplays : head.Replays) (h : head.Faces fact)
    [Decidable (head.Forks fact)] :
    projectLayer head.conflicts fact head.context =
      if head.Forks fact then
        .conflicted .homeLinearFork (head.participants fact)
      else head.judgedAlone fact := by
  rw [projectLayer, validateProjectFact_reaches hreplays h.reaches, judged,
    h.identity]
  by_cases hforks : head.Forks fact
  · rw [if_pos hforks]
    unfold Forks at hforks
    simp [require, hforks, bind, Except.bind, projectDecision]
  · rw [if_neg hforks, judgedAlone]
    unfold Forks at hforks
    cases happly : applyPayload head.state fact head.context with
    | error error => simp [require, hforks, bind, Except.bind]
    | ok next =>
        simp only [require, hforks, bind, Except.bind]
        generalize (if isOpening fact.payload = true then
          claimConflictParticipants head.conflicts next fact.id head.context
          else ∅) = claims
        cases claims.isEmpty <;> rfl

/-- To be judged as projected is to be admitted. -/
theorem Admits.judgedAlone (h : head.Admits fact) :
    head.judgedAlone fact = .projected := by
  obtain ⟨-, next, happly, hclaims⟩ := h
  rw [Head.judgedAlone, happly]
  by_cases hopening : isOpening fact.payload = true
  · simp [hopening, hclaims hopening]
  · simp [hopening]

/-- Alone a sibling is never in a fork. -/
theorem judgedAlone_ne_fork {children : OrderedSet FactId} :
    (domainDecision (head.judgedAlone fact) children).reason ≠
      some (.domain .homeLinearFork) := by
  unfold Head.judgedAlone
  split
  next error happly =>
    have hne := applyPayload_ne_fork happly
    obtain ⟨reason, participants⟩ := error
    cases reason <;> simp_all [projectDecision, domainDecision]
  next next _ =>
    simp only
    generalize (if isOpening fact.payload = true then claimConflictParticipants
      head.conflicts next fact.id head.context else ∅) = claims
    cases claims.isEmpty <;> simp [domainDecision]

theorem mem_participants {id : FactId} :
    id ∈ head.participants fact ↔ id = fact.id ∨
      ∃ sibling ∈ head.context.facts.facts,
        projectIdOf sibling = some head.state.projectId ∧
        sibling.causal.authority .previousState = some head.state.head ∧
        sibling.id ≠ fact.id ∧ head.Counts sibling ∧ sibling.id = id := by
  simp only [participants, siblingParticipants, OrderedSet.mem_ofList,
    List.mem_cons, List.mem_map, List.mem_filter, Bool.and_eq_true,
    decide_eq_true_eq, Counts]
  refine or_congr_right (exists_congr fun sibling => ?_)
  tauto

section Typed

variable (htyped : PreviousStateTyped head.context.facts)

include htyped

theorem mem_participants_typed {id : FactId} :
    id ∈ head.participants fact ↔ id = fact.id ∨
      ∃ sibling, head.Sibling sibling ∧ sibling.id ≠ fact.id ∧
        head.Counts sibling ∧ sibling.id = id := by
  rw [mem_participants]
  refine or_congr_right (exists_congr fun sibling => ?_)
  constructor
  · rintro ⟨hmem, hproject, hcites, hrest⟩
    obtain ⟨hhome, htransition⟩ := htyped sibling hmem (by simp [hcites])
    exact ⟨⟨hmem, htransition, hhome, hproject, hcites⟩, hrest⟩
  · rintro ⟨hsibling, hrest⟩
    exact ⟨hsibling.retained, hsibling.sameProject, hsibling.cites, hrest⟩

/-- A fact is in a fork exactly when another sibling counts. -/
theorem forks_iff :
    head.Forks fact ↔ ∃ sibling, head.Sibling sibling ∧
      sibling.id ≠ fact.id ∧ head.Counts sibling := by
  constructor
  · intro hforks
    by_contra hnone
    refine absurd hforks (Nat.not_lt.2 (OrderedSet.size_le_one_of_eq ?_))
    have honly : ∀ id ∈ head.participants fact, id = fact.id := by
      intro id hid
      rcases (mem_participants_typed htyped).1 hid with rfl |
        ⟨sibling, hsibling, hne, hcounts, rfl⟩
      · rfl
      · exact absurd ⟨sibling, hsibling, hne, hcounts⟩ hnone
    intro x hx y hy
    rw [honly x hx, honly y hy]
  · rintro ⟨sibling, hsibling, hne, hcounts⟩
    by_contra hsingle
    exact hne (OrderedSet.eq_of_size_le_one (Nat.not_lt.1 hsingle)
      ((mem_participants_typed htyped).2
        (Or.inr ⟨sibling, hsibling, hne, hcounts, rfl⟩))
      ((mem_participants_typed htyped).2 (Or.inl rfl)))

end Typed

end Head

/-- One round at a head: the decisions that come after its snapshot. -/
structure RoundAt (head : Head) (before after : Decisions ProjectReason) :
    Prop where
  context_eq : head.context =
    snapshot head.context.facts (statusesIn before)
  next : nextDecisions (projectReducer head.policy head.conflicts)
    head.context.facts head.context.facts.graph before = after
  covers : Covers head.context.facts (statusesIn before)
  replays : head.Replays

namespace RoundAt

variable {head : Head} {before after : Decisions ProjectReason}
  {fact other : Fact} (hround : RoundAt head before after)

include hround

/-- The decision about a fact whose past is usable. -/
theorem judged (hready : GraphReady head.context.facts fact)
    (husable : ∀ parent ∈ fact.causal.parents,
      head.context.isProjected parent = true) :
    after.get? fact.id = some (domainDecision (layeredDecision .authority
      head.policy (projectLayer head.conflicts) fact head.context)
        (head.context.facts.graph.children fact.id)) := by
  rw [← classifyProjectFact_eq]
  have hcontext := hround.context_eq
  rw [hcontext] at husable
  have hjudged := next_judged hround.next hround.covers hready husable
  rw [← hcontext] at hjudged
  exact hjudged

/-- The project rules decide about a sibling that reaches the fork. -/
theorem decision_of_reaches (h : head.Reaches fact) :
    after.get? fact.id = some (domainDecision (projectLayer head.conflicts fact
      head.context) (head.context.facts.graph.children fact.id)) := by
  rw [hround.judged h.ready h.usable, layeredDecision,
    classifyFact_projected.2 h.authority]

/-- A retained fact without a usable past is refused. -/
theorem refused_of_unusable (hmem : fact ∈ head.context.facts.facts)
    (hunusable : ¬ (GraphReady head.context.facts fact ∧
      ∀ parent ∈ fact.causal.parents,
        head.context.isProjected parent = true)) :
    Refused after fact := by
  have hget := FactSet.mem_facts.1 hmem
  rw [hround.context_eq] at hunusable
  by_cases hcycle : fact.id ∈ head.context.facts.graph.cycleMembers
  · exact ⟨_, next_cyclic hround.next hget hcycle, rfl⟩
  · obtain ⟨decision, hdecision, hstatus⟩ :=
      next_waiting hround.next hround.covers hget hcycle hunusable
    exact ⟨decision, hdecision, by rw [hstatus]; rfl⟩

/-- A sibling that does not contend is refused. -/
theorem refused_of_not_contends (hsibling : head.Sibling fact)
    (hnot : ¬ head.Contends fact) : Refused after fact := by
  by_cases hpast : GraphReady head.context.facts fact ∧
      ∀ parent ∈ fact.causal.parents, head.context.isProjected parent = true
  · obtain ⟨hready, husable⟩ := hpast
    refine ⟨_, hround.judged hready husable, ?_⟩
    by_cases hauthority : validateFact head.policy fact head.context = .ok ()
    · rw [layeredDecision, classifyFact_projected.2 hauthority]
      by_cases hsigned : fact.authorId = head.state.home ∧
          validProjectHome fact head.state.home head.context = true
      · have hreaches : head.Reaches fact :=
          ⟨hsibling, hready, husable, hauthority, hsigned.1, hsigned.2⟩
        have hidentity : ∃ error, stableIdentityConflict fact head.context =
            some error ∧ error.1 = .inputSequenceConflict := by
          by_contra hnone
          exact hnot ⟨hreaches, fun error herror hinput =>
            hnone ⟨error, herror, hinput⟩⟩
        obtain ⟨error, herror, hinput⟩ := hidentity
        simp only [Head.projectLayer_identity hround.replays hreaches herror]
        rcases projectDecision_identity herror with ⟨-, hinvalid⟩ | ⟨hne, -⟩
        · rw [hinvalid]
          rfl
        · exact absurd hinput hne
      · simp only [Head.projectLayer_unsigned hround.replays hsibling
          (husable _ (Fact.mem_parents_of_authority hsibling.cites)) hsigned]
        rfl
    · rw [layeredDecision]
      split
      next hprojected =>
        exact absurd (classifyFact_projected.1 hprojected) hauthority
      next =>
        refine refuses_of_classifyFact hauthority ?_
        rw [validateFact_of_scopedAction
          (isScopedAction_of_isHomeFact hsibling.home)]
        exact validateScopedAction_ne_rootConflict
  · exact hround.refused_of_unusable hsibling.retained hpast

/-- Siblings that count after a round contended in it. -/
theorem contends_of_mayFork {facts : FactSet} (hsibling : head.Sibling fact)
    (hcounts : mayFork (snapshot facts (statusesIn after)) fact.id = true) :
    head.Contends fact := by
  by_contra hnot
  obtain ⟨decision, hdecision, hrefused⟩ :=
    hround.refused_of_not_contends hsibling hnot
  rw [mayFork_of_decision hdecision, hrefused] at hcounts
  cases hcounts

/-- A contending sibling beside another one that counts is in conflict. -/
theorem conflicted_of_forks (h : head.Contends fact)
    (hforks : head.Forks fact) :
    ∃ decision, after.get? fact.id = some decision ∧
      decision.status = .conflicted := by
  classical
  refine ⟨_, hround.decision_of_reaches h.reaches, ?_⟩
  cases hidentity : stableIdentityConflict fact head.context with
  | some error =>
      rw [(h.identity_conflicted hround.replays hidentity).2]
      rfl
  | none =>
      rw [Head.projectLayer_faces hround.replays ⟨h.reaches, hidentity⟩,
        if_pos hforks]
      rfl

/-- A sibling beside no other that counts is judged as if it were alone. -/
theorem decision_of_not_forks (h : head.Faces fact)
    (hforks : ¬ head.Forks fact) :
    after.get? fact.id = some (domainDecision (head.judgedAlone fact)
      (head.context.facts.graph.children fact.id)) := by
  classical
  rw [hround.decision_of_reaches h.reaches,
    Head.projectLayer_faces hround.replays h, if_neg hforks]

/-- A sibling that fails alone is invalid if no other one counts. -/
theorem uncounted_of_fails {facts : FactSet} (h : head.Fails fact)
    (hforks : ¬ head.Forks fact) :
    mayFork (snapshot facts (statusesIn after)) fact.id = false := by
  obtain ⟨hfaces, error, happly, hinvalid⟩ := h
  rw [mayFork_of_decision (hround.decision_of_not_forks hfaces hforks),
    Head.judgedAlone, happly]
  simp only [hinvalid]
  rfl

end RoundAt

/-- A decision that puts a fact into a fork. -/
def TakesPart (decisions : Decisions ProjectReason) (fact : Fact) : Prop :=
  ∃ decision, decisions.get? fact.id = some decision ∧
    decision.status = .conflicted ∧
    decision.reason = some (.domain .homeLinearFork)

/-- The fork law at a head: an admissible sibling that is alone is projected
and is the only successor, several of them are in conflict with exactly each
other, no other sibling takes part in the fork, and a sibling whose past,
authority or home is wrong or whose transition fails is refused. -/
structure ForkLaw (head : Head) (decisions : Decisions ProjectReason) :
    Prop where
  alone : ∀ fact, head.Admits fact →
    (∀ other, head.Admits other → other = fact) →
    head.context.isProjected fact.id = true ∧
      projectChildren head.context head.state = [fact]
  forked : ∀ fact other, head.Admits fact → head.Admits other →
    other ≠ fact → ∃ decision, decisions.get? fact.id = some decision ∧
      decision.status = .conflicted ∧
      decision.reason = some (.domain .homeLinearFork) ∧
      ∀ id, id ∈ decision.conflictParticipants ↔
        ∃ sibling, head.Admits sibling ∧ sibling.id = id
  apart : ∀ fact, head.Sibling fact → ¬ head.Admits fact →
    ¬ TakesPart decisions fact
  refused : ∀ fact, head.Sibling fact →
    (¬ head.Reaches fact ∨ stableIdentityConflict fact head.context = none ∧
      ∃ error, applyPayload head.state fact head.context = .error error) →
    Refused decisions fact

namespace RoundAt

variable {head : Head} {decisions : Decisions ProjectReason}
  {fact other : Fact} (hround : RoundAt head decisions decisions)

include hround

theorem contends_of_counts (hsibling : head.Sibling fact)
    (hcounts : head.Counts fact) : head.Contends fact := by
  unfold Head.Counts at hcounts
  rw [hround.context_eq] at hcounts
  exact hround.contends_of_mayFork hsibling hcounts

theorem counts_of_decision {decision : FactDecision ProjectReason}
    (hdecision : decisions.get? fact.id = some decision)
    (hstatus : decision.status.refuses = false) : head.Counts fact := by
  unfold Head.Counts
  rw [hround.context_eq, mayFork_of_decision hdecision, hstatus]
  rfl

/-- Who takes part in a fork. -/
theorem takesPart_iff (hsibling : head.Sibling fact) :
    TakesPart decisions fact ↔ head.Faces fact ∧ head.Forks fact := by
  classical
  constructor
  · rintro ⟨decision, hdecision, hstatus, hreason⟩
    have hcontends : head.Contends fact := hround.contends_of_counts hsibling
      (hround.counts_of_decision hdecision (by rw [hstatus]; rfl))
    have hlayer := hround.decision_of_reaches hcontends.reaches
    rw [hdecision, Option.some.injEq] at hlayer
    rw [hlayer] at hreason
    cases hidentity : stableIdentityConflict fact head.context with
    | some error =>
        obtain ⟨hfork, hconflicted⟩ :=
          hcontends.identity_conflicted hround.replays hidentity
        simp [hconflicted, domainDecision, hfork] at hreason
    | none =>
        have hfaces : head.Faces fact := ⟨hcontends.reaches, hidentity⟩
        refine ⟨hfaces, ?_⟩
        by_contra hforks
        rw [Head.projectLayer_faces hround.replays hfaces, if_neg hforks]
          at hreason
        exact Head.judgedAlone_ne_fork hreason
  · rintro ⟨hfaces, hforks⟩
    refine ⟨_, hround.decision_of_reaches hfaces.reaches, ?_⟩
    rw [Head.projectLayer_faces hround.replays hfaces, if_pos hforks]
    exact ⟨rfl, rfl⟩

/-- How an admissible sibling in a fork is decided. -/
theorem decision_of_admits (h : head.Admits fact) (hforks : head.Forks fact) :
    decisions.get? fact.id = some (domainDecision
      (.conflicted .homeLinearFork (head.participants fact))
      (head.context.facts.graph.children fact.id)) := by
  classical
  rw [hround.decision_of_reaches h.faces.reaches,
    Head.projectLayer_faces hround.replays h.faces, if_pos hforks]

/-- An admissible sibling counts as a participant of a fork. -/
theorem counts_of_admits (h : head.Admits fact) : head.Counts fact := by
  by_cases hforks : head.Forks fact
  · exact hround.counts_of_decision (hround.decision_of_admits h hforks) rfl
  · refine hround.counts_of_decision
      (hround.decision_of_not_forks h.faces hforks) ?_
    rw [h.judgedAlone]
    rfl

/-- An admissible sibling that is in no fork is the only successor. -/
theorem projected_of_admits (h : head.Admits fact)
    (hforks : ¬ head.Forks fact) :
    head.context.isProjected fact.id = true ∧
      projectChildren head.context head.state = [fact] := by
  have hdecision := hround.decision_of_not_forks h.faces hforks
  rw [h.judgedAlone] at hdecision
  have hprojected : (snapshot head.context.facts
      (statusesIn decisions)).isProjected fact.id = true := by
    simp [ReductionContext.isProjected, snapshot, statusesIn, hdecision,
      domainDecision]
  have hplace := h.faces.reaches.sibling
  have hchildren :=
    (projectStable_of_fixed hround.next).projectChildren_of_continues
      ⟨mem_projectedFacts.2 ⟨hplace.retained, hprojected⟩, hplace.home,
        hplace.sameProject⟩ hplace.transition hplace.cites
  rw [← hround.context_eq] at hprojected hchildren
  exact ⟨hprojected, hchildren⟩

/-- A contending sibling that does not count and is in no fork fails alone. -/
theorem fails_of_not_counts (hcontends : head.Contends fact)
    (hforks : head.Faces fact → ¬ head.Forks fact)
    (hcounts : ¬ head.Counts fact) : head.Fails fact := by
  cases hidentity : stableIdentityConflict fact head.context with
  | some error =>
      refine absurd (hround.counts_of_decision
        (hround.decision_of_reaches hcontends.reaches) ?_) hcounts
      rw [(hcontends.identity_conflicted hround.replays hidentity).2]
      rfl
  | none =>
      have hfaces : head.Faces fact := ⟨hcontends.reaches, hidentity⟩
      have hrefused : (domainDecision (head.judgedAlone fact)
          (head.context.facts.graph.children fact.id)).status.refuses =
            true := by
        by_contra hnot
        exact hcounts (hround.counts_of_decision
          (hround.decision_of_not_forks hfaces (hforks hfaces))
          (Bool.eq_false_iff.2 hnot))
      refine ⟨hfaces, ?_⟩
      unfold Head.judgedAlone at hrefused
      split at hrefused
      next error happly =>
        refine ⟨error, happly, ?_⟩
        obtain ⟨reason, participants⟩ := error
        cases reason <;> first
          | rfl
          | cases hrefused
      next next happly =>
        simp only at hrefused
        generalize (if isOpening fact.payload = true then
          claimConflictParticipants head.conflicts next fact.id head.context
          else ∅) = claims at hrefused
        cases hclaims : claims.isEmpty <;>
          simp [hclaims, domainDecision, DecisionStatus.refuses] at hrefused

variable (htyped : PreviousStateTyped head.context.facts)

include htyped

/-- Two admissible siblings are in a fork. -/
theorem forks_of_admits (h : head.Admits fact) (hother : head.Admits other)
    (hne : other ≠ fact) : head.Forks fact :=
  (Head.forks_iff htyped).2 ⟨other, hother.faces.reaches.sibling,
    fun hid => hne (hother.faces.reaches.sibling.eq_of_id
      h.faces.reaches.sibling hid), hround.counts_of_admits hother⟩

/-- The law holds where every contending sibling is admissible. -/
theorem forkLaw_of_admits
    (hall : ∀ sibling, head.Contends sibling → head.Admits sibling) :
    ForkLaw head decisions where
  alone fact hfact halone := by
    refine hround.projected_of_admits hfact fun hforks => ?_
    obtain ⟨sibling, hsibling, hne, hcounts⟩ :=
      (Head.forks_iff htyped).1 hforks
    exact hne (by rw [halone sibling (hall sibling
      (hround.contends_of_counts hsibling hcounts))])
  forked fact other hfact hother hne := by
    refine ⟨_, hround.decision_of_admits hfact
      (hround.forks_of_admits htyped hfact hother hne), rfl, rfl, fun id => ?_⟩
    change id ∈ head.participants fact ↔ _
    rw [Head.mem_participants_typed htyped]
    constructor
    · rintro (rfl | ⟨sibling, hsibling, -, hcounts, rfl⟩)
      · exact ⟨fact, hfact, rfl⟩
      · exact ⟨sibling, hall sibling
          (hround.contends_of_counts hsibling hcounts), rfl⟩
    · rintro ⟨sibling, hsibling, rfl⟩
      by_cases hsame : sibling.id = fact.id
      · exact Or.inl hsame
      · exact Or.inr ⟨sibling, hsibling.faces.reaches.sibling, hsame,
          hround.counts_of_admits hsibling, rfl⟩
  apart fact hfact hnot hpart :=
    hnot (hall fact ((hround.takesPart_iff hfact).1 hpart).1.contends)
  refused fact hfact hwrong := by
    refine hround.refused_of_not_contends hfact fun hcontends => ?_
    rcases hwrong with hunreached | ⟨-, error, happly⟩
    · exact hunreached hcontends.reaches
    · obtain ⟨next, hnext, -⟩ := (hall fact hcontends).applies
      rw [happly] at hnext
      cases hnext

/-- The law holds where no sibling is in a fork, unless one fails with a
conflict of its own. -/
theorem forkLaw_of_not_forks
    (hforks : ∀ sibling, head.Faces sibling → ¬ head.Forks sibling)
    (hinvalid : ∀ sibling, head.Faces sibling → ∀ error,
      applyPayload head.state sibling head.context = .error error →
        projectDecision error = .invalid error.1) :
    ForkLaw head decisions where
  alone fact hfact _ :=
    hround.projected_of_admits hfact (hforks fact hfact.faces)
  forked fact other hfact hother hne :=
    absurd (hround.forks_of_admits htyped hfact hother hne)
      (hforks fact hfact.faces)
  apart fact hfact _ hpart := by
    obtain ⟨hfaces, hfork⟩ := (hround.takesPart_iff hfact).1 hpart
    exact hforks fact hfaces hfork
  refused fact hfact hwrong := by
    by_cases hreaches : head.Reaches fact
    · obtain ⟨hidentity, error, happly⟩ :=
        hwrong.resolve_left (not_not.2 hreaches)
      refine ⟨_, hround.decision_of_not_forks ⟨hreaches, hidentity⟩
        (hforks fact ⟨hreaches, hidentity⟩), ?_⟩
      rw [Head.judgedAlone, happly]
      simp only [hinvalid fact ⟨hreaches, hidentity⟩ error happly]
      rfl
    · exact hround.refused_of_not_contends hfact
        fun hcontends => hreaches hcontends.reaches

/-- Where the law holds and some sibling is in a fork, every contending one is
admissible. -/
theorem admits_of_forks (hlaw : ForkLaw head decisions)
    (hfaces : head.Faces fact) (hforks : head.Forks fact)
    (hcontends : head.Contends other) : head.Admits other := by
  have hpart : ∀ sibling, head.Faces sibling → head.Forks sibling →
      head.Admits sibling := by
    intro sibling hsibling hfork
    by_contra hnot
    exact hlaw.apart sibling hsibling.reaches.sibling hnot
      ((hround.takesPart_iff hsibling.reaches.sibling).2 ⟨hsibling, hfork⟩)
  have hfact := hpart fact hfaces hforks
  have hplace := hcontends.reaches.sibling
  by_contra hnot
  have hne : fact.id ≠ other.id := fun hid =>
    hnot (hfaces.reaches.sibling.eq_of_id hplace hid ▸ hfact)
  -- The other one sees an admissible sibling beside it.
  have hbeside : head.Forks other := (Head.forks_iff htyped).2
    ⟨fact, hfaces.reaches.sibling, hne, hround.counts_of_admits hfact⟩
  cases hidentity : stableIdentityConflict other head.context with
  | none => exact hnot (hpart other ⟨hcontends.reaches, hidentity⟩ hbeside)
  | some error =>
      obtain ⟨decision, hdecision, hstatus⟩ :=
        hround.conflicted_of_forks hcontends hbeside
      have hcounts : head.Counts other :=
        hround.counts_of_decision hdecision (by rw [hstatus]; rfl)
      have hdecided := hround.decision_of_admits hfact hforks
      have hsecond : ∃ second, head.Admits second ∧ second ≠ fact := by
        by_contra hnone
        push Not at hnone
        obtain ⟨hprojected, -⟩ := hlaw.alone fact hfact hnone
        rw [hround.context_eq] at hprojected
        simp [ReductionContext.isProjected, snapshot, statusesIn, hdecided,
          domainDecision] at hprojected
      obtain ⟨second, hsecond, hdistinct⟩ := hsecond
      obtain ⟨found, hfound, -, -, hmembers⟩ :=
        hlaw.forked fact second hfact hsecond hdistinct
      rw [hfound, Option.some.injEq] at hdecided
      subst hdecided
      obtain ⟨sibling, hsibling, hid⟩ := (hmembers other.id).1
        ((Head.mem_participants_typed htyped).2
          (Or.inr ⟨other, hplace, hne.symm, hcounts, rfl⟩))
      exact hnot (hsibling.faces.reaches.sibling.eq_of_id hplace hid ▸ hsibling)

end RoundAt

/-- A transition in the log was admissible at the head it cites. -/
theorem admits_of_inLog {policy : AuthorityPolicy}
    {conflicts : ResourceLocator → ResourceLocator → Bool} {facts : FactSet}
    {decisions : Decisions ProjectReason}
    (hfix : nextDecisions (projectReducer policy conflicts) facts facts.graph
      decisions = decisions) {project : ProjectId} {fact : Fact}
    (hlog : InLog (snapshot facts (statusesIn decisions)) project fact)
    (htransition : isCreation fact.payload = false) :
    ∃ head : Head, head.policy = policy ∧ head.conflicts = conflicts ∧
      head.context = snapshot facts (statusesIn decisions) ∧ head.Replays ∧
      fact.causal.authority .previousState = some head.state.head ∧
      head.Admits fact := by
  have hstable := projectStable_of_fixed hfix
  obtain ⟨hmem, hprojected⟩ := mem_projectedFacts.1 hlog.admitted
  obtain ⟨found, hready, hid, husable, hclassify⟩ :=
    (stable_projected hfix).1 hprojected
  obtain rfl := FactSet.eq_of_mem_facts_of_id_eq
    (FactSet.mem_facts_of_get? hready.retained) hmem hid
  change classifyProjectFact policy conflicts found _ = _ at hclassify
  rw [classifyProjectFact_eq, layeredDecision_projected] at hclassify
  obtain ⟨previous, state, next, hhead, -, happly, hclaims⟩ :=
    hstable.transition hlog htransition
  obtain rfl := (hstable.stateAt_eq_some.1 hhead.replays).head
  refine ⟨⟨policy, conflicts, snapshot facts (statusesIn decisions), state⟩,
    rfl, rfl, rfl, hhead.replays, hhead.cites, ⟨⟨?_, hready, husable,
      hclassify.1, hhead.byHome, hhead.homeCited⟩, hhead.identity⟩, next,
    happly, hclaims⟩
  exact ⟨hmem, htransition, hlog.home, hhead.sameProject ▸ hlog.project,
    hhead.cites⟩

/-! The rounds at a head. -/

namespace Head

/-- The head as the snapshot after a number of rounds shows it. -/
def after (head : Head) (round : Nat) : Head :=
  { head with
    context := snapshot head.context.facts (statusesIn (roundDecisions
      (projectReducer head.policy head.conflicts) head.context.facts round)) }

/-- From a round on, the head and its siblings stand as they do in the end. -/
def StandsFrom (head : Head) (round : Nat) : Prop :=
  ∀ later, round ≤ later → (head.after later).Replays ∧
    ∀ fact, ((head.after later).Contends fact ↔ head.Contends fact) ∧
      ((head.after later).Fails fact ↔ head.Fails fact)

variable {head : Head} {decisions : Decisions ProjectReason} {round : Nat}

theorem roundAt_after (round : Nat) (hreplays : (head.after round).Replays) :
    RoundAt (head.after round)
      (roundDecisions (projectReducer head.policy head.conflicts)
        head.context.facts round)
      (roundDecisions (projectReducer head.policy head.conflicts)
        head.context.facts (round + 1)) where
  context_eq := rfl
  next := (roundDecisions_succ _ _ round).symm
  covers := covers_roundDecisions _ _ round
  replays := hreplays

variable (htyped : PreviousStateTyped head.context.facts)
  (hstands : head.StandsFrom round)

include htyped hstands

/-- Siblings that all fail alone and of which none counts are refused one by
one, so that none counts later. -/
theorem uncounted_of_le
    (hall : ∀ fact, head.Contends fact → head.Fails fact)
    (hnone : ∀ fact, head.Contends fact →
      ¬ (head.after (round + 1)).Counts fact) {later : Nat}
    (hlater : round + 1 ≤ later) :
    ∀ fact, head.Contends fact → ¬ (head.after later).Counts fact := by
  induction later, hlater using Nat.le_induction with
  | base => exact hnone
  | succ later hlater ih =>
      intro fact hcontends
      obtain ⟨hreplays, hsame⟩ := hstands later (by omega)
      have hfails := (hsame fact).2.2 (hall fact hcontends)
      have hforks : ¬ (head.after later).Forks fact := by
        intro hforks
        obtain ⟨sibling, hsibling, -, hcounts⟩ :=
          (@forks_iff (head.after later) fact htyped).1 hforks
        -- What counts in this round contended in the round before.
        obtain ⟨earlier, rfl⟩ := Nat.exists_eq_add_of_lt hlater
        have hearlier := hstands (round + earlier) (by omega)
        have hcontended := (roundAt_after _ hearlier.1).contends_of_mayFork
          ⟨hsibling.retained, hsibling.transition, hsibling.home,
            hsibling.sameProject, hsibling.cites⟩ hcounts
        exact ih sibling ((hearlier.2 sibling).1.1 hcontended) hcounts
      exact Bool.eq_false_iff.1
        ((roundAt_after later hreplays).uncounted_of_fails hfails hforks)

/-- One of two contending siblings counts because the other one counted. -/
theorem counted_of_le {first second : Fact} (hfirst : head.Contends first)
    (hsecond : head.Contends second) (hne : first ≠ second)
    (hcounts : ∃ fact, head.Contends fact ∧
      (head.after (round + 1)).Counts fact) {later : Nat}
    (hlater : round + 1 ≤ later) :
    ∃ fact, head.Contends fact ∧ (head.after later).Counts fact := by
  induction later, hlater using Nat.le_induction with
  | base => exact hcounts
  | succ later hlater ih =>
      obtain ⟨counted, hcounted, hcounts⟩ := ih
      obtain ⟨hreplays, hsame⟩ := hstands later (by omega)
      have hother : ∃ other, head.Contends other ∧ counted ≠ other := by
        by_cases heq : counted = first
        · exact ⟨second, hsecond, heq ▸ hne⟩
        · exact ⟨first, hfirst, heq⟩
      obtain ⟨other, hother, hdistinct⟩ := hother
      have hhere := ((hsame counted).1.2 hcounted).reaches.sibling
      have hthere := (hsame other).1.2 hother
      have hforks := (@forks_iff (head.after later) other htyped).2
        ⟨counted, hhere, fun hid => hdistinct
          (hhere.eq_of_id hthere.reaches.sibling hid), hcounts⟩
      obtain ⟨decision, hdecision, hstatus⟩ :=
        (roundAt_after later hreplays).conflicted_of_forks hthere hforks
      refine ⟨other, hother, ?_⟩
      unfold Counts after
      rw [mayFork_of_decision hdecision, hstatus]
      rfl

end Head

/-- No sibling contends beside one that faces the fork test, and none of those
fails with a conflict of its own. -/
structure Unrivalled (head : Head) : Prop where
  single : ∀ fact other, head.Faces fact → head.Contends other → other = fact
  invalid : ∀ fact, head.Faces fact → ∀ error,
    applyPayload head.state fact head.context = .error error →
      projectDecision error = .invalid error.1

/-- Every sibling that contends would be invalid alone, and none counted in
the round after they had come to stand as they do. -/
structure PassedOver (head : Head) (round : Nat) : Prop where
  fails : ∀ fact, head.Contends fact → head.Fails fact
  uncounted : ∀ fact, head.Contends fact →
    ¬ (head.after (round + 1)).Counts fact

end Hq
