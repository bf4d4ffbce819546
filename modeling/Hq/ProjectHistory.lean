/-
Stable project decisions: what an admitted fact of a project rests on, and the
one chain of previous states that the admitted facts of a project form.
-/
import Hq.ProjectChains

namespace Hq

/-- The project rules as a layer over the authority rules. -/
def projectLayer (conflicts : ResourceLocator → ResourceLocator → Bool)
    (fact : Fact) (context : ReductionContext) :
    DomainDecision ProjectReason :=
  match validateProjectFact conflicts fact context with
  | .ok () => .projected
  | .error error => projectDecision error

section Layer

variable {conflicts : ResourceLocator → ResourceLocator → Bool} {fact : Fact}
  {context : ReductionContext} {project : ProjectId}

theorem classifyProjectFact_eq (policy : AuthorityPolicy) :
    classifyProjectFact policy conflicts fact context =
      layeredDecision .authority policy (projectLayer conflicts) fact
        context := by
  unfold classifyProjectFact layeredDecision projectLayer
  cases classifyFact policy fact context <;> rfl

theorem projectDecision_ne_projected (error : ClassificationError) :
    projectDecision error ≠ .projected := by
  obtain ⟨reason, participants⟩ := error
  cases reason <;> simp [projectDecision]

theorem projectLayer_projected :
    projectLayer conflicts fact context = .projected ↔
      validateProjectFact conflicts fact context = .ok () := by
  unfold projectLayer
  split
  next h => simp [h]
  next error h => simp [h, projectDecision_ne_projected]

theorem isCreation_of_createsProject (h : createsProject project fact = true) :
    isCreation fact.payload = true := by
  unfold createsProject at h
  split at h
  next hpayload => simp [isCreation, hpayload]
  next => cases h

theorem isHomeFact_of_isCreation (h : isCreation fact.payload = true) :
    isHomeFact fact.payload = true := by
  unfold isCreation at h
  split at h
  next hpayload =>
    simp [isHomeFact, hpayload, projectId, SemanticPayload.isRemoteControl]
  next => cases h

theorem createsProject_iff :
    createsProject project fact = true ↔
      isCreation fact.payload = true ∧ projectIdOf fact = some project := by
  cases hpayload : fact.payload <;>
    simp [createsProject, isCreation, projectIdOf, projectId, hpayload]

/-- A transition is judged against the head it cites. -/
theorem validateProjectFact_of_home (hhome : isHomeFact fact.payload = true)
    (htransition : isCreation fact.payload = false)
    (hproject : projectIdOf fact = some project) :
    validateProjectFact conflicts fact context =
      validateHomeTransition conflicts fact project context := by
  unfold validateProjectFact
  split
  next hpayload => simp [isCreation, hpayload] at htransition
  next =>
    have hremote : fact.payload.isRemoteControl = false := by
      simpa [isHomeFact] using (Bool.and_eq_true_iff.1 hhome).2
    rw [projectIdOf] at hproject
    simp [hremote, hproject]

theorem mem_creationParticipants {mailbox : MailboxId} {home : InstallationId}
    (hfact : fact ∈ context.facts.facts)
    (hcreates : createsProject project fact = true) :
    fact.id ∈ creationParticipants project mailbox home context := by
  unfold creationParticipants
  rw [OrderedSet.mem_ofList, List.mem_map]
  refine ⟨fact, List.mem_filter.2 ⟨hfact, ?_⟩, rfl⟩
  unfold createsProject at hcreates
  split at hcreates
  next hpayload => simpa using Or.inl (of_decide_eq_true hcreates)
  next => cases hcreates

/-- What an admitted creation satisfies. -/
theorem validateCreation_ok (hfact : fact ∈ context.facts.facts)
    (hcreates : createsProject project fact = true)
    (h : validateProjectFact conflicts fact context = .ok ()) :
    (∃ state, creationState fact = some state ∧ state.projectId = project ∧
      state.home = fact.authorId ∧
      validProjectHome fact state.home context = true) ∧
    ∀ candidate ∈ context.facts.facts,
      createsProject project candidate = true → candidate.id = fact.id := by
  unfold createsProject at hcreates
  split at hcreates
  next found mailbox home name brief predecessor resources primary initial
      hpayload =>
    obtain rfl : found = project := by simpa using hcreates
    unfold validateProjectFact at h
    simp only [hpayload, validateCreation] at h
    obtain ⟨hauthority, h⟩ := require_bind_eq_ok.1 h
    obtain ⟨-, h⟩ := require_bind_eq_ok.1 h
    obtain ⟨-, h⟩ := require_bind_eq_ok.1 h
    have hsize := require_eq_ok.1 h
    simp only [Bool.and_eq_true, decide_eq_true_eq] at hauthority
    obtain ⟨⟨⟨hauthor, hscope⟩, hhome⟩, -⟩ := hauthority
    constructor
    · split at hscope
      next account haccount =>
        exact ⟨_, by rw [creationState, hpayload, haccount], rfl,
          hauthor.symm, hhome⟩
      next => cases hscope
    · intro candidate hcandidate hcandidateCreates
      have hle : (creationParticipants found mailbox home context).size ≤ 1 := by
        simpa using hsize
      have hself : createsProject found fact = true := by
        simp [createsProject, hpayload]
      refine OrderedSet.eq_of_size_le_one hle ?_ ?_
      · exact mem_creationParticipants hcandidate hcandidateCreates
      · exact mem_creationParticipants hfact hself
  next => cases hcreates

end Layer

/-- A snapshot in which every projected fact passes the project rules. -/
structure ProjectStable (policy : AuthorityPolicy)
    (conflicts : ResourceLocator → ResourceLocator → Bool) (facts : FactSet)
    (statuses : OrderedMap FactId DecisionStatus) : Prop where
  authority : AuthorityStable policy facts statuses
  admitted : ∀ {fact}, fact ∈ (snapshot facts statuses).projectedFacts →
    validateProjectFact conflicts fact (snapshot facts statuses) = .ok ()

theorem projectStable_of_fixed {policy : AuthorityPolicy}
    {conflicts : ResourceLocator → ResourceLocator → Bool} {facts : FactSet}
    {decisions : Decisions ProjectReason}
    (hfix : nextDecisions (projectReducer policy conflicts) facts facts.graph
      decisions = decisions) :
    ProjectStable policy conflicts facts (statusesIn decisions) := by
  have hclassify : ∀ id, (snapshot facts (statusesIn decisions)).isProjected id =
      true → ∃ fact, GraphReady facts fact ∧ fact.id = id ∧
        (∀ parent ∈ fact.causal.parents,
          (snapshot facts (statusesIn decisions)).isProjected parent = true) ∧
        validateFact policy fact (snapshot facts (statusesIn decisions)) =
          .ok () ∧
        validateProjectFact conflicts fact
          (snapshot facts (statusesIn decisions)) = .ok () := by
    intro id hid
    obtain ⟨fact, hready, hfact, hparents, hclassify⟩ :=
      (stable_projected hfix).1 hid
    change classifyProjectFact policy conflicts fact _ = _ at hclassify
    rw [classifyProjectFact_eq, layeredDecision_projected,
      projectLayer_projected] at hclassify
    exact ⟨fact, hready, hfact, hparents, hclassify⟩
  constructor
  · intro id hid
    obtain ⟨fact, hready, hfact, hparents, hvalid, -⟩ := hclassify id hid
    exact ⟨fact, hready, hfact, hparents, hvalid⟩
  · intro fact hfact
    obtain ⟨hmem, hprojected⟩ := mem_projectedFacts.1 hfact
    obtain ⟨other, hready, hid, -, -, hvalid⟩ := hclassify fact.id hprojected
    obtain rfl := FactSet.eq_of_mem_facts_of_id_eq
      (FactSet.mem_facts_of_get? hready.retained) hmem hid
    exact hvalid

/-- A projected fact in the log of a project. -/
structure InLog (context : ReductionContext) (project : ProjectId)
    (fact : Fact) : Prop where
  admitted : fact ∈ context.projectedFacts
  home : isHomeFact fact.payload = true
  project : projectIdOf fact = some project

namespace ProjectStable

variable {policy : AuthorityPolicy}
  {conflicts : ResourceLocator → ResourceLocator → Bool} {facts : FactSet}
  {statuses : OrderedMap FactId DecisionStatus} {project : ProjectId}
  {fact : Fact}

theorem acyclic (h : ProjectStable policy conflicts facts statuses) :
    ∀ id, (snapshot facts statuses).isProjected id = true →
      ¬ Relation.TransGen facts.graph.Child id id :=
  fun _ => h.authority.acyclic

theorem stateAt_eq_some (h : ProjectStable policy conflicts facts statuses)
    {id : FactId} {state : InternalProjectState} :
    stateAt (snapshot facts statuses) id = some state ↔
      StateOf (snapshot facts statuses) id state :=
  Hq.stateAt_eq_some h.acyclic

/-- A transition in the log cites a usable head of its project. -/
theorem transition (h : ProjectStable policy conflicts facts statuses)
    (hlog : InLog (snapshot facts statuses) project fact)
    (htransition : isCreation fact.payload = false) :
    ∃ previous state next,
      CitesHead fact project (snapshot facts statuses) previous state ∧
      (siblingParticipants fact project previous
        (snapshot facts statuses)).size ≤ 1 ∧
      applyPayload state fact (snapshot facts statuses) = .ok next ∧
      (isOpening fact.payload = true → (claimConflictParticipants conflicts
        next fact.id (snapshot facts statuses)).isEmpty = true) := by
  have hvalid := h.admitted hlog.admitted
  rw [validateProjectFact_of_home hlog.home htransition hlog.project,
    validateHomeTransition_eq_ok] at hvalid
  exact hvalid

/-- Every fact in the log of a project has a state. -/
theorem stateOf (h : ProjectStable policy conflicts facts statuses)
    (hlog : InLog (snapshot facts statuses) project fact) :
    ∃ state, StateOf (snapshot facts statuses) fact.id state ∧
      state.projectId = project := by
  obtain ⟨hmem, hprojected⟩ := mem_projectedFacts.1 hlog.admitted
  have hget := FactSet.mem_facts.1 hmem
  cases hcreation : isCreation fact.payload with
  | true =>
      have hcreates := createsProject_iff.2 ⟨hcreation, hlog.project⟩
      obtain ⟨⟨state, hstarts, hproject, -⟩, -⟩ := validateCreation_ok hmem
        hcreates (h.admitted hlog.admitted)
      exact ⟨state, .root hget hprojected hcreation hstarts, hproject⟩
  | false =>
      obtain ⟨previous, state, next, hhead, -, happly, -⟩ :=
        h.transition hlog hcreation
      refine ⟨next, .step hget hprojected hcreation hlog.home hhead.cites
        (h.stateAt_eq_some.1 hhead.replays) happly, ?_⟩
      exact (applyPayload_sameProject happly).1.projectId.trans hhead.sameProject

/-- A projected fact of the project that cites the same head is the same
fact. -/
theorem sibling_unique (h : ProjectStable policy conflicts facts statuses)
    {other : Fact} {previous : FactId}
    (hlog : InLog (snapshot facts statuses) project fact)
    (htransition : isCreation fact.payload = false)
    (hcites : fact.causal.authority .previousState = some previous)
    (hother : other ∈ (snapshot facts statuses).projectedFacts)
    (hproject : projectIdOf other = some project)
    (hotherCites : other.causal.authority .previousState = some previous) :
    other = fact := by
  obtain ⟨found, state, next, hhead, hsize, -⟩ := h.transition hlog htransition
  obtain rfl := Option.some.inj (hhead.cites.symm.trans hcites)
  obtain ⟨hmem, hprojected⟩ := mem_projectedFacts.1 hother
  refine FactSet.eq_of_mem_facts_of_id_eq hmem
    (mem_projectedFacts.1 hlog.admitted).1 ?_
  by_contra hne
  refine hne (OrderedSet.eq_of_size_le_one hsize ?_ ?_)
  · have hfork : mayFork (snapshot facts statuses) other.id = true := by
      have hstatus := of_decide_eq_true hprojected
      simp [mayFork, hstatus]
    unfold siblingParticipants
    rw [OrderedSet.mem_ofList]
    refine List.mem_cons_of_mem _ (List.mem_map.2 ⟨other,
      List.mem_filter.2 ⟨hmem, ?_⟩, rfl⟩)
    simp [hproject, hotherCites, hne, hfork]
  · unfold siblingParticipants
    rw [OrderedSet.mem_ofList]
    exact List.mem_cons_self

/-- A project has at most one creation in its log. -/
theorem creation_unique (h : ProjectStable policy conflicts facts statuses)
    {other : Fact} (hlog : fact ∈ (snapshot facts statuses).projectedFacts)
    (hother : other ∈ (snapshot facts statuses).projectedFacts)
    (hcreates : createsProject project fact = true)
    (hotherCreates : createsProject project other = true) : fact = other := by
  have hmem := (mem_projectedFacts.1 hlog).1
  have hotherMem := (mem_projectedFacts.1 hother).1
  obtain ⟨-, hunique⟩ := validateCreation_ok hmem hcreates (h.admitted hlog)
  exact FactSet.eq_of_mem_facts_of_id_eq hmem hotherMem
    (hunique other hotherMem hotherCreates).symm

end ProjectStable

end Hq
