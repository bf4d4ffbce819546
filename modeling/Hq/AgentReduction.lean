/-
Agent reduction always returns: its rules read the causal past of a fact, and
its views file projected facts under one key each.
-/
import Hq.AuthorityReduction
import Hq.AgentViews

namespace Hq

/-- The agent rules as a layer over the authority rules. -/
def agentLayer (fact : Fact) (context : ReductionContext) :
    DomainDecision AgentReason :=
  match validateAgentFact fact context with
  | .ok () => .projected
  | .error reason => .invalid reason

theorem classifyAgentFact_eq (policy : AuthorityPolicy) (fact : Fact)
    (context : ReductionContext) :
    classifyAgentFact policy fact context =
      layeredDecision .authority policy agentLayer fact context := by
  unfold classifyAgentFact layeredDecision agentLayer
  cases classifyFact policy fact context <;> rfl

section Past

variable {facts : FactSet} {left right : OrderedMap FactId DecisionStatus}
  {fact : Fact}

theorem findParent_eq {α : Type} (h : AgreesOnPast facts fact left right)
    (hready : GraphReady facts fact) (read : Fact → Option α) :
    findParent fact (snapshot facts left) read =
      findParent fact (snapshot facts right) read := by
  unfold findParent
  congr 1
  funext candidate
  by_cases hparent : candidate.id ∈ fact.causal.parents
  · rw [h.parent hready hparent]
  · simp [hparent]

theorem retiredBefore_eq (h : AgreesOnPast facts fact left right)
    (hready : GraphReady facts fact) {agentId : AgentId}
    (hself : retiresAgent agentId fact = false) :
    retiredBefore agentId fact (snapshot facts left) =
      retiredBefore agentId fact (snapshot facts right) := by
  unfold retiredBefore
  refine any_congr_mem fun candidate hcandidate => ?_
  cases hretires : retiresAgent agentId candidate with
  | false => simp
  | true =>
      have hne : candidate ≠ fact := by
        rintro rfl
        simp [hself] at hretires
      rw [Bool.and_true, Bool.and_true, h.and_reaches hready hcandidate hne]

/-- The agent rules read the causal past of a fact. -/
theorem validateAgentFact_eq (h : AgreesOnPast facts fact left right)
    (hready : GraphReady facts fact) :
    validateAgentFact fact (snapshot facts left) =
      validateAgentFact fact (snapshot facts right) := by
  unfold validateAgentFact
  split
  case h_7 => rfl
  all_goals
    simp only [requireAgentMailbox, requireClaimParent, requireBindingParent,
      requireContextParent, requireClaimForAgentParent, rejectAfterRetirement,
      findParent_eq h hready]
  all_goals
    rw [retiredBefore_eq h hready (by simp_all [retiresAgent])]

end Past

/-- Agent reduction judges every fact by its causal past. -/
theorem agent_causallyJudged (policy : AuthorityPolicy) (facts : FactSet) :
    CausallyJudged (agentReducer policy) facts (Awaits facts) NoSource := by
  refine causallyJudged_of_layer (classifyAgentFact_eq policy)
    (fun hready hsame => ?_) (fun _ _ _ hB => hB.elim)
    (fun hready hpast _ => ?_) fun hB => hB.elim
  · unfold agentLayer
    rw [validateAgentFact_eq (fun z _ => hsame z) hready]
  · unfold agentLayer idealContext
    rw [validateAgentFact_eq (agreesOnPast_ideal hpast) hready]

variable {context : ReductionContext}

section Projections

variable {policy : AuthorityPolicy} {facts : FactSet}
  {statuses : OrderedMap FactId DecisionStatus}

theorem nameProjections_sound :
    Sound context (nameProjections context) :=
  Sound.of_groups (fun _ _ hkey => AgentProjectionKey.name.inj hkey)
    fun _ _ hne hprojected => ⟨hne, hprojected⟩

theorem sessionProjections_sound :
    Sound context (sessionProjections context) :=
  Sound.of_groups (fun _ _ hkey => hkey)
    fun _ _ hne hprojected => ⟨hne, hprojected⟩

theorem contextProjections_sound :
    Sound context (contextProjections context) :=
  Sound.of_groups (fun _ _ hkey => AgentProjectionKey.context.inj hkey)
    fun _ _ hne hprojected => ⟨hne, hprojected⟩

theorem agentSelectionProjections_sound :
    Sound context (agentSelectionProjections context) :=
  Sound.of_groups (fun _ _ hkey => AgentProjectionKey.selection.inj hkey)
    fun _ _ hne hprojected => ⟨hne, hprojected⟩

theorem renameProjections_sound :
    Sound context (renameProjections context) :=
  Sound.of_groups (fun _ _ hkey => hkey)
    fun _ _ hne hprojected => ⟨hne, hprojected⟩

theorem agentProjections_sound :
    Sound context (agentProjections context) := by
  refine Sound.of_groups (fun _ _ hkey => AgentProjectionKey.agent.inj hkey)
    fun entry _ hne hprojected => ⟨?_, ?_⟩
  · intro hempty
    refine hne (OrderedSet.eq_empty_iff.2 fun id hid => ?_)
    refine OrderedSet.eq_empty_iff.1 hempty id ?_
    simp [agentProjection, hid]
  · intro id hid
    simp only [agentProjection, OrderedSet.mem_ofList, List.mem_append,
      OrderedSet.mem_toList] at hid
    rcases hid with (hid | hid) | hid
    · exact hprojected id hid
    · exact isProjected_of_mem_projectedIds hid
    · exact isProjected_of_mem_projectedIds hid

theorem directSessionProjections_sound :
    Sound context (directSessionProjections context) := by
  refine Sound.of_filterMap (fun entry hentry contribution hread => ?_)
    fun left hleft right hright first second hfirst hsecond hkey => ?_
  · obtain ⟨hne, hmembers⟩ := groupFacts_entry hentry
    split at hread <;> cases hread
    refine ⟨hne, fun id hid => ?_⟩
    obtain ⟨fact, hfact, -, rfl⟩ := (hmembers id).1 hid
    exact (mem_projectedFacts.1 hfact).2
  · split at hfirst <;> cases hfirst
    split at hsecond <;> cases hsecond
    exact OrderedMap.entry_eq hleft hright hkey

/-- The list of contributions a key comes from. -/
def AgentProjectionKey.rank : AgentProjectionKey → Nat
  | .name _ => 0
  | .session _ => 1
  | .context _ => 2
  | .selection _ => 3
  | .rename .. => 4
  | .agent _ => 5
  | .directSession .. => 6

/-- The lists of contributions under the rank of their keys. -/
def agentParts (context : ReductionContext) :
    List (Nat × List (ProjectionContribution AgentProjectionKey
      AgentProjection)) :=
  [(0, nameProjections context), (1, sessionProjections context),
    (2, contextProjections context), (3, agentSelectionProjections context),
    (4, renameProjections context), (5, agentProjections context),
    (6, directSessionProjections context)]

theorem deriveAgentProjections_eq (context : ReductionContext) :
    deriveAgentProjections context =
      (agentParts context).flatMap Prod.snd := by
  simp [deriveAgentProjections, agentParts]

theorem agentParts_rank :
    ∀ part ∈ agentParts context, ∀ contribution ∈ part.2,
      contribution.key.rank = part.1 := by
  simp only [agentParts, List.mem_cons, List.not_mem_nil, or_false,
    forall_eq_or_imp, forall_eq]
  refine ⟨?_, ?_, ?_, ?_, ?_, ?_, ?_⟩
  all_goals intro contribution hmem
  case refine_2 =>
    obtain ⟨entry, hentry, rfl⟩ := List.mem_map.1 hmem
    obtain ⟨fact, -, hkey⟩ := groupFacts_key hentry
    obtain ⟨bound, -, hsession⟩ := Option.map_eq_some_iff.1 hkey
    rw [← hsession]
    rfl
  case refine_5 =>
    obtain ⟨entry, hentry, rfl⟩ := List.mem_map.1 hmem
    obtain ⟨fact, -, hkey⟩ := groupFacts_key hentry
    obtain ⟨renamed, -, hrename⟩ := Option.map_eq_some_iff.1 hkey
    rw [← hrename]
    rfl
  case refine_7 =>
    obtain ⟨entry, -, hread⟩ := List.mem_filterMap.1 hmem
    split at hread <;> cases hread
    next hkey => rw [hkey]; rfl
  all_goals
    obtain ⟨entry, -, rfl⟩ := List.mem_map.1 hmem
    rfl

theorem mem_agentPart (rank : Nat)
    {list : List (ProjectionContribution AgentProjectionKey AgentProjection)}
    (hpart : (rank, list) ∈ agentParts context)
    {contribution : ProjectionContribution AgentProjectionKey AgentProjection}
    (hmem : contribution ∈ deriveAgentProjections context)
    (hrank : contribution.key.rank = rank) : contribution ∈ list := by
  rw [deriveAgentProjections_eq] at hmem
  exact mem_part_of_rank AgentProjectionKey.rank (by simp [agentParts])
    agentParts_rank hpart hmem hrank

theorem deriveAgentProjections_sound :
    Sound context (deriveAgentProjections context) := by
  rw [deriveAgentProjections_eq]
  refine Sound.flatMap_of_rank AgentProjectionKey.rank (by simp [agentParts]) ?_
  intro part hpart
  refine ⟨?_, agentParts_rank part hpart⟩
  simp only [agentParts, List.mem_cons, List.not_mem_nil, or_false] at hpart
  rcases hpart with rfl | rfl | rfl | rfl | rfl | rfl | rfl
  · exact nameProjections_sound
  · exact sessionProjections_sound
  · exact contextProjections_sound
  · exact agentSelectionProjections_sound
  · exact renameProjections_sound
  · exact agentProjections_sound
  · exact directSessionProjections_sound

end Projections

/-- Agent reduction returns a report of the settled identities. -/
theorem agent_reduceSet (policy : AuthorityPolicy) (facts : FactSet) :
    ∃ decisions report,
      reduceSet (agentReducer policy) facts = .ok report ∧
      nextDecisions (agentReducer policy) facts facts.graph decisions =
        decisions ∧
      projectedSet decisions =
        (agent_causallyJudged policy facts).admission.settled ∧
      ReportsOn (agentReducer policy) facts decisions report := by
  obtain ⟨decisions, hstable, hprojected⟩ :=
    (agent_causallyJudged policy facts).stabilizes
  have hfix := (stabilizeFrom_ok hstable).1
  have hsound : Sound (snapshot facts (statusesIn decisions))
      (deriveAgentProjections (snapshot facts (statusesIn decisions))) :=
    deriveAgentProjections_sound
  obtain ⟨report, hreport, hon⟩ := deriveReport_ok hfix hsound.consistent
    hsound.projected (by simp [agentReducer]) (by simp [agentReducer])
  refine ⟨decisions, report, ?_, hfix, hprojected, hon⟩
  simp only [reduceSet, hstable, hreport]

/-- Stable decisions on the settled identities project the greatest set that
supports itself. -/
theorem CausallyJudged.isGreatest {A K V R : Type}
    {domain : DomainReducer A K V R} {facts : FactSet}
    {target : FactId → FactId → Prop} {source : FactId → Set FactId → Prop}
    (h : CausallyJudged domain facts target source) {decisions : Decisions R}
    (hfix : nextDecisions domain facts facts.graph decisions = decisions)
    (hsettled : projectedSet decisions = h.admission.settled) :
    IsGreatest {projected | SelfSupporting domain facts projected}
      (projectedSet decisions) := by
  have hiff : ∀ id, id ∈ projectedSet decisions ↔
      (snapshot facts (statusesIn decisions)).isProjected id = true :=
    fun id => contextOf_isProjected.symm
  constructor
  · intro id hid
    obtain ⟨fact, hready, hfact, hparents, hclassify⟩ :=
      (stable_projected hfix).1 ((hiff id).1 hid)
    refine ⟨fact, hready, hfact, fun parent hparent =>
      (hiff parent).2 (hparents parent hparent), ?_⟩
    rw [← hclassify]
    apply h.congr hready
    intro other
    rw [Bool.eq_iff_iff, snapshot_statusesOf, ← hiff]
    refine ⟨And.right, fun hother => ⟨?_, hother⟩⟩
    obtain ⟨decision, hget, -⟩ := hother
    exact stable_mem_ids hfix hget
  · intro projected hself
    rw [hsettled]
    exact h.subset_settled hself

/-- Authority and agent reduction return for every set of facts, and what
they project is the greatest set of facts that supports itself. -/
theorem reductions_greatest (policy : AuthorityPolicy) (facts : FactSet) :
    (∃ report, reduceSet (authorityReducer policy) facts = .ok report ∧
      IsGreatest {projected | CausallyJudged.SelfSupporting
        (authorityReducer policy) facts projected}
        (projectedSet report.decisions)) ∧
    ∃ report, reduceSet (agentReducer policy) facts = .ok report ∧
      IsGreatest {projected | CausallyJudged.SelfSupporting
        (agentReducer policy) facts projected}
        (projectedSet report.decisions) := by
  constructor
  · obtain ⟨decisions, report, hreduce, hfix, hsettled, hon⟩ :=
      authority_reduceSet policy facts
    refine ⟨report, hreduce, ?_⟩
    rw [hon.decisions_eq]
    exact (authority_causallyJudged policy _).isGreatest hfix hsettled
  · obtain ⟨decisions, report, hreduce, hfix, hsettled, hon⟩ :=
      agent_reduceSet policy facts
    refine ⟨report, hreduce, ?_⟩
    rw [hon.decisions_eq]
    exact (agent_causallyJudged policy _).isGreatest hfix hsettled

end Hq
