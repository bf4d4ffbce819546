/-
Domains layered over the authority rules: a fact is judged by authority first
and by its own layer only when authority admits it.  A layer that reads the
causal past of a fact settles with the authority rules below it.
-/
import Hq.AuthorityCausal
import Hq.Conversation

namespace Hq

/-- A decision of the authority rules followed by a layer of its own. -/
def layeredDecision {R : Type} (wrap : AuthorityReason → R)
    (policy : AuthorityPolicy)
    (layer : Fact → ReductionContext → DomainDecision R) (fact : Fact)
    (context : ReductionContext) : DomainDecision R :=
  match classifyFact policy fact context with
  | .projected => layer fact context
  | decision => mapAuthorityDecision wrap decision

section Layer

variable {A K V R : Type} {domain : DomainReducer A K V R} {facts : FactSet}
  {wrap : AuthorityReason → R} {policy : AuthorityPolicy}
  {layer : Fact → ReductionContext → DomainDecision R}

theorem layeredDecision_projected {fact : Fact} {context : ReductionContext} :
    layeredDecision wrap policy layer fact context = .projected ↔
      validateFact policy fact context = .ok () ∧
        layer fact context = .projected := by
  rw [← classifyFact_projected]
  unfold layeredDecision
  split
  next h => simp [h]
  next h =>
    constructor
    · intro hmapped
      cases hdecision : classifyFact policy fact context <;>
        simp_all [mapAuthorityDecision]
    · exact fun hprojected => absurd hprojected.1 (by simpa using h)

theorem layeredDecision_eq {fact : Fact} {left right : ReductionContext}
    (hauthority : classifyFact policy fact left = classifyFact policy fact right)
    (hlayer : layer fact left = layer fact right) :
    layeredDecision wrap policy layer fact left =
      layeredDecision wrap policy layer fact right := by
  unfold layeredDecision
  rw [hauthority, hlayer]

theorem reachesWithCandidate_congr
    {left right : OrderedMap FactId DecisionStatus}
    (h : ∀ id, (snapshot facts left).isProjected id =
      (snapshot facts right).isProjected id)
    (ancestor descendant candidate : FactId) :
    reachesWithCandidate (snapshot facts left) ancestor descendant candidate =
      reachesWithCandidate (snapshot facts right) ancestor descendant
        candidate := by
  unfold reachesWithCandidate
  simp only [h]
  rfl

/-! Rules that read the causal past of a fact. -/

/-- Snapshots that agree on the causal past of a fact. -/
def AgreesOnPast (facts : FactSet) (fact : Fact)
    (left right : OrderedMap FactId DecisionStatus) : Prop :=
  ∀ z, Relation.TransGen facts.graph.Child z fact.id →
    (snapshot facts left).isProjected z = (snapshot facts right).isProjected z

section Past

variable {left right : OrderedMap FactId DecisionStatus} {fact : Fact}

theorem AgreesOnPast.parent (h : AgreesOnPast facts fact left right)
    (hready : GraphReady facts fact) {id : FactId}
    (hid : id ∈ fact.causal.parents) :
    (snapshot facts left).isProjected id =
      (snapshot facts right).isProjected id :=
  h id (.single ((child_iff_of_get? hready.retained).2 hid))

/-- Another fact that reaches the judged one has the same status. -/
theorem AgreesOnPast.and_reaches (h : AgreesOnPast facts fact left right)
    (hready : GraphReady facts fact) {candidate : Fact}
    (hcandidate : candidate ∈ facts.facts) (hne : candidate ≠ fact) :
    ((snapshot facts left).isProjected candidate.id &&
      (snapshot facts left).graph.structurallyReaches candidate.id fact.id) =
    ((snapshot facts right).isProjected candidate.id &&
      (snapshot facts right).graph.structurallyReaches candidate.id
        fact.id) := by
  change (_ && facts.graph.structurallyReaches _ _) =
    (_ && facts.graph.structurallyReaches _ _)
  cases hreach : facts.graph.structurallyReaches candidate.id fact.id with
  | false => simp
  | true =>
      have hpath := ((CausalIndex.structurallyReaches_iff _).1 hreach).2.2
      rcases Relation.reflTransGen_iff_eq_or_transGen.1 hpath with heq | htrans
      · exact absurd (FactSet.eq_of_mem_facts_of_id_eq hcandidate
          (FactSet.mem_facts_of_get? hready.retained) heq.symm) hne
      · rw [h _ htrans]

theorem agreesOnPast_ideal {statuses : OrderedMap FactId DecisionStatus}
    (hpast : ∀ z, Relation.TransGen facts.graph.Child z fact.id →
      (snapshot facts statuses).isProjected z = true ∧
        IdeallyAdmitted domain facts z) :
    AgreesOnPast facts fact statuses
      (facts.entries.mapValues fun _ _ => .projected) := by
  intro z hz
  obtain ⟨hprojected, other, hother, rfl, -⟩ := hpast z hz
  exact hprojected.trans (idealContext_isProjected.2 hother.mem_ids).symm

end Past

/-- Some fact of every source set is projected. -/
def SourcesProjected (facts : FactSet)
    (source : FactId → Set FactId → Prop)
    (statuses : OrderedMap FactId DecisionStatus) (id : FactId) : Prop :=
  ∀ B, source id B → ∃ c ∈ B, (snapshot facts statuses).isProjected c = true

/-- A layered domain judges by the causal past when its layer does, given the
sources the layer asks for. -/
theorem causallyJudged_of_layer {source : FactId → Set FactId → Prop}
    (hclassify : ∀ fact context, domain.classify fact context =
      layeredDecision wrap policy layer fact context)
    (hcongr : ∀ {fact left right}, GraphReady facts fact →
      (∀ id, (snapshot facts left).isProjected id =
        (snapshot facts right).isProjected id) →
      layer fact (snapshot facts left) = layer fact (snapshot facts right))
    (hsource : ∀ {fact statuses}, GraphReady facts fact →
      layer fact (snapshot facts statuses) = .projected →
      SourcesProjected facts source statuses fact.id)
    (hpast : ∀ {fact statuses}, GraphReady facts fact →
      (∀ z, Relation.TransGen facts.graph.Child z fact.id →
        (snapshot facts statuses).isProjected z = true ∧
          IdeallyAdmitted domain facts z) →
      SourcesProjected facts source statuses fact.id →
      layer fact (snapshot facts statuses) = layer fact (idealContext facts))
    (hfree : ∀ {x B c}, source x B → c ∈ B →
      ¬ Relation.ReflTransGen (FactDepends facts (Awaits facts) source) x c) :
    CausallyJudged domain facts (Awaits facts) source where
  congr {fact left right} hready hsame := by
    rw [hclassify, hclassify]
    refine layeredDecision_eq ?_ (hcongr hready hsame)
    exact (sameAuthority_of_agree hready (fun z _ => hsame z)
      fun candidate _ _ => reachesWithCandidate_congr hsame _ _ _).classifyFact_eq
        rfl
  target_of_admitted {fact statuses r} hready hadmitted hawaits := by
    rw [hclassify, layeredDecision_projected] at hadmitted
    exact awaits_target hready hadmitted.1 hawaits
  source_of_admitted {fact statuses B} hready hadmitted hB := by
    rw [hclassify, layeredDecision_projected] at hadmitted
    exact hsource hready hadmitted.2 B hB
  ideal_of_admitted {fact statuses} hready hadmitted hadmittedPast := by
    rw [hclassify, layeredDecision_projected] at hadmitted ⊢
    have hknown : ∀ z, Relation.TransGen facts.graph.Child z fact.id →
        (snapshot facts statuses).isProjected z = true ∧ z ∈ facts.ids := by
      intro z hz
      obtain ⟨hprojected, other, hother, rfl, -⟩ := hadmittedPast z hz
      exact ⟨hprojected, hother.mem_ids⟩
    have hsame := sameAuthority_ideal_of_admitted hready hadmitted.1 hknown
    rw [← hsame.validateFact_eq,
      ← hpast hready hadmittedPast (hsource hready hadmitted.2)]
    exact hadmitted
  admitted_of_ideal {fact statuses} hready hideal hadmittedPast htargets
      hsources := by
    rw [hclassify, layeredDecision_projected] at hideal ⊢
    have hknown : ∀ z, Relation.TransGen facts.graph.Child z fact.id →
        (snapshot facts statuses).isProjected z = true ∧ z ∈ facts.ids := by
      intro z hz
      obtain ⟨hprojected, other, hother, rfl, -⟩ := hadmittedPast z hz
      exact ⟨hprojected, hother.mem_ids⟩
    have hsame := sameAuthority_ideal_of_past hready hideal.1 hknown htargets
    rw [hsame.validateFact_eq, hpast hready hadmittedPast hsources]
    exact hideal
  independent := hfree

end Layer

/-- The source relation of a domain that asks for no sources. -/
def NoSource (_ : FactId) (_ : Set FactId) : Prop := False

/-- Authority reduction judges every fact by its causal past. -/
theorem authority_causallyJudged (policy : AuthorityPolicy) (facts : FactSet) :
    CausallyJudged (authorityReducer policy) facts (Awaits facts)
      NoSource := by
  have hclassify : ∀ fact context,
      (authorityReducer policy).classify fact context =
        layeredDecision id policy (fun _ _ => .projected) fact context := by
    intro fact context
    change classifyFact policy fact context = _
    unfold layeredDecision
    split
    next h => exact h
    next => cases classifyFact policy fact context <;> rfl
  exact causallyJudged_of_layer hclassify (fun _ _ => rfl)
    (fun _ _ _ hB => hB.elim) (fun _ _ _ => rfl) fun hB => hB.elim

theorem classifyConversationFact_eq (policy : AuthorityPolicy) (fact : Fact)
    (context : ReductionContext) :
    classifyConversationFact policy fact context =
      layeredDecision .authority policy (classifyConversation policy) fact
        context := by
  unfold classifyConversationFact layeredDecision
  cases classifyFact policy fact context <;> rfl

end Hq
