/-
The authority rules judge a fact by its causal past, and an action also by
the revokes it must stand above.  Reduction under them therefore settles.
-/
import Hq.AuthoritySpec

namespace Hq

variable {ancestor descendant revokeId : FactId} {context : ReductionContext}
  {usable : FactId → Bool} {index : CausalIndex} {fact revoke : Fact}

/-- The reach test between usable identities. -/
theorem CausalIndex.reaches_or_eq_iff :
    (if !usable ancestor || !usable descendant then false
      else if ancestor = descendant then true
      else index.reachesThrough usable ancestor descendant) = true ↔
      usable ancestor = true ∧ usable descendant = true ∧
      (ancestor = descendant ∨ Relation.TransGen (index.UsableChild usable)
        ancestor descendant) := by
  split
  next h =>
    simp only [Bool.or_eq_true, Bool.not_eq_true'] at h
    simp only [Bool.false_eq_true, false_iff]
    rintro ⟨hleft, hright, -⟩
    simp [hleft, hright] at h
  next h =>
    simp only [Bool.or_eq_true, Bool.not_eq_true', not_or,
      Bool.not_eq_false] at h
    split
    next heq => simp [h.1, ← heq]
    next hne =>
      rw [CausalIndex.reachesThrough_iff]
      simp [h.1, h.2, hne]

namespace ReductionContext

/-- The usable identities of a snapshot together with one candidate. -/
def usableWith (context : ReductionContext) (candidate id : FactId) : Bool :=
  id = candidate || context.isProjected id

theorem usablyReaches_iff :
    context.usablyReaches ancestor descendant = true ↔
      context.isProjected ancestor = true ∧
      context.isProjected descendant = true ∧
      (ancestor = descendant ∨ Relation.TransGen
        (context.graph.UsableChild context.isProjected) ancestor descendant) :=
  CausalIndex.reaches_or_eq_iff

end ReductionContext

theorem reachesWithCandidate_iff {candidate : FactId} :
    reachesWithCandidate context ancestor descendant candidate = true ↔
      context.usableWith candidate ancestor = true ∧
      context.usableWith candidate descendant = true ∧
      (ancestor = descendant ∨ Relation.TransGen (context.graph.UsableChild
        (context.usableWith candidate)) ancestor descendant) :=
  @CausalIndex.reaches_or_eq_iff _ _ (context.usableWith candidate) _

theorem CausalIndex.UsableChild.child {parent child : FactId}
    (h : index.UsableChild usable parent child) : index.Child parent child :=
  h.1

/-- A usable path is a declared one. -/
theorem CausalIndex.transGen_child
    (h : Relation.TransGen (index.UsableChild usable) ancestor descendant) :
    Relation.TransGen index.Child ancestor descendant :=
  Relation.TransGen.mono (fun _ _ hedge => hedge.child) _ _ h

theorem CausalIndex.reflTransGen_child
    (h : Relation.ReflTransGen (index.UsableChild usable) ancestor descendant) :
    Relation.ReflTransGen index.Child ancestor descendant :=
  Relation.ReflTransGen.mono (fun _ _ hedge => hedge.child) _ _ h

/-- Two contexts that agree on the causal past of an identity. -/
structure AgreeAbove (left right : ReductionContext) (id : FactId) : Prop where
  edge : ∀ y z, Relation.ReflTransGen left.graph.Child z id →
    (left.graph.Child y z ↔ right.graph.Child y z)
  projected : ∀ z, Relation.TransGen left.graph.Child z id →
    left.isProjected z = right.isProjected z

namespace AgreeAbove

variable {left right : ReductionContext} {id : FactId}

theorem path_iff (h : AgreeAbove left right id) {z : FactId} :
    Relation.ReflTransGen left.graph.Child z id ↔
      Relation.ReflTransGen right.graph.Child z id := by
  constructor
  · intro hz
    induction hz using Relation.ReflTransGen.head_induction_on with
    | refl => exact .refl
    | head hedge hrest ih => exact .head ((h.edge _ _ hrest).1 hedge) ih
  · intro hz
    induction hz using Relation.ReflTransGen.head_induction_on with
    | refl => exact .refl
    | head hedge _ ih => exact .head ((h.edge _ _ ih).2 hedge) ih

theorem ancestor_iff (h : AgreeAbove left right id) {z : FactId} :
    Relation.TransGen left.graph.Child z id ↔
      Relation.TransGen right.graph.Child z id := by
  rw [Relation.TransGen.head'_iff, Relation.TransGen.head'_iff]
  refine exists_congr fun y => ?_
  constructor
  · rintro ⟨hedge, hpath⟩
    exact ⟨(h.edge _ _ hpath).1 hedge, h.path_iff.1 hpath⟩
  · rintro ⟨hedge, hpath⟩
    have hpath := h.path_iff.2 hpath
    exact ⟨(h.edge _ _ hpath).2 hedge, hpath⟩

theorem symm (h : AgreeAbove left right id) : AgreeAbove right left id where
  edge y z hz := (h.edge y z (h.path_iff.2 hz)).symm
  projected z hz := (h.projected z (h.ancestor_iff.2 hz)).symm

theorem mono (h : AgreeAbove left right id) {other : FactId}
    (hother : Relation.ReflTransGen left.graph.Child other id) :
    AgreeAbove left right other where
  edge y z hz := h.edge y z (hz.trans hother)
  projected z hz := h.projected z (hz.trans_left hother)

/-- Usable paths into an identity only read its causal past. -/
theorem usablePath (h : AgreeAbove left right id)
    {leftUsable rightUsable : FactId → Bool}
    (husable : ∀ z, Relation.ReflTransGen left.graph.Child z id →
      leftUsable z = rightUsable z)
    (hpath : Relation.TransGen (left.graph.UsableChild leftUsable) ancestor id) :
    Relation.TransGen (right.graph.UsableChild rightUsable) ancestor id := by
  refine transGen_imp_into (fun y z hedge hrest => ?_) hpath
  have hz := CausalIndex.reflTransGen_child hrest
  exact ⟨(h.edge y z hz).1 hedge.child, by rw [← husable z hz]; exact hedge.2⟩

theorem usablyReaches_imp (h : AgreeAbove left right id)
    (hid : left.isProjected id = right.isProjected id)
    (hreach : left.usablyReaches ancestor id = true) :
    right.usablyReaches ancestor id = true := by
  have husable : ∀ z, Relation.ReflTransGen left.graph.Child z id →
      left.isProjected z = right.isProjected z := by
    intro z hz
    rcases Relation.reflTransGen_iff_eq_or_transGen.1 hz with heq | htrans
    · rw [← heq, hid]
    · exact h.projected z htrans
  rw [ReductionContext.usablyReaches_iff] at hreach ⊢
  obtain ⟨hancestor, hdescendant, heq | hpath⟩ := hreach
  · subst heq
    exact ⟨by rw [← hid]; exact hancestor, by rw [← hid]; exact hancestor,
      Or.inl rfl⟩
  · have habove := (CausalIndex.transGen_child hpath).to_reflTransGen
    exact ⟨by rw [← husable _ habove]; exact hancestor,
      by rw [← hid]; exact hdescendant, Or.inr (h.usablePath husable hpath)⟩

theorem usablyReaches_eq (h : AgreeAbove left right id)
    (hid : left.isProjected id = right.isProjected id) (ancestor : FactId) :
    left.usablyReaches ancestor id = right.usablyReaches ancestor id := by
  rw [Bool.eq_iff_iff]
  exact ⟨h.usablyReaches_imp hid, h.symm.usablyReaches_imp hid.symm⟩

theorem reachesWithCandidate_imp (h : AgreeAbove left right id)
    (hreach : reachesWithCandidate left ancestor id id = true) :
    reachesWithCandidate right ancestor id id = true := by
  have husable : ∀ z, Relation.ReflTransGen left.graph.Child z id →
      left.usableWith id z = right.usableWith id z := by
    intro z hz
    unfold ReductionContext.usableWith
    rcases Relation.reflTransGen_iff_eq_or_transGen.1 hz with heq | htrans
    · simp [heq]
    · rw [h.projected z htrans]
  rw [reachesWithCandidate_iff] at hreach ⊢
  obtain ⟨hancestor, hdescendant, heq | hpath⟩ := hreach
  · subst heq
    simp [ReductionContext.usableWith]
  · have habove := (CausalIndex.transGen_child hpath).to_reflTransGen
    exact ⟨by rw [← husable _ habove]; exact hancestor,
      by rw [← husable _ .refl]; exact hdescendant,
      Or.inr (h.usablePath husable hpath)⟩

theorem reachesWithCandidate_eq (h : AgreeAbove left right id)
    (ancestor : FactId) :
    reachesWithCandidate left ancestor id id =
      reachesWithCandidate right ancestor id id := by
  rw [Bool.eq_iff_iff]
  exact ⟨h.reachesWithCandidate_imp, h.symm.reachesWithCandidate_imp⟩

end AgreeAbove

section Snapshots

variable {facts : FactSet} {left right : OrderedMap FactId DecisionStatus}

theorem agreeAbove_snapshot {id : FactId}
    (h : ∀ z, Relation.TransGen facts.graph.Child z id →
      (snapshot facts left).isProjected z =
        (snapshot facts right).isProjected z) :
    AgreeAbove (snapshot facts left) (snapshot facts right) id :=
  ⟨fun _ _ _ => Iff.rfl, h⟩

/-- Snapshots that agree on the causal past of a fact, and on its paths to the
revokes it must stand above, judge it alike. -/
theorem sameAuthority_of_agree {policy : AuthorityPolicy}
    (hready : GraphReady facts fact)
    (hpast : ∀ z, Relation.TransGen facts.graph.Child z fact.id →
      (snapshot facts left).isProjected z =
        (snapshot facts right).isProjected z)
    (hforward : ∀ candidate ∈ facts.facts,
      awaitedBy (snapshot facts left) fact candidate = true →
      reachesWithCandidate (snapshot facts left) fact.id candidate.id fact.id =
        reachesWithCandidate (snapshot facts right) fact.id candidate.id
          fact.id) :
    SameAuthority policy fact (snapshot facts left) (snapshot facts right) where
  cited _ _ := rfl
  scan _ _ := rfl
  above _ _ := rfl
  below _ _ := rfl
  usable candidate _ id hid := by
    have hedge := (child_iff_of_get? hready.retained).2 hid
    exact ((agreeAbove_snapshot hpast).mono (.single hedge)).usablyReaches_eq
      (hpast id (.single hedge)) _
  into candidate _ := (agreeAbove_snapshot hpast).reachesWithCandidate_eq _
  forward := hforward

end Snapshots

/-! Actions and the revokes they answer to. -/

/-- An action judged by an account membership. -/
def isAccountAction (fact : Fact) : Bool :=
  match fact.payload with
  | .humanAccountSelected _ => true
  | payload => isScopedAction payload &&
      match fact.scope with
      | .accountAddressed _ | .remoteControl .. => true
      | _ => false

theorem accountAction_answers {accountId : AccountId}
    (hok : validateAccountAction fact accountId context = .ok ())
    (hmem : revoke ∈ context.facts.facts)
    (hawaits : accountAwaits context fact accountId revoke = true) :
    reachesWithCandidate context fact.id revoke.id fact.id = true ∨
      ∃ id, fact.causal.authority .accountMembership = some id ∧
        context.usablyReaches revoke.id id = true := by
  obtain ⟨id, membership, hid, hget, hcreator | ⟨grantId, hpayload, hrevokes⟩⟩ :=
    validateAccountAction_ok.1 hok
  · obtain ⟨label, hpayload⟩ := hcreator
    simp [accountAwaits, hid, hget, acceptsDevice, hpayload] at hawaits
  · have hdevice : revokesDevice accountId fact.authorId revoke = true := by
      simp only [accountAwaits, Bool.and_eq_true] at hawaits
      exact hawaits.2
    exact (hrevokes revoke hmem hdevice).imp_right fun h => ⟨id, hid, h⟩

/-- An admitted action stands above each revoke it answers to, unless the
revoke stands above its membership. -/
theorem answers_of_validateFact {policy : AuthorityPolicy}
    (hok : validateFact policy fact context = .ok ())
    (hmem : revoke ∈ context.facts.facts)
    (hawaited : awaitedBy context fact revoke = true) :
    reachesWithCandidate context fact.id revoke.id fact.id = true ∨
      isAccountAction fact = true ∧
        ∃ id, fact.causal.authority .accountMembership = some id ∧
          context.usablyReaches revoke.id id = true := by
  unfold awaitedBy at hawaited
  split at hawaited
  next accountId hpayload =>
    have haction : validateAccountAction fact accountId context = .ok () := by
      simp only [validateFact, hpayload, unit_bind_eq_ok] at hok
      exact hok.2
    exact (accountAction_answers haction hmem hawaited).imp_right fun h =>
      ⟨by simp [isAccountAction, hpayload], h⟩
  next hpayload =>
    simp only [Bool.and_eq_true] at hawaited
    obtain ⟨hscoped, hanswers⟩ := hawaited
    rw [validateFact_of_scopedAction hscoped] at hok
    have hkind : ∀ accountId home, fact.scope = .accountAddressed accountId ∨
        fact.scope = .remoteControl accountId home →
        isAccountAction fact = true := by
      intro accountId home hscope
      unfold isAccountAction
      split
      · rfl
      · rcases hscope with hscope | hscope <;> simp [hscoped, hscope]
    unfold answersTo at hanswers
    unfold validateScopedAction at hok
    split at hok
    next => simp_all
    next target hscope =>
      obtain ⟨id, grant, grantId, hid, hget, hgrant, hrevokes⟩ :=
        validatePeerAction_ok.1 hok
      refine Or.inl (hrevokes revoke hmem ?_)
      simpa [hscope, actionGrant, hid, hget, peerGrantId_eq_some.2 hgrant]
        using hanswers
    next accountId hscope =>
      exact (accountAction_answers hok hmem (by simpa [hscope] using hanswers))
        |>.imp_right fun h => ⟨hkind accountId fact.authorId (Or.inl hscope), h⟩
    next accountId home hscope =>
      exact (accountAction_answers hok hmem (by simpa [hscope] using hanswers))
        |>.imp_right fun h => ⟨hkind accountId home (Or.inr hscope), h⟩

theorem awaitedBy_ne
    (h : awaitedBy context fact revoke = true) : fact ≠ revoke := by
  rintro rfl
  unfold awaitedBy at h
  split at h
  next hpayload => simp [accountAwaits, revokesDevice, hpayload] at h
  next =>
    simp only [Bool.and_eq_true] at h
    obtain ⟨hscoped, hanswers⟩ := h
    have hgrant : ∀ grantId, revokesGrant grantId fact = false := by
      intro grantId
      unfold revokesGrant
      split <;> simp_all [isScopedAction]
    have hdevice : ∀ accountId deviceId,
        revokesDevice accountId deviceId fact = false := by
      intro accountId deviceId
      unfold revokesDevice
      split <;> simp_all [isScopedAction]
    unfold answersTo accountAwaits at hanswers
    split at hanswers <;> simp_all

/-- The action at an identity waits for a revoke among its descendants: no
path from the revoke to its membership excuses it. -/
def Awaits (facts : FactSet) (revokeId id : FactId) : Prop :=
  ∃ fact revoke, facts.get? id = some fact ∧ revoke ∈ facts.facts ∧
    revoke.id = revokeId ∧
    awaitedBy (idealContext facts) fact revoke = true ∧
    (isAccountAction fact = true → ∀ membership,
      fact.causal.authority .accountMembership = some membership →
      facts.graph.structurallyReaches revoke.id membership = false)

section Judgement

variable {policy : AuthorityPolicy} {facts : FactSet} {fact : Fact}
  {statuses : OrderedMap FactId DecisionStatus}

theorem mem_vertices_of_mem_ids {id : FactId} (hid : id ∈ facts.ids) :
    id ∈ facts.graph.vertices :=
  facts.mem_graph_vertices.2 (Or.inl hid)

theorem structurallyReaches_of_path
    (hancestor : ancestor ∈ facts.ids) (hdescendant : descendant ∈ facts.ids)
    (hpath : Relation.ReflTransGen facts.graph.Child ancestor descendant) :
    facts.graph.structurallyReaches ancestor descendant = true :=
  (CausalIndex.structurallyReaches_iff _).2
    ⟨mem_vertices_of_mem_ids hancestor, mem_vertices_of_mem_ids hdescendant,
      hpath⟩

theorem usablyReaches_path
    (h : (snapshot facts statuses).usablyReaches ancestor descendant = true) :
    Relation.ReflTransGen facts.graph.Child ancestor descendant := by
  obtain ⟨-, -, rfl | hpath⟩ := ReductionContext.usablyReaches_iff.1 h
  · exact .refl
  · exact (CausalIndex.transGen_child hpath).to_reflTransGen

theorem mem_ids_of_mem_facts (h : fact ∈ facts.facts) :
    fact.id ∈ facts.ids :=
  FactSet.mem_ids_of_get? (FactSet.mem_facts.1 h)

/-- A revoke that stands above the membership of an action stands above the
action, so the action cannot stand above the revoke. -/
theorem not_reaches_of_backward (hready : GraphReady facts fact)
    {revoke membership : FactId}
    (hmembership : membership ∈ fact.causal.parents)
    (hpath : Relation.ReflTransGen facts.graph.Child revoke membership)
    (hne : fact.id ≠ revoke) :
    reachesWithCandidate (snapshot facts statuses) fact.id revoke fact.id =
      false := by
  rw [Bool.eq_false_iff]
  intro hreach
  obtain ⟨-, -, heq | hforward⟩ := reachesWithCandidate_iff.1 hreach
  · exact hne heq
  · have hedge := (child_iff_of_get? hready.retained).2 hmembership
    exact hready.acyclic ((CausalIndex.transGen_child hforward).trans
      (Relation.TransGen.tail' hpath hedge))

/-- An admitted action has the revokes it waits for admitted below it. -/
theorem awaits_of_validateFact (hready : GraphReady facts fact)
    (hok : validateFact policy fact (snapshot facts statuses) = .ok ())
    (hawaits : Awaits facts revokeId fact.id) :
    reachesWithCandidate (snapshot facts statuses) fact.id revokeId
      fact.id = true := by
  obtain ⟨found, revoke, hget, hmem, rfl, hawaited, hexcused⟩ := hawaits
  obtain rfl : found = fact := by
    rw [hready.retained] at hget
    exact (Option.some.inj hget).symm
  rcases answers_of_validateFact hok hmem hawaited with
    hforward | ⟨haccount, membership, hmembership, hbackward⟩
  · exact hforward
  · have hparent := found.mem_parents_of_authority hmembership
    have hpath := usablyReaches_path hbackward
    have hstructural := structurallyReaches_of_path (mem_ids_of_mem_facts hmem)
      (hready.known membership hparent) hpath
    rw [hexcused haccount membership hmembership] at hstructural
    cases hstructural

theorem ne_of_awaited
    (hready : GraphReady facts fact) (hmem : revoke ∈ facts.facts)
    (hawaited : awaitedBy context fact revoke = true) :
    fact.id ≠ revoke.id := by
  intro hid
  have hsame := FactSet.mem_facts.1 hmem
  rw [← hid, hready.retained] at hsame
  exact awaitedBy_ne hawaited (Option.some.inj hsame)

theorem awaits_ne (hready : GraphReady facts fact)
    (hawaits : Awaits facts revokeId fact.id) : fact.id ≠ revokeId := by
  obtain ⟨found, revoke, hget, hmem, rfl, hawaited, -⟩ := hawaits
  obtain rfl : found = fact := by
    rw [hready.retained] at hget
    exact (Option.some.inj hget).symm
  exact ne_of_awaited hready hmem hawaited

theorem awaits_target (hready : GraphReady facts fact)
    (hok : validateFact policy fact (snapshot facts statuses) = .ok ())
    (hawaits : Awaits facts revokeId fact.id) :
    (snapshot facts statuses).isProjected revokeId = true ∧
      ∃ child, (snapshot facts statuses).isProjected child = true ∧
        facts.graph.Child fact.id child := by
  have hne := awaits_ne hready hawaits
  obtain ⟨-, hrevoke, heq | hpath⟩ :=
    reachesWithCandidate_iff.1 (awaits_of_validateFact hready hok hawaits)
  · exact absurd heq hne
  · have husable : ∀ id, (snapshot facts statuses).usableWith fact.id id = true →
        id ≠ fact.id → (snapshot facts statuses).isProjected id = true := by
      intro id husable hid
      simpa [ReductionContext.usableWith, hid] using husable
    refine ⟨husable revokeId hrevoke hne.symm, ?_⟩
    obtain ⟨child, hedge, -⟩ := Relation.TransGen.head'_iff.1 hpath
    have hchild : facts.graph.Child fact.id child := hedge.1
    have hself : child ≠ fact.id := by
      rintro rfl
      exact hready.acyclic (.single hchild)
    exact ⟨child, husable child hedge.2 hself, hchild⟩

/-- An action that the ideal snapshot shows above a revoke stands above it in
any snapshot that admits the causal past of the revoke. -/
theorem reaches_of_ideal {revoke : FactId} (hne : fact.id ≠ revoke)
    (hreach : reachesWithCandidate (idealContext facts) fact.id revoke fact.id =
      true)
    (hrevoke : (snapshot facts statuses).isProjected revoke = true)
    (hpast : ∀ z, Relation.TransGen facts.graph.Child z revoke →
      (snapshot facts statuses).isProjected z = true) :
    reachesWithCandidate (snapshot facts statuses) fact.id revoke fact.id =
      true := by
  rw [reachesWithCandidate_iff] at hreach ⊢
  obtain ⟨-, -, heq | hpath⟩ := hreach
  · exact absurd heq hne
  · refine ⟨by simp [ReductionContext.usableWith],
      by simp [ReductionContext.usableWith, hrevoke], Or.inr ?_⟩
    refine transGen_imp_into (fun y z hedge hrest => ⟨hedge.1, ?_⟩) hpath
    have hz : Relation.ReflTransGen facts.graph.Child z revoke :=
      CausalIndex.reflTransGen_child hrest
    rcases Relation.reflTransGen_iff_eq_or_transGen.1 hz with heq | htrans
    · simp [ReductionContext.usableWith, ← heq, hrevoke]
    · simp [ReductionContext.usableWith, hpast z htrans]

/-- Whatever a snapshot reaches the ideal one reaches. -/
theorem ideal_reaches {revoke : FactId}
    (hrevoke : revoke ∈ facts.ids) (hid : fact.id ∈ facts.ids)
    (hreach : reachesWithCandidate (snapshot facts statuses) fact.id revoke
      fact.id = true) :
    reachesWithCandidate (idealContext facts) fact.id revoke fact.id = true := by
  have hknown : ∀ id ∈ facts.ids,
      (idealContext facts).usableWith fact.id id = true := by
    intro id hid
    simp [ReductionContext.usableWith, idealContext_isProjected.2 hid]
  rw [reachesWithCandidate_iff] at hreach ⊢
  refine ⟨hknown _ hid, hknown _ hrevoke, hreach.2.2.imp_right fun hpath => ?_⟩
  refine transGen_imp_into (fun y z hedge _ => ⟨hedge.1, hknown z ?_⟩) hpath
  have hchild : facts.graph.Child y z := hedge.1
  rw [child_iff, facts.mem_graph_parents] at hchild
  obtain ⟨other, hget, -⟩ := hchild
  exact FactSet.mem_ids_of_get? hget

/-- A snapshot that admits a fact and its causal past judges it as the ideal
snapshot does. -/
theorem sameAuthority_ideal_of_admitted (hready : GraphReady facts fact)
    (hok : validateFact policy fact (snapshot facts statuses) = .ok ())
    (hpast : ∀ z, Relation.TransGen facts.graph.Child z fact.id →
      (snapshot facts statuses).isProjected z = true ∧ z ∈ facts.ids) :
    SameAuthority policy fact (snapshot facts statuses) (idealContext facts) := by
  refine sameAuthority_of_agree hready (fun z hz => ?_)
    fun revoke hmem hawaited => ?_
  · exact (hpast z hz).1.trans (idealContext_isProjected.2 (hpast z hz).2).symm
  · have hrevokeId := mem_ids_of_mem_facts hmem
    have hne := ne_of_awaited hready hmem hawaited
    rcases answers_of_validateFact hok hmem hawaited with
      hforward | ⟨-, membership, hmembership, hbackward⟩
    · exact hforward.trans
        (ideal_reaches hrevokeId hready.mem_ids hforward).symm
    · have hparent := fact.mem_parents_of_authority hmembership
      have hpath := usablyReaches_path hbackward
      exact (not_reaches_of_backward hready hparent hpath hne).trans
        (not_reaches_of_backward hready hparent hpath hne).symm

/-- A snapshot that admits the causal past of a fact and of the revokes it
waits for judges it as the ideal snapshot does. -/
theorem sameAuthority_ideal_of_past (hready : GraphReady facts fact)
    (hok : validateFact policy fact (idealContext facts) = .ok ())
    (hpast : ∀ z, Relation.TransGen facts.graph.Child z fact.id →
      (snapshot facts statuses).isProjected z = true ∧ z ∈ facts.ids)
    (htargets : ∀ revokeId, Awaits facts revokeId fact.id →
      (snapshot facts statuses).isProjected revokeId = true ∧
      ∀ z, Relation.TransGen facts.graph.Child z revokeId →
        (snapshot facts statuses).isProjected z = true) :
    SameAuthority policy fact (snapshot facts statuses) (idealContext facts) := by
  refine sameAuthority_of_agree hready (fun z hz => ?_)
    fun revoke hmem hawaited => ?_
  · exact (hpast z hz).1.trans (idealContext_isProjected.2 (hpast z hz).2).symm
  · have hrevokeId := mem_ids_of_mem_facts hmem
    have hne := ne_of_awaited hready hmem hawaited
    by_cases hexcused : isAccountAction fact = true ∧ ∃ membership,
        fact.causal.authority .accountMembership = some membership ∧
        facts.graph.structurallyReaches revoke.id membership = true
    · obtain ⟨-, membership, hmembership, hstructural⟩ := hexcused
      have hparent := fact.mem_parents_of_authority hmembership
      have hpath := ((CausalIndex.structurallyReaches_iff _).1 hstructural).2.2
      exact (not_reaches_of_backward hready hparent hpath hne).trans
        (not_reaches_of_backward hready hparent hpath hne).symm
    · have hawaits : Awaits facts revoke.id fact.id := by
        refine ⟨fact, revoke, hready.retained, hmem, rfl, hawaited, ?_⟩
        intro haccount membership hmembership
        by_contra hstructural
        exact hexcused ⟨haccount, membership, hmembership,
          by simpa using hstructural⟩
      have hideal := awaits_of_validateFact hready hok hawaits
      obtain ⟨hrevoke, hpastRevoke⟩ := htargets revoke.id hawaits
      exact (reaches_of_ideal hne hideal hrevoke hpastRevoke).trans hideal.symm

end Judgement

end Hq
