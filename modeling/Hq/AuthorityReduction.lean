/-
Authority reduction always returns: the decisions settle, and what is derived
from them is consistent.
-/
import Hq.LayeredReduction
import Hq.UsableOrder

namespace Hq

/-- A snapshot in which every projected fact is graph-ready, has projected
parents and passes the authority rules. -/
def AuthorityStable (policy : AuthorityPolicy) (facts : FactSet)
    (statuses : OrderedMap FactId DecisionStatus) : Prop :=
  ∀ id, (snapshot facts statuses).isProjected id = true →
    ∃ fact, GraphReady facts fact ∧ fact.id = id ∧
      (∀ parent ∈ fact.causal.parents,
        (snapshot facts statuses).isProjected parent = true) ∧
      validateFact policy fact (snapshot facts statuses) = .ok ()

namespace AuthorityStable

variable {policy : AuthorityPolicy} {facts : FactSet}
  {statuses : OrderedMap FactId DecisionStatus}

theorem projected (h : AuthorityStable policy facts statuses) {fact : Fact}
    (hfact : fact ∈ (snapshot facts statuses).projectedFacts) :
    GraphReady facts fact ∧
      (∀ parent ∈ fact.causal.parents,
        (snapshot facts statuses).isProjected parent = true) ∧
      validateFact policy fact (snapshot facts statuses) = .ok () := by
  obtain ⟨hmem, hprojected⟩ := mem_projectedFacts.1 hfact
  obtain ⟨other, hready, hid, hparents, hvalid⟩ := h fact.id hprojected
  obtain rfl : other = fact := FactSet.eq_of_mem_facts_of_id_eq
    (FactSet.mem_facts_of_get? hready.retained) hmem hid
  exact ⟨hready, hparents, hvalid⟩

theorem closed (h : AuthorityStable policy facts statuses) :
    UsablyClosed facts statuses := by
  intro id hid
  obtain ⟨fact, hready, hfact, hparents, -⟩ := h id hid
  exact ⟨fact, hready, hfact, hparents⟩

/-- Everything above a projected identity is projected. -/
theorem isProjected_of_above (h : AuthorityStable policy facts statuses)
    {id z : FactId} (hid : (snapshot facts statuses).isProjected id = true)
    (hpath : Relation.TransGen facts.graph.Child z id) :
    (snapshot facts statuses).isProjected z = true :=
  h.closed.above hid hpath

theorem acyclic (h : AuthorityStable policy facts statuses) {id : FactId}
    (hid : (snapshot facts statuses).isProjected id = true) :
    ¬ Relation.TransGen facts.graph.Child id id :=
  h.closed.acyclic hid

end AuthorityStable

/-- A set with a listed member is not empty. -/
theorem OrderedSet.ofList_ne_empty {α : Type} [LinearOrder α] {first : α}
    {rest : List α} : OrderedSet.ofList (first :: rest) ≠ ∅ := by
  intro hempty
  exact OrderedSet.eq_empty_iff.1 hempty first (by simp)

section Projections

variable {policy : AuthorityPolicy} {facts : FactSet}
  {statuses : OrderedMap FactId DecisionStatus}

theorem rootProjections_sound (h : AuthorityStable policy facts statuses) :
    Sound (snapshot facts statuses)
      (rootProjections (snapshot facts statuses)) := by
  refine Sound.of_filterMap (fun fact hfact contribution hread => ?_)
    fun left hleft right hright first second hfirst hsecond hkey => ?_
  · have hprojected := (mem_projectedFacts.1 hfact).2
    split at hread <;> cases hread <;>
      exact ⟨OrderedSet.ofList_ne_empty, by simpa using hprojected⟩
  · have hvalid := (h.projected hleft).2.2
    have hleftMem := (mem_projectedFacts.1 hleft).1
    have hrightMem := (mem_projectedFacts.1 hright).1
    split at hfirst <;> cases hfirst
    next hpayload =>
      rw [validateFact, hpayload, validateInstallationRoot_ok] at hvalid
      split at hsecond <;> cases hsecond <;>
        simp only [AuthorityAggregateKey.installation.injEq,
          reduceCtorEq] at hkey
      next hother =>
        exact eq_of_countFacts_le_one hvalid.2 hleftMem
          (by simp [declaresInstallation, hpayload]) hrightMem
          (by simp [declaresInstallation, hother, hkey])
    next hpayload =>
      rw [validateFact, hpayload, validateMailboxRoot_ok] at hvalid
      split at hsecond <;> cases hsecond <;>
        simp only [AuthorityAggregateKey.mailbox.injEq,
          MailboxAddress.mk.injEq, reduceCtorEq] at hkey
      next hother =>
        exact eq_of_countFacts_le_one hvalid.2.2.1 hleftMem
          (by simp [mailboxSubject, hpayload]) hrightMem
          (by simp [mailboxSubject, hother, hkey.1, hkey.2])

theorem authorityGroups_projected {entry : AuthorityAggregateKey ×
      OrderedSet FactId}
    (hentry : entry ∈ (authorityGroups (snapshot facts statuses)).entries) :
    entry.2 ≠ ∅ ∧ ∀ id ∈ entry.2,
      (snapshot facts statuses).isProjected id = true := by
  obtain ⟨hne, hmembers⟩ := groupFacts_entry hentry
  refine ⟨hne, fun id hid => ?_⟩
  obtain ⟨fact, hfact, -, rfl⟩ := (hmembers id).1 hid
  exact (mem_projectedFacts.1 hfact).2

theorem peerRouteProjections_sound (h : AuthorityStable policy facts statuses) :
    Sound (snapshot facts statuses)
      (peerRouteProjections (snapshot facts statuses)) := by
  refine Sound.of_filterMap (fun entry hentry contribution hread => ?_)
    fun left hleft right hright first second hfirst hsecond hkey => ?_
  · obtain ⟨hne, hprojected⟩ := authorityGroups_projected hentry
    split at hread <;> cases hread
    exact ⟨h.closed.maximalMembers_ne_empty hne hprojected, fun id hid =>
      hprojected id (maximalMembers_subset hid)⟩
  · split at hfirst <;> cases hfirst
    next hleftKey =>
      split at hsecond <;> cases hsecond
      next hrightKey =>
        exact OrderedMap.entry_eq hleft hright
          (hleftKey.trans (hkey.trans hrightKey.symm))

theorem membershipProjections_sound :
    Sound (snapshot facts statuses)
      (membershipProjections (snapshot facts statuses)) := by
  refine Sound.of_filterMap (fun entry hentry contribution hread => ?_)
    fun left hleft right hright first second hfirst hsecond hkey => ?_
  · split at hread <;> cases hread
    exact authorityGroups_projected hentry
  · split at hfirst <;> cases hfirst
    next hleftKey =>
      split at hsecond <;> cases hsecond
      next hrightKey =>
        exact OrderedMap.entry_eq hleft hright
          (hleftKey.trans (hkey.trans hrightKey.symm))

theorem capabilityProjections_sound
    (h : AuthorityStable policy facts statuses) :
    Sound (snapshot facts statuses)
      (capabilityProjections (snapshot facts statuses)) := by
  refine Sound.of_filterMap (fun grant hgrant contribution hread => ?_)
    fun left hleft right hright first second hfirst hsecond hkey => ?_
  · split at hread <;> cases hread
    refine ⟨OrderedSet.ofList_ne_empty, fun id hid => ?_⟩
    simp only [OrderedSet.mem_ofList, List.mem_cons, List.mem_append,
      OrderedSet.mem_toList, List.mem_map, List.mem_filter,
      List.mem_filterMap] at hid
    rcases hid with rfl | ⟨revoke, ⟨-, hrevoke⟩, rfl⟩ | ⟨read, ⟨fact, hfact,
      hobserved⟩, rfl⟩
    · exact (mem_projectedFacts.1 hgrant).2
    · exact hrevoke
    · split at hobserved
      · split at hobserved <;> cases hobserved
        exact (mem_projectedFacts.1 hfact).2
      · cases hobserved
  · have hvalid := (h.projected hleft).2.2
    split at hfirst <;> cases hfirst
    next hpayload =>
      split at hsecond <;> cases hsecond
      next hother =>
        rw [validateFact, hpayload, validateMailboxGrant_ok] at hvalid
        simp only [AuthorityAggregateKey.mailboxCapability.injEq] at hkey
        exact eq_of_countFacts_le_one hvalid.2.2.1 (mem_projectedFacts.1 hleft).1
          (by simp [grantsMailbox, hpayload]) (mem_projectedFacts.1 hright).1
          (by simp [grantsMailbox, hother, hkey])

theorem accountProjections_sound (h : AuthorityStable policy facts statuses) :
    Sound (snapshot facts statuses)
      (accountProjections (snapshot facts statuses)) := by
  refine Sound.of_filterMap (fun fact hfact contribution hread => ?_)
    fun left hleft right hright first second hfirst hsecond hkey => ?_
  · split at hread <;> cases hread
    exact ⟨OrderedSet.ofList_ne_empty,
      by simpa using (mem_projectedFacts.1 hfact).2⟩
  · have hvalid := (h.projected hleft).2.2
    split at hfirst <;> cases hfirst
    next hpayload =>
      split at hsecond <;> cases hsecond
      next hother =>
        rw [validateFact, hpayload, validateAccountRoot_ok] at hvalid
        simp only [AuthorityAggregateKey.account.injEq] at hkey
        exact eq_of_countFacts_le_one hvalid.2.2 (mem_projectedFacts.1 hleft).1
          (by simp [accountRootSubject, hpayload]) (mem_projectedFacts.1 hright).1
          (by simp [accountRootSubject, hother, hkey])

theorem selectionProjections_sound (h : AuthorityStable policy facts statuses) :
    Sound (snapshot facts statuses)
      (selectionProjections policy (snapshot facts statuses)) := by
  simp only [selectionProjections]
  split
  next => exact ⟨⟨by simp, by simp⟩, by simp⟩
  next hmembers =>
    rw [OrderedSet.isEmpty_iff] at hmembers
    have hprojected : ∀ id ∈ OrderedSet.ofList
        (((snapshot facts statuses).projectedFacts.filter fun fact =>
          fact.authorId = policy.localInstallation &&
            (selectedAccount fact.payload).isSome).map Fact.id),
        (snapshot facts statuses).isProjected id = true := by
      intro id hid
      simp only [OrderedSet.mem_ofList, List.mem_map, List.mem_filter] at hid
      obtain ⟨fact, ⟨hfact, -⟩, rfl⟩ := hid
      exact (mem_projectedFacts.1 hfact).2
    refine ⟨⟨?_, ?_⟩, ?_⟩
    · simpa using h.closed.maximalMembers_ne_empty hmembers hprojected
    · simp
    · intro contribution hmem id hid
      obtain rfl := List.mem_singleton.1 hmem
      exact hprojected id (maximalMembers_subset hid)

/-- The list of contributions a key comes from. -/
def AuthorityAggregateKey.rank : AuthorityAggregateKey → Nat
  | .installation _ | .mailbox _ => 0
  | .peerRoute .. => 1
  | .mailboxCapability _ => 2
  | .account _ => 3
  | .membership .. => 4
  | .accountSelection _ => 5

theorem deriveAuthorityProjections_sound
    (h : AuthorityStable policy facts statuses) :
    Sound (snapshot facts statuses)
      (deriveAuthorityProjections policy (snapshot facts statuses)) := by
  have hparts : deriveAuthorityProjections policy (snapshot facts statuses) =
      [(0, rootProjections (snapshot facts statuses)),
        (1, peerRouteProjections (snapshot facts statuses)),
        (2, capabilityProjections (snapshot facts statuses)),
        (3, accountProjections (snapshot facts statuses)),
        (4, membershipProjections (snapshot facts statuses)),
        (5, selectionProjections policy
          (snapshot facts statuses))].flatMap Prod.snd := by
    simp [deriveAuthorityProjections]
  rw [hparts]
  refine Sound.flatMap_of_rank AuthorityAggregateKey.rank (by simp) ?_
  simp only [List.mem_cons, List.not_mem_nil, or_false, forall_eq_or_imp,
    forall_eq]
  refine ⟨⟨rootProjections_sound h, ?_⟩, ⟨peerRouteProjections_sound h, ?_⟩,
    ⟨capabilityProjections_sound h, ?_⟩, ⟨accountProjections_sound h, ?_⟩,
    ⟨membershipProjections_sound, ?_⟩, ⟨selectionProjections_sound h, ?_⟩⟩
  case refine_6 =>
    intro contribution hmem
    simp only [selectionProjections] at hmem
    split at hmem
    · simp at hmem
    · obtain rfl := List.mem_singleton.1 hmem
      rfl
  all_goals
    intro contribution hmem
    obtain ⟨x, -, hread⟩ := List.mem_filterMap.1 hmem
    split at hread <;> cases hread <;> rfl

end Projections

section Reduction

variable (policy : AuthorityPolicy) (facts : FactSet)

/-- Stable authority decisions form a stable snapshot. -/
theorem authorityStable_of_fixed {policy : AuthorityPolicy} {facts : FactSet}
    {decisions : Decisions AuthorityReason}
    (hfix : nextDecisions (authorityReducer policy) facts facts.graph
      decisions = decisions) :
    AuthorityStable policy facts (statusesIn decisions) := by
  intro id hid
  obtain ⟨fact, hready, hfact, hparents, hclassify⟩ :=
    (stable_projected hfix).1 hid
  exact ⟨fact, hready, hfact, hparents, classifyFact_projected.1 hclassify⟩

/-- Authority reduction returns a report of the settled identities. -/
theorem authority_reduceSet : ∃ decisions report,
    reduceSet (authorityReducer policy) facts = .ok report ∧
      nextDecisions (authorityReducer policy) facts facts.graph decisions =
        decisions ∧
      projectedSet decisions =
        (authority_causallyJudged policy facts).admission.settled ∧
      ReportsOn (authorityReducer policy) facts decisions report := by
  obtain ⟨decisions, hstable, hprojected⟩ :=
    (authority_causallyJudged policy facts).stabilizes
  have hfix := (stabilizeFrom_ok hstable).1
  have hsound := deriveAuthorityProjections_sound
    (authorityStable_of_fixed hfix)
  obtain ⟨report, hreport, hon⟩ := deriveReport_ok hfix hsound.consistent
    hsound.projected (by simp [authorityReducer]) (by simp [authorityReducer])
  refine ⟨decisions, report, ?_, hfix, hprojected, hon⟩
  simp only [reduceSet, hstable, hreport]

end Reduction

end Hq
