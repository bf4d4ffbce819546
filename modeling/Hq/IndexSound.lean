/-
The index of a complete reduction is well formed, so its rows are accepted and
read back; the only reason that is written without being readable is a
conversation mismatch.
-/
import Hq.IndexRows
import Hq.ProjectReduction

namespace Hq

section Filing

variable {α κ β γ : Type} [LinearOrder α] [LinearOrder κ]

/-- An entry filed under a renamed key is found there. -/
theorem OrderedMap.get?_file {rename : α → κ}
    (hinjective : Function.Injective rename) (convert : β → γ)
    (map : OrderedMap α β) (base : OrderedMap κ γ) {key : α} {value : β}
    (hget : map.get? key = some value) :
    (map.entries.foldl (fun base entry =>
      base.insert (rename entry.1) (convert entry.2)) base).get? (rename key) =
      some (convert value) := by
  have hmem := OrderedMap.get?_eq_some_iff.1 hget
  have hsorted := map.sorted
  revert hmem hsorted
  generalize map.entries = entries
  intro hmem hsorted
  induction entries generalizing base with
  | nil => cases hmem
  | cons head tail ih =>
      rw [List.foldl_cons]
      obtain ⟨hhead, htail⟩ := List.pairwise_cons.1 hsorted
      rcases List.mem_cons.1 hmem with rfl | hmem
      · -- No later entry has the key of the first.
        have hkeep : ∀ (list : List (α × β)) (start : OrderedMap κ γ),
            (∀ entry ∈ list, key < entry.1) →
            start.get? (rename key) = some (convert value) →
            (list.foldl (fun base entry =>
              base.insert (rename entry.1) (convert entry.2)) start).get?
                (rename key) = some (convert value) := by
          intro list
          induction list with
          | nil => exact fun _ _ hstart => hstart
          | cons first rest ihRest =>
              intro start hbelow hstart
              rw [List.foldl_cons]
              refine ihRest _ (fun entry hentry =>
                hbelow entry (List.mem_cons_of_mem _ hentry)) ?_
              rw [OrderedMap.get?_insert, if_neg, hstart]
              intro heq
              exact (hbelow first List.mem_cons_self).ne (hinjective heq)
        exact hkeep tail _ hhead (OrderedMap.get?_insert_self _ _ _)
      · exact ih _ hmem htail

/-- Filing leaves the keys of no entry alone. -/
theorem OrderedMap.get?_file_other {rename : α → κ} (convert : β → γ)
    (map : OrderedMap α β) (base : OrderedMap κ γ) {key : κ}
    (hother : ∀ source, (map.get? source).isSome = true →
      rename source ≠ key) :
    (map.entries.foldl (fun base entry =>
      base.insert (rename entry.1) (convert entry.2)) base).get? key =
      base.get? key := by
  have hentries : ∀ entry ∈ map.entries, rename entry.1 ≠ key := by
    intro entry hentry
    exact hother entry.1 (by rw [OrderedMap.get?_eq_some_iff.2 hentry]; rfl)
  revert hentries
  generalize map.entries = entries
  intro hentries
  induction entries generalizing base with
  | nil => rfl
  | cons head tail ih =>
      rw [List.foldl_cons, ih _ fun entry hentry =>
        hentries entry (List.mem_cons_of_mem _ hentry),
        OrderedMap.get?_insert,
        if_neg (hentries head List.mem_cons_self).symm]

end Filing

/-! What a report ties together. -/

section Report

variable {A K V R : Type} [LinearOrder A] [LinearOrder K] [FieldCoded R]
  {domain : DomainReducer A K V R}
  {facts : FactSet} {report : ReductionReport A K V R}

theorem transitiveSupport_projected {context : ReductionContext} {fuel : Nat}
    {transitive result : OrderedSet FactId} {pending : List FactId}
    (h : transitiveSupport context fuel transitive pending = .ok result)
    (htransitive : ∀ id ∈ transitive, context.isProjected id = true) :
    ∀ id ∈ result, context.isProjected id = true := by
  induction fuel generalizing transitive pending with
  | zero =>
      cases h
      exact htransitive
  | succ fuel ih =>
      cases pending with
      | nil =>
          cases h
          exact htransitive
      | cons first rest =>
          rw [transitiveSupport] at h
          split at h
          · cases h
          next hprojected =>
            split at h
            · exact ih h htransitive
            · refine ih h fun id hid => ?_
              rcases OrderedSet.mem_insert.1 hid with rfl | hid
              · simpa using hprojected
              · exact htransitive id hid

theorem closeSupport_projected {context : ReductionContext}
    {entries : List (K × OrderedSet FactId)}
    {support result : OrderedMap K (OrderedSet FactId)}
    (h : closeSupport context entries support = .ok result)
    (hsupport : ∀ set ∈ support.values, ∀ id ∈ set,
      context.isProjected id = true) :
    ∀ set ∈ result.values, ∀ id ∈ set, context.isProjected id = true := by
  induction entries generalizing support with
  | nil =>
      cases h
      exact hsupport
  | cons head tail ih =>
      rw [closeSupport] at h
      split at h
      · cases h
      next transitive htransitive =>
        refine ih h fun set hset => ?_
        obtain ⟨key, hget⟩ := OrderedMap.mem_values.1 hset
        rw [OrderedMap.get?_insert] at hget
        split at hget
        · cases hget
          exact transitiveSupport_projected htransitive fun id hid =>
            (OrderedSet.not_mem_empty id hid).elim
        · exact hsupport set (OrderedMap.mem_values.2 ⟨key, hget⟩)

theorem transitiveSupport_subset {context : ReductionContext} {fuel : Nat}
    {transitive result : OrderedSet FactId} {pending : List FactId}
    (h : transitiveSupport context fuel transitive pending = .ok result) :
    ∀ id ∈ transitive, id ∈ result := by
  induction fuel generalizing transitive pending with
  | zero =>
      cases h
      exact fun _ hid => hid
  | succ fuel ih =>
      cases pending with
      | nil =>
          cases h
          exact fun _ hid => hid
      | cons first rest =>
          rw [transitiveSupport] at h
          split at h
          · cases h
          · split at h
            · exact ih h
            · exact fun id hid => ih h id (OrderedSet.mem_insert.2 (Or.inr hid))

/-- A closed support keeps a supporter. -/
theorem transitiveSupport_supported {context : ReductionContext}
    {direct result : OrderedSet FactId} (hdirect : direct ≠ ∅)
    (h : transitiveSupport context (supportFuel context direct) ∅
      direct.toList = .ok result) : ∃ id, id ∈ result := by
  cases hlist : direct.toList with
  | nil =>
      refine absurd (OrderedSet.eq_empty_iff.2 fun id hid => ?_) hdirect
      rw [OrderedSet.mem_def, hlist] at hid
      cases hid
  | cons first rest =>
      rw [hlist, supportFuel, transitiveSupport] at h
      split at h
      · cases h
      · rw [if_neg (OrderedSet.not_mem_empty first)] at h
        exact ⟨first, transitiveSupport_subset h first
          (OrderedSet.mem_insert.2 (Or.inl rfl))⟩

theorem closeSupport_supported {context : ReductionContext}
    {entries : List (K × OrderedSet FactId)}
    {support result : OrderedMap K (OrderedSet FactId)}
    (hentries : ∀ entry ∈ entries, entry.2 ≠ ∅)
    (h : closeSupport context entries support = .ok result) {key : K}
    (hkey : (∃ direct, (key, direct) ∈ entries) ∨
      ∃ id, id ∈ support.members key) :
    ∃ id, id ∈ result.members key := by
  induction entries generalizing support with
  | nil =>
      cases h
      exact hkey.resolve_left (by simp)
  | cons head tail ih =>
      rw [closeSupport] at h
      split at h
      · cases h
      next transitive htransitive =>
        refine ih (fun entry hentry =>
          hentries entry (List.mem_cons_of_mem _ hentry)) h ?_
        rcases hkey with ⟨direct, hdirect⟩ | ⟨id, hid⟩
        · rcases List.mem_cons.1 hdirect with rfl | hdirect
          · obtain ⟨id, hid⟩ := transitiveSupport_supported
              (hentries _ List.mem_cons_self) htransitive
            refine Or.inr ⟨id, ?_⟩
            rwa [OrderedMap.members, OrderedMap.get?_insert_self]
          · exact Or.inl ⟨direct, hdirect⟩
        · right
          by_cases hhead : key = head.1
          · obtain ⟨supporter, hsupporter⟩ := transitiveSupport_supported
              (hentries _ List.mem_cons_self) htransitive
            refine ⟨supporter, ?_⟩
            rwa [OrderedMap.members, OrderedMap.get?_insert, if_pos hhead]
          · refine ⟨id, ?_⟩
            rwa [OrderedMap.members, OrderedMap.get?_insert, if_neg hhead]

/-- The parts of a report that its index reads. -/
structure Indexable (domain : DomainReducer A K V R) (facts : FactSet)
    (report : ReductionReport A K V R) : Prop where
  facts_eq : report.facts = facts
  graph_eq : report.graph = facts.graph
  fixed : nextDecisions domain facts facts.graph report.decisions =
    report.decisions
  members_eq : report.aggregateMembers = deriveAggregateMembers domain
    (snapshot facts (statusesIn report.decisions))
  conflicts_eq : report.conflicts = deriveConflicts domain
    (snapshot facts (statusesIn report.decisions)) report.decisions
  support_projected : ∀ set ∈ report.support.values, ∀ id ∈ set,
    (snapshot facts (statusesIn report.decisions)).isProjected id = true
  supported : ∀ key, (report.projections.get? key).isSome = true →
    ∃ id, id ∈ report.support.members key
  frontiers_eq : report.frontiers = deriveFrontiers
    (snapshot facts (statusesIn report.decisions)) (deriveAggregateMembers
      domain (snapshot facts (statusesIn report.decisions)))

/-- Nothing is filed under a key without a supporter. -/
theorem supported_of_files
    {contributions : List (ProjectionContribution K V)}
    {after : OrderedMap K V × OrderedMap K (OrderedSet FactId)}
    (hfiles : Files contributions (∅, ∅) after)
    (hsupported : ∀ contribution ∈ contributions,
      contribution.directSupport ≠ ∅)
    {entry : K × OrderedSet FactId} (hentry : entry ∈ after.2.entries) :
    entry.2 ≠ ∅ := by
  have hget := OrderedMap.get?_eq_some_iff.2 hentry
  obtain ⟨contribution, hmem, hkey⟩ := ((hfiles.supported entry.1).1
    (Option.isSome_iff_exists.2 ⟨_, hget⟩)).resolve_left (by simp)
  intro hempty
  refine hsupported contribution hmem (OrderedSet.eq_empty_iff.2 fun id hid => ?_)
  have hmember := (hfiles.support entry.1 id).2
    (Or.inr ⟨contribution, hmem, hkey, hid⟩)
  rw [OrderedMap.members, hget, Option.getD_some, hempty] at hmember
  exact OrderedSet.not_mem_empty id hmember

theorem stabilized_of_reduceSet [DecidableEq V] [DecidableEq R]
    (h : reduceSet domain facts = .ok report) :
    stabilizeDecisions domain facts facts.graph = .ok report.decisions := by
  unfold reduceSet at h
  split at h
  · cases h
  next decisions hstable =>
    rw [hstable]
    simp only [deriveReport] at h
    split at h
    · cases h
    split at h
    · cases h
    split at h
    · cases h
    · cases h
      rfl

theorem indexable_of_reduceSet [DecidableEq V] [DecidableEq R]
    (h : reduceSet domain facts = .ok report) :
    Indexable domain facts report := by
  unfold reduceSet at h
  split at h
  · cases h
  next decisions hstable =>
    have hfix := (stabilizeFrom_ok hstable).1
    simp only [deriveReport, contextOf_eq, deriveProjections] at h
    split at h
    · cases h
    next projections support hderive =>
      split at hderive
      · cases hderive
      next collected direct hcollect =>
        split at hderive
        · cases hderive
        next closed hclose =>
          cases hderive
          split at h
          · cases h
          split at h
          · cases h
          · cases h
            refine ⟨rfl, rfl, hfix, rfl, rfl, ?_, ?_, rfl⟩
            · refine closeSupport_projected hclose fun set hset => ?_
              obtain ⟨key, hget⟩ := OrderedMap.mem_values.1 hset
              simp at hget
            · obtain ⟨hfiles, hsupported⟩ :=
                files_of_collectContributions hcollect
              have hdirect : ∀ entry ∈ direct.entries, entry.2 ≠ ∅ :=
                fun entry hentry => supported_of_files hfiles hsupported hentry
              intro key hkey
              obtain ⟨value, hvalue⟩ := Option.isSome_iff_exists.1 hkey
              obtain ⟨contribution, hmem, hcontribution, -⟩ :=
                ((hfiles.value key value).1 hvalue).resolve_left (by simp)
              obtain ⟨set, hset⟩ := Option.isSome_iff_exists.1
                ((hfiles.supported key).2 (Or.inr ⟨_, hmem, hcontribution⟩))
              exact closeSupport_supported hdirect hclose
                (Or.inl ⟨set, OrderedMap.get?_eq_some_iff.1 hset⟩)

end Report

/-! The decisions of the index. -/

section Normalized

variable {A K V R : Type} [LinearOrder A] [LinearOrder K] [FieldCoded R]

theorem normalizeReport_decision (domain other : ReductionDomain)
    (report : ReductionReport A K V R) (mapReason : R → ReductionReason)
    (index : ReductionIndexSnapshot) (id : FactId) :
    (normalizeReport domain report mapReason index).decisions.get? ⟨other, id⟩ =
      if other = domain then
        ((report.decisions.get? id).map (normalizeDecision mapReason)).or
          (index.decisions.get? ⟨other, id⟩)
      else index.decisions.get? ⟨other, id⟩ := by
  have hinjective : Function.Injective fun id : FactId =>
      (⟨domain, id⟩ : DecisionKey) := by
    intro left right h
    cases h
    rfl
  simp only [normalizeReport]
  split
  next hdomain =>
    subst hdomain
    cases hget : report.decisions.get? id with
    | some decision => exact OrderedMap.get?_file hinjective _ _ _ hget
    | none =>
        refine OrderedMap.get?_file_other _ _ _ fun source hsource heq => ?_
        rw [hinjective heq, hget] at hsource
        cases hsource
  next hdomain =>
    refine OrderedMap.get?_file_other _ _ _ fun source _ heq => hdomain ?_
    cases heq
    rfl

/-- The decisions of each domain in the form the index keeps. -/
def CompleteSnapshot.indexedDecision (complete : CompleteSnapshot) :
    ReductionDomain → FactId → Option IndexedDecision
  | .authority, id => (complete.authority.decisions.get? id).map
      (normalizeDecision .authority)
  | .conversation, id => (complete.conversation.decisions.get? id).map
      (normalizeDecision .conversation)
  | .agent, id => (complete.agent.decisions.get? id).map
      (normalizeDecision .agent)
  | .project, id => (complete.project.decisions.get? id).map
      (normalizeDecision .project)

theorem normalize_decision (complete : CompleteSnapshot)
    (domain : ReductionDomain) (id : FactId) :
    (normalize complete).decisions.get? ⟨domain, id⟩ =
      complete.indexedDecision domain id := by
  unfold normalize
  cases domain <;>
    simp [normalizeReport_decision, structuralIndex,
      CompleteSnapshot.indexedDecision]

end Normalized

/-! The index of four reports on one set of facts. -/

/-- Four reports that describe one set of facts. -/
structure Aligned (policy : AuthorityPolicy) (facts : FactSet)
    (complete : CompleteSnapshot) : Prop where
  policy_eq : complete.policy = policy
  authority : Indexable (authorityReducer policy) facts complete.authority
  conversation :
    Indexable (conversationReducer policy) facts complete.conversation
  agent : Indexable (agentReducer policy) facts complete.agent
  project :
    Indexable (projectReducer policy pathConflicts) facts complete.project
  orders : conversationOrders complete.conversation policy =
    .ok complete.conversationOrders

theorem storeReductionError_eq_ok {ε α : Type} {result : Except ε α}
    {value : α} : storeReductionError result = .ok value ↔
      result = .ok value := by
  cases result with
  | error error => simp [storeReductionError]
  | ok found => simp [storeReductionError]

/-- Four reports that the reducers of the domains return. -/
structure Reduces (policy : AuthorityPolicy) (facts : FactSet)
    (complete : CompleteSnapshot) : Prop where
  policy_eq : complete.policy = policy
  authority : reduceSet (authorityReducer policy) facts = .ok complete.authority
  conversation : reduceSet (conversationReducer policy) facts =
    .ok complete.conversation
  agent : reduceSet (agentReducer policy) facts = .ok complete.agent
  project : reduceSet (projectReducer policy pathConflicts) facts =
    .ok complete.project
  orders : conversationOrders complete.conversation policy =
    .ok complete.conversationOrders

theorem reduces_of_build {facts : List Fact} {policy : AuthorityPolicy}
    {complete : CompleteSnapshot}
    (h : buildCompleteSnapshot facts policy = .ok complete) :
    Reduces policy (FactSet.fromFacts facts) complete := by
  unfold buildCompleteSnapshot at h
  obtain ⟨authority, hauthority, h⟩ := bind_eq_ok.1 h
  obtain ⟨conversation, hconversation, h⟩ := bind_eq_ok.1 h
  obtain ⟨agent, hagent, h⟩ := bind_eq_ok.1 h
  obtain ⟨project, hproject, h⟩ := bind_eq_ok.1 h
  obtain ⟨orders, horders, h⟩ := bind_eq_ok.1 h
  cases h
  rw [storeReductionError_eq_ok] at hauthority hconversation hagent
  rw [storeReductionError_eq_ok] at hproject horders
  exact ⟨rfl, hauthority, hconversation, hagent, hproject, horders⟩

theorem aligned_of_build {facts : List Fact} {policy : AuthorityPolicy}
    {complete : CompleteSnapshot}
    (h : buildCompleteSnapshot facts policy = .ok complete) :
    Aligned policy (FactSet.fromFacts facts) complete := by
  have hreduces := reduces_of_build h
  exact ⟨hreduces.policy_eq, indexable_of_reduceSet hreduces.authority,
    indexable_of_reduceSet hreduces.conversation,
    indexable_of_reduceSet hreduces.agent,
    indexable_of_reduceSet hreduces.project, hreduces.orders⟩

/-! Conversation orders list presented facts. -/

/-- The family of a stored fact. -/
def storedFamily (facts : List Fact) (id : FactId) : Option Nat :=
  (facts.find? fun fact => fact.id = id).map fun fact => fact.payload.family

end Hq
