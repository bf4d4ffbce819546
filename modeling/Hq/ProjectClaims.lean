/-
Resource claims and assignments across projects: overlap of absolute paths,
the claim and assignment maps of the final states, and mutual exclusion of the
projects of one home.
-/
import Hq.Components
import Hq.ProjectLog

namespace Hq

/-! Absolute paths and their components. -/

/-- A path equals another one or lies below it. -/
def LiesInside (path claim : List Char) : Prop :=
  components '/' claim <+: components '/' path

section Paths

variable {path parent candidate : List Char}

theorem apart_of_no_double (h : ((path.zip path.tail).any fun pair =>
      pair.1 = '/' && pair.2 = '/') = false) :
    path.IsChain fun left right => ¬ (left = '/' ∧ right = '/') := by
  induction path with
  | nil => exact .nil
  | cons first path ih =>
      cases path with
      | nil => exact .singleton first
      | cons second path =>
          simp only [List.tail_cons, List.zip_cons_cons, List.any_cons,
            Bool.or_eq_false_iff, Bool.and_eq_false_iff, decide_eq_false_iff_not]
            at h
          refine List.isChain_cons_cons.2 ⟨?_, ih (by simpa using h.2)⟩
          rintro ⟨hfirst, hsecond⟩
          exact h.1.elim (fun hne => hne hfirst) fun hne => hne hsecond

/-- An absolute path without empty components. -/
structure PlainPath (path : List Char) : Prop where
  starts : path.head? = some '/'
  shape : path = ['/'] ∨ path.getLast? ≠ some '/' ∧
    ((path.zip path.tail).any fun pair => pair.1 = '/' && pair.2 = '/') = false

theorem plainPath_of_valid (h : validAbsolutePath path = true) :
    PlainPath path := by
  simp only [validAbsolutePath, Bool.and_eq_true, Bool.or_eq_true,
    decide_eq_true_eq, Bool.not_eq_true'] at h
  exact ⟨h.1.1.1, h.1.2⟩

/-- Without its trailing slashes a plain path is its components, each behind
a slash. -/
theorem trimEndSlashes_eq (h : PlainPath path) :
    trimEndSlashes path = separated '/' (components '/' path) := by
  obtain ⟨hstarts, hshape⟩ := h
  rcases hshape with rfl | ⟨hends, happart⟩
  · simp [trimEndSlashes, separated]
  · rw [separated_components ⟨hstarts, hends, apart_of_no_double happart⟩]
    unfold trimEndSlashes
    cases hreverse : path.reverse with
    | nil => simp [List.reverse_eq_nil_iff.1 hreverse]
    | cons last front =>
        have hpath : path = front.reverse ++ [last] := by
          rw [← List.reverse_reverse path, hreverse, List.reverse_cons]
        have hlast : last ≠ '/' := by
          rintro rfl
          exact hends (by simp [hpath])
        simp [hlast, hpath]

/-- On plain paths the overlap test compares components. -/
theorem pathContains_iff (hparent : PlainPath parent)
    (hcandidate : PlainPath candidate) :
    pathContains parent candidate = true ↔ LiesInside candidate parent := by
  unfold pathContains LiesInside
  rw [components_prefix_iff (fun _ => isComponent_of_mem_components)
    (fun _ => isComponent_of_mem_components), trimEndSlashes_eq hparent,
    trimEndSlashes_eq hcandidate]
  simp only [Bool.or_eq_true, Bool.and_eq_true, decide_eq_true_eq,
    List.isPrefixOf_iff_prefix]
  constructor
  · rintro (heq | ⟨⟨rest, hrest⟩, hhead⟩)
    · exact ⟨[], Or.inl rfl, by rw [heq, List.append_nil]⟩
    · rw [← hrest, List.drop_left] at hhead
      exact ⟨rest, Or.inr hhead, hrest.symm⟩
  · rintro ⟨rest, rfl | hhead, heq⟩
    · exact Or.inl (by rw [heq, List.append_nil])
    · refine Or.inr ⟨⟨rest, heq.symm⟩, ?_⟩
      rwa [heq, List.drop_left]

end Paths

/-- One of two claims lies inside the other. -/
def Overlaps (left right : ProjectResource) : Prop :=
  LiesInside left.canonicalLocator.value.chars
      right.canonicalLocator.value.chars ∨
    LiesInside right.canonicalLocator.value.chars
      left.canonicalLocator.value.chars

theorem pathConflicts_iff {left right : ProjectResource}
    (hleft : validPathResource left = true)
    (hright : validPathResource right = true) :
    pathConflicts left.canonicalLocator right.canonicalLocator = true ↔
      Overlaps left right := by
  simp only [validPathResource, Bool.and_eq_true,
    decide_eq_true_eq] at hleft hright
  have hleftPlain := plainPath_of_valid hleft.2
  have hrightPlain := plainPath_of_valid hright.2
  simp [pathConflicts, hleft, hright, Overlaps,
    pathContains_iff hleftPlain hrightPlain,
    pathContains_iff hrightPlain hleftPlain, or_comm]

theorem pathConflicts_comm (left right : ResourceLocator) :
    pathConflicts left right = pathConflicts right left := by
  unfold pathConflicts
  by_cases h : left.scheme = .workingTree ∧ right.scheme = .workingTree
  · simp [h, Bool.or_comm]
  · rw [not_and_or] at h
    rw [if_pos (by simpa using h), if_pos (by simpa [or_comm] using h),
      decide_eq_decide]
    exact eq_comm

/-- Two claims that both hold a path overlap. -/
theorem overlaps_of_liesInside {left right : ProjectResource}
    {path : List Char}
    (hleft : LiesInside path left.canonicalLocator.value.chars)
    (hright : LiesInside path right.canonicalLocator.value.chars) :
    Overlaps left right :=
  (List.prefix_or_prefix_of_prefix hleft hright).symm

/-! Resources of a replayed state. -/

/-- Every resource is filed under its own identity and names a valid path. -/
def ResourcesFiled (state : InternalProjectState) : Prop :=
  ∀ id resource, state.resources.get? id = some resource →
    resource.resourceId = id ∧ validPathResource resource = true

section Resources

variable {state next : InternalProjectState} {fact : Fact}
  {context : ReductionContext}

theorem ResourcesFiled.insert (h : ResourcesFiled state)
    {resource : ProjectResource} (hvalid : validPathResource resource = true)
    (hnext : ∀ id found, next.resources.get? id = some found →
      id = resource.resourceId ∧ found = resource ∨
        state.resources.get? id = some found) : ResourcesFiled next := by
  intro id found hfound
  rcases hnext id found hfound with ⟨rfl, rfl⟩ | hfound
  · exact ⟨rfl, hvalid⟩
  · exact h id found hfound

theorem applyFamily_resourcesFiled (hfiled : ResourcesFiled state)
    (h : applyFamily state fact context = .ok next) : ResourcesFiled next := by
  unfold applyFamily at h
  split at h
  case h_7 =>
    obtain ⟨-, hguard, rfl⟩ := humanTransition_eq_ok.1 h
    refine hfiled.insert (Bool.and_eq_true_iff.1 hguard).1 ?_
    intro id found hfound
    rw [addResource, OrderedMap.get?_insert] at hfound
    split at hfound
    next heq => exact Or.inl ⟨heq, (Option.some.inj hfound).symm⟩
    next => exact Or.inr hfound
  case h_8 =>
    obtain ⟨-, -, rfl⟩ := humanTransition_eq_ok.1 h
    intro id found hfound
    exact hfiled id found (OrderedMap.get?_erase.1 hfound).1
  case h_9 =>
    obtain ⟨-, hguard, rfl⟩ := humanTransition_eq_ok.1 h
    simp only [Bool.and_eq_true] at hguard
    refine hfiled.insert hguard.1.1 ?_
    intro id found hfound
    rw [replaceResource, OrderedMap.get?_insert] at hfound
    split at hfound
    next heq => exact Or.inl ⟨heq, (Option.some.inj hfound).symm⟩
    next => exact Or.inr (OrderedMap.get?_erase.1 hfound).1
  case h_11 =>
    split at h
    · cases h
    next resource hresource =>
      cases h
      obtain ⟨hid, hvalid⟩ := hfiled _ resource hresource
      intro id found hfound
      rw [OrderedMap.get?_insert] at hfound
      split at hfound
      next heq =>
        cases hfound
        exact ⟨hid.trans heq.symm, hvalid⟩
      next => exact hfiled id found hfound
  case h_12 =>
    simp only [requireActiveHuman, require_bind_eq_ok, transition_eq_ok] at h
    obtain ⟨-, -, -, rfl⟩ := h
    exact hfiled
  case h_13 | h_14 | h_17 =>
    split at h
    · cases h
    · obtain ⟨-, rfl⟩ := transition_eq_ok.1 h
      exact hfiled
  case h_15 =>
    simp only [require_bind_eq_ok, transition_eq_ok] at h
    obtain ⟨-, -, rfl⟩ := h
    exact hfiled
  case h_16 | h_18 =>
    obtain ⟨-, rfl⟩ := transition_eq_ok.1 h
    exact hfiled
  case h_19 =>
    cases h
    exact hfiled
  all_goals
    obtain ⟨-, -, rfl⟩ := humanTransition_eq_ok.1 h
    exact hfiled

end Resources

variable {claims : OrderedMap (ProjectId ×ₗ ResourceId) (OrderedSet ProjectId)}
  {state : InternalProjectState} {view : ProjectView}

/-- The resources of every replayed state are filed and valid. -/
theorem ProjectStable.resourcesFiled {policy : AuthorityPolicy}
    {conflicts : ResourceLocator → ResourceLocator → Bool} {facts : FactSet}
    {statuses : OrderedMap FactId DecisionStatus} {id : FactId}
    (h : ProjectStable policy conflicts facts statuses)
    (hstate : StateOf (snapshot facts statuses) id state) :
    ResourcesFiled state := by
  induction hstate with
  | @root fact state hget hprojected hcreation hstarts =>
      have hvalid := h.admitted (mem_projectedFacts.2
        ⟨FactSet.mem_facts.2 hget, hprojected⟩)
      unfold creationState at hstarts
      split at hstarts
      next project mailbox home name brief predecessor resources primary
          initial account hpayload hscope =>
        cases hstarts
        simp only [validateProjectFact, hpayload, validateCreation] at hvalid
        obtain ⟨-, hvalid⟩ := require_bind_eq_ok.1 hvalid
        obtain ⟨hresources, -⟩ := require_bind_eq_ok.1 hvalid
        simp only [Bool.and_eq_true, List.all_eq_true] at hresources
        intro id resource hresource
        obtain ⟨found, hmem, heq⟩ :=
          List.mem_map.1 (OrderedMap.mem_of_get?_ofList hresource)
        obtain ⟨rfl, rfl⟩ := Prod.mk.inj heq
        exact ⟨rfl, hresources.1.2 found hmem⟩
      next => cases hstarts
  | step _ _ _ _ _ _ happly ih =>
      obtain ⟨next, hnext, rfl⟩ := applyPayload_eq_ok.1 happly
      have hfiled := applyFamily_resourcesFiled ih hnext
      exact fun id resource hresource => hfiled id resource hresource

/-! The claim and assignment maps. -/

/-- A resource of one project overlaps a resource of another project of the
same home. -/
def Contests (conflicts : ResourceLocator → ResourceLocator → Bool)
    (left right : InternalProjectState) (resource : ResourceId) : Prop :=
  left.projectId ≠ right.projectId ∧ left.home = right.home ∧
    ∃ mine ∈ left.resources.values, ∃ other ∈ right.resources.values,
      mine.resourceId = resource ∧
      conflicts mine.canonicalLocator other.canonicalLocator = true

section Claims

variable {conflicts : ResourceLocator → ResourceLocator → Bool}
  {list : List InternalProjectState} {project other : ProjectId}
  {resource : ResourceId}

theorem mem_overlappingResources {left right : InternalProjectState}
    {pair : ProjectResource × ProjectResource} :
    pair ∈ overlappingResources conflicts left right ↔
      pair.1 ∈ left.resources.values ∧ pair.2 ∈ right.resources.values ∧
        conflicts pair.1.canonicalLocator pair.2.canonicalLocator = true := by
  obtain ⟨mine, theirs⟩ := pair
  simp [overlappingResources]

/-- The entries that one pair of projects contributes, in both directions. -/
theorem mem_pairClaims
    (hsymmetric : ∀ left right, conflicts left right = conflicts right left)
    {left right : InternalProjectState} :
    (toLex (project, resource), other) ∈
      (if left.home ≠ right.home || left.projectId = right.projectId then []
        else (overlappingResources conflicts left right).flatMap fun pair =>
          [(toLex (left.projectId, pair.1.resourceId), right.projectId),
            (toLex (right.projectId, pair.2.resourceId), left.projectId)]) ↔
      (left.projectId = project ∧ right.projectId = other ∧
        Contests conflicts left right resource) ∨
      (right.projectId = project ∧ left.projectId = other ∧
        Contests conflicts right left resource) := by
  by_cases hhome : left.home = right.home
  · by_cases hproject : left.projectId = right.projectId
    · simp [hhome, hproject, Contests]
    · have hentry : ∀ pair : ProjectResource × ProjectResource,
          (toLex (project, resource), other) ∈
            [(toLex (left.projectId, pair.1.resourceId), right.projectId),
              (toLex (right.projectId, pair.2.resourceId), left.projectId)] ↔
          (left.projectId = project ∧ right.projectId = other ∧
            pair.1.resourceId = resource) ∨
          (right.projectId = project ∧ left.projectId = other ∧
            pair.2.resourceId = resource) := by
        intro pair
        simp only [List.mem_cons, List.not_mem_nil, or_false, Prod.mk.injEq,
          EmbeddingLike.apply_eq_iff_eq]
        tauto
      rw [if_neg (by simp [hhome, hproject]), List.mem_flatMap]
      simp only [hentry, mem_overlappingResources]
      constructor
      · rintro ⟨pair, ⟨hmine, htheirs, hoverlap⟩, ⟨h₁, h₂, h₃⟩ | ⟨h₁, h₂, h₃⟩⟩
        · exact Or.inl ⟨h₁, h₂, hproject, hhome, pair.1, hmine, pair.2, htheirs,
            h₃, hoverlap⟩
        · exact Or.inr ⟨h₁, h₂, Ne.symm hproject, hhome.symm, pair.2, htheirs,
            pair.1, hmine, h₃, by rw [hsymmetric, hoverlap]⟩
      · rintro (⟨h₁, h₂, -, -, mine, hmine, theirs, htheirs, h₃, hoverlap⟩ |
          ⟨h₁, h₂, -, -, mine, hmine, theirs, htheirs, h₃, hoverlap⟩)
        · exact ⟨(mine, theirs), ⟨hmine, htheirs, hoverlap⟩,
            Or.inl ⟨h₁, h₂, h₃⟩⟩
        · exact ⟨(theirs, mine), ⟨htheirs, hmine, by rw [hsymmetric, hoverlap]⟩,
            Or.inr ⟨h₁, h₂, h₃⟩⟩
  · simp [hhome, Ne.symm hhome, Contests]

theorem mem_claimConflictPairs
    (hsymmetric : ∀ left right, conflicts left right = conflicts right left) :
    (toLex (project, resource), other) ∈ claimConflictPairs conflicts list ↔
      ∃ left ∈ list, ∃ right ∈ list, left.projectId = project ∧
        right.projectId = other ∧ Contests conflicts left right resource := by
  induction list with
  | nil => simp [claimConflictPairs]
  | cons head tail ih =>
      rw [claimConflictPairs, List.mem_append, ih, List.mem_flatMap]
      simp only [mem_pairClaims hsymmetric]
      constructor
      · rintro (⟨right, hright, ⟨h₁, h₂, h⟩ | ⟨h₁, h₂, h⟩⟩ |
          ⟨left, hleft, right, hright, h⟩)
        · exact ⟨head, List.mem_cons_self, right,
            List.mem_cons_of_mem _ hright, h₁, h₂, h⟩
        · exact ⟨right, List.mem_cons_of_mem _ hright, head,
            List.mem_cons_self, h₁, h₂, h⟩
        · exact ⟨left, List.mem_cons_of_mem _ hleft, right,
            List.mem_cons_of_mem _ hright, h⟩
      · rintro ⟨left, hleft, right, hright, h₁, h₂, h⟩
        rcases List.mem_cons.1 hleft with rfl | hleftTail <;>
          rcases List.mem_cons.1 hright with rfl | hrightTail
        · exact absurd rfl h.1
        · exact Or.inl ⟨right, hrightTail, Or.inl ⟨h₁, h₂, h⟩⟩
        · exact Or.inl ⟨left, hleftTail, Or.inr ⟨h₁, h₂, h⟩⟩
        · exact Or.inr ⟨left, hleftTail, right, hrightTail, h₁, h₂, h⟩

theorem get?_projectClaimConflicts {set : OrderedSet ProjectId} :
    (projectClaimConflicts claims project).get? resource = some set ↔
      claims.get? (toLex (project, resource)) = some set := by
  have hentry : ∀ found, (resource, found) ∈
      claims.entries.filterMap (fun entry =>
        if (ofLex entry.1).1 = project then some ((ofLex entry.1).2, entry.2)
        else none) ↔ claims.get? (toLex (project, resource)) = some found := by
    intro found
    rw [List.mem_filterMap, OrderedMap.get?_eq_some_iff]
    constructor
    · rintro ⟨⟨key, value⟩, hmem, hread⟩
      split at hread
      next hproject =>
        cases hread
        rw [← hproject]
        exact hmem
      next => cases hread
    · intro hmem
      exact ⟨_, hmem, by simp⟩
  constructor
  · intro hget
    exact (hentry set).1 (OrderedMap.mem_of_get?_ofList hget)
  · intro hget
    refine OrderedMap.get?_ofList_of_unique ((hentry set).2 hget) ?_
    intro found hfound
    exact Option.some.inj (((hentry found).1 hfound).symm.trans hget)

theorem members_projectClaimConflicts :
    (projectClaimConflicts claims project).members resource =
      claims.members (toLex (project, resource)) := by
  have hget : (projectClaimConflicts claims project).get? resource =
      claims.get? (toLex (project, resource)) :=
    Option.ext fun _ => get?_projectClaimConflicts
  rw [OrderedMap.members, hget, OrderedMap.members]

/-- The home and agent that a project holds. -/
def heldAgent (state : InternalProjectState) :
    Option ((InstallationId ×ₗ AgentId) × ProjectId) :=
  state.assignment.map fun assignment =>
    (toLex (state.home, assignment.intent.agentId), state.projectId)

theorem assignmentConflictMap_eq
    (states : OrderedMap ProjectId InternalProjectState) :
    assignmentConflictMap states = (states.values.filterMap heldAgent).foldl
      (fun map entry => map.insertMember entry.1 entry.2) ∅ := by
  unfold assignmentConflictMap
  generalize (∅ : OrderedMap (InstallationId ×ₗ AgentId)
    (OrderedSet ProjectId)) = start
  generalize states.values = list
  induction list generalizing start with
  | nil => rfl
  | cons state list ih =>
      rw [List.foldl_cons, ih]
      cases hassignment : state.assignment <;> simp [heldAgent, hassignment]

end Claims

namespace ProjectStable

variable {policy : AuthorityPolicy}
  {conflicts overlap : ResourceLocator → ResourceLocator → Bool}
  {facts : FactSet} {statuses : OrderedMap FactId DecisionStatus}
  {project other : ProjectId} {resource : ResourceId}
  {state : InternalProjectState}

theorem mem_finalStates (h : ProjectStable policy conflicts facts statuses) :
    state ∈ (finalStates (snapshot facts statuses)).values ↔
      (finalStates (snapshot facts statuses)).get? state.projectId =
        some state := by
  rw [OrderedMap.mem_values]
  constructor
  · rintro ⟨key, hget⟩
    rwa [(h.finalStates_logEnd hget).sameProject]
  · exact fun hget => ⟨_, hget⟩

/-- The claim map of the final states lists exactly the contested resources
of holding projects. -/
theorem mem_claimConflictMap (h : ProjectStable policy conflicts facts statuses)
    (hsymmetric : ∀ left right, overlap left right = overlap right left) :
    other ∈ (claimConflictMap overlap
        (finalStates (snapshot facts statuses))).members
          (toLex (project, resource)) ↔
      ∃ left right,
        (finalStates (snapshot facts statuses)).get? project = some left ∧
        (finalStates (snapshot facts statuses)).get? other = some right ∧
        holdsResources left = true ∧ holdsResources right = true ∧
        Contests overlap left right resource := by
  unfold claimConflictMap
  rw [OrderedMap.mem_members_foldl, mem_claimConflictPairs hsymmetric]
  simp only [OrderedMap.members_empty, OrderedSet.not_mem_empty, false_or,
    List.mem_filter, h.mem_finalStates]
  constructor
  · rintro ⟨left, ⟨hleft, hleftHolds⟩, right, ⟨hright, hrightHolds⟩, rfl, rfl,
      hcontests⟩
    exact ⟨left, right, hleft, hright, hleftHolds, hrightHolds, hcontests⟩
  · rintro ⟨left, right, hleft, hright, hleftHolds, hrightHolds, hcontests⟩
    obtain rfl := (h.finalStates_logEnd hleft).sameProject
    obtain rfl := (h.finalStates_logEnd hright).sameProject
    exact ⟨left, ⟨hleft, hleftHolds⟩, right, ⟨hright, hrightHolds⟩, rfl, rfl,
      hcontests⟩

/-- The assignment map files every project under its home and agent. -/
theorem mem_assignmentConflictMap
    (h : ProjectStable policy conflicts facts statuses)
    {key : InstallationId ×ₗ AgentId} :
    project ∈ (assignmentConflictMap
        (finalStates (snapshot facts statuses))).members key ↔
      ∃ state assignment,
        (finalStates (snapshot facts statuses)).get? project = some state ∧
        state.assignment = some assignment ∧
        key = toLex (state.home, assignment.intent.agentId) := by
  rw [assignmentConflictMap_eq, OrderedMap.mem_members_foldl]
  simp only [OrderedMap.members_empty, OrderedSet.not_mem_empty, false_or,
    List.mem_filterMap, h.mem_finalStates]
  constructor
  · rintro ⟨state, hget, hheld⟩
    obtain ⟨assignment, hassignment, heq⟩ := Option.map_eq_some_iff.1 hheld
    obtain ⟨rfl, rfl⟩ := Prod.mk.inj heq
    exact ⟨state, assignment, hget, hassignment, rfl⟩
  · rintro ⟨state, assignment, hget, hassignment, rfl⟩
    obtain rfl := (h.finalStates_logEnd hget).sameProject
    exact ⟨state, hget, by simp [heldAgent, hassignment]⟩

end ProjectStable

/-! What a view says about claims and assignments. -/

/-- The parts of a view that depend on other projects. -/
structure ShowsClaims
    (claims : OrderedMap (ProjectId ×ₗ ResourceId) (OrderedSet ProjectId))
    (assignments : OrderedMap (InstallationId ×ₗ AgentId)
      (OrderedSet ProjectId)) (state : InternalProjectState)
    (view : ProjectView) : Prop where
  reported : ∀ resource, view.claimConflicts.members resource =
    claims.members (toLex (state.projectId, resource))
  claimed : ∀ resource ∈ view.activeClaims,
    holdsResources state = true ∧ resource ∈ state.resources.keys ∧
      ∀ contested, claims.members (toLex (state.projectId, contested)) = ∅
  runs : ∀ assignment, view.assignment = some assignment →
    assignment.runnable = true →
    (∀ contested, claims.members (toLex (state.projectId, contested)) = ∅) ∧
    ∃ held, state.assignment = some held ∧ assignment.intent = held.intent ∧
      (assignments.members
        (toLex (state.home, held.intent.agentId))).size ≤ 1

theorem uncontested_of_claimable {project : ProjectId}
    (h : (projectClaimConflicts claims project).keys.isEmpty = true)
    (contested : ResourceId) :
    claims.members (toLex (project, contested)) = ∅ := by
  rw [← members_projectClaimConflicts, OrderedMap.members]
  rw [OrderedSet.isEmpty_iff, OrderedSet.eq_empty_iff] at h
  have hnone := h contested
  rw [OrderedMap.mem_keys, Bool.not_eq_true, Option.isSome_eq_false_iff,
    Option.isNone_iff_eq_none] at hnone
  rw [hnone]
  rfl

theorem projectContribution_showsClaims {context : ReductionContext}
    {states : OrderedMap ProjectId InternalProjectState}
    {assignments : OrderedMap (InstallationId ×ₗ AgentId)
      (OrderedSet ProjectId)}
    (hview : (projectContribution context states claims assignments
      state).value = .project view) :
    ShowsClaims claims assignments state view := by
  simp only [projectContribution, ProjectProjection.project.injEq] at hview
  subst hview
  constructor
  · exact fun resource => members_projectClaimConflicts
  · intro resource hresource
    simp only at hresource
    split at hresource
    next hclaimable =>
      rw [Bool.and_eq_true] at hclaimable
      exact ⟨hclaimable.2, hresource, uncontested_of_claimable hclaimable.1⟩
    next => exact absurd hresource (OrderedSet.not_mem_empty resource)
  · intro assignment hassignment hrunnable
    obtain ⟨held, hheld, rfl⟩ := Option.map_eq_some_iff.1 hassignment
    simp only [Bool.and_eq_true, Bool.not_eq_true', decide_eq_false_iff_not,
      Nat.not_lt] at hrunnable
    exact ⟨uncontested_of_claimable hrunnable.1.1.2, held, hheld, rfl,
      hrunnable.1.1.1⟩

namespace ProjectView

/-- The project is open or closing, so it holds its resources. -/
def Holds (view : ProjectView) : Prop :=
  view.lifecycle = .opened ∨ view.lifecycle = .closing

/-- The assignment of the project may run. -/
def Runs (view : ProjectView) : Prop :=
  ∃ assignment, view.assignment = some assignment ∧
    assignment.runnable = true

/-- The path lies inside an active claim of the project. -/
def ActivelyClaims (view : ProjectView) (path : List Char) : Prop :=
  ∃ id ∈ view.activeClaims, ∃ resource,
    view.resources.get? id = some resource ∧
      LiesInside path resource.canonicalLocator.value.chars

/-- The project reports another one in its conflicts and stands back. -/
structure Yields (view : ProjectView) (resource : ResourceId)
    (other : ProjectId) : Prop where
  reports : other ∈ view.claimConflicts.members resource
  claimsNothing : view.activeClaims = ∅
  idle : ¬ view.Runs

end ProjectView

theorem ShowsClaims.yields {assignments : OrderedMap (InstallationId ×ₗ AgentId)
      (OrderedSet ProjectId)}
    (h : ShowsClaims claims assignments state view)
    {resource : ResourceId} {other : ProjectId}
    (hcontested : other ∈
      claims.members (toLex (state.projectId, resource))) :
    view.Yields resource other := by
  have hnot : ¬ ∀ contested,
      claims.members (toLex (state.projectId, contested)) = ∅ := by
    intro hempty
    rw [hempty resource] at hcontested
    exact OrderedSet.not_mem_empty other hcontested
  constructor
  · rwa [h.reported resource]
  · rw [OrderedSet.eq_empty_iff]
    exact fun id hid => hnot (h.claimed id hid).2.2
  · rintro ⟨assignment, hassignment, hrunnable⟩
    exact hnot (h.runs assignment hassignment hrunnable).1

/-- The state behind a view of a report. -/
structure ViewOf (context : ReductionContext) (project : ProjectId)
    (view : ProjectView) (state : InternalProjectState) : Prop where
  final : (finalStates context).get? project = some state
  shows : ShowsState view state
  claims : ShowsClaims (claimConflictMap pathConflicts (finalStates context))
    (assignmentConflictMap (finalStates context)) state view

theorem Reduced.viewOf {policy : AuthorityPolicy} {facts : FactSet}
    {report : ReductionReport ProjectAggregateKey ProjectProjectionKey
      ProjectProjection ProjectReason}
    (h : Reduced (projectReducer policy pathConflicts) facts report)
    {project : ProjectId}
    (hview : report.projections.get? (.project project) =
      some (.project view)) :
    ∃ state, ViewOf (snapshot facts (statusesIn report.decisions)) project view
      state := by
  obtain ⟨state, hfinal, hvalue⟩ := h.projectView.1 hview
  refine ⟨state, hfinal, ?_, projectContribution_showsClaims hvalue.symm⟩
  obtain ⟨found, hfound, hshows⟩ := projectViewOf_shows pathConflicts
    (snapshot facts (statusesIn report.decisions)) state
  cases hvalue.trans hfound
  exact hshows

section Exclusion

variable {policy : AuthorityPolicy} {facts : FactSet}
  {statuses : OrderedMap FactId DecisionStatus}
  {left right : ProjectId} {leftView rightView : ProjectView}
  {leftState rightState : InternalProjectState}

/-- Overlapping resources of two holding projects of one home contest. -/
theorem ViewOf.contested (h : ProjectStable policy pathConflicts facts statuses)
    (hleft : ViewOf (snapshot facts statuses) left leftView leftState)
    (hright : ViewOf (snapshot facts statuses) right rightView rightState)
    (hne : left ≠ right) (hhome : leftView.home = rightView.home)
    (hleftHolds : holdsResources leftState = true)
    (hrightHolds : holdsResources rightState = true)
    {mine theirs : ProjectResource} {mineId theirsId : ResourceId}
    (hmine : leftState.resources.get? mineId = some mine)
    (htheirs : rightState.resources.get? theirsId = some theirs)
    (hoverlaps : Overlaps mine theirs) :
    leftView.Yields mineId right := by
  have hleftEnd := h.finalStates_logEnd hleft.final
  have hrightEnd := h.finalStates_logEnd hright.final
  obtain ⟨hmineId, hmineValid⟩ :=
    h.resourcesFiled hleftEnd.replayed mineId mine hmine
  obtain ⟨-, htheirsValid⟩ :=
    h.resourcesFiled hrightEnd.replayed theirsId theirs htheirs
  apply hleft.claims.yields
  rw [hleftEnd.sameProject, h.mem_claimConflictMap pathConflicts_comm]
  refine ⟨leftState, rightState, hleft.final, hright.final, hleftHolds,
    hrightHolds, ?_, ?_, mine, OrderedMap.mem_values.2 ⟨_, hmine⟩, theirs,
    OrderedMap.mem_values.2 ⟨_, htheirs⟩, hmineId, ?_⟩
  · rwa [hleftEnd.sameProject, hrightEnd.sameProject]
  · rw [← hleft.shows.home, hhome, hright.shows.home]
  · exact (pathConflicts_iff hmineValid htheirsValid).2 hoverlaps

/-- Two projects of one home that both run have different agents. -/
theorem ViewOf.agents_ne (h : ProjectStable policy pathConflicts facts statuses)
    (hleft : ViewOf (snapshot facts statuses) left leftView leftState)
    (hright : ViewOf (snapshot facts statuses) right rightView rightState)
    (hne : left ≠ right) (hhome : leftView.home = rightView.home)
    {mine theirs : ProjectAssignmentView}
    (hmine : leftView.assignment = some mine) (hruns : mine.runnable = true)
    (htheirs : rightView.assignment = some theirs)
    (htheirsRuns : theirs.runnable = true) :
    mine.intent.agentId ≠ theirs.intent.agentId := by
  intro hagent
  obtain ⟨-, held, hheld, hintent, hsize⟩ :=
    hleft.claims.runs mine hmine hruns
  obtain ⟨-, otherHeld, hotherHeld, hotherIntent, -⟩ :=
    hright.claims.runs theirs htheirs htheirsRuns
  refine hne (OrderedSet.eq_of_size_le_one hsize ?_ ?_)
  · exact h.mem_assignmentConflictMap.2 ⟨leftState, held, hleft.final, hheld, rfl⟩
  · refine h.mem_assignmentConflictMap.2
      ⟨rightState, otherHeld, hright.final, hotherHeld, ?_⟩
    rw [← hleft.shows.home, hhome, hright.shows.home, ← hintent, hagent,
      hotherIntent]

end Exclusion

/-- Two projects of one home never run the same agent, never both claim a
path, and stand back from each other when they hold overlapping resources. -/
theorem project_mutual_exclusion {policy : AuthorityPolicy}
    {facts : List Fact}
    {report : ReductionReport ProjectAggregateKey ProjectProjectionKey
      ProjectProjection ProjectReason}
    (hreduce : reduceComplete (projectReducer policy pathConflicts) facts =
      .ok report) {left right : ProjectId} {leftView rightView : ProjectView}
    (hleft : report.projections.get? (.project left) =
      some (.project leftView))
    (hright : report.projections.get? (.project right) =
      some (.project rightView))
    (hne : left ≠ right) (hhome : leftView.home = rightView.home) :
    (∀ mine theirs, leftView.assignment = some mine → mine.runnable = true →
      rightView.assignment = some theirs → theirs.runnable = true →
      mine.intent.agentId ≠ theirs.intent.agentId) ∧
    (∀ path, ¬ (leftView.ActivelyClaims path ∧
      rightView.ActivelyClaims path)) ∧
    (leftView.Holds → rightView.Holds → ∀ mineId theirsId mine theirs,
      leftView.resources.get? mineId = some mine →
      rightView.resources.get? theirsId = some theirs →
      Overlaps mine theirs →
      leftView.Yields mineId right ∧ rightView.Yields theirsId left) := by
  have hreduced := reduced_of_reduceSet hreduce
  have hstable := projectStable_of_fixed hreduced.fixed
  obtain ⟨leftState, hleft⟩ := hreduced.viewOf hleft
  obtain ⟨rightState, hright⟩ := hreduced.viewOf hright
  refine ⟨?_, ?_, ?_⟩
  · intro mine theirs hmine hruns htheirs htheirsRuns
    exact hleft.agents_ne hstable hright hne hhome hmine hruns htheirs
      htheirsRuns
  · rintro path ⟨⟨mineId, hmineActive, mine, hmine, hinMine⟩,
      theirsId, htheirsActive, theirs, htheirs, hinTheirs⟩
    rw [hleft.shows.resources] at hmine
    rw [hright.shows.resources] at htheirs
    have hyields := hleft.contested hstable hright hne hhome
      (hleft.claims.claimed mineId hmineActive).1
      (hright.claims.claimed theirsId htheirsActive).1 hmine htheirs
      (overlaps_of_liesInside hinMine hinTheirs)
    rw [hyields.claimsNothing] at hmineActive
    exact OrderedSet.not_mem_empty mineId hmineActive
  · intro hleftHolds hrightHolds mineId theirsId mine theirs hmine htheirs
      hoverlaps
    rw [hleft.shows.resources] at hmine
    rw [hright.shows.resources] at htheirs
    have hleftHolds : holdsResources leftState = true := by
      simpa [holdsResources, ProjectView.Holds, hleft.shows.lifecycle]
        using hleftHolds
    have hrightHolds : holdsResources rightState = true := by
      simpa [holdsResources, ProjectView.Holds, hright.shows.lifecycle]
        using hrightHolds
    exact ⟨hleft.contested hstable hright hne hhome hleftHolds hrightHolds
        hmine htheirs hoverlaps,
      hright.contested hstable hleft hne.symm hhome.symm hrightHolds hleftHolds
        htheirs hmine hoverlaps.symm⟩

/-- Two projects created open over one directory stand back from each other. -/
theorem project_mutual_exclusion_shared :
    ∃ report left right,
      reduceComplete (projectReducer samplePolicy pathConflicts)
        [declaration 1 1, accountCreation 20 1,
          projectCreation 30 20 (workingTree 1 'a') .opened,
          projectCreation 40 20 (workingTree 2 'a') .opened] = .ok report ∧
      report.projections.get? (.project (.ofNat 30)) = some (.project left) ∧
      report.projections.get? (.project (.ofNat 40)) = some (.project right) ∧
      left.Yields (.ofNat 1) (.ofNat 40) ∧
      right.Yields (.ofNat 2) (.ofNat 30) := by
  let facts := [declaration 1 1, accountCreation 20 1,
    projectCreation 30 20 (workingTree 1 'a') .opened,
    projectCreation 40 20 (workingTree 2 'a') .opened]
  have hsummary : ((reportedView (reduceComplete
        (projectReducer samplePolicy pathConflicts) facts) (.ofNat 30)).map
          fun view => (view.home, view.lifecycle,
            view.resources.get? (.ofNat 1))) =
        some (.ofNat 1, .opened, some (workingTree 1 'a')) ∧
      ((reportedView (reduceComplete
        (projectReducer samplePolicy pathConflicts) facts) (.ofNat 40)).map
          fun view => (view.home, view.lifecycle,
            view.resources.get? (.ofNat 2))) =
        some (.ofNat 1, .opened, some (workingTree 2 'a')) := by
    decide +kernel
  obtain ⟨hleft, hright⟩ := hsummary
  obtain ⟨left, hleftView, hleft⟩ := Option.map_eq_some_iff.1 hleft
  obtain ⟨right, hrightView, hright⟩ := Option.map_eq_some_iff.1 hright
  simp only [Prod.mk.injEq] at hleft hright
  obtain ⟨report, hreduce, hleftView⟩ := exists_report_of_reportedView hleftView
  obtain ⟨found, hfound, hrightView⟩ :=
    exists_report_of_reportedView hrightView
  obtain rfl := Except.ok.inj (hreduce.symm.trans hfound)
  obtain ⟨-, -, hyield⟩ := project_mutual_exclusion hreduce hleftView
    hrightView (by decide) (hleft.1.trans hright.1.symm)
  exact ⟨report, left, right, hreduce, hleftView, hrightView,
    hyield (Or.inl hleft.2.1) (Or.inl hright.2.1) _ _ _ _ hleft.2.2
      hright.2.2 (Or.inl (List.prefix_refl _))⟩

end Hq
