/-
The verdict on the outputs of a project: equal outputs share one view, and the
first of them by identity decides whether its assignment had ended above it.
-/
import Hq.ProjectInvariants

namespace Hq

section Groups

variable {facts : FactSet} {statuses : OrderedMap FactId DecisionStatus}
  {ids : OrderedSet FactId}

theorem mem_groupMembers {context : ReductionContext} {fact : Fact} :
    fact ∈ groupMembers context ids ↔
      fact.id ∈ ids ∧ context.facts.get? fact.id = some fact := by
  rw [groupMembers, List.mem_filterMap]
  constructor
  · rintro ⟨id, hid, hget⟩
    obtain rfl := FactSet.id_of_get? hget
    exact ⟨OrderedSet.mem_toList.1 hid, hget⟩
  · rintro ⟨hid, hget⟩
    exact ⟨fact.id, OrderedSet.mem_toList.2 hid, hget⟩

/-- The members of a group stand in the order of their identities. -/
theorem groupMembers_sorted (context : ReductionContext)
    (ids : OrderedSet FactId) :
    (groupMembers context ids).Pairwise fun left right => left.id < right.id := by
  rw [groupMembers, List.pairwise_filterMap]
  refine ids.sorted.imp ?_
  intro left right hlt first hfirst second hsecond
  rw [FactSet.id_of_get? hfirst, FactSet.id_of_get? hsecond]
  exact hlt

/-- The members of a group of projected facts are the facts filed under its
key. -/
theorem mem_groupMembers_of_key {κ : Type} [LinearOrder κ]
    {keyOf : Fact → Option κ} {entry : κ × OrderedSet FactId}
    (hentry : entry ∈
      (groupFacts keyOf (snapshot facts statuses).projectedFacts).entries)
    {fact : Fact} :
    fact ∈ groupMembers (snapshot facts statuses) entry.2 ↔
      fact ∈ (snapshot facts statuses).projectedFacts ∧
        keyOf fact = some entry.1 := by
  rw [mem_groupMembers, (groupFacts_entry hentry).2]
  constructor
  · rintro ⟨⟨other, hother, hkey, hid⟩, hget⟩
    obtain rfl := FactSet.eq_of_mem_facts_of_id_eq
      (mem_projectedFacts.1 hother).1 (FactSet.mem_facts.2 hget) hid
    exact ⟨hother, hkey⟩
  · rintro ⟨hfact, hkey⟩
    exact ⟨⟨fact, hfact, hkey, rfl⟩,
      FactSet.mem_facts.1 (mem_projectedFacts.1 hfact).1⟩

/-- A group starts with its least member. -/
structure StartsGroup {κ : Type} (context : ReductionContext)
    (keyOf : Fact → Option κ) (key : κ) (first : Fact) : Prop where
  projected : first ∈ context.projectedFacts
  filed : keyOf first = some key
  least : ∀ other ∈ context.projectedFacts, keyOf other = some key →
    first.id ≤ other.id

theorem StartsGroup.unique {κ : Type} {keyOf : Fact → Option κ} {key : κ}
    {left right : Fact}
    (hleft : StartsGroup (snapshot facts statuses) keyOf key left)
    (hright : StartsGroup (snapshot facts statuses) keyOf key right) :
    left = right :=
  FactSet.eq_of_mem_facts_of_id_eq (mem_projectedFacts.1 hleft.projected).1
    (mem_projectedFacts.1 hright.projected).1
    (le_antisymm (hleft.least right hright.projected hright.filed)
      (hright.least left hleft.projected hleft.filed))

theorem startsGroup_of_groupMembers {κ : Type} [LinearOrder κ]
    {keyOf : Fact → Option κ} {entry : κ × OrderedSet FactId}
    (hentry : entry ∈
      (groupFacts keyOf (snapshot facts statuses).projectedFacts).entries)
    {first : Fact} {rest : List Fact}
    (hgroup : groupMembers (snapshot facts statuses) entry.2 =
      first :: rest) :
    StartsGroup (snapshot facts statuses) keyOf entry.1 first := by
  have hmem := @mem_groupMembers_of_key facts statuses κ _ keyOf entry hentry first
  rw [hgroup] at hmem
  obtain ⟨hprojected, hfiled⟩ := hmem.1 List.mem_cons_self
  refine ⟨hprojected, hfiled, ?_⟩
  intro other hother hkey
  have hin := (mem_groupMembers_of_key hentry).2 ⟨hother, hkey⟩
  have hsorted := groupMembers_sorted (snapshot facts statuses) entry.2
  rw [hgroup] at hin hsorted
  rcases List.mem_cons.1 hin with rfl | hin
  · exact le_rfl
  · exact ((List.pairwise_cons.1 hsorted).1 other hin).le

end Groups

section Log

variable {policy : AuthorityPolicy}
  {conflicts : ResourceLocator → ResourceLocator → Bool} {facts : FactSet}
  {statuses : OrderedMap FactId DecisionStatus} {project : ProjectId}

/-- The log of a project has a first fact of every kind that occurs in it, and
the first one is above the others. -/
theorem ProjectStable.exists_first
    (h : ProjectStable policy conflicts facts statuses) (test : Fact → Bool)
    {fact : Fact} (hlog : InLog (snapshot facts statuses) project fact)
    (htest : test fact = true) :
    ∃ first, InLog (snapshot facts statuses) project first ∧
      test first = true ∧
      ∀ other, InLog (snapshot facts statuses) project other →
        test other = true →
        Relation.ReflTransGen facts.graph.Child first.id other.id := by
  obtain ⟨state, hstate, rfl⟩ := h.stateOf hlog
  obtain ⟨root, start, hget, hprojected, -, hstarts, hsame, -⟩ :=
    hstate.creation
  have hcreates : createsProject state.projectId root = true := by
    rw [hsame.projectId]
    exact (creationState_eq_some hstarts).1
  obtain ⟨final, hfinal⟩ := Option.isSome_iff_exists.1
    (h.finalStates_isSome (mem_projectedFacts.2
      ⟨FactSet.mem_facts.2 hget, hprojected⟩) hcreates)
  obtain ⟨chain, hchain⟩ := h.homeLinear hfinal
  have hsome : (chain.find? test).isSome = true :=
    List.find?_isSome.2 ⟨fact, (hchain.exactly fact).2 hlog, htest⟩
  obtain ⟨first, hfirst⟩ := Option.isSome_iff_exists.1 hsome
  obtain ⟨hholds, front, back, rfl, hfront⟩ :=
    List.find?_eq_some_iff_append.1 hfirst
  have hordered := continues_pairwise hchain.linked fun fact hfact =>
    (mem_projectedFacts.1 ((hchain.exactly fact).1 hfact).admitted).1
  refine ⟨first, (hchain.exactly first).1 (by simp), hholds, ?_⟩
  intro other hother hotherTest
  rcases List.mem_append.1 ((hchain.exactly other).2 hother) with hin | hin
  · exact absurd hotherTest (by simpa using hfront other hin)
  · rcases List.mem_cons.1 hin with rfl | hin
    · exact .refl
    · have hafter := (List.pairwise_append.1 hordered).2.1
      exact ((List.pairwise_cons.1 hafter).1 other hin).to_reflTransGen

end Log

/-! Outputs. -/

/-- A projected output under an output identity. -/
structure IsOutput (context : ReductionContext) (outputId : MessageId)
    (fact : Fact) : Prop where
  projected : fact ∈ context.projectedFacts
  filed : outputOf fact = some outputId

/-- A fact ends the assignment that an output came from, in its project. -/
def EndsAssignmentOf (output ended : Fact) : Prop :=
  ∃ project outputId dispatchId binding thread message forced runtime,
    output.payload = .projectOutputRecorded project outputId dispatchId binding
      thread message ∧
    ended.payload = .projectAssignmentEnded project binding.assignmentId forced
      runtime

/-- A projected end of the output's assignment stands above the output. -/
structure EndsBefore (context : ReductionContext) (output ended : Fact) :
    Prop where
  projected : ended ∈ context.projectedFacts
  ends : EndsAssignmentOf output ended
  above : context.graph.structurallyReaches ended.id output.id = true

/-- The verdict on an output identity as all its outputs give it. -/
structure Attributed (context : ReductionContext) (outputId : MessageId)
    (status : ProjectOutputStatus) : Prop where
  conflicted : status = .conflicted ↔ ∃ left right,
    IsOutput context outputId left ∧ IsOutput context outputId right ∧
      left.payload ≠ right.payload
  late : status = .lateFromInactive ↔ ∃ ended, ∀ output,
    IsOutput context outputId output → EndsBefore context output ended

/-- If the assignment had ended before the least of the outputs, it had ended
before each of them. -/
def EndedForAll (context : ReductionContext) (outputId : MessageId) : Prop :=
  ∀ first ended, StartsGroup context outputOf outputId first →
    EndsBefore context first ended → ∀ output,
      IsOutput context outputId output → ∃ other, EndsBefore context output other

theorem outputOf_eq_some {fact : Fact} {outputId : MessageId} :
    outputOf fact = some outputId ↔ ∃ project dispatchId binding thread message,
      fact.payload = .projectOutputRecorded project outputId dispatchId binding
        thread message := by
  unfold outputOf
  split
  next project found dispatchId binding thread message hpayload =>
    constructor
    · rintro h
      cases h
      exact ⟨project, dispatchId, binding, thread, message, hpayload⟩
    · rintro ⟨_, _, _, _, _, hsame⟩
      rw [hpayload] at hsame
      cases hsame
      rfl
  next hother =>
    constructor
    · exact nofun
    · rintro ⟨_, _, _, _, _, hpayload⟩
      exact absurd hpayload (hother _ _ _ _ _ _)

theorem endsAssignmentOf_congr {left right ended : Fact}
    (hsame : left.payload = right.payload)
    (h : EndsAssignmentOf left ended) : EndsAssignmentOf right ended := by
  rw [EndsAssignmentOf, hsame] at h
  exact h

theorem inactiveBefore_iff {context : ReductionContext} {output : Fact}
    {project : ProjectId} {outputId : MessageId} {dispatchId : DispatchId}
    {binding : AssignmentBinding} {thread : ThreadId} {message : MessageContent}
    (hpayload : output.payload = .projectOutputRecorded project outputId
      dispatchId binding thread message) :
    inactiveBefore project binding.assignmentId output.id context = true ↔
      ∃ ended, EndsBefore context output ended := by
  simp only [inactiveBefore, List.any_eq_true, Bool.and_eq_true]
  refine exists_congr fun ended => ⟨?_, ?_⟩
  · rintro ⟨hprojected, hends, habove⟩
    refine ⟨hprojected, ?_, habove⟩
    split at hends
    next found assignment forced runtime hended =>
      simp only [Bool.and_eq_true, decide_eq_true_eq] at hends
      obtain ⟨rfl, rfl⟩ := hends
      exact ⟨_, _, _, _, _, _, _, _, hpayload, hended⟩
    next => cases hends
  · rintro ⟨hprojected, ⟨_, _, _, _, _, _, _, _, hsame, hended⟩, habove⟩
    rw [hpayload] at hsame
    cases hsame
    exact ⟨hprojected, by simp [hended], habove⟩

section Outputs

variable {policy : AuthorityPolicy}
  {conflicts : ResourceLocator → ResourceLocator → Bool} {facts : FactSet}
  {statuses : OrderedMap FactId DecisionStatus} {outputId : MessageId}

theorem IsOutput.inLog {context : ReductionContext} {fact : Fact}
    (h : IsOutput context outputId fact) :
    ∃ project, InLog context project fact ∧
      isCreation fact.payload = false := by
  obtain ⟨project, dispatchId, binding, thread, message, hpayload⟩ :=
    outputOf_eq_some.1 h.filed
  refine ⟨project, ⟨h.projected, ?_, ?_⟩, ?_⟩
  · simp [isHomeFact, hpayload, projectId, SemanticPayload.isRemoteControl]
  · simp [projectIdOf, hpayload, projectId]
  · simp [isCreation, hpayload]

/-- Projected outputs of one identity repeat one payload. -/
theorem ProjectStable.output_payload_eq
    (h : ProjectStable policy conflicts facts statuses) {left right : Fact}
    (hleft : IsOutput (snapshot facts statuses) outputId left)
    (hright : IsOutput (snapshot facts statuses) outputId right) :
    left.payload = right.payload := by
  obtain ⟨project, hlog, htransition⟩ := hright.inLog
  obtain ⟨_, _, _, _, _, hleftPayload⟩ := outputOf_eq_some.1 hleft.filed
  obtain ⟨_, _, _, _, _, hrightPayload⟩ := outputOf_eq_some.1 hright.filed
  obtain ⟨previous, state, next, hhead, -⟩ := h.transition hlog htransition
  refine payload_eq_of_matchesFact hhead.identity (by
    rw [hrightPayload]
    rfl) (mem_projectedFacts.1 hright.projected).1
    (mem_projectedFacts.1 hleft.projected).1 ?_
  simp [StableIdentity.matchesFact, hleftPayload]

/-- Ends before every output share one end before all of them: the end before
the first output in the log. -/
theorem ProjectStable.exists_common_end
    (h : ProjectStable policy conflicts facts statuses) {fact : Fact}
    (hfact : IsOutput (snapshot facts statuses) outputId fact)
    (hall : ∀ output, IsOutput (snapshot facts statuses) outputId output →
      ∃ ended, EndsBefore (snapshot facts statuses) output ended) :
    ∃ ended, ∀ output, IsOutput (snapshot facts statuses) outputId output →
      EndsBefore (snapshot facts statuses) output ended := by
  obtain ⟨project, hlog, -⟩ := hfact.inLog
  obtain ⟨first, hfirstLog, hfirst, hfirstAbove⟩ := h.exists_first
    (fun fact => outputOf fact = some outputId) hlog
    (decide_eq_true hfact.filed)
  have hfirstOutput : IsOutput (snapshot facts statuses) outputId first :=
    ⟨hfirstLog.admitted, of_decide_eq_true hfirst⟩
  obtain ⟨ended, hended⟩ := hall first hfirstOutput
  refine ⟨ended, fun output houtput => ⟨hended.projected,
    endsAssignmentOf_congr (h.output_payload_eq hfirstOutput houtput)
      hended.ends, ?_⟩⟩
  have houtputLog : InLog (snapshot facts statuses) project output := by
    obtain ⟨other, hother, -⟩ := houtput.inLog
    refine ⟨hother.admitted, hother.home, ?_⟩
    rw [projectIdOf, h.output_payload_eq houtput hfact]
    exact hlog.project
  have hpath := hfirstAbove output houtputLog (decide_eq_true houtput.filed)
  have habove := (CausalIndex.structurallyReaches_iff _).1 hended.above
  refine (CausalIndex.structurallyReaches_iff _).2
    ⟨habove.1, ?_, habove.2.2.trans hpath⟩
  exact mem_vertices_of_mem_ids (mem_ids_of_mem_facts
    (mem_projectedFacts.1 houtput.projected).1)

/-- What an output view shows: the data of its least output, and whether the
assignment had ended before that one. -/
structure ShowsOutput (context : ReductionContext) (outputId : MessageId)
    (view : ProjectOutputView) : Prop where
  shows : ∃ project first, StartsGroup context outputOf outputId first ∧
    first.payload = .projectOutputRecorded project outputId view.dispatchId
      view.binding view.threadId view.message
  agreed : view.status ≠ .conflicted
  late : view.status = .lateFromInactive ↔ ∃ first ended,
    StartsGroup context outputOf outputId first ∧
      EndsBefore context first ended

/-- The contribution of an output identity. -/
theorem ProjectStable.output_contribution
    (h : ProjectStable policy conflicts facts statuses)
    {contribution : ProjectContribution}
    (hmem : contribution ∈
      deriveProjectProjections conflicts (snapshot facts statuses))
    (hkey : contribution.key = .output outputId) :
    ∃ view, contribution.value = .output view ∧
      ShowsOutput (snapshot facts statuses) outputId view := by
  have hpart : contribution ∈ outputProjections (snapshot facts statuses) :=
    mem_projectPart 3 (by simp [projectParts]) hmem (by rw [hkey]; rfl)
  obtain ⟨⟨found, ids⟩, hentry, hread⟩ := List.mem_filterMap.1 hpart
  split at hread
  · cases hread
  next first rest hgroup =>
    split at hread
    next project output dispatchId binding thread message hpayload =>
      cases hread
      obtain rfl : found = outputId := ProjectProjectionKey.output.inj hkey
      have hstarts := startsGroup_of_groupMembers hentry hgroup
      obtain rfl : output = found := by
        have hfiled := hstarts.filed
        rw [outputOf, hpayload] at hfiled
        exact Option.some.inj hfiled
      have hequal : payloadsDiffer first (first :: rest) = false := by
        rw [payloadsDiffer, List.any_eq_false]
        intro other hother
        rw [← hgroup, mem_groupMembers_of_key hentry] at hother
        simpa using h.output_payload_eq ⟨hother.1, hother.2⟩
          ⟨hstarts.projected, hstarts.filed⟩
      refine ⟨_, rfl, ⟨project, first, hstarts, hpayload⟩, ?_, ?_⟩
      · simp only [hequal, Bool.false_eq_true, if_false]
        split <;> simp
      · simp only [hequal, Bool.false_eq_true, if_false, ite_eq_left_iff,
          reduceCtorEq, imp_false, not_not]
        rw [inactiveBefore_iff hpayload]
        constructor
        · rintro ⟨ended, hended⟩
          exact ⟨first, ended, hstarts, hended⟩
        · rintro ⟨other, ended, hother, hended⟩
          rw [hother.unique hstarts] at hended
          exact ⟨ended, hended⟩
    next => cases hread

theorem exists_output_contribution
    (conflicts : ResourceLocator → ResourceLocator → Bool) {fact : Fact}
    (hfact : IsOutput (snapshot facts statuses) outputId fact) :
    ∃ contribution ∈ deriveProjectProjections conflicts
      (snapshot facts statuses), contribution.key = .output outputId := by
  have hsome : ((groupFacts outputOf
      (snapshot facts statuses).projectedFacts).get? outputId).isSome = true :=
    groupFacts_isSome.2 ⟨fact, hfact.projected, hfact.filed⟩
  obtain ⟨ids, hget⟩ := Option.isSome_iff_exists.1 hsome
  have hentry := OrderedMap.get?_eq_some_iff.1 hget
  have hin := (mem_groupMembers_of_key hentry).2
    ⟨hfact.projected, hfact.filed⟩
  obtain ⟨first, rest, hgroup⟩ := List.exists_cons_of_ne_nil
    (List.ne_nil_of_mem hin)
  have hstarts := startsGroup_of_groupMembers hentry hgroup
  obtain ⟨project, dispatchId, binding, thread, message, hpayload⟩ :=
    outputOf_eq_some.1 hstarts.filed
  refine ⟨⟨.output outputId, .output ⟨outputId, dispatchId, binding, thread,
    message, if payloadsDiffer first (first :: rest) then .conflicted
      else if inactiveBefore project binding.assignmentId first.id
        (snapshot facts statuses) then .lateFromInactive
      else .current, ids⟩, ids⟩, ?_, rfl⟩
  rw [deriveProjectProjections_eq]
  refine List.mem_flatMap.2 ⟨(3, outputProjections (snapshot facts statuses)),
    by simp [projectParts], List.mem_filterMap.2 ⟨(outputId, ids), hentry, ?_⟩⟩
  simp only [hgroup, hpayload]

end Outputs

/-- Every identity of a projected output has one view.  The least output
decides the verdict, so the verdict speaks for all outputs of the identity
exactly when an end before the least one comes with an end before each. -/
theorem output_attribution_iff {policy : AuthorityPolicy}
    {conflicts : ResourceLocator → ResourceLocator → Bool} {facts : List Fact}
    {report : ReductionReport ProjectAggregateKey ProjectProjectionKey
      ProjectProjection ProjectReason}
    (hreduce : reduceComplete (projectReducer policy conflicts) facts =
      .ok report) (outputId : MessageId) :
    ((∃ view, report.projections.get? (.output outputId) =
        some (.output view)) ↔
      ∃ fact, IsOutput report.context outputId fact) ∧
    ∀ view, report.projections.get? (.output outputId) =
        some (.output view) →
      ShowsOutput report.context outputId view ∧
      (Attributed report.context outputId view.status ↔
        EndedForAll report.context outputId) := by
  have hreduced := reduced_of_reduceSet hreduce
  have h := projectStable_of_fixed hreduced.fixed
  rw [ReductionReport.context, hreduced.facts_eq]
  have hshows : ∀ view, report.projections.get? (.output outputId) =
      some (.output view) → ShowsOutput (snapshot (FactSet.fromFacts facts)
        (statusesIn report.decisions)) outputId view := by
    intro view hview
    obtain ⟨contribution, hmem, hkey, hvalue⟩ := (hreduced.value _ _).1 hview
    obtain ⟨found, hfound, hshows⟩ := h.output_contribution hmem hkey
    rw [hvalue] at hfound
    cases hfound
    exact hshows
  refine ⟨⟨?_, ?_⟩, fun view hview => ⟨hshows view hview, ?_⟩⟩
  · rintro ⟨view, hview⟩
    obtain ⟨project, first, hstarts, -⟩ := (hshows view hview).shows
    exact ⟨first, hstarts.projected, hstarts.filed⟩
  · rintro ⟨fact, hfact⟩
    obtain ⟨contribution, hmem, hkey⟩ :=
      exists_output_contribution conflicts hfact
    obtain ⟨view, hvalue, -⟩ := h.output_contribution hmem hkey
    exact ⟨view, (hreduced.value _ _).2 ⟨contribution, hmem, hkey, hvalue⟩⟩
  · obtain ⟨project, first, hstarts, -⟩ := (hshows view hview).shows
    have hfirst : IsOutput (snapshot (FactSet.fromFacts facts)
        (statusesIn report.decisions)) outputId first :=
      ⟨hstarts.projected, hstarts.filed⟩
    constructor
    · intro hattributed other ended hother hended output houtput
      have hlate := (hshows view hview).late.2 ⟨other, ended, hother, hended⟩
      obtain ⟨common, hcommon⟩ := hattributed.late.1 hlate
      exact ⟨common, hcommon output houtput⟩
    · intro hall
      refine ⟨?_, ?_⟩
      · refine ⟨fun hconflicted => absurd hconflicted
          (hshows view hview).agreed, ?_⟩
        rintro ⟨left, right, hleft, hright, hne⟩
        exact absurd (h.output_payload_eq hleft hright) hne
      · rw [(hshows view hview).late]
        constructor
        · rintro ⟨other, ended, hother, hended⟩
          exact h.exists_common_end hfirst (hall other ended hother hended)
        · rintro ⟨ended, hended⟩
          exact ⟨first, ended, hstarts, hended first hfirst⟩

/-- An output of the second project's dispatch. -/
def outputting (id previous : Nat) : Fact :=
  homeStep id 20 previous [44] (.projectOutputRecorded (.ofNat 40) (.ofNat 9)
    (.ofNat 40) (sampleBinding 71) (threadOfFact (.ofNat 52))
    { messageId := .ofNat 9
      sender := ⟨.ofNat 1, .ofNat 71⟩
      recipient := some ⟨.ofNat 1, .ofNat 40⟩
      body := sampleBody
      purpose := .projectOutput
      presentation := .message
      correlation := none
      projectId := some (.ofNat 40) }) rfl rfl

/-- The second project records an output, ends the assignment and records the
same output again. -/
def outputsAround (first second : Nat) : List Fact :=
  twoProjects ++ [outputting first 44,
    homeStep 46 20 first [] (.projectAssignmentEnded (.ofNat 40) (.ofNat 71)
      false none) rfl rfl, outputting second 46]

theorem ok_of_toOption_bind {ε α β : Type} {result : Except ε α}
    {read : α → Option β} {value : β}
    (h : result.toOption.bind read = some value) :
    ∃ found, result = .ok found ∧ read found = some value := by
  cases result with
  | error error => cases h
  | ok found => exact ⟨found, rfl, h⟩

/-- The facts and the status of an output view. -/
def outputReading (facts : List Fact) (outputId : MessageId) :
    Option (List FactId × ProjectOutputStatus) :=
  (reduceComplete (projectReducer samplePolicy pathConflicts)
    facts).toOption.bind fun report =>
      match report.projections.get? (.output outputId) with
      | some (.output view) => some (view.facts.toList, view.status)
      | _ => none

/-- The same log gives one verdict or the other, as the identity of the later
output is the greater or the smaller one. -/
theorem output_verdict_depends_on_identity :
    outputReading (outputsAround 55 60) (.ofNat 9) =
      some ([.ofNat 55, .ofNat 60], .current) ∧
    outputReading (outputsAround 60 55) (.ofNat 9) =
      some ([.ofNat 55, .ofNat 60], .lateFromInactive) := by
  decide +kernel

/-- Where the earlier output is the least one, the verdict speaks for both. -/
theorem output_attribution_iff_outputsAround :
    ∃ report view, reduceComplete (projectReducer samplePolicy pathConflicts)
        (outputsAround 55 60) = .ok report ∧
      report.projections.get? (.output (.ofNat 9)) = some (.output view) ∧
      ShowsOutput report.context (.ofNat 9) view := by
  have hread : outputReading (outputsAround 55 60) (.ofNat 9) =
      some ([.ofNat 55, .ofNat 60], .current) := by
    decide +kernel
  obtain ⟨report, hreduce, hview⟩ := ok_of_toOption_bind hread
  split at hview
  next view hget =>
    exact ⟨report, view, hreduce, hget,
      ((output_attribution_iff hreduce _).2 view hget).1⟩
  next => cases hview

end Hq
