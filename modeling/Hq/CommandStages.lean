/-
Remote project commands: the request that the view of a command shows, and the
stage its receipts and outcomes have brought it to.
-/
import Hq.OutputAttribution

namespace Hq

/-! Neighbours and first readings of a sorted group. -/

theorem neighboursDiffer_cons {α : Type} [DecidableEq α]
    {first second : Fact × α} {rest : List (Fact × α)} :
    neighboursDiffer (first :: second :: rest) = true ↔
      first.2 ≠ second.2 ∨ neighboursDiffer (second :: rest) = true := by
  simp [neighboursDiffer]

/-- Neighbours of a list differ as soon as any two members do. -/
theorem neighboursDiffer_iff {α : Type} [DecidableEq α]
    {values : List (Fact × α)} :
    neighboursDiffer values = true ↔
      ∃ left ∈ values, ∃ right ∈ values, left.2 ≠ right.2 := by
  have hfirst : ∀ {first : Fact × α} {rest : List (Fact × α)},
      neighboursDiffer (first :: rest) = false →
        ∀ other ∈ rest, other.2 = first.2 := by
    intro first rest
    induction rest generalizing first with
    | nil => simp
    | cons second rest ih =>
        intro hsame other hother
        rw [← Bool.not_eq_true, neighboursDiffer_cons, not_or, not_not,
          Bool.not_eq_true] at hsame
        rcases List.mem_cons.1 hother with rfl | hother
        · exact hsame.1.symm
        · exact (ih hsame.2 other hother).trans hsame.1.symm
  constructor
  · intro hdiffer
    rw [neighboursDiffer, List.any_eq_true] at hdiffer
    obtain ⟨pair, hpair, hne⟩ := hdiffer
    have hmem := List.of_mem_zip hpair
    exact ⟨pair.1, hmem.1, pair.2, List.mem_of_mem_tail hmem.2, by simpa using hne⟩
  · rintro ⟨left, hleft, right, hright, hne⟩
    by_contra hsame
    rw [Bool.not_eq_true] at hsame
    cases values with
    | nil => simp at hleft
    | cons first rest =>
        have hall : ∀ other ∈ first :: rest, other.2 = first.2 := by
          intro other hother
          rcases List.mem_cons.1 hother with rfl | hother
          · rfl
          · exact hfirst hsame other hother
        exact hne ((hall left hleft).trans (hall right hright).symm)

/-- The first reading of a list in the order of identities is the reading of
its least readable fact. -/
theorem head?_filterMap_iff {α : Type} {read : Fact → Option (Fact × α)}
    (hread : ∀ fact entry, read fact = some entry → entry.1 = fact)
    {list : List Fact}
    (hsorted : list.Pairwise fun left right => left.id < right.id)
    {entry : Fact × α} :
    (list.filterMap read).head? = some entry ↔
      entry.1 ∈ list ∧ read entry.1 = some entry ∧
        ∀ other ∈ list, (read other).isSome = true → entry.1.id ≤ other.id := by
  induction list with
  | nil => simp
  | cons head tail ih =>
      obtain ⟨hhead, htail⟩ := List.pairwise_cons.1 hsorted
      rw [List.filterMap_cons]
      cases hfirst : read head with
      | none =>
          simp only [ih htail, List.mem_cons, forall_eq_or_imp, hfirst,
            Option.isSome_none, Bool.false_eq_true, false_implies, true_and]
          refine and_congr_left fun hrest => (or_iff_right ?_).symm
          rintro hsame
          rw [hsame, hfirst] at hrest
          cases hrest.1
      | some found =>
          obtain rfl := hread head found hfirst
          simp only [List.head?_cons, Option.some.injEq]
          constructor
          · rintro rfl
            refine ⟨List.mem_cons_self, hfirst, ?_⟩
            rintro other hother -
            rcases List.mem_cons.1 hother with rfl | hother
            · exact le_rfl
            · exact (hhead other hother).le
          · rintro ⟨hmem, hentry, hleast⟩
            rcases List.mem_cons.1 hmem with hsame | hmem
            · rw [hsame, hfirst] at hentry
              exact Option.some.inj hentry
            · have hle := hleast found.1 List.mem_cons_self (by rw [hfirst]; rfl)
              exact absurd (hhead entry.1 hmem) (not_lt.2 hle)

/-! The facts of a command. -/

/-- The command and the values of a receipt. -/
def receiptValue (fact : Fact) :
    Option (CommandId × Option FactId × Timestamp) :=
  match fact.payload with
  | .remoteProjectCommandReceipt commandId _ _ receivedHead receivedAt =>
      some (commandId, receivedHead, receivedAt)
  | _ => none

/-- The command and the values of an outcome. -/
def outcomeValue (fact : Fact) :
    Option (CommandId × RemoteCommandResult × Option RuntimeObservation) :=
  match fact.payload with
  | .remoteProjectCommandOutcome commandId _ _ result runtime =>
      some (commandId, result, runtime)
  | _ => none

theorem remoteReceipts_eq (facts : List Fact) :
    remoteReceipts facts = facts.filterMap fun fact =>
      (receiptValue fact).map fun entry => (fact, entry.2) := by
  refine congrFun (congrArg List.filterMap (funext fun fact => ?_)) facts
  unfold receiptValue
  cases fact.payload <;> rfl

theorem remoteOutcomes_eq (facts : List Fact) :
    remoteOutcomes facts = facts.filterMap fun fact =>
      (outcomeValue fact).map fun entry => (fact, entry.2) := by
  refine congrFun (congrArg List.filterMap (funext fun fact => ?_)) facts
  unfold outcomeValue
  cases fact.payload <;> rfl

variable {commandId : CommandId} {context : ReductionContext}
  {stage : RemoteCommandStage} {fact : Fact}

theorem commandOf_of_receiptValue
    {entry : CommandId × Option FactId × Timestamp}
    (h : receiptValue fact = some entry) : commandOf fact = some entry.1 := by
  unfold receiptValue at h
  split at h
  next hpayload =>
    cases h
    rw [commandOf, hpayload]
  next => cases h

theorem commandOf_of_outcomeValue
    {entry : CommandId × RemoteCommandResult × Option RuntimeObservation}
    (h : outcomeValue fact = some entry) : commandOf fact = some entry.1 := by
  unfold outcomeValue at h
  split at h
  next hpayload =>
    cases h
    rw [commandOf, hpayload]
  next => cases h

/-- A projected request of a command. -/
structure IsRequest (context : ReductionContext) (commandId : CommandId)
    (fact : Fact) : Prop where
  projected : fact ∈ context.projectedFacts
  requests : requestsCommand commandId fact = true

/-- A projected fact that carries a value for a command. -/
structure CarriesValue {α : Type} (context : ReductionContext)
    (read : Fact → Option (CommandId × α)) (commandId : CommandId)
    (fact : Fact) (value : α) : Prop where
  projected : fact ∈ context.projectedFacts
  reads : read fact = some (commandId, value)

/-- The least fact that carries a value for a command. -/
structure FirstValue {α : Type} (context : ReductionContext)
    (read : Fact → Option (CommandId × α)) (commandId : CommandId)
    (fact : Fact) (value : α) : Prop extends
    CarriesValue context read commandId fact value where
  least : ∀ other found, CarriesValue context read commandId other found →
    fact.id ≤ other.id

/-- Two facts carry different values for a command. -/
def Disagrees {α : Type} (context : ReductionContext)
    (read : Fact → Option (CommandId × α)) (commandId : CommandId) : Prop :=
  ∃ left right value other, CarriesValue context read commandId left value ∧
    CarriesValue context read commandId right other ∧ value ≠ other

/-- The projected facts of a command in the order of their identities. -/
structure IsGroup (context : ReductionContext) (commandId : CommandId)
    (group : List Fact) : Prop where
  sorted : group.Pairwise fun left right => left.id < right.id
  mem_iff : ∀ fact, fact ∈ group ↔
    fact ∈ context.projectedFacts ∧ commandOf fact = some commandId

namespace IsGroup

variable {context : ReductionContext} {commandId : CommandId}
  {group : List Fact} {α : Type} {read : Fact → Option (CommandId × α)}

theorem carries_iff (h : IsGroup context commandId group)
    (hcommand : ∀ fact entry, read fact = some entry →
      commandOf fact = some entry.1) {value : α} :
    fact ∈ group ∧ (read fact).map (fun entry => (fact, entry.2)) =
        some (fact, value) ↔
      CarriesValue context read commandId fact value := by
  rw [h.mem_iff, Option.map_eq_some_iff]
  constructor
  · rintro ⟨⟨hprojected, hof⟩, ⟨found, entry⟩, hread, hsame⟩
    cases hsame
    have hfound := hcommand fact _ hread
    rw [hof] at hfound
    cases hfound
    exact ⟨hprojected, hread⟩
  · rintro ⟨hprojected, hread⟩
    exact ⟨⟨hprojected, hcommand fact _ hread⟩, _, hread, rfl⟩

theorem mem_values_iff (h : IsGroup context commandId group)
    (hcommand : ∀ fact entry, read fact = some entry →
      commandOf fact = some entry.1) {value : α} :
    (fact, value) ∈ group.filterMap (fun fact =>
        (read fact).map fun entry => (fact, entry.2)) ↔
      CarriesValue context read commandId fact value := by
  rw [← h.carries_iff hcommand, List.mem_filterMap]
  constructor
  · rintro ⟨other, hother, hread⟩
    obtain ⟨entry, -, hsame⟩ := Option.map_eq_some_iff.1 hread
    cases hsame
    exact ⟨hother, hread⟩
  · rintro ⟨hfact, hread⟩
    exact ⟨fact, hfact, hread⟩

theorem first_iff (h : IsGroup context commandId group)
    (hcommand : ∀ fact entry, read fact = some entry →
      commandOf fact = some entry.1) {value : α} :
    (group.filterMap fun fact =>
        (read fact).map fun entry => (fact, entry.2)).head? =
        some (fact, value) ↔
      FirstValue context read commandId fact value := by
  have hentry : ∀ fact entry,
      ((read fact).map fun entry => (fact, entry.2)) = some entry →
        entry.1 = fact := by
    intro fact entry hread
    obtain ⟨found, -, rfl⟩ := Option.map_eq_some_iff.1 hread
    rfl
  rw [head?_filterMap_iff hentry h.sorted, ← and_assoc, h.carries_iff hcommand]
  constructor
  · rintro ⟨hcarries, hleast⟩
    refine ⟨hcarries, fun other found hother => ?_⟩
    obtain ⟨hmem, hread⟩ := (h.carries_iff hcommand).2 hother
    exact hleast other hmem (by rw [hread]; rfl)
  · rintro ⟨hcarries, hleast⟩
    refine ⟨hcarries, fun other hmem hsome => ?_⟩
    obtain ⟨⟨found, entry⟩, hread⟩ := Option.isSome_iff_exists.1 hsome
    obtain rfl := hentry other _ hread
    exact hleast _ entry ((h.carries_iff hcommand).1 ⟨hmem, hread⟩)

theorem differ_iff [DecidableEq α] (h : IsGroup context commandId group)
    (hcommand : ∀ fact entry, read fact = some entry →
      commandOf fact = some entry.1) :
    neighboursDiffer (group.filterMap fun fact =>
        (read fact).map fun entry => (fact, entry.2)) = true ↔
      Disagrees context read commandId := by
  rw [neighboursDiffer_iff]
  constructor
  · rintro ⟨⟨left, value⟩, hleft, ⟨right, other⟩, hright, hne⟩
    exact ⟨left, right, value, other, (h.mem_values_iff hcommand).1 hleft,
      (h.mem_values_iff hcommand).1 hright, hne⟩
  · rintro ⟨left, right, value, other, hleft, hright, hne⟩
    exact ⟨(left, value), (h.mem_values_iff hcommand).2 hleft, (right, other),
      (h.mem_values_iff hcommand).2 hright, hne⟩

end IsGroup

/-! The stage of a command. -/

/-- What each stage says of the receipts and outcomes of a command. -/
def StageOf (context : ReductionContext) (commandId : CommandId) :
    RemoteCommandStage → Prop
  | .conflicted => Disagrees context receiptValue commandId ∨
      Disagrees context outcomeValue commandId
  | .terminal receiptFact head receivedAt outcomeFact result runtime =>
      ¬ Disagrees context receiptValue commandId ∧
      ¬ Disagrees context outcomeValue commandId ∧
      (∃ receipt, FirstValue context receiptValue commandId receipt
        (head, receivedAt) ∧ receipt.id = receiptFact) ∧
      ∃ outcome, FirstValue context outcomeValue commandId outcome
        (result, runtime) ∧ outcome.id = outcomeFact
  | .received receiptFact head receivedAt =>
      ¬ Disagrees context receiptValue commandId ∧
      (∀ outcome value,
        ¬ CarriesValue context outcomeValue commandId outcome value) ∧
      ∃ receipt, FirstValue context receiptValue commandId receipt
        (head, receivedAt) ∧ receipt.id = receiptFact
  | .queued =>
      (∀ outcome value,
        ¬ CarriesValue context outcomeValue commandId outcome value) ∧
      ∀ receipt value,
        ¬ CarriesValue context receiptValue commandId receipt value

/-- Every projected outcome of a command comes with a projected receipt. -/
def OutcomesReceived (context : ReductionContext) (commandId : CommandId) :
    Prop :=
  ∀ outcome value, CarriesValue context outcomeValue commandId outcome value →
    ∃ receipt found, CarriesValue context receiptValue commandId receipt found

theorem IsGroup.stageOf
    {group : List Fact} (h : IsGroup context commandId group)
    (hreceived : OutcomesReceived context commandId) :
    StageOf context commandId (remoteStage group) := by
  have hreceipts : ∀ fact entry, receiptValue fact = some entry →
      commandOf fact = some entry.1 := fun _ _ => commandOf_of_receiptValue
  have houtcomes : ∀ fact entry, outcomeValue fact = some entry →
      commandOf fact = some entry.1 := fun _ _ => commandOf_of_outcomeValue
  simp only [remoteStage, remoteReceipts_eq, remoteOutcomes_eq]
  split
  next hdiffer =>
    rw [Bool.or_eq_true, h.differ_iff houtcomes, h.differ_iff hreceipts]
      at hdiffer
    exact hdiffer.symm
  next hsame =>
    rw [Bool.or_eq_true, h.differ_iff houtcomes, h.differ_iff hreceipts,
      not_or] at hsame
    split
    next outcome result runtime _ receipt head receivedAt _ ho hr =>
      refine ⟨hsame.2, hsame.1, ⟨receipt, ?_, rfl⟩, outcome, ?_, rfl⟩
      · exact (h.first_iff hreceipts).1 (by rw [hr]; rfl)
      · exact (h.first_iff houtcomes).1 (by rw [ho]; rfl)
    next receipt head receivedAt _ ho hr =>
      refine ⟨hsame.2, ?_, receipt, (h.first_iff hreceipts).1
        (by rw [hr]; rfl), rfl⟩
      intro outcome value hvalue
      have hmem := (h.mem_values_iff houtcomes).2 hvalue
      rw [ho] at hmem
      cases hmem
    next hr =>
      have hnone : ∀ receipt value,
          ¬ CarriesValue context receiptValue commandId receipt value := by
        intro receipt value hvalue
        have hmem := (h.mem_values_iff hreceipts).2 hvalue
        rw [hr] at hmem
        cases hmem
      refine ⟨?_, hnone⟩
      intro outcome value hvalue
      obtain ⟨receipt, found, hfound⟩ := hreceived outcome value hvalue
      exact hnone receipt found hfound

/-! The request of a command. -/

/-- A cited request, if any, is a projected request of the command. -/
def CitesRequest (context : ReductionContext) (commandId : CommandId)
    (fact : Fact) : Prop :=
  ∀ id, fact.causal.authority .request = some id →
    ∃ request, IsRequest context commandId request ∧ request.id = id

/-- The least receipt, or the least outcome where that receipt cites nothing
as its request, cites a projected request of the command. -/
structure RequestFound (context : ReductionContext) (commandId : CommandId) :
    Prop where
  receipt : ∀ receipt value,
    FirstValue context receiptValue commandId receipt value →
      CitesRequest context commandId receipt
  outcome : ∀ outcome value,
    FirstValue context outcomeValue commandId outcome value →
      (∀ receipt found,
        FirstValue context receiptValue commandId receipt found →
          receipt.causal.authority .request = none) →
      CitesRequest context commandId outcome

theorem IsGroup.citedRequest_iff {group : List Fact}
    (h : IsGroup context commandId group) :
    (∀ id, citedRequest group = some id →
      ∃ request, IsRequest context commandId request ∧ request.id = id) ↔
    RequestFound context commandId := by
  have hreceipts : ∀ {fact value}, (remoteReceipts group).head? =
      some (fact, value) ↔ FirstValue context receiptValue commandId fact
        value := by
    intro fact value
    rw [remoteReceipts_eq]
    exact h.first_iff fun _ _ => commandOf_of_receiptValue
  have houtcomes : ∀ {fact value}, (remoteOutcomes group).head? =
      some (fact, value) ↔ FirstValue context outcomeValue commandId fact
        value := by
    intro fact value
    rw [remoteOutcomes_eq]
    exact h.first_iff fun _ _ => commandOf_of_outcomeValue
  simp only [citedRequest, Option.or_eq_some_iff, Option.bind_eq_some_iff,
    Option.bind_eq_none_iff, Prod.exists, Prod.forall, hreceipts, houtcomes]
  constructor
  · intro hcited
    constructor
    · intro receipt value hfirst id hid
      exact hcited id (.inl ⟨receipt, value.1, value.2, hfirst, hid⟩)
    · intro outcome value hfirst hnone id hid
      exact hcited id (.inr ⟨fun receipt head receivedAt hreceipt =>
        hnone receipt (head, receivedAt) hreceipt, outcome, value.1, value.2,
        hfirst, hid⟩)
  · rintro hfound id (⟨receipt, head, receivedAt, hfirst, hid⟩ |
      ⟨hnone, outcome, result, runtime, hfirst, hid⟩)
    · exact hfound.receipt receipt _ hfirst id hid
    · exact hfound.outcome outcome _ hfirst
        (fun receipt found => hnone receipt found.1 found.2) id hid

/-- The view of a command shows a request. -/
structure ShowsRequest (commandId : CommandId) (request : Fact)
    (view : RemoteCommandView) : Prop where
  requestFact : view.requestFact = request.id
  issuedAt : view.issuedAt = request.authoredAt
  payload : request.payload = .remoteProjectCommandRequested commandId
    view.digest view.projectId view.targetHome view.expectedHead view.operation
    view.body
  account : ∃ home, request.scope = .remoteControl view.accountId home

/-- What the view of a command shows. -/
structure ShowsCommand (context : ReductionContext) (commandId : CommandId)
    (view : RemoteCommandView) : Prop where
  request : ∃ request, IsRequest context commandId request ∧
    ShowsRequest commandId request view
  stage : StageOf context commandId view.stage

theorem requestsCommand_iff :
    requestsCommand commandId fact = true ↔
      ∃ digest project home head operation body, fact.payload =
        .remoteProjectCommandRequested commandId digest project home head
          operation body := by
  unfold requestsCommand
  split
  next found digest project home head operation body hpayload =>
    simp only [decide_eq_true_eq]
    constructor
    · rintro rfl
      exact ⟨digest, project, home, head, operation, body, hpayload⟩
    · rintro ⟨_, _, _, _, _, _, hsame⟩
      rw [hpayload] at hsame
      cases hsame
      rfl
  next hother =>
    constructor
    · exact nofun
    · rintro ⟨_, _, _, _, _, _, hpayload⟩
      exact absurd hpayload (hother _ _ _ _ _ _ _)

theorem remoteRequestProjection_eq_some {cited : Option FactId}
    {support : OrderedSet FactId}
    {view : RemoteCommandView}
    (h : remoteRequestProjection cited stage support fact = some view) :
    (∀ id, cited = some id → id = fact.id) ∧ view.stage = stage ∧
      ∃ commandId, requestsCommand commandId fact = true ∧
        ShowsRequest commandId fact view := by
  unfold remoteRequestProjection at h
  split at h
  next commandId digest project home head operation body account _ hpayload
      hscope =>
    split at h
    next hcited =>
      cases h
      refine ⟨?_, rfl, commandId, requestsCommand_iff.2
        ⟨_, _, _, _, _, _, hpayload⟩, ⟨rfl, rfl, hpayload, _, hscope⟩⟩
      rintro id rfl
      simpa using hcited
    next => cases h
  next => cases h

/-- A request that is cited, or any where nothing is cited, is shown. -/
theorem remoteRequestProjection_isSome {cited : Option FactId}
    {support : OrderedSet FactId}
    (hrequest : requestsCommand commandId fact = true)
    (hcited : ∀ id, cited = some id → id = fact.id) :
    (remoteRequestProjection cited stage support fact).isSome = true := by
  obtain ⟨_, _, _, _, _, _, hpayload⟩ := requestsCommand_iff.1 hrequest
  have hscope := fact.protocol_scope
  rw [hpayload] at hscope
  cases hcontrol : fact.scope with
  | remoteControl account home =>
      simp only [remoteRequestProjection, hpayload, hcontrol]
      have hall : cited.all (· = fact.id) = true := by
        cases cited with
        | none => rfl
        | some id => simpa using hcited id rfl
      rw [if_pos hall]
      rfl
  | _ =>
      rw [hcontrol] at hscope
      cases hscope

section Views

variable {policy : AuthorityPolicy}
  {conflicts : ResourceLocator → ResourceLocator → Bool} {facts : FactSet}
  {statuses : OrderedMap FactId DecisionStatus} {commandId : CommandId}

theorem isGroup_of_entry {entry : CommandId × OrderedSet FactId}
    (hentry : entry ∈
      (groupFacts commandOf (snapshot facts statuses).projectedFacts).entries) :
    IsGroup (snapshot facts statuses) entry.1
      (groupMembers (snapshot facts statuses) entry.2) :=
  ⟨groupMembers_sorted _ _, fun _ => mem_groupMembers_of_key hentry⟩

theorem ProjectStable.outcomesReceived
    (h : ProjectStable policy conflicts facts statuses)
    (commandId : CommandId) :
    OutcomesReceived (snapshot facts statuses) commandId := by
  rintro outcome value ⟨hprojected, hreads⟩
  unfold outcomeValue at hreads
  split at hreads
  next found digest project result runtime hpayload =>
    cases hreads
    have hvalid := h.admitted hprojected
    simp only [validateProjectFact, hpayload, SemanticPayload.isRemoteControl,
      if_true, validateRemoteControl] at hvalid
    split at hvalid
    · cases hvalid
    · have hguard := require_eq_ok.1 hvalid
      simp only [Bool.and_eq_true] at hguard
      obtain ⟨receipt, hreceipt, -, htest⟩ := hasParent_iff.1 hguard.1.2
      unfold receivesCommand at htest
      split at htest
      next command digest' project' head receivedAt hpayload' =>
        simp only [Bool.and_eq_true, decide_eq_true_eq] at htest
        refine ⟨receipt, (head, receivedAt), hreceipt, ?_⟩
        rw [receiptValue, hpayload', htest.1.1]
      next => cases htest
  next => cases hreads

theorem ProjectStable.command_contribution
    (h : ProjectStable policy conflicts facts statuses)
    {contribution : ProjectContribution}
    (hmem : contribution ∈
      deriveProjectProjections conflicts (snapshot facts statuses))
    (hkey : contribution.key = .command commandId) :
    RequestFound (snapshot facts statuses) commandId ∧
      ∃ view, contribution.value = .command view ∧
        ShowsCommand (snapshot facts statuses) commandId view := by
  have hpart : contribution ∈ commandProjections (snapshot facts statuses) :=
    mem_projectPart 4 (by simp [projectParts]) hmem (by rw [hkey]; rfl)
  obtain ⟨⟨found, ids⟩, hentry, hread⟩ := List.mem_filterMap.1 hpart
  obtain ⟨view, hview, rfl⟩ := Option.map_eq_some_iff.1 hread
  obtain rfl : found = commandId := ProjectProjectionKey.command.inj hkey
  have hgroup := isGroup_of_entry hentry
  obtain ⟨request, hin, hshown⟩ := List.exists_of_findSome?_eq_some hview
  obtain ⟨hcited, hstage, command, hrequests, hshows⟩ :=
    remoteRequestProjection_eq_some hshown
  obtain ⟨hprojected, hof⟩ := (hgroup.mem_iff request).1 hin
  obtain rfl : command = found := by
    obtain ⟨_, _, _, _, _, _, hpayload⟩ := requestsCommand_iff.1 hrequests
    rw [commandOf, hpayload] at hof
    exact Option.some.inj hof
  have hrequest : IsRequest (snapshot facts statuses) command request :=
    ⟨hprojected, hrequests⟩
  refine ⟨hgroup.citedRequest_iff.1 fun id hid =>
    ⟨request, hrequest, (hcited id hid).symm⟩, view, rfl,
    ⟨request, hrequest, hshows⟩, ?_⟩
  rw [hstage]
  exact hgroup.stageOf (h.outcomesReceived command)

theorem exists_command_contribution
    (conflicts : ResourceLocator → ResourceLocator → Bool) {request : Fact}
    (hrequest : IsRequest (snapshot facts statuses) commandId request)
    (hfound : RequestFound (snapshot facts statuses) commandId) :
    ∃ contribution ∈ deriveProjectProjections conflicts
      (snapshot facts statuses), contribution.key = .command commandId := by
  have hof : ∀ {fact}, requestsCommand commandId fact = true →
      commandOf fact = some commandId := by
    intro fact hrequests
    obtain ⟨_, _, _, _, _, _, hpayload⟩ := requestsCommand_iff.1 hrequests
    rw [commandOf, hpayload]
  have hsome : ((groupFacts commandOf
      (snapshot facts statuses).projectedFacts).get? commandId).isSome =
        true :=
    groupFacts_isSome.2 ⟨request, hrequest.projected, hof hrequest.requests⟩
  obtain ⟨ids, hget⟩ := Option.isSome_iff_exists.1 hsome
  have hentry := OrderedMap.get?_eq_some_iff.1 hget
  have hgroup := isGroup_of_entry hentry
  -- The cited request, or any request where none is cited.
  have hshown : ∃ shown, IsRequest (snapshot facts statuses) commandId shown ∧
      ∀ id, citedRequest (groupMembers (snapshot facts statuses) ids) =
        some id → id = shown.id := by
    cases hcited : citedRequest (groupMembers (snapshot facts statuses) ids) with
    | none => exact ⟨request, hrequest, nofun⟩
    | some id =>
        obtain ⟨shown, hshown, hid⟩ :=
          hgroup.citedRequest_iff.2 hfound id hcited
        exact ⟨shown, hshown, fun other hother =>
          (Option.some.inj hother).symm.trans hid.symm⟩
  obtain ⟨shown, hshown, hcited⟩ := hshown
  have hview : ((groupMembers (snapshot facts statuses) ids).findSome?
      (remoteRequestProjection
        (citedRequest (groupMembers (snapshot facts statuses) ids))
        (remoteStage (groupMembers (snapshot facts statuses) ids))
        ids)).isSome = true := by
    rw [List.findSome?_isSome_iff]
    exact ⟨shown, (hgroup.mem_iff shown).2
      ⟨hshown.projected, hof hshown.requests⟩,
      remoteRequestProjection_isSome hshown.requests hcited⟩
  obtain ⟨view, hview⟩ := Option.isSome_iff_exists.1 hview
  refine ⟨⟨.command commandId, .command view, ids⟩, ?_, rfl⟩
  rw [deriveProjectProjections_eq]
  refine List.mem_flatMap.2 ⟨(4, commandProjections (snapshot facts statuses)),
    by simp [projectParts], List.mem_filterMap.2 ⟨(commandId, ids), hentry, ?_⟩⟩
  simp only [hview, Option.map_some]

end Views

/-! The stages in their order. -/

def RemoteCommandStage.rank : RemoteCommandStage → Nat
  | .queued => 0
  | .received .. => 1
  | .terminal .. => 2
  | .conflicted => 3

/-- The values of a command in one context occur in another. -/
structure ValuesWithin (context other : ReductionContext)
    (commandId : CommandId) : Prop where
  receipts : ∀ fact value, CarriesValue context receiptValue commandId fact
    value → ∃ found, CarriesValue other receiptValue commandId found value
  outcomes : ∀ fact value, CarriesValue context outcomeValue commandId fact
    value → ∃ found, CarriesValue other outcomeValue commandId found value

theorem Disagrees.of_values {α : Type} {other : ReductionContext}
    {read : Fact → Option (CommandId × α)}
    (hwithin : ∀ fact value, CarriesValue context read commandId fact value →
      ∃ found, CarriesValue other read commandId found value)
    (h : Disagrees context read commandId) :
    Disagrees other read commandId := by
  obtain ⟨left, right, value, found, hleft, hright, hne⟩ := h
  obtain ⟨left', hleft'⟩ := hwithin left value hleft
  obtain ⟨right', hright'⟩ := hwithin right found hright
  exact ⟨left', right', value, found, hleft', hright', hne⟩

/-- More receipts and outcomes move no command backwards. -/
theorem StageOf.rank_le {other : ReductionContext}
    (hwithin : ValuesWithin context other commandId)
    {later : RemoteCommandStage}
    (hstage : StageOf context commandId stage)
    (hlater : StageOf other commandId later) : stage.rank ≤ later.rank := by
  have hconflicted : stage = .conflicted →
      Disagrees other receiptValue commandId ∨
        Disagrees other outcomeValue commandId := by
    rintro rfl
    exact hstage.imp (.of_values hwithin.receipts) (.of_values hwithin.outcomes)
  have hterminal : stage.rank = 2 →
      ∃ outcome value, CarriesValue other outcomeValue commandId outcome
        value := by
    intro hrank
    cases stage with
    | terminal =>
        obtain ⟨-, -, -, outcome, hfirst, -⟩ := hstage
        exact ⟨_, _, (hwithin.outcomes _ _ hfirst.toCarriesValue).choose_spec⟩
    | _ => cases hrank
  have hreceived : stage.rank = 1 →
      ∃ receipt value, CarriesValue other receiptValue commandId receipt
        value := by
    intro hrank
    cases stage with
    | received =>
        obtain ⟨-, -, receipt, hfirst, -⟩ := hstage
        exact ⟨_, _, (hwithin.receipts _ _ hfirst.toCarriesValue).choose_spec⟩
    | _ => cases hrank
  cases later with
  | conflicted => cases stage <;> simp [RemoteCommandStage.rank]
  | terminal =>
      cases stage with
      | conflicted => exact absurd (hconflicted rfl) (not_or.2 ⟨hlater.1, hlater.2.1⟩)
      | _ => simp [RemoteCommandStage.rank]
  | received =>
      cases stage with
      | conflicted =>
          rcases hconflicted rfl with h | ⟨left, _, value, _, hleft, -⟩
          · exact absurd h hlater.1
          · exact absurd hleft (hlater.2.1 left value)
      | terminal =>
          obtain ⟨outcome, value, hvalue⟩ := hterminal rfl
          exact absurd hvalue (hlater.2.1 outcome value)
      | _ => simp [RemoteCommandStage.rank]
  | queued =>
      cases stage with
      | conflicted =>
          rcases hconflicted rfl with ⟨left, _, value, _, hleft, -⟩ |
            ⟨left, _, value, _, hleft, -⟩
          · exact absurd hleft (hlater.2 left value)
          · exact absurd hleft (hlater.1 left value)
      | terminal =>
          obtain ⟨outcome, value, hvalue⟩ := hterminal rfl
          exact absurd hvalue (hlater.1 outcome value)
      | received =>
          obtain ⟨receipt, value, hvalue⟩ := hreceived rfl
          exact absurd hvalue (hlater.2 receipt value)
      | queued => exact le_rfl

/-- A command has a view exactly when it has a projected request and the
request that its least receipt, or else its least outcome, cites is one of
them.  The view shows a projected request and the stage of all receipts and
outcomes, and no further values of theirs move it backwards. -/
theorem command_view_iff {policy : AuthorityPolicy}
    {conflicts : ResourceLocator → ResourceLocator → Bool} {facts : List Fact}
    {report : ReductionReport ProjectAggregateKey ProjectProjectionKey
      ProjectProjection ProjectReason}
    (hreduce : reduceComplete (projectReducer policy conflicts) facts =
      .ok report) (commandId : CommandId) :
    ((∃ view, report.projections.get? (.command commandId) =
        some (.command view)) ↔
      (∃ request, IsRequest report.context commandId request) ∧
        RequestFound report.context commandId) ∧
    (∀ view, report.projections.get? (.command commandId) =
        some (.command view) →
      ShowsCommand report.context commandId view) ∧
    ∀ more later, reduceComplete (projectReducer policy conflicts) more =
        .ok later → ValuesWithin report.context later.context commandId →
      ∀ view next, report.projections.get? (.command commandId) =
          some (.command view) →
        later.projections.get? (.command commandId) = some (.command next) →
        view.stage.rank ≤ next.stage.rank := by
  have hshows : ∀ {facts report}, reduceComplete (projectReducer policy
      conflicts) facts = .ok report → ∀ view, report.projections.get?
        (.command commandId) = some (.command view) →
      RequestFound report.context commandId ∧
        ShowsCommand report.context commandId view := by
    intro facts report hreduce view hview
    have hreduced := reduced_of_reduceSet hreduce
    have h := projectStable_of_fixed hreduced.fixed
    rw [ReductionReport.context, hreduced.facts_eq]
    obtain ⟨contribution, hmem, hkey, hvalue⟩ := (hreduced.value _ _).1 hview
    obtain ⟨hfound, other, hother, hshows⟩ := h.command_contribution hmem hkey
    rw [hvalue] at hother
    cases hother
    exact ⟨hfound, hshows⟩
  refine ⟨⟨?_, ?_⟩, fun view hview => (hshows hreduce view hview).2, ?_⟩
  · rintro ⟨view, hview⟩
    obtain ⟨hfound, hcommand⟩ := hshows hreduce view hview
    obtain ⟨request, hrequest, -⟩ := hcommand.request
    exact ⟨⟨request, hrequest⟩, hfound⟩
  · rintro ⟨⟨request, hrequest⟩, hfound⟩
    have hreduced := reduced_of_reduceSet hreduce
    have h := projectStable_of_fixed hreduced.fixed
    rw [ReductionReport.context, hreduced.facts_eq] at hrequest hfound
    obtain ⟨contribution, hmem, hkey⟩ :=
      exists_command_contribution conflicts hrequest hfound
    obtain ⟨-, view, hvalue, -⟩ := h.command_contribution hmem hkey
    exact ⟨view, (hreduced.value _ _).2 ⟨contribution, hmem, hkey, hvalue⟩⟩
  · intro more later hmore hwithin view next hview hnext
    exact StageOf.rank_le hwithin (hshows hreduce view hview).2.stage
      (hshows hmore next hnext).2.stage

/-! A command whose receipt cites the request of another one. -/

/-- A control record of the first installation about its project. -/
def controlFact (id : Nat) (authorities : List (AuthorityRole × Nat))
    (parents : List Nat) (payload : SemanticPayload)
    (hcontrol : payload.isRemoteControl = true)
    (hadmissible : payload.isAdmissible (signer 1)
      (.remoteControl (.ofNat 20) (.ofNat 1)) = true) : Fact where
  id := .ofNat id
  author := signer 1
  authoredAt := ⟨0⟩
  scope := .remoteControl (.ofNat 20) (.ofNat 1)
  causal := citing authorities parents
  payload
  protocol_scope := hcontrol.symm
  admissible := hadmissible

def commandRequest (id command : Nat) : Fact :=
  controlFact id [(.accountMembership, 20), (.activeHuman, 20)] []
    (.remoteProjectCommandRequested (.ofNat command) (.ofNat command)
      (.ofNat 30) (.ofNat 1) none
      ⟨.ofChar 'p', .ofChar 's', .ofNat command⟩ sampleBody) rfl rfl

/-- A receipt of the command 8 that cites a request. -/
def commandReceipt (id cited : Nat) : Fact :=
  controlFact id [(.projectHome, 1), (.accountMembership, 20),
      (.request, cited)] [80]
    (.remoteProjectCommandReceipt (.ofNat 8) (.ofNat 8) (.ofNat 30) none ⟨5⟩)
    rfl rfl

/-- Requests of the commands 8 and 9. -/
def twoCommands : List Fact :=
  [declaration 1 1, accountCreation 20 1,
    projectCreation 30 20 (workingTree 1 'a') .opened, commandRequest 80 8,
    commandRequest 82 9]

/-- The request and the stage of a command view. -/
def commandReading (facts : List Fact) (command : CommandId) :
    Option (FactId × RemoteCommandStage) :=
  (reduceComplete (projectReducer samplePolicy pathConflicts)
    facts).toOption.bind fun report =>
      match report.projections.get? (.command command) with
      | some (.command view) => some (view.requestFact, view.stage)
      | _ => none

/-- A projected receipt hides its command, queued or already received. -/
theorem receipt_hides_command :
    commandReading twoCommands (.ofNat 8) = some (.ofNat 80, .queued) ∧
    commandReading (twoCommands ++ [commandReceipt 84 80]) (.ofNat 8) =
      some (.ofNat 80, .received (.ofNat 84) none ⟨5⟩) ∧
    (∀ fact ∈ [commandRequest 80 8, commandReceipt 84 80,
        commandReceipt 83 82],
      settledStatus (twoCommands ++ [commandReceipt 84 80,
        commandReceipt 83 82]) fact = some .projected) ∧
    commandReading (twoCommands ++ [commandReceipt 84 80,
      commandReceipt 83 82]) (.ofNat 8) = none := by
  decide +kernel

/-- The received command shows its request and its stage. -/
theorem command_view_iff_twoCommands :
    ∃ report view, reduceComplete (projectReducer samplePolicy pathConflicts)
        (twoCommands ++ [commandReceipt 84 80]) = .ok report ∧
      report.projections.get? (.command (.ofNat 8)) = some (.command view) ∧
      RequestFound report.context (.ofNat 8) ∧
      ShowsCommand report.context (.ofNat 8) view := by
  have hread : commandReading (twoCommands ++ [commandReceipt 84 80])
      (.ofNat 8) = some (.ofNat 80, .received (.ofNat 84) none ⟨5⟩) := by
    decide +kernel
  obtain ⟨report, hreduce, hview⟩ := ok_of_toOption_bind hread
  split at hview
  next view hget =>
    obtain ⟨hiff, hshows, -⟩ := command_view_iff hreduce (.ofNat 8)
    exact ⟨report, view, hreduce, hget, (hiff.1 ⟨view, hget⟩).2,
      hshows view hget⟩
  next => cases hview

end Hq
