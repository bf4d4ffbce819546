/-
Authority views and their persisted parts: the checks a decoder makes before
it rebuilds a view, and which views of a reduction pass them.
-/
import Hq.Revocation

namespace Hq

namespace PeerRouteView

/-- Rebuild a route view from its parts. -/
def fromParts (state : PeerRouteState) (frontier : OrderedSet FactId)
    (routes : OrderedMap FactId PeerRouteCandidate)
    (blocks : OrderedMap FactId ErrorCode) : Option PeerRouteView :=
  let everyFrontierFactIsRetained := frontier.toList.all fun fact =>
    routes.contains fact || blocks.contains fact
  let frontierBlocks := (frontier.filter blocks.contains).size
  let frontierRoutes := (frontier.filter routes.contains).size
  let expected : PeerRouteState :=
    if 0 < frontierBlocks then .blocked
    else if frontierRoutes = 1 then .routable
    else .conflicted
  let historiesAreDisjoint := routes.keys.toList.all fun fact =>
    !blocks.contains fact
  if everyFrontierFactIsRetained && historiesAreDisjoint &&
      state = expected then
    some ⟨state, frontier, routes, blocks⟩
  else none

/-- The view rebuilt from its own parts. -/
def reload (view : PeerRouteView) : Option PeerRouteView :=
  fromParts view.state view.frontier view.routes view.blocks

end PeerRouteView

namespace CapabilityView

/-- Rebuild a capability view from its parts. -/
def fromParts (grantFact : FactId) (mailbox : MailboxAddress)
    (grantee : InstallationAddress) (active : Bool)
    (revokeFrontier observedActions : OrderedSet FactId) :
    Option CapabilityView :=
  if active = revokeFrontier.isEmpty && grantFact ∉ revokeFrontier &&
      grantFact ∉ observedActions &&
      revokeFrontier.toList.all fun id => id ∉ observedActions then
    some ⟨grantFact, mailbox, grantee, active, revokeFrontier, observedActions⟩
  else none

/-- The view rebuilt from its own parts. -/
def reload (view : CapabilityView) : Option CapabilityView :=
  fromParts view.grantFact view.mailbox view.grantee view.active
    view.revokeFrontier view.observedActions

theorem reload_iff {view : CapabilityView} : view.reload = some view ↔
    view.active = view.revokeFrontier.isEmpty ∧
      view.grantFact ∉ view.revokeFrontier ∧
      view.grantFact ∉ view.observedActions ∧
      ∀ id ∈ view.revokeFrontier, id ∉ view.observedActions := by
  rw [reload, fromParts]
  split
  next hparts =>
    simp only [Bool.and_eq_true, decide_eq_true_eq, List.all_eq_true,
      OrderedSet.mem_toList] at hparts
    simp only [true_iff]
    exact ⟨hparts.1.1.1, hparts.1.1.2, hparts.1.2, hparts.2⟩
  next hparts =>
    simp only [reduceCtorEq, false_iff]
    rintro ⟨hactive, hrevoke, hobserved, hdisjoint⟩
    refine hparts ?_
    simp only [Bool.and_eq_true, decide_eq_true_eq, List.all_eq_true,
      OrderedSet.mem_toList]
    exact ⟨⟨⟨hactive, hrevoke⟩, hobserved⟩, hdisjoint⟩

end CapabilityView

namespace MembershipView

/-- Rebuild a membership view from its parts. -/
def fromParts (state : MembershipState) (frontier : OrderedSet FactId)
    (grants : OrderedMap GrantId DeviceGrantView)
    (acceptances revokes activeAcceptances : OrderedSet FactId)
    (activeGrants : OrderedSet GrantId) : Option MembershipView :=
  let grantFacts := OrderedSet.ofList
    (grants.values.map DeviceGrantView.grantFact)
  let retained := OrderedSet.ofList
    (grantFacts.toList ++ acceptances.toList ++ revokes.toList)
  let expected : MembershipState :=
    if !activeAcceptances.isEmpty then .active
    else if !revokes.isEmpty then .revoked
    else .pending
  let historiesAreDisjoint :=
    (grantFacts.toList.all fun id => id ∉ acceptances) &&
    (grantFacts.toList.all fun id => id ∉ revokes) &&
    acceptances.toList.all fun id => id ∉ revokes
  if state = expected &&
      (activeAcceptances.toList.all fun id => id ∈ acceptances) &&
      (activeGrants.toList.all fun id => id ∈ grants.keys) &&
      activeAcceptances.isEmpty = activeGrants.isEmpty &&
      historiesAreDisjoint &&
      frontier.toList.all fun id => id ∈ retained then
    some ⟨state, frontier, grants, acceptances, revokes, activeAcceptances,
      activeGrants⟩
  else none

/-- The view rebuilt from its own parts. -/
def reload (view : MembershipView) : Option MembershipView :=
  fromParts view.state view.frontier view.grants view.acceptances view.revokes
    view.activeAcceptances view.activeGrants

end MembershipView

/-- A map read off a set of facts under their own identities. -/
theorem contains_ofList_filterMap {β : Type} {members : OrderedSet FactId}
    {read : FactId → Option (FactId × β)} {id : FactId}
    (hread : ∀ id entry, read id = some entry → entry.1 = id) :
    (OrderedMap.ofList (members.toList.filterMap read)).contains id = true ↔
      id ∈ members ∧ (read id).isSome = true := by
  rw [OrderedMap.contains, OrderedMap.get?_ofList_isSome]
  constructor
  · rintro ⟨value, hmem⟩
    obtain ⟨found, hfound, hvalue⟩ := List.mem_filterMap.1 hmem
    obtain rfl : id = found := hread found _ hvalue
    exact ⟨OrderedSet.mem_toList.1 hfound, by simp [hvalue]⟩
  · rintro ⟨hmem, hsome⟩
    obtain ⟨entry, hentry⟩ := Option.isSome_iff_exists.1 hsome
    refine ⟨entry.2, List.mem_filterMap.2
      ⟨id, OrderedSet.mem_toList.2 hmem, ?_⟩⟩
    rw [hentry, ← hread id entry hentry]

section Routes

variable {context : ReductionContext} {members : OrderedSet FactId}
  {id : FactId}

theorem contains_routes :
    (peerRouteView context members).routes.contains id = true ↔
      id ∈ members ∧ (payloadOf context id).any isRouteSet = true := by
  refine (contains_ofList_filterMap fun id entry h => ?_).trans
    (and_congr_right fun _ => ?_)
  · split at h <;> cases h
    rfl
  · cases payloadOf context id with
    | none => simp
    | some payload => cases payload <;> simp [isRouteSet]

theorem contains_blocks :
    (peerRouteView context members).blocks.contains id = true ↔
      id ∈ members ∧ (payloadOf context id).any isRouteBlock = true := by
  refine (contains_ofList_filterMap fun id entry h => ?_).trans
    (and_congr_right fun _ => ?_)
  · split at h <;> cases h
    rfl
  · cases payloadOf context id with
    | none => simp
    | some payload => cases payload <;> simp [isRouteBlock]

/-- A view of route sets and blocks reloads. -/
theorem peerRouteView_reload (hmembers : ∀ id ∈ members,
      ((payloadOf context id).any isRouteSet = true ∧
        (payloadOf context id).any isRouteBlock = false) ∨
      ((payloadOf context id).any isRouteSet = false ∧
        (payloadOf context id).any isRouteBlock = true)) :
    (peerRouteView context members).reload =
      some (peerRouteView context members) := by
  have hfrontier : ∀ id ∈ maximalMembers context members, id ∈ members :=
    fun id hid => maximalMembers_subset hid
  have hblocks : (maximalMembers context members).filter
      (peerRouteView context members).blocks.contains =
      (maximalMembers context members).filter fun id =>
        (payloadOf context id).any isRouteBlock := by
    refine OrderedSet.filter_congr fun id hid => ?_
    rw [Bool.eq_iff_iff, contains_blocks]
    simp [hfrontier id hid]
  have hroutes : ((maximalMembers context members).filter
      (peerRouteView context members).routes.contains).size =
      (maximalMembers context members).size -
        ((maximalMembers context members).filter fun id =>
          (payloadOf context id).any isRouteBlock).size := by
    have hnot : (maximalMembers context members).filter
        (peerRouteView context members).routes.contains =
        (maximalMembers context members).filter fun id =>
          !(payloadOf context id).any isRouteBlock := by
      refine OrderedSet.filter_congr fun id hid => ?_
      rw [Bool.eq_iff_iff, contains_routes]
      rcases hmembers id (hfrontier id hid) with ⟨hset, hblock⟩ | ⟨hset, hblock⟩
      · simp [hfrontier id hid, hset, hblock]
      · simp [hset, hblock]
    rw [hnot]
    have hpartition := List.length_eq_length_filter_add
      (l := (maximalMembers context members).toList)
      fun id => (payloadOf context id).any isRouteBlock
    simp only [OrderedSet.size, OrderedSet.filter]
    omega
  have hretained : ((maximalMembers context members).toList.all fun fact =>
      (peerRouteView context members).routes.contains fact ||
        (peerRouteView context members).blocks.contains fact) = true := by
    rw [List.all_eq_true]
    intro id hid
    have hmem := hfrontier id (OrderedSet.mem_toList.1 hid)
    rw [Bool.or_eq_true, contains_routes, contains_blocks]
    rcases hmembers id hmem with ⟨hset, -⟩ | ⟨-, hblock⟩
    · exact Or.inl ⟨hmem, hset⟩
    · exact Or.inr ⟨hmem, hblock⟩
  have hdisjoint : ((peerRouteView context members).routes.keys.toList.all
      fun fact => !(peerRouteView context members).blocks.contains fact) =
      true := by
    rw [List.all_eq_true]
    intro id hid
    rw [OrderedSet.mem_toList, OrderedMap.mem_keys] at hid
    obtain ⟨hmem, hroute⟩ := contains_routes.1 hid
    rw [Bool.not_eq_true', Bool.eq_false_iff, Ne, contains_blocks]
    rcases hmembers id hmem with ⟨-, hblock⟩ | ⟨hset, -⟩
    · simp [hblock]
    · rw [hset] at hroute
      cases hroute
  unfold PeerRouteView.reload PeerRouteView.fromParts
  rw [if_pos]
  simp only [Bool.and_eq_true, decide_eq_true_eq]
  refine ⟨⟨hretained, hdisjoint⟩, ?_⟩
  change (peerRouteView context members).state =
    if 0 < ((maximalMembers context members).filter
      (peerRouteView context members).blocks.contains).size then _
    else if ((maximalMembers context members).filter
      (peerRouteView context members).routes.contains).size = 1 then _ else _
  rw [hblocks, hroutes]
  rfl

end Routes

section Memberships

variable {policy : AuthorityPolicy} {facts : FactSet}
  {statuses : OrderedMap FactId DecisionStatus} {account : AccountId}
  {device : InstallationId} {members : OrderedSet FactId}

/-- What a fact of a membership says. -/
def isDeviceGranting : SemanticPayload → Bool
  | .humanDeviceGranted .. => true
  | _ => false

/-- The facts filed under a membership. -/
structure MembersOf (context : ReductionContext) (account : AccountId)
    (device : InstallationId) (members : OrderedSet FactId) : Prop where
  mem : ∀ id, id ∈ members ↔ ∃ fact ∈ context.projectedFacts,
    aggregateKey fact = some (.membership account device) ∧ fact.id = id

theorem MembersOf.payload {context : ReductionContext}
    (h : MembersOf context account device members) {id : FactId}
    (hid : id ∈ members) :
    ∃ fact ∈ context.projectedFacts, fact.id = id ∧
      payloadOf context id = some fact.payload ∧
      ((∃ grantId granted label hints, fact.payload =
          .humanDeviceGranted account grantId granted label hints ∧
          granted.installationId = device) ∨
        (∃ grantId accepted, fact.payload =
          .humanDeviceAccepted account grantId accepted ∧
          accepted.installationId = device) ∨
        ∃ grantId, fact.payload =
          .humanDeviceRevoked account grantId device) := by
  obtain ⟨fact, hfact, hkey, rfl⟩ := (h.mem id).1 hid
  refine ⟨fact, hfact, rfl, ?_, ?_⟩
  · rw [payloadOf, FactSet.mem_facts.1 (mem_projectedFacts.1 hfact).1]
    rfl
  · unfold aggregateKey at hkey
    split at hkey <;> cases hkey
    next grantId granted label hints hpayload =>
      exact Or.inl ⟨grantId, granted, label, hints, hpayload, rfl⟩
    next grantId accepted hpayload =>
      exact Or.inr (Or.inl ⟨grantId, accepted, hpayload, rfl⟩)
    next grantId hpayload =>
      exact Or.inr (Or.inr ⟨grantId, hpayload⟩)

variable {contribution :
    ProjectionContribution AuthorityProjectionKey AuthorityProjection}
  {grantId : GrantId} {actionId : FactId}

theorem mem_grantEntries {context : ReductionContext}
    {view : DeviceGrantView} :
    (grantId, view) ∈ (members.toList.filterMap fun id =>
      match payloadOf context id with
      | some (.humanDeviceGranted _ grantId granted label relayHints) =>
          some (grantId, (⟨id, granted, label, relayHints⟩ : DeviceGrantView))
      | _ => none) ↔
      view.grantFact ∈ members ∧ ∃ account,
        payloadOf context view.grantFact = some (.humanDeviceGranted account
          grantId view.device view.label view.relayHints) := by
  rw [List.mem_filterMap]
  constructor
  · rintro ⟨id, hid, hread⟩
    split at hread <;> cases hread
    next hpayload => exact ⟨OrderedSet.mem_toList.1 hid, _, hpayload⟩
  · rintro ⟨hmem, account, hpayload⟩
    exact ⟨view.grantFact, OrderedSet.mem_toList.2 hmem, by simp [hpayload]⟩

/-- A grant identity names one projected device grant. -/
theorem deviceGrant_unique (h : AuthorityStable policy facts statuses)
    {left right : Fact}
    (hleft : left ∈ (snapshot facts statuses).projectedFacts)
    (hright : right ∈ (snapshot facts statuses).projectedFacts)
    (hleftGrants : grantsDevice grantId left = true)
    (hrightGrants : grantsDevice grantId right = true) : left = right := by
  have hvalid := (h.projected hleft).2.2
  unfold grantsDevice at hleftGrants
  split at hleftGrants
  next account found granted label hints hpayload =>
    obtain rfl : found = grantId := by simpa using hleftGrants
    rw [validateFact, hpayload, validateDeviceGrant_ok] at hvalid
    exact eq_of_countFacts_le_one hvalid.2.2.2.1 (mem_projectedFacts.1 hleft).1
      (by simp [grantsDevice, hpayload]) (mem_projectedFacts.1 hright).1
      hrightGrants
  next => cases hleftGrants

/-- The grants of a membership view are its granting members. -/
theorem get?_grants (h : AuthorityStable policy facts statuses)
    (hmembers : MembersOf (snapshot facts statuses) account device members)
    {view : DeviceGrantView} :
    (membershipView (snapshot facts statuses) account device
        members).grants.get? grantId = some view ↔
      view.grantFact ∈ members ∧ ∃ account,
        payloadOf (snapshot facts statuses) view.grantFact =
          some (.humanDeviceGranted account grantId view.device view.label
            view.relayHints) := by
  rw [← mem_grantEntries]
  constructor
  · exact OrderedMap.mem_of_get?_ofList
  · intro hentry
    refine OrderedMap.get?_ofList_of_unique hentry ?_
    intro other hother
    obtain ⟨hmem, _, hpayload⟩ := mem_grantEntries.1 hentry
    obtain ⟨hotherMem, _, hotherPayload⟩ := mem_grantEntries.1 hother
    obtain ⟨left, hleft, hleftId, hleftPayload, -⟩ := hmembers.payload hmem
    obtain ⟨right, hright, hrightId, hrightPayload, -⟩ :=
      hmembers.payload hotherMem
    rw [hpayload, Option.some.injEq] at hleftPayload
    rw [hotherPayload, Option.some.injEq] at hrightPayload
    have hleftGrants : grantsDevice grantId left = true := by
      simp [grantsDevice, ← hleftPayload]
    have hrightGrants : grantsDevice grantId right = true := by
      simp [grantsDevice, ← hrightPayload]
    obtain rfl := deviceGrant_unique h hleft hright hleftGrants hrightGrants
    have hsame := hrightPayload.trans hleftPayload.symm
    rw [SemanticPayload.humanDeviceGranted.injEq] at hsame
    obtain ⟨-, -, hdevice, hlabel, hhints⟩ := hsame
    obtain ⟨otherFact, otherDevice, otherLabel, otherHints⟩ := other
    rw [DeviceGrantView.mk.injEq]
    exact ⟨hrightId.symm.trans hleftId, hdevice, hlabel, hhints⟩

/-- The grant an active acceptance names is a member of its membership. -/
theorem accepted_grant_member (h : AuthorityStable policy facts statuses)
    (hmembers : MembersOf (snapshot facts statuses) account device members)
    {id : FactId} {found : AccountId}
    {accepted : InstallationAddress} (hid : id ∈ members)
    (hpayload : payloadOf (snapshot facts statuses) id =
      some (.humanDeviceAccepted found grantId accepted)) :
    grantId ∈ (membershipView (snapshot facts statuses) account device
      members).grants.keys := by
  obtain ⟨fact, hfact, -, hfactPayload, hkind⟩ := hmembers.payload hid
  rw [hpayload, Option.some.injEq] at hfactPayload
  obtain ⟨hready, hparents, hvalid⟩ := h.projected hfact
  rw [← hfactPayload] at hkind
  obtain ⟨rfl, rfl⟩ : found = account ∧ accepted.installationId = device := by
    rcases hkind with ⟨_, _, _, _, hgranted, -⟩ | ⟨_, _, haccepted, hdevice⟩ |
      ⟨_, hrevoked⟩
    · cases hgranted
    · cases haccepted
      exact ⟨rfl, hdevice⟩
    · cases hrevoked
  rw [validateFact, ← hfactPayload, validateDeviceAcceptance_ok] at hvalid
  obtain ⟨-, cited, grant, hcites, hget, hgrant, -⟩ := hvalid
  have hprojected := hparents cited (Fact.mem_parents_of_authority hcites)
  obtain rfl := FactSet.id_of_get? hget
  obtain ⟨granted, label, hints, hgrantPayload, hdevice⟩ :=
    isDeviceGrant_iff.1 hgrant
  rw [decide_eq_true_eq] at hdevice
  rw [OrderedMap.mem_keys, Option.isSome_iff_exists]
  refine ⟨⟨grant.id, granted, label, hints⟩,
    (get?_grants h hmembers).2 ⟨?_, found, ?_⟩⟩
  · exact (hmembers.mem grant.id).2 ⟨grant, mem_projectedFacts.2
      ⟨FactSet.mem_facts_of_get? hget, hprojected⟩,
      by simp [aggregateKey, hgrantPayload, hdevice], rfl⟩
  · rw [payloadOf, hget, Option.map_some, hgrantPayload]

theorem payload_exclusive {context : ReductionContext} {id : FactId}
    {left right : SemanticPayload → Bool}
    (hexclusive : ∀ payload, ¬ (left payload = true ∧ right payload = true))
    (hleft : (payloadOf context id).any left = true) :
    ¬ (payloadOf context id).any right = true := by
  intro hright
  cases hpayload : payloadOf context id with
  | none => simp [hpayload] at hleft
  | some payload =>
      rw [hpayload] at hleft hright
      exact hexclusive payload ⟨hleft, hright⟩

/-- A membership view of a stable snapshot reloads. -/
theorem membershipView_reload (h : AuthorityStable policy facts statuses)
    (hmembers : MembersOf (snapshot facts statuses) account device members) :
    (membershipView (snapshot facts statuses) account device members).reload =
      some (membershipView (snapshot facts statuses) account device
        members) := by
  have hgrantFacts : ∀ id, id ∈ OrderedSet.ofList ((membershipView
      (snapshot facts statuses) account device members).grants.values.map
        DeviceGrantView.grantFact) ↔ id ∈ members ∧
      (payloadOf (snapshot facts statuses) id).any isDeviceGranting = true := by
    intro id
    rw [OrderedSet.mem_ofList, List.mem_map]
    constructor
    · rintro ⟨view, hview, rfl⟩
      obtain ⟨grantId, hget⟩ := OrderedMap.mem_values.1 hview
      obtain ⟨hmem, found, hpayload⟩ := (get?_grants h hmembers).1 hget
      exact ⟨hmem, by simp [hpayload, isDeviceGranting]⟩
    · rintro ⟨hmem, hgranting⟩
      obtain ⟨fact, hfact, rfl, hpayload, hkind⟩ := hmembers.payload hmem
      rw [hpayload] at hgranting
      rcases hkind with ⟨grantId, granted, label, hints, heq, -⟩ |
        ⟨_, _, heq, -⟩ | ⟨_, heq⟩
      · rw [heq] at hpayload
        exact ⟨⟨fact.id, granted, label, hints⟩, OrderedMap.mem_values.2
          ⟨grantId, (get?_grants h hmembers).2 ⟨hmem, account, hpayload⟩⟩, rfl⟩
      · simp [heq, isDeviceGranting] at hgranting
      · simp [heq, isDeviceGranting] at hgranting
  unfold MembershipView.reload MembershipView.fromParts
  rw [if_pos]
  simp only [Bool.and_eq_true, decide_eq_true_eq, List.all_eq_true,
    OrderedSet.mem_toList]
  refine ⟨⟨⟨⟨⟨rfl, ?_⟩, ?_⟩, ?_⟩, ⟨?_, ?_⟩, ?_⟩, ?_⟩
  · exact fun id hid => (OrderedSet.mem_filter.1 hid).1
  · intro grantId hgrant
    obtain ⟨id, hid, hread⟩ :=
      List.mem_filterMap.1 (OrderedSet.mem_ofList.1 hgrant)
    have hmember := (OrderedSet.mem_filter.1 (OrderedSet.mem_filter.1
      (OrderedSet.mem_toList.1 hid)).1).1
    split at hread <;> cases hread
    next hpayload => exact accepted_grant_member h hmembers hmember hpayload
  · rw [Bool.eq_iff_iff, OrderedSet.isEmpty_iff, OrderedSet.isEmpty_iff,
      OrderedSet.eq_empty_iff, OrderedSet.eq_empty_iff]
    constructor
    · intro hempty grantId hgrant
      obtain ⟨id, hid, -⟩ :=
        List.mem_filterMap.1 (OrderedSet.mem_ofList.1 hgrant)
      exact hempty id (OrderedSet.mem_toList.1 hid)
    · intro hempty id hid
      obtain ⟨hacceptance, -⟩ := OrderedSet.mem_filter.1 hid
      obtain ⟨hmem, hkind⟩ := OrderedSet.mem_filter.1 hacceptance
      obtain ⟨fact, -, -, hpayload, hshape⟩ := hmembers.payload hmem
      rw [hpayload] at hkind
      rcases hshape with ⟨_, _, _, _, heq, -⟩ | ⟨grantId, accepted, heq, -⟩ |
        ⟨_, heq⟩
      · simp [heq, isDeviceAcceptance] at hkind
      · refine hempty grantId (OrderedSet.mem_ofList.2
          (List.mem_filterMap.2 ⟨id, OrderedSet.mem_toList.2 hid, ?_⟩))
        rw [hpayload, heq]
      · simp [heq, isDeviceAcceptance] at hkind
  · intro id hgrant hacceptance
    refine payload_exclusive (fun payload => ?_) ((hgrantFacts id).1 hgrant).2
      (OrderedSet.mem_filter.1 hacceptance).2
    cases payload <;> simp [isDeviceGranting, isDeviceAcceptance]
  · intro id hgrant hrevoke
    refine payload_exclusive (fun payload => ?_) ((hgrantFacts id).1 hgrant).2
      (OrderedSet.mem_filter.1 hrevoke).2
    cases payload <;> simp [isDeviceGranting, isDeviceRevoke]
  · intro id hacceptance hrevoke
    refine payload_exclusive (fun payload => ?_)
      (OrderedSet.mem_filter.1 hacceptance).2
      (OrderedSet.mem_filter.1 hrevoke).2
    cases payload <;> simp [isDeviceAcceptance, isDeviceRevoke]
  · intro id hfrontier
    have hmem := maximalMembers_subset hfrontier
    obtain ⟨fact, -, -, hpayload, hshape⟩ := hmembers.payload hmem
    simp only [OrderedSet.mem_ofList, List.mem_append, OrderedSet.mem_toList]
    rcases hshape with ⟨_, _, _, _, heq, -⟩ | ⟨_, _, heq, -⟩ | ⟨_, heq⟩
    · refine Or.inl (Or.inl (OrderedSet.mem_ofList.1 ((hgrantFacts id).2
        ⟨hmem, ?_⟩)))
      simp [hpayload, heq, isDeviceGranting]
    · refine Or.inl (Or.inr (OrderedSet.mem_filter.2 ⟨hmem, ?_⟩))
      simp [hpayload, heq, isDeviceAcceptance]
    · refine Or.inr (OrderedSet.mem_filter.2 ⟨hmem, ?_⟩)
      simp [hpayload, heq, isDeviceRevoke]

end Memberships

section Capabilities

variable {policy : AuthorityPolicy} {facts : FactSet}
  {statuses : OrderedMap FactId DecisionStatus} {grantId : GrantId}

theorem validateMailboxObservation_ok {context : ReductionContext}
    {fact : Fact}
    (h : validateMailboxObservation fact grantId actionId context = .ok ()) :
    ∃ target cited grant action,
        fact.causal.authority .mailboxGrant = some cited ∧
        context.facts.get? cited = some grant ∧
        isGrantForAction grantId target grant = true ∧
        context.facts.get? actionId = some action ∧
        action.causal.authority .mailboxGrant = some cited := by
  unfold validateMailboxObservation at h
  split at h
  next target hscope =>
    obtain ⟨-, h⟩ := require_bind_eq_ok.1 h
    obtain ⟨cited, hcited, h⟩ := requiredAuthority_bind_eq_ok.1 h
    obtain ⟨hgrant, h⟩ := unit_bind_eq_ok.1 h
    obtain ⟨-, h⟩ := require_bind_eq_ok.1 h
    obtain ⟨grant, hget, hmatches⟩ := requireCited_eq_ok.1 hgrant
    obtain ⟨action, haction, hcites⟩ := requireCited_eq_ok.1 h
    simp only [Bool.and_eq_true, decide_eq_true_eq] at hcites
    exact ⟨target, cited, grant, action, hcited, hget, hmatches, haction,
      hcites.1⟩
  next => cases h

/-- An observation never names the grant itself. -/
theorem observed_ne_grant (h : AuthorityStable policy facts statuses)
    {grant observation : Fact} {mailbox : MailboxAddress}
    {grantee : InstallationAddress}
    (hgrant : grant ∈ (snapshot facts statuses).projectedFacts)
    (hpayload : grant.payload = .mailboxAccessGranted grantId mailbox grantee)
    (hobservation : observation ∈ (snapshot facts statuses).projectedFacts)
    (hobserved : observation.payload =
      .mailboxActionObserved grantId actionId) : actionId ≠ grant.id := by
  rintro rfl
  have hvalid := (h.projected hobservation).2.2
  rw [validateFact, hobserved] at hvalid
  obtain ⟨target, cited, found, action, -, hfound, hmatches, haction, hcites⟩ :=
    validateMailboxObservation_ok hvalid
  have hgrantValid := (h.projected hgrant).2.2
  rw [validateFact, hpayload, validateMailboxGrant_ok] at hgrantValid
  obtain ⟨hmem, hprojected⟩ := mem_projectedFacts.1 hgrant
  have hsame : grant = found := by
    refine eq_of_countFacts_le_one hgrantValid.2.2.1 hmem
      (by simp [grantsMailbox, hpayload]) (FactSet.mem_facts_of_get? hfound) ?_
    unfold isGrantForAction at hmatches
    split at hmatches
    next hfoundPayload =>
      simp only [Bool.and_eq_true, decide_eq_true_eq] at hmatches
      simp [grantsMailbox, hfoundPayload, hmatches.1]
    next => cases hmatches
  obtain rfl := Option.some.inj (haction.symm.trans (FactSet.mem_facts.1 hmem))
  rw [← FactSet.id_of_get? hfound, ← hsame] at hcites
  exact h.acyclic hprojected (.single ((child_iff_of_get?
    (FactSet.mem_facts.1 hmem)).2 (Fact.mem_parents_of_authority hcites)))

/-- A projected observation rests on a projected grant. -/
theorem grant_of_observation (h : AuthorityStable policy facts statuses)
    {observation : Fact}
    (hobservation : observation ∈ (snapshot facts statuses).projectedFacts)
    (hobserved : observation.payload =
      .mailboxActionObserved grantId actionId) :
    ∃ grant ∈ (snapshot facts statuses).projectedFacts, ∃ mailbox grantee,
      grant.payload = .mailboxAccessGranted grantId mailbox grantee := by
  have hvalid := (h.projected hobservation).2.2
  rw [validateFact, hobserved] at hvalid
  obtain ⟨target, cited, grant, action, hcited, hgrant, hmatches, -⟩ :=
    validateMailboxObservation_ok hvalid
  obtain ⟨hmem, hprojected⟩ := mem_projectedFacts.1 hobservation
  have hparent := (child_iff_of_get? (FactSet.mem_facts.1 hmem)).2
    (Fact.mem_parents_of_authority hcited)
  refine ⟨grant, mem_projectedFacts.2 ⟨FactSet.mem_facts_of_get? hgrant, ?_⟩, ?_⟩
  · rw [FactSet.id_of_get? hgrant]
    exact h.isProjected_of_above hprojected (.single hparent)
  · unfold isGrantForAction at hmatches
    split at hmatches
    next found mailbox grantee hpayload =>
      simp only [Bool.and_eq_true, decide_eq_true_eq] at hmatches
      exact ⟨mailbox, grantee, hmatches.1 ▸ hpayload⟩
    next => cases hmatches

/-- No observation of a grant names one of its last revokes. -/
def RevokesUnobserved (context : ReductionContext) (grantId : GrantId) :
    Prop :=
  ∀ observation ∈ context.projectedFacts, ∀ revoke ∈ context.projectedFacts,
    observation.payload = .mailboxActionObserved grantId revoke.id →
    revokesGrant grantId revoke = true →
    ∃ later ∈ context.projectedFacts, revokesGrant grantId later = true ∧
      Relation.TransGen context.graph.Child revoke.id later.id

/-- What a capability view is made of. -/
theorem capabilityView_parts {context : ReductionContext}
    {view : CapabilityView} {support : OrderedSet FactId}
    (hview : ⟨.mailboxCapability grantId, .mailboxCapability view, support⟩ ∈
      capabilityProjections context) :
    ∃ grant ∈ context.projectedFacts,
      grant.payload =
        .mailboxAccessGranted grantId view.mailbox view.grantee ∧
      view.grantFact = grant.id ∧
      (∃ revokes : OrderedSet FactId, view.active = revokes.isEmpty ∧
        view.revokeFrontier = maximalMembers context revokes ∧
        ∀ id, id ∈ revokes ↔ ∃ revoke ∈ context.projectedFacts,
          revokesGrant grantId revoke = true ∧ revoke.id = id) ∧
      ∀ id, id ∈ view.observedActions ↔
        ∃ observation ∈ context.projectedFacts,
          observation.payload = .mailboxActionObserved grantId id := by
  obtain ⟨grant, hgrant, hread⟩ := List.mem_filterMap.1 hview
  split at hread
  next _ mailbox grantee hpayload =>
    cases hread
    refine ⟨grant, hgrant, hpayload, rfl, ⟨_, rfl, rfl, fun id => ?_⟩,
      fun id => ?_⟩
    · simp only [OrderedSet.mem_ofList, List.mem_map, List.mem_filter,
        mailboxRevokes_eq, mem_projectedFacts]
      grind
    · simp only [OrderedSet.mem_ofList, List.mem_map, List.mem_filterMap]
      constructor
      · rintro ⟨_, ⟨observation, hobservation, hread⟩, rfl⟩
        split at hread
        next hobserved =>
          split at hread <;> cases hread
          next hsame => exact ⟨observation, hobservation, hsame ▸ hobserved⟩
        next => cases hread
      · rintro ⟨observation, hobservation, hobserved⟩
        exact ⟨(observation.id, id), ⟨observation, hobservation,
          by simp [hobserved]⟩, rfl⟩
  next => cases hread

theorem revokeFrontier_isEmpty (h : AuthorityStable policy facts statuses)
    {members : OrderedSet FactId}
    (hprojected : ∀ id ∈ members,
      (snapshot facts statuses).isProjected id = true) :
    members.isEmpty =
      (maximalMembers (snapshot facts statuses) members).isEmpty := by
  rw [Bool.eq_iff_iff, OrderedSet.isEmpty_iff, OrderedSet.isEmpty_iff]
  constructor
  · rintro rfl
    rfl
  · intro hempty
    by_contra hne
    exact h.closed.maximalMembers_ne_empty hne hprojected hempty

/-- A capability view reloads exactly when no last revoke was observed. -/
theorem capabilityView_reload (h : AuthorityStable policy facts statuses)
    {view : CapabilityView} {support : OrderedSet FactId}
    (hview : ⟨.mailboxCapability grantId, .mailboxCapability view, support⟩ ∈
      capabilityProjections (snapshot facts statuses)) :
    view.reload = some view ↔
      RevokesUnobserved (snapshot facts statuses) grantId := by
  obtain ⟨grant, hgrant, hpayload, hid, ⟨revokes, hactive, hfrontier, hrevokes⟩,
    hobserved⟩ := capabilityView_parts hview
  have hprojected : ∀ id ∈ revokes,
      (snapshot facts statuses).isProjected id = true := by
    intro id hmem
    obtain ⟨revoke, hrevoke, -, rfl⟩ := (hrevokes id).1 hmem
    exact (mem_projectedFacts.1 hrevoke).2
  have hnotRevoke : grant.id ∉ view.revokeFrontier := by
    intro hmem
    rw [hfrontier] at hmem
    obtain ⟨revoke, hrevoke, hrevokes, hsame⟩ :=
      (hrevokes _).1 (maximalMembers_subset hmem)
    obtain rfl := FactSet.eq_of_mem_facts_of_id_eq
      (mem_projectedFacts.1 hrevoke).1 (mem_projectedFacts.1 hgrant).1 hsame
    simp [revokesGrant, hpayload] at hrevokes
  have hnotObserved : grant.id ∉ view.observedActions := by
    intro hmem
    obtain ⟨observation, hobservation, hpayload'⟩ := (hobserved _).1 hmem
    exact observed_ne_grant h hgrant hpayload hobservation hpayload' rfl
  rw [CapabilityView.reload_iff, hid, hactive, revokeFrontier_isEmpty h hprojected,
    ← hfrontier]
  simp only [hnotRevoke, hnotObserved, not_false_eq_true, true_and]
  rw [hfrontier]
  constructor
  · intro hdisjoint observation hobservation revoke hrevoke hpayload' hgrants
    by_contra hlast
    refine hdisjoint revoke.id ((h.closed.mem_maximalMembers hprojected).2
      ⟨(hrevokes _).2 ⟨revoke, hrevoke, hgrants, rfl⟩, ?_⟩)
      ((hobserved _).2 ⟨observation, hobservation, hpayload'⟩)
    intro other hother hpath
    obtain ⟨later, hlater, hlaterGrants, rfl⟩ := (hrevokes other).1 hother
    exact hlast ⟨later, hlater, hlaterGrants, hpath⟩
  · intro hunobserved id hmem hobservedId
    obtain ⟨hmember, hlast⟩ := (h.closed.mem_maximalMembers hprojected).1 hmem
    obtain ⟨revoke, hrevoke, hgrants, rfl⟩ := (hrevokes id).1 hmember
    obtain ⟨observation, hobservation, hpayload'⟩ :=
      (hobserved _).1 hobservedId
    obtain ⟨later, hlater, hlaterGrants, hpath⟩ := hunobserved observation
      hobservation revoke hrevoke hpayload' hgrants
    exact hlast later.id ((hrevokes _).2 ⟨later, hlater, hlaterGrants, rfl⟩)
      hpath

end Capabilities

/-- Rebuild a projection from its own parts; only route, capability and
membership views have a check to pass. -/
def AuthorityProjection.reload :
    AuthorityProjection → Option AuthorityProjection
  | .peerRoute view => view.reload.map .peerRoute
  | .mailboxCapability view => view.reload.map .mailboxCapability
  | .membership view => view.reload.map .membership
  | projection => some projection

section Reports

variable {policy : AuthorityPolicy} {facts : FactSet}
  {statuses : OrderedMap FactId DecisionStatus}

theorem peerRouteProjections_reload (hmem : contribution ∈
      peerRouteProjections (snapshot facts statuses)) :
    contribution.value.reload = some contribution.value ∧
      ∀ grantId, contribution.key ≠ .mailboxCapability grantId := by
  obtain ⟨entry, hentry, hread⟩ := List.mem_filterMap.1 hmem
  obtain ⟨-, hgroup⟩ := groupFacts_entry hentry
  split at hread
  next owner peer hkey =>
    cases hread
    refine ⟨?_, nofun⟩
    simp only [AuthorityProjection.reload]
    rw [peerRouteView_reload, Option.map_some]
    intro id hid
    obtain ⟨fact, hfact, hfiled, rfl⟩ := (hgroup id).1 hid
    rw [hkey] at hfiled
    have hpayload : payloadOf (snapshot facts statuses) fact.id =
        some fact.payload := by
      rw [payloadOf, FactSet.mem_facts.1 (mem_projectedFacts.1 hfact).1]
      rfl
    rw [hpayload]
    unfold aggregateKey at hfiled
    split at hfiled <;> cases hfiled
    next hset => simp [hset, isRouteSet, isRouteBlock]
    next hblocked => simp [hblocked, isRouteSet, isRouteBlock]
  next => cases hread

theorem membershipProjections_reload (h : AuthorityStable policy facts statuses)
    (hmem : contribution ∈
      membershipProjections (snapshot facts statuses)) :
    contribution.value.reload = some contribution.value ∧
      ∀ grantId, contribution.key ≠ .mailboxCapability grantId := by
  obtain ⟨entry, hentry, hread⟩ := List.mem_filterMap.1 hmem
  obtain ⟨-, hgroup⟩ := groupFacts_entry hentry
  split at hread
  next account device hkey =>
    cases hread
    refine ⟨?_, nofun⟩
    rw [hkey] at hgroup
    simp only [AuthorityProjection.reload]
    rw [membershipView_reload h ⟨hgroup⟩, Option.map_some]
  next => cases hread

theorem capabilityProjections_reload (h : AuthorityStable policy facts statuses)
    (hmem : contribution ∈
      capabilityProjections (snapshot facts statuses)) :
    ∃ grantId, contribution.key = .mailboxCapability grantId ∧
      (contribution.value.reload = some contribution.value ↔
        RevokesUnobserved (snapshot facts statuses) grantId) := by
  have hshape : ∃ grantId view, contribution.key = .mailboxCapability grantId ∧
      contribution.value = .mailboxCapability view := by
    obtain ⟨grant, -, hread⟩ := List.mem_filterMap.1 hmem
    split at hread <;> cases hread
    exact ⟨_, _, rfl, rfl⟩
  obtain ⟨key, value, support⟩ := contribution
  obtain ⟨grantId, view, rfl, rfl⟩ := hshape
  refine ⟨grantId, rfl, ?_⟩
  rw [← capabilityView_reload h hmem]
  simp [AuthorityProjection.reload]

/-- The projections without a check. -/
theorem plain_reload (policy : AuthorityPolicy)
    (hmem : contribution ∈ rootProjections (snapshot facts statuses) ∨
      contribution ∈ accountProjections (snapshot facts statuses) ∨
      contribution ∈ selectionProjections policy (snapshot facts statuses)) :
    contribution.value.reload = some contribution.value ∧
      ∀ grantId, contribution.key ≠ .mailboxCapability grantId := by
  rcases hmem with hmem | hmem | hmem
  · obtain ⟨fact, -, hread⟩ := List.mem_filterMap.1 hmem
    split at hread <;> cases hread <;> exact ⟨rfl, nofun⟩
  · obtain ⟨fact, -, hread⟩ := List.mem_filterMap.1 hmem
    split at hread <;> cases hread
    exact ⟨rfl, nofun⟩
  · unfold selectionProjections at hmem
    simp only at hmem
    split at hmem
    · cases hmem
    · rw [List.mem_singleton] at hmem
      subst hmem
      exact ⟨rfl, nofun⟩

/-- A projection reloads unless it is a capability with an observed last
revoke. -/
theorem contribution_reload_iff (h : AuthorityStable policy facts statuses)
    (hmem : contribution ∈
      deriveAuthorityProjections policy (snapshot facts statuses)) :
    contribution.value.reload = some contribution.value ↔
      ∀ grantId, contribution.key = .mailboxCapability grantId →
        RevokesUnobserved (snapshot facts statuses) grantId := by
  have hplain : (contribution.value.reload = some contribution.value ∧
      ∀ grantId, contribution.key ≠ .mailboxCapability grantId) →
      (contribution.value.reload = some contribution.value ↔
        ∀ grantId, contribution.key = .mailboxCapability grantId →
          RevokesUnobserved (snapshot facts statuses) grantId) :=
    fun hreload => ⟨fun _ grantId hkey => absurd hkey (hreload.2 grantId),
      fun _ => hreload.1⟩
  simp only [deriveAuthorityProjections, List.mem_append] at hmem
  rcases hmem with ((((hroot | hroute) | hcapability) | haccount) |
    hmembership) | hselection
  · exact hplain (plain_reload policy (Or.inl hroot))
  · exact hplain (peerRouteProjections_reload hroute)
  · obtain ⟨grantId, hkey, hreload⟩ :=
      capabilityProjections_reload h hcapability
    rw [hreload, hkey]
    constructor
    · rintro hunobserved _ ⟨⟩
      exact hunobserved
    · intro hall
      exact hall grantId rfl
  · exact hplain (plain_reload policy (Or.inr (Or.inl haccount)))
  · exact hplain (membershipProjections_reload h hmembership)
  · exact hplain (plain_reload policy (Or.inr (Or.inr hselection)))

theorem capability_of_grant {context : ReductionContext} {grant : Fact}
    {mailbox : MailboxAddress}
    {grantee : InstallationAddress} (hgrant : grant ∈ context.projectedFacts)
    (hpayload : grant.payload =
      .mailboxAccessGranted grantId mailbox grantee) :
    ∃ contribution ∈ capabilityProjections context,
      contribution.key = .mailboxCapability grantId := by
  apply Exists.intro
  apply And.intro
  · apply List.mem_filterMap.2
    exact ⟨grant, hgrant, by rw [hpayload]⟩
  · rfl

end Reports

/-- Authority reduction returns a report, and all it projects can be loaded
again exactly when no projected observation names a last revoke of its own
grant. -/
theorem authority_reload_iff (policy : AuthorityPolicy) (facts : List Fact) :
    ∃ report, reduceComplete (authorityReducer policy) facts = .ok report ∧
      ((∀ key projection, report.projections.get? key = some projection →
          projection.reload = some projection) ↔
        ∀ grantId observation revoke, report.Projects observation →
          report.Projects revoke →
          observation.payload = .mailboxActionObserved grantId revoke.id →
          revokesGrant grantId revoke = true →
          ∃ later, report.Projects later ∧ revokesGrant grantId later = true ∧
            report.Above revoke later) := by
  obtain ⟨decisions, report, hreduce, hfix, -, hon⟩ := authority_reduceSet
    policy (FactSet.fromFacts facts)
  have hstable := authorityStable_of_fixed hfix
  refine ⟨report, hreduce, ?_⟩
  have hvalue := hon.derives.value
  trans ∀ grantId, RevokesUnobserved
    (snapshot (FactSet.fromFacts facts) (statusesIn decisions)) grantId
  · constructor
    · intro hreload grantId observation hobservation revoke hrevoke hobserved
      obtain ⟨grant, hgrant, mailbox, grantee, hpayload⟩ :=
        grant_of_observation hstable hobservation hobserved
      obtain ⟨contribution, hmem, hkey⟩ := capability_of_grant hgrant hpayload
      have hderived : contribution ∈ deriveAuthorityProjections policy
          (snapshot (FactSet.fromFacts facts) (statusesIn decisions)) := by
        simp only [deriveAuthorityProjections, List.mem_append]
        exact Or.inl (Or.inl (Or.inl (Or.inr hmem)))
      exact (contribution_reload_iff hstable hderived).1
        (hreload _ _ ((hvalue _ _).2 ⟨contribution, hderived, rfl, rfl⟩))
        grantId hkey observation hobservation revoke hrevoke hobserved
    · intro hunobserved key projection hget
      obtain ⟨contribution, hmem, -, rfl⟩ := (hvalue key projection).1 hget
      exact (contribution_reload_iff hstable hmem).2
        fun grantId _ => hunobserved grantId
  · simp only [RevokesUnobserved, hon.projects_iff, ReductionReport.Above,
      hon.graph_eq]
    constructor
    · intro hunobserved grantId observation revoke hobservation hrevoke
      exact hunobserved grantId observation hobservation revoke hrevoke
    · intro hunobserved grantId observation hobservation revoke hrevoke
      exact hunobserved grantId observation revoke hobservation hrevoke

/-- The owner's observation of an action under a grant. -/
def mailboxObservation (id grant action : Nat) : Fact where
  id := .ofNat id
  author := signer 1
  authoredAt := ⟨0⟩
  scope := .peerAddressed sampleMailbox
  causal := citing [(.mailboxGrant, grant)] [action]
  payload := .mailboxActionObserved (.ofNat grant) (.ofNat action)
  protocol_scope := .refl false
  admissible := rfl

/-- The projection a result reports under a key, if it reports any. -/
def reportedProjection (policy : AuthorityPolicy) (facts : List Fact)
    (key : AuthorityProjectionKey) : Option AuthorityProjection :=
  match reduceComplete (authorityReducer policy) facts with
  | .error _ => none
  | .ok report => report.projections.get? key

/-- A revoke cites the grant it revokes, so its owner can observe it like an
action of the peer; the capability view then does not load again. -/
theorem observed_revoke_breaks_reload :
    (reportedProjection samplePolicy
        [declaration 1 1, mailboxCreation, mailboxGrant 11,
          mailboxRevoke 13 11 [], mailboxObservation 14 11 13]
        (.mailboxCapability (.ofNat 11))).map AuthorityProjection.reload =
      some none := by
  decide +kernel

end Hq
