/-
The registers of messages and peer routes: what a message view and a route
view say about all projected archives, restores, rejections, route sets and
blocks, not only about the maximal ones they are computed from.
-/
import Hq.Registers
import Hq.AuthorityChains
import Hq.ConversationViews

namespace Hq

variable {context : ReductionContext} {owner peer : InstallationId}
  {members : OrderedSet FactId} {fact : Fact} {message : MessageContent}

section Frontiers

variable {facts : FactSet} {statuses : OrderedMap FactId DecisionStatus}

/-- Usable reachability orders the identities strictly. -/
theorem UsablyClosed.strictOrder (h : UsablyClosed facts statuses) :
    IsStrictOrder FactId (StrictlyReaches (snapshot facts statuses)) where
  irrefl id hid := hid.1 rfl
  trans left middle right hleft hright := by
    obtain ⟨hl, hm, -⟩ := ReductionContext.usablyReaches_iff.1 hleft.2
    obtain ⟨-, hr, -⟩ := ReductionContext.usablyReaches_iff.1 hright.2
    rw [h.strictlyReaches_iff hl hm] at hleft
    rw [h.strictlyReaches_iff hm hr] at hright
    exact (h.strictlyReaches_iff hl hr).2 (hleft.trans hright)

/-- The maximal members of a set are its last writes. -/
theorem mem_maximalMembers_iff {id : FactId} :
    id ∈ maximalMembers context members ↔
      IsLast (StrictlyReaches context) {x | x ∈ members} id := by
  rw [maximalMembers, OrderedSet.mem_filter, Bool.not_eq_true',
    List.any_eq_false, IsLast]
  refine and_congr_right fun _ => forall_congr' fun other => ?_
  rw [OrderedSet.mem_toList]
  refine forall_congr' fun _ => not_congr ?_
  rw [Bool.and_eq_true, decide_eq_true_eq, StrictlyReaches]
  exact and_congr_left fun _ => ne_comm

theorem OrderedSet.finite_members {α : Type} [LinearOrder α]
    (members : OrderedSet α) :
    {x | x ∈ members}.Finite :=
  (List.finite_toSet members.toList).subset fun _ hx => hx

theorem OrderedSet.size_pos_iff {α : Type} [LinearOrder α]
    {members : OrderedSet α} :
    0 < members.size ↔ ∃ x, x ∈ members := by
  rw [OrderedSet.size, List.length_pos_iff_exists_mem]
  rfl

theorem OrderedSet.size_eq_one_iff {α : Type} [LinearOrder α]
    {members : OrderedSet α} :
    members.size = 1 ↔ ∃ x, x ∈ members ∧ ∀ y, y ∈ members → y = x := by
  constructor
  · intro hone
    obtain ⟨x, hx⟩ := OrderedSet.size_pos_iff.1 (by omega : 0 < members.size)
    exact ⟨x, hx, fun y hy => OrderedSet.eq_of_size_le_one (by omega) hy hx⟩
  · rintro ⟨x, hx, honly⟩
    have hpos := OrderedSet.size_pos_iff.2 ⟨x, hx⟩
    have hle := OrderedSet.size_le_one_of_eq fun y hy z hz =>
      (honly y hy).trans (honly z hz).symm
    omega

theorem payloadOf_projected
    (hfact : fact ∈ (snapshot facts statuses).projectedFacts) :
    payloadOf (snapshot facts statuses) fact.id = some fact.payload := by
  rw [payloadOf, FactSet.mem_facts.1 (mem_projectedFacts.1 hfact).1]
  rfl

end Frontiers

/-! Messages. -/

/-- The fact rejects the message. -/
def Rejects (id : MessageId) (fact : Fact) : Prop :=
  ∃ reason, fact.payload = .messageRejected id reason

def Archives (id : MessageId) (fact : Fact) : Prop :=
  fact.payload = .messageArchived id

def Restores (id : MessageId) (fact : Fact) : Prop :=
  fact.payload = .messageRestored id

theorem stateTarget_iff {id : MessageId} :
    stateTarget fact = some id ↔
      Archives id fact ∨ Restores id fact ∨ Rejects id fact := by
  unfold stateTarget Archives Restores Rejects
  cases fact.payload <;> simp

/-- No projected fact rejects the message and every projected archive of it
is below a projected restore. -/
def StaysOpen (context : ReductionContext) (id : MessageId) : Prop :=
  (∀ fact ∈ context.projectedFacts, ¬ Rejects id fact) ∧
    ∀ archive ∈ context.projectedFacts, Archives id archive →
      ∃ restore ∈ context.projectedFacts, Restores id restore ∧
        StrictlyReaches context archive.id restore.id

section Messages

variable {facts : FactSet} {statuses : OrderedMap FactId DecisionStatus}
  {id : MessageId}

/-- The identities of the projected states of a message. -/
def messageStates (context : ReductionContext) (id : MessageId) :
    OrderedSet FactId :=
  projectedIds context fun state => stateTarget state = some id

theorem mem_messageStates {state : FactId} :
    state ∈ messageStates context id ↔ ∃ fact ∈ context.projectedFacts,
      (Archives id fact ∨ Restores id fact ∨ Rejects id fact) ∧
        fact.id = state := by
  simp only [messageStates, mem_projectedIds, decide_eq_true_eq,
    stateTarget_iff]

theorem messageRejected_iff :
    ((messageStates (snapshot facts statuses) id).toList.any fun state =>
      (payloadOf (snapshot facts statuses) state).any isMessageRejection) =
        true ↔
      ∃ fact ∈ (snapshot facts statuses).projectedFacts, Rejects id fact := by
  rw [List.any_eq_true]
  constructor
  · rintro ⟨state, hstate, hread⟩
    obtain ⟨fact, hfact, hshape, rfl⟩ :=
      mem_messageStates.1 (OrderedSet.mem_toList.1 hstate)
    rw [payloadOf_projected hfact, Option.any_some] at hread
    refine ⟨fact, hfact, ?_⟩
    rcases hshape with harchive | hrestore | hreject
    · rw [harchive] at hread
      cases hread
    · rw [hrestore] at hread
      cases hread
    · exact hreject
  · rintro ⟨fact, hfact, hreject⟩
    refine ⟨fact.id, OrderedSet.mem_toList.2 (mem_messageStates.2
      ⟨fact, hfact, Or.inr (Or.inr hreject), rfl⟩), ?_⟩
    obtain ⟨reason, hpayload⟩ := hreject
    rw [payloadOf_projected hfact, hpayload]
    rfl

theorem messageArchived_iff (h : UsablyClosed facts statuses) :
    ((maximalMembers (snapshot facts statuses)
      (messageStates (snapshot facts statuses) id)).toList.any fun state =>
        (payloadOf (snapshot facts statuses) state).any isMessageArchive) =
          true ↔
      ∃ archive ∈ (snapshot facts statuses).projectedFacts,
        Archives id archive ∧
        ∀ state ∈ (snapshot facts statuses).projectedFacts,
          Restores id state ∨ Rejects id state →
          ¬ StrictlyReaches (snapshot facts statuses) archive.id state.id := by
  have := h.strictOrder
  have hremoved := removed_last_iff (StrictlyReaches (snapshot facts statuses))
    {state | ∃ fact ∈ (snapshot facts statuses).projectedFacts,
      Archives id fact ∧ fact.id = state}
    (OrderedSet.finite_members (messageStates (snapshot facts statuses) id))
  rw [List.any_eq_true]
  constructor
  · rintro ⟨state, hstate, hread⟩
    have hlast := mem_maximalMembers_iff.1 (OrderedSet.mem_toList.1 hstate)
    obtain ⟨fact, hfact, hshape, rfl⟩ := mem_messageStates.1 hlast.1
    rw [payloadOf_projected hfact, Option.any_some] at hread
    have harchive : Archives id fact := by
      rcases hshape with harchive | hrestore | ⟨reason, hreject⟩
      · exact harchive
      · rw [hrestore] at hread
        cases hread
      · rw [hreject] at hread
        cases hread
    refine ⟨fact, hfact, harchive, fun other hother hkeeps => ?_⟩
    exact hlast.2 other.id (mem_messageStates.2
      ⟨other, hother, Or.inr hkeeps, rfl⟩)
  · rintro ⟨archive, harchive, hpayload, hkept⟩
    obtain ⟨state, ⟨fact, hfact, hfactPayload, rfl⟩, hlast⟩ := hremoved.2
      ⟨archive.id, mem_messageStates.2 ⟨archive, harchive, Or.inl hpayload, rfl⟩,
        ⟨archive, harchive, hpayload, rfl⟩, fun other hother hkeeps => by
          obtain ⟨fact, hfact, hshape, rfl⟩ := mem_messageStates.1 hother
          refine hkept fact hfact (hshape.resolve_left fun hfactArchives => ?_)
          exact hkeeps ⟨fact, hfact, hfactArchives, rfl⟩⟩
    refine ⟨fact.id, OrderedSet.mem_toList.2 (mem_maximalMembers_iff.2 hlast), ?_⟩
    rw [payloadOf_projected hfact, hfactPayload]
    rfl

/-- A message view is open exactly when the message stays open. -/
theorem messageProjection_opened (h : UsablyClosed facts statuses)
    {view : MessageView}
    (hview : (messageProjection (snapshot facts statuses) fact message).value =
      .message view) :
    view.opened = true ↔
      StaysOpen (snapshot facts statuses) message.messageId := by
  have hopened : view.opened =
      (!((messageStates (snapshot facts statuses)
          message.messageId).toList.any fun state =>
        (payloadOf (snapshot facts statuses) state).any isMessageRejection) &&
      !((maximalMembers (snapshot facts statuses)
        (messageStates (snapshot facts statuses)
          message.messageId)).toList.any fun state =>
        (payloadOf (snapshot facts statuses) state).any isMessageArchive)) := by
    cases hview
    rfl
  rw [hopened, Bool.and_eq_true, Bool.not_eq_true', Bool.not_eq_true',
    ← Bool.not_eq_true, ← Bool.not_eq_true, messageRejected_iff,
    messageArchived_iff h, StaysOpen, not_exists]
  constructor
  · rintro ⟨hrejects, harchives⟩
    refine ⟨fun fact hfact hreject => hrejects fact ⟨hfact, hreject⟩, ?_⟩
    intro archive harchive hpayload
    by_contra hnone
    refine harchives ⟨archive, harchive, hpayload, fun state hstate hkeeps => ?_⟩
    rcases hkeeps with hrestore | hreject
    · exact fun hreach => hnone ⟨state, hstate, hrestore, hreach⟩
    · exact absurd ⟨hstate, hreject⟩ (hrejects state)
  · rintro ⟨hrejects, hrestored⟩
    refine ⟨fun fact hfact => hrejects fact hfact.1 hfact.2, ?_⟩
    rintro ⟨archive, harchive, hpayload, hkept⟩
    obtain ⟨restore, hrestore, hrestores, hreach⟩ :=
      hrestored archive harchive hpayload
    exact hkept restore hrestore (Or.inl hrestores) hreach

end Messages

/-! Peer routes. -/

/-- The fact sets the route from an owner to a peer. -/
def SetsRoute (owner peer : InstallationId) (fact : Fact) : Prop :=
  fact.authorId = owner ∧ ∃ address encryptionKey label relayHints,
    fact.payload = .peerRouteSet address encryptionKey label relayHints ∧
      address.installationId = peer

def BlocksRoute (owner peer : InstallationId) (fact : Fact) : Prop :=
  fact.authorId = owner ∧ ∃ reason, fact.payload = .peerRouteBlocked peer reason

theorem aggregateKey_peerRoute :
    aggregateKey fact = some (.peerRoute owner peer) ↔
      SetsRoute owner peer fact ∨ BlocksRoute owner peer fact := by
  unfold aggregateKey SetsRoute BlocksRoute
  cases fact.payload <;> simp

section Routes

variable {facts : FactSet} {statuses : OrderedMap FactId DecisionStatus}
  {owner peer : InstallationId} {members : OrderedSet FactId}

/-- The identities of the facts of a register that pass a test. -/
def projectedWith (context : ReductionContext) (test : Fact → Prop) :
    Set FactId :=
  {id | ∃ fact ∈ context.projectedFacts, test fact ∧ fact.id = id}

theorem mem_projectedWith_id {test : Fact → Prop}
    (hfact : fact ∈ (snapshot facts statuses).projectedFacts) :
    fact.id ∈ projectedWith (snapshot facts statuses) test ↔ test fact := by
  constructor
  · rintro ⟨other, hother, htest, hid⟩
    obtain rfl := FactSet.eq_of_mem_facts_of_id_eq
      (mem_projectedFacts.1 hother).1 (mem_projectedFacts.1 hfact).1 hid
    exact htest
  · exact fun htest => ⟨fact, hfact, htest, rfl⟩

theorem not_blocks_of_sets (h : SetsRoute owner peer fact) :
    ¬ BlocksRoute owner peer fact := by
  rintro ⟨-, reason, hblocks⟩
  obtain ⟨-, _, _, _, _, hsets, -⟩ := h
  rw [hsets] at hblocks
  cases hblocks

/-- The members of a route register without its blocks are its sets. -/
theorem routeMembers_diff
    (hmembers : {id | id ∈ members} = projectedWith (snapshot facts statuses)
      fun fact => SetsRoute owner peer fact ∨ BlocksRoute owner peer fact) :
    {id | id ∈ members} \ projectedWith (snapshot facts statuses)
        (BlocksRoute owner peer) =
      projectedWith (snapshot facts statuses) (SetsRoute owner peer) := by
  ext id
  rw [hmembers, Set.mem_sdiff]
  constructor
  · rintro ⟨⟨fact, hfact, hshape, rfl⟩, hkeeps⟩
    rw [mem_projectedWith_id hfact] at hkeeps ⊢
    exact hshape.resolve_right hkeeps
  · rintro ⟨fact, hfact, hsets, rfl⟩
    rw [mem_projectedWith_id hfact, mem_projectedWith_id hfact]
    exact ⟨Or.inl hsets, not_blocks_of_sets hsets⟩

/-- The blocked maxima of a route register are its last writes that block. -/
theorem mem_blockedMaxima
    (hmembers : {id | id ∈ members} = projectedWith (snapshot facts statuses)
      fun fact => SetsRoute owner peer fact ∨ BlocksRoute owner peer fact)
    {id : FactId} :
    id ∈ (maximalMembers (snapshot facts statuses) members).filter (fun id =>
        (payloadOf (snapshot facts statuses) id).any isRouteBlock) ↔
      id ∈ projectedWith (snapshot facts statuses) (BlocksRoute owner peer) ∧
        IsLast (StrictlyReaches (snapshot facts statuses)) {id | id ∈ members}
          id := by
  rw [OrderedSet.mem_filter, mem_maximalMembers_iff, and_comm]
  refine and_congr_left fun hlast => ?_
  have hid := hlast.1
  rw [hmembers] at hid
  obtain ⟨fact, hfact, hshape, rfl⟩ := hid
  rw [payloadOf_projected hfact, Option.any_some, mem_projectedWith_id hfact]
  constructor
  · intro hread
    refine hshape.resolve_left ?_
    rintro ⟨-, _, _, _, _, hsets, -⟩
    rw [hsets] at hread
    cases hread
  · rintro ⟨-, reason, hblocks⟩
    rw [hblocks]
    rfl

/-- Some block of the pair is below no set of the pair. -/
def RouteBlocked (context : ReductionContext) (owner peer : InstallationId) :
    Prop :=
  ∃ block ∈ context.projectedFacts, BlocksRoute owner peer block ∧
    ∀ set ∈ context.projectedFacts, SetsRoute owner peer set →
      ¬ context.usablyReaches block.id set.id = true

theorem routeBlocked_iff (h : UsablyClosed facts statuses)
    (hmembers : {id | id ∈ members} = projectedWith (snapshot facts statuses)
      fun fact => SetsRoute owner peer fact ∨ BlocksRoute owner peer fact) :
    (∃ id ∈ projectedWith (snapshot facts statuses) (BlocksRoute owner peer),
      IsLast (StrictlyReaches (snapshot facts statuses)) {id | id ∈ members}
        id) ↔ RouteBlocked (snapshot facts statuses) owner peer := by
  have := h.strictOrder
  rw [removed_last_iff (StrictlyReaches (snapshot facts statuses)) _
    (OrderedSet.finite_members members)]
  constructor
  · rintro ⟨_, -, ⟨block, hblock, hblocks, rfl⟩, hkept⟩
    refine ⟨block, hblock, hblocks, fun set hset hsets hreach => ?_⟩
    have hkeeps : set.id ∉ projectedWith (snapshot facts statuses)
        (BlocksRoute owner peer) := by
      rw [mem_projectedWith_id hset]
      exact not_blocks_of_sets hsets
    have hmember : set.id ∈ {id | id ∈ members} := by
      rw [hmembers]
      exact ⟨set, hset, Or.inl hsets, rfl⟩
    refine hkept set.id hmember hkeeps ⟨?_, hreach⟩
    intro hsame
    refine hkeeps ⟨block, hblock, hblocks, hsame⟩
  · rintro ⟨block, hblock, hblocks, hkept⟩
    refine ⟨block.id, ?_, ⟨block, hblock, hblocks, rfl⟩, ?_⟩
    · rw [hmembers]
      exact ⟨block, hblock, Or.inr hblocks, rfl⟩
    · intro id hid hkeeps hreach
      rw [hmembers] at hid
      obtain ⟨set, hset, hshape, rfl⟩ := hid
      rw [mem_projectedWith_id hset] at hkeeps
      exact hkept set hset (hshape.resolve_right hkeeps) hreach.2

/-- The last sets of a pair. -/
def LastRouteSet (context : ReductionContext) (owner peer : InstallationId)
    (id : FactId) : Prop :=
  IsLast (StrictlyReaches context) (projectedWith context (SetsRoute owner peer))
    id

/-- What the state of a route view says about the sets and blocks. -/
structure ShowsRoute (context : ReductionContext)
    (owner peer : InstallationId) (state : PeerRouteState) : Prop where
  blocked : state = .blocked ↔ RouteBlocked context owner peer
  routable : state = .routable ↔ ¬ RouteBlocked context owner peer ∧
    ∃ id, LastRouteSet context owner peer id ∧
      ∀ other, LastRouteSet context owner peer other → other = id
  conflicted : state = .conflicted ↔ ¬ RouteBlocked context owner peer ∧
    ∃ left right, LastRouteSet context owner peer left ∧
      LastRouteSet context owner peer right ∧ left ≠ right

theorem peerRouteView_shows (h : UsablyClosed facts statuses)
    (hne : members ≠ ∅)
    (hmembers : {id | id ∈ members} = projectedWith (snapshot facts statuses)
      fun fact => SetsRoute owner peer fact ∨ BlocksRoute owner peer fact) :
    ShowsRoute (snapshot facts statuses) owner peer
      (peerRouteView (snapshot facts statuses) members).state := by
  have := h.strictOrder
  have hprojected : ∀ id ∈ members,
      (snapshot facts statuses).isProjected id = true := by
    intro id hid
    have hmem : id ∈ {id | id ∈ members} := hid
    rw [hmembers] at hmem
    obtain ⟨fact, hfact, -, rfl⟩ := hmem
    exact (mem_projectedFacts.1 hfact).2
  have hblocked : 0 < ((maximalMembers (snapshot facts statuses)
      members).filter fun id =>
        (payloadOf (snapshot facts statuses) id).any isRouteBlock).size ↔
      RouteBlocked (snapshot facts statuses) owner peer := by
    rw [← routeBlocked_iff h hmembers, OrderedSet.size_pos_iff]
    exact exists_congr fun id => mem_blockedMaxima hmembers
  have hstate : (peerRouteView (snapshot facts statuses) members).state =
      if 0 < ((maximalMembers (snapshot facts statuses) members).filter fun id =>
        (payloadOf (snapshot facts statuses) id).any isRouteBlock).size then
        .blocked
      else if (maximalMembers (snapshot facts statuses) members).size -
        ((maximalMembers (snapshot facts statuses) members).filter fun id =>
          (payloadOf (snapshot facts statuses) id).any isRouteBlock).size = 1
        then .routable
      else .conflicted := rfl
  rw [hstate]
  by_cases hblock : RouteBlocked (snapshot facts statuses) owner peer
  · rw [if_pos (hblocked.2 hblock)]
    exact ⟨by simp [hblock], by simp [hblock], by simp [hblock]⟩
  · -- Without a last block every maximal member is a last set.
    rw [if_neg (hblocked.not.2 hblock)]
    have hzero : ((maximalMembers (snapshot facts statuses) members).filter
        fun id => (payloadOf (snapshot facts statuses) id).any
          isRouteBlock).size = 0 :=
      Nat.eq_zero_of_not_pos (hblocked.not.2 hblock)
    have hmaximal : ∀ id,
        id ∈ maximalMembers (snapshot facts statuses) members ↔
          LastRouteSet (snapshot facts statuses) owner peer id := by
      intro id
      rw [mem_maximalMembers_iff, LastRouteSet, ← routeMembers_diff hmembers]
      refine isLast_iff_of_kept (OrderedSet.finite_members members) ?_
      exact (routeBlocked_iff h hmembers).not.2 hblock
    have hnonempty := h.maximalMembers_ne_empty hne hprojected
    obtain ⟨first, hfirst⟩ := OrderedSet.exists_mem_of_ne_empty hnonempty
    rw [hzero, Nat.sub_zero]
    have hone : (maximalMembers (snapshot facts statuses) members).size = 1 ↔
        ∃ id, LastRouteSet (snapshot facts statuses) owner peer id ∧
          ∀ other, LastRouteSet (snapshot facts statuses) owner peer other →
            other = id := by
      rw [OrderedSet.size_eq_one_iff]
      simp only [hmaximal]
    by_cases hsingle : (maximalMembers (snapshot facts statuses)
        members).size = 1
    · rw [if_pos hsingle]
      obtain ⟨id, hid, honly⟩ := hone.1 hsingle
      refine ⟨by simp [hblock], by simp [hblock, hone.1 hsingle], ?_⟩
      simp only [reduceCtorEq, false_iff, not_and, not_exists]
      rintro - left right hleft hright
      exact fun hdiffer => hdiffer ((honly left hleft).trans
        (honly right hright).symm)
    · rw [if_neg hsingle]
      refine ⟨by simp [hblock], by simp [hblock, hone.not.1 hsingle], ?_⟩
      simp only [true_iff]
      refine ⟨hblock, ?_⟩
      by_contra hnone
      refine hsingle (hone.2 ⟨first, (hmaximal first).1 hfirst, ?_⟩)
      intro other hother
      by_contra hdiffer
      exact hnone ⟨other, first, hother, (hmaximal first).1 hfirst, hdiffer⟩

end Routes

/-! Reports. -/

section Reports

variable {facts : FactSet} {statuses : OrderedMap FactId DecisionStatus}

/-- The message views of a report come from message facts. -/
theorem message_contribution {id : MessageId}
    {contribution : ProjectionContribution ConversationProjectionKey
      ConversationProjection}
    (hmem : contribution ∈ deriveConversationProjections context)
    (hkey : contribution.key = .message id) :
    ∃ fact message, contribution = messageProjection context fact message ∧
      message.messageId = id ∧ fact ∈ context.projectedFacts ∧
      messageContent fact = some message := by
  simp only [deriveConversationProjections, List.mem_append] at hmem
  rcases hmem with (((hthread | hmessage) | harchive) | hgroup) | hactivity
  · obtain ⟨root, -, hread⟩ := List.mem_filterMap.1 hthread
    obtain ⟨message, -, rfl⟩ := Option.map_eq_some_iff.1 hread
    cases hkey
  · obtain ⟨fact, hfact, hread⟩ := List.mem_filterMap.1 hmessage
    split at hread
    next message hcontent =>
      split at hread
      · cases hread
        exact ⟨fact, message, rfl, ConversationProjectionKey.message.inj hkey,
          hfact, hcontent⟩
      · cases hread
    next => cases hread
  · obtain ⟨entry, -, rfl⟩ := List.mem_map.1 harchive
    cases hkey
  · obtain ⟨entry, -, rfl⟩ := List.mem_map.1 hgroup
    cases hkey
  · rcases List.mem_append.1 hactivity with hactivity | hretention
    · obtain ⟨winner, -, hread⟩ := List.mem_filterMap.1 hactivity
      obtain ⟨fact, -, hread⟩ := Option.bind_eq_some_iff.1 hread
      unfold activityProjection at hread
      split at hread
      · simp only at hread
        split at hread <;> cases hread <;> cases hkey
      · cases hread
    · obtain ⟨session, -, rfl⟩ := List.mem_map.1 hretention
      cases hkey

theorem route_contribution {policy : AuthorityPolicy}
    {contribution :
      ProjectionContribution AuthorityProjectionKey AuthorityProjection}
    (hmem : contribution ∈ deriveAuthorityProjections policy context)
    (hkey : contribution.key = .peerRoute owner peer) :
    ∃ members, (authorityGroups context).get? (.peerRoute owner peer) =
        some members ∧
      contribution.value = .peerRoute (peerRouteView context members) := by
  simp only [deriveAuthorityProjections, List.mem_append] at hmem
  rcases hmem with ((((hroot | hroute) | hcapability) | haccount) |
    hmembership) | hselection
  · obtain ⟨fact, -, hread⟩ := List.mem_filterMap.1 hroot
    split at hread <;> cases hread <;> cases hkey
  · obtain ⟨entry, hentry, hread⟩ := List.mem_filterMap.1 hroute
    split at hread
    next owner peer hpair =>
      cases hread
      cases hkey
      refine ⟨entry.2, ?_, rfl⟩
      rw [← hpair]
      exact OrderedMap.get?_eq_some_iff.2 hentry
    next => cases hread
  · obtain ⟨fact, -, hread⟩ := List.mem_filterMap.1 hcapability
    split at hread <;> cases hread
    cases hkey
  · obtain ⟨fact, -, hread⟩ := List.mem_filterMap.1 haccount
    split at hread <;> cases hread
    cases hkey
  · obtain ⟨entry, -, hread⟩ := List.mem_filterMap.1 hmembership
    split at hread <;> cases hread
    cases hkey
  · unfold selectionProjections at hselection
    simp only at hselection
    split at hselection
    · cases hselection
    · rw [List.mem_singleton] at hselection
      subst hselection
      cases hkey

theorem contribution_of_route (policy : AuthorityPolicy)
    (hget : (authorityGroups context).get? (.peerRoute owner peer) =
      some members) :
    ∃ contribution ∈ deriveAuthorityProjections policy context,
      contribution.key = .peerRoute owner peer ∧
        contribution.value = .peerRoute (peerRouteView context members) := by
  refine ⟨⟨.peerRoute owner peer, .peerRoute (peerRouteView context members),
    maximalMembers context members⟩, ?_, rfl, rfl⟩
  simp only [deriveAuthorityProjections, List.mem_append]
  refine Or.inl (Or.inl (Or.inl (Or.inl (Or.inr ?_))))
  exact List.mem_filterMap.2 ⟨_, OrderedMap.get?_eq_some_iff.1 hget, rfl⟩

theorem routeGroup_members
    (hget : (authorityGroups context).get? (.peerRoute owner peer) =
      some members) :
    members ≠ ∅ ∧ {id | id ∈ members} = projectedWith context fun fact =>
      SetsRoute owner peer fact ∨ BlocksRoute owner peer fact := by
  obtain ⟨hne, hmem⟩ := groupFacts_get? hget
  refine ⟨hne, Set.ext fun id => ?_⟩
  rw [Set.mem_ofPred_eq, hmem]
  simp only [aggregateKey_peerRoute]
  rfl

end Reports

/-- A message that is projected is the only one of its identity. -/
theorem unique_of_projected {policy : AuthorityPolicy} {facts : FactSet}
    {decisions : Decisions ConversationReason}
    (hfix : nextDecisions (conversationReducer policy) facts facts.graph
      decisions = decisions)
    (hfact : fact ∈ (snapshot facts (statusesIn decisions)).projectedFacts)
    (hmessage : messageContent fact = some message) :
    (messageIdentityParticipants message.messageId
      (snapshot facts (statusesIn decisions))).size = 1 := by
  obtain ⟨hretained, hprojected⟩ := List.mem_filter.1 hfact
  obtain ⟨found, hready, hid, -, hclassify⟩ :=
    (stable_projected hfix).1 hprojected
  obtain rfl := FactSet.eq_of_mem_facts_of_id_eq
    (FactSet.mem_facts_of_get? hready.retained) hretained hid
  have hlayer : layeredDecision .authority policy (classifyConversation policy)
      found (snapshot facts (statusesIn decisions)) = .projected := by
    rw [← classifyConversationFact_eq]
    exact hclassify
  have hvalid : validateConversation policy found
      (snapshot facts (statusesIn decisions)) = .ok () := by
    have hprojects := (layeredDecision_projected.1 hlayer).2
    unfold classifyConversation at hprojects
    split at hprojects
    · assumption
    all_goals cases hprojects
  -- The identity rule is the last one of every message payload.
  have hidentity : validateMessageIdentity message.messageId
      (snapshot facts (statusesIn decisions)) = .ok () := by
    unfold messageContent at hmessage
    unfold validateConversation at hvalid
    cases hpayload : found.payload <;>
      simp_all only [unit_bind_eq_ok, Option.some.injEq, reduceCtorEq]
  exact of_decide_eq_true (require_eq_ok.1 hidentity)

/-- A message has a view as soon as it is projected. -/
theorem contribution_of_message (hfact : fact ∈ context.projectedFacts)
    (hmessage : messageContent fact = some message)
    (hunique : (messageIdentityParticipants message.messageId context).size =
      1) :
    messageProjection context fact message ∈
      deriveConversationProjections context := by
  simp only [deriveConversationProjections, List.mem_append]
  refine Or.inl (Or.inl (Or.inl (Or.inr ?_)))
  refine List.mem_filterMap.2 ⟨fact, hfact, ?_⟩
  rw [hmessage]
  exact if_pos hunique

/-- A message has a view exactly when a projected fact carries it; the view is
open exactly when no projected fact rejects the message and every projected
archive of it is below a projected restore.  A pair has a route view as soon as
it has a projected set or block; the view is blocked exactly when some block is
below no set, and otherwise routable or conflicted as one or more sets are
below no other set. -/
theorem registers_remove_wins (policy : AuthorityPolicy) (facts : FactSet) :
    (∀ report, reduceSet (conversationReducer policy) facts = .ok report →
      ∀ id,
        ((∃ view, report.projections.get? (.message id) =
            some (.message view)) ↔
          ∃ fact ∈ (contextOf facts facts.graph
            report.decisions).projectedFacts,
            (messageContent fact).map MessageContent.messageId = some id) ∧
        ∀ view, report.projections.get? (.message id) =
            some (.message view) →
          (view.opened = true ↔
            StaysOpen (contextOf facts facts.graph report.decisions) id)) ∧
    ∃ report, reduceSet (authorityReducer policy) facts = .ok report ∧
      ∀ owner peer,
        ((∃ view, report.projections.get? (.peerRoute owner peer) =
            some (.peerRoute view)) ↔
          ∃ fact ∈ (contextOf facts facts.graph
            report.decisions).projectedFacts,
            SetsRoute owner peer fact ∨ BlocksRoute owner peer fact) ∧
        ∀ view, report.projections.get? (.peerRoute owner peer) =
            some (.peerRoute view) →
          ShowsRoute (contextOf facts facts.graph report.decisions) owner peer
            view.state := by
  constructor
  · intro report hreport id
    have hreduced := reduced_of_reduceSet hreport
    have hclosed := usablyClosed_of_fixed hreduced.fixed
    rw [contextOf_eq]
    refine ⟨⟨?_, ?_⟩, ?_⟩
    · rintro ⟨view, hview⟩
      obtain ⟨contribution, hmem, hkey, -⟩ := (hreduced.value _ _).1 hview
      obtain ⟨fact, message, -, hid, hfact, hmessage⟩ :=
        message_contribution hmem hkey
      exact ⟨fact, hfact, by rw [hmessage, Option.map_some, hid]⟩
    · rintro ⟨fact, hfact, hid⟩
      obtain ⟨message, hmessage, rfl⟩ := Option.map_eq_some_iff.1 hid
      exact ⟨_, (hreduced.value _ _).2 ⟨_, contribution_of_message hfact
        hmessage (unique_of_projected hreduced.fixed hfact hmessage), rfl, rfl⟩⟩
    · intro view hview
      obtain ⟨contribution, hmem, hkey, hvalue⟩ := (hreduced.value _ _).1 hview
      obtain ⟨fact, message, rfl, rfl, -⟩ := message_contribution hmem hkey
      exact messageProjection_opened hclosed hvalue
  · obtain ⟨decisions, report, hreport, -⟩ := authority_reduceSet policy facts
    have hreduced := reduced_of_reduceSet hreport
    have hclosed := usablyClosed_of_fixed hreduced.fixed
    refine ⟨report, hreport, fun owner peer => ⟨⟨?_, ?_⟩, ?_⟩⟩
    · rintro ⟨view, hview⟩
      obtain ⟨contribution, hmem, hkey, -⟩ := (hreduced.value _ _).1 hview
      obtain ⟨members, hget, -⟩ := route_contribution hmem hkey
      obtain ⟨fact, hfact, hfiled⟩ := groupFacts_isSome.1
        (Option.isSome_iff_exists.2 ⟨members, hget⟩)
      rw [contextOf_eq]
      exact ⟨fact, hfact, aggregateKey_peerRoute.1 hfiled⟩
    · rintro ⟨fact, hfact, hshape⟩
      rw [contextOf_eq] at hfact
      obtain ⟨members, hget⟩ := Option.isSome_iff_exists.1
        (groupFacts_isSome.2 ⟨fact, hfact, aggregateKey_peerRoute.2 hshape⟩)
      obtain ⟨contribution, hmem, hkey, hvalue⟩ :=
        contribution_of_route policy hget
      exact ⟨_, (hreduced.value _ _).2 ⟨contribution, hmem, hkey, hvalue⟩⟩
    · intro view hview
      obtain ⟨contribution, hmem, hkey, hvalue⟩ := (hreduced.value _ _).1 hview
      obtain ⟨members, hget, hmembersView⟩ := route_contribution hmem hkey
      obtain ⟨hne, hmembers⟩ := routeGroup_members hget
      rw [hvalue] at hmembersView
      cases hmembersView
      rw [contextOf_eq]
      exact peerRouteView_shows hclosed hne hmembers

/-- A route of the first installation to the second. -/
def routeSet (id : Nat) : Fact where
  id := .ofNat id
  author := signer 1
  authoredAt := ⟨0⟩
  scope := .installationPrivate (.ofNat 1)
  causal := citing [(.localInstallation, 1)] []
  payload := .peerRouteSet (signer 2) (.ofNat 5) none .empty
  protocol_scope := .refl false
  admissible := rfl

/-- Two concurrent routes. -/
def concurrentRoutes : List Fact :=
  [declaration 1 1, routeSet 2, routeSet 3]

/-- The state, the maximal facts and the blocks of a route view. -/
def routeReading :
    AuthorityProjection → Option (PeerRouteState × List FactId × Nat)
  | .peerRoute view => some (view.state, view.frontier.toList, view.blocks.size)
  | _ => none

/-- Without any block, two maximal route sets leave the pair unroutable. -/
theorem concurrent_routes_unroutable :
    (reduceComplete (authorityReducer samplePolicy)
      concurrentRoutes).toOption.bind (fun report =>
        (report.projections.get? (.peerRoute (.ofNat 1) (.ofNat 2))).bind
          routeReading) =
      some (.conflicted, [.ofNat 2, .ofNat 3], 0) := by
  decide +kernel

/-- The two routes are last sets of their pair. -/
theorem registers_remove_wins_concurrentRoutes :
    ∃ report, reduceComplete (authorityReducer samplePolicy)
        concurrentRoutes = .ok report ∧
      ∃ left right, left ≠ right ∧
        LastRouteSet (contextOf (FactSet.fromFacts concurrentRoutes)
          (FactSet.fromFacts concurrentRoutes).graph report.decisions)
          (.ofNat 1) (.ofNat 2) left ∧
        LastRouteSet (contextOf (FactSet.fromFacts concurrentRoutes)
          (FactSet.fromFacts concurrentRoutes).graph report.decisions)
          (.ofNat 1) (.ofNat 2) right := by
  obtain ⟨-, report, hreport, hroutes⟩ := registers_remove_wins samplePolicy
    (FactSet.fromFacts concurrentRoutes)
  have hread : (reduceSet (authorityReducer samplePolicy)
      (FactSet.fromFacts concurrentRoutes)).toOption.bind (fun report =>
        (report.projections.get? (.peerRoute (.ofNat 1) (.ofNat 2))).bind
          routeReading) =
      some (.conflicted, [.ofNat 2, .ofNat 3], 0) := by
    decide +kernel
  rw [hreport, Except.toOption, Option.bind_some] at hread
  obtain ⟨projection, hget, hprojection⟩ := Option.bind_eq_some_iff.1 hread
  cases projection with
  | peerRoute view =>
      have hstate : view.state = .conflicted := by
        simp only [routeReading, Option.some.injEq, Prod.mk.injEq] at hprojection
        exact hprojection.1
      obtain ⟨-, left, right, hleft, hright, hne⟩ :=
        ((hroutes _ _).2 view hget).conflicted.1 hstate
      exact ⟨report, hreport, left, right, hne, hleft, hright⟩
  | _ => cases hprojection

end Hq
