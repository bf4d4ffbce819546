/-
Authority aggregates and projections: installation and mailbox roots, peer
routes, capabilities, accounts, memberships and the selected account, each
with the facts that support it.
-/
import Hq.Authority

namespace Hq

/-- The aggregate an authority fact belongs to. -/
inductive AuthorityAggregateKey where
  | installation (id : InstallationId)
  | mailbox (address : MailboxAddress)
  | peerRoute (owner peer : InstallationId)
  | mailboxCapability (grantId : GrantId)
  | account (id : AccountId)
  | membership (account : AccountId) (device : InstallationId)
  | accountSelection (id : InstallationId)

instance : Coded AuthorityAggregateKey where
  code
    | .installation id => [[0], id.field]
    | .mailbox address =>
        [[1], address.installationId.field, address.mailboxId.field]
    | .peerRoute owner peer => [[2], owner.field, peer.field]
    | .mailboxCapability grantId => [[3], grantId.field]
    | .account id => [[4], id.field]
    | .membership account device => [[5], account.field, device.field]
    | .accountSelection id => [[6], id.field]
  code_injective := by
    intro left right h
    cases left <;> cases right <;>
      simp_all [OpaqueBytes.field_injective.eq_iff, MailboxAddress.ext_iff]

instance : LinearOrder AuthorityAggregateKey := Coded.linearOrder _

/-- Projections are keyed by the same subjects as aggregates. -/
abbrev AuthorityProjectionKey := AuthorityAggregateKey

structure InstallationView where
  rootFact : FactId
  signingKey : SigningPublicKey
  encryptionKey : EncryptionPublicKey
  label : Option ShortText
deriving DecidableEq

structure MailboxView where
  createFact : FactId
  kind : MailboxKind
  label : Option ShortText
deriving DecidableEq

inductive PeerRouteState where
  | routable | blocked | conflicted
deriving DecidableEq

structure PeerRouteCandidate where
  peer : InstallationAddress
  encryptionKey : EncryptionPublicKey
  label : Option ShortText
  relayHints : RelayHints
deriving DecidableEq

structure PeerRouteView where
  state : PeerRouteState
  frontier : OrderedSet FactId
  routes : OrderedMap FactId PeerRouteCandidate
  blocks : OrderedMap FactId ErrorCode
deriving DecidableEq

structure CapabilityView where
  grantFact : FactId
  mailbox : MailboxAddress
  grantee : InstallationAddress
  active : Bool
  revokeFrontier : OrderedSet FactId
  observedActions : OrderedSet FactId
deriving DecidableEq

inductive MembershipState where
  | pending | active | revoked
deriving DecidableEq

structure DeviceGrantView where
  grantFact : FactId
  device : InstallationAddress
  label : Option ShortText
  relayHints : RelayHints
deriving DecidableEq

structure MembershipView where
  state : MembershipState
  frontier : OrderedSet FactId
  grants : OrderedMap GrantId DeviceGrantView
  acceptances : OrderedSet FactId
  revokes : OrderedSet FactId
  activeAcceptances : OrderedSet FactId
  activeGrants : OrderedSet GrantId
deriving DecidableEq

inductive AuthorityProjection where
  | installation (view : InstallationView)
  | mailbox (view : MailboxView)
  | peerRoute (view : PeerRouteView)
  | mailboxCapability (view : CapabilityView)
  | account (rootFact : FactId) (creator : InstallationAddress)
      (label : Option ShortText)
  | membership (view : MembershipView)
  | accountSelection (candidates : OrderedSet AccountId)
      (active : Option AccountId)
deriving DecidableEq

def aggregateKey (fact : Fact) : Option AuthorityAggregateKey :=
  match fact.payload with
  | .installationDeclared installationId _ _ _ =>
      some (.installation installationId)
  | .mailboxCreated mailboxId _ _ =>
      some (.mailbox ⟨fact.authorId, mailboxId⟩)
  | .peerRouteSet peer _ _ _ =>
      some (.peerRoute fact.authorId peer.installationId)
  | .peerRouteBlocked peerId _ => some (.peerRoute fact.authorId peerId)
  | .mailboxAccessGranted grantId _ _ | .mailboxAccessRevoked grantId _ _
  | .mailboxActionObserved grantId _ => some (.mailboxCapability grantId)
  | .humanAccountCreated accountId _ _ => some (.account accountId)
  | .humanDeviceGranted accountId _ device _ _
  | .humanDeviceAccepted accountId _ device =>
      some (.membership accountId device.installationId)
  | .humanDeviceRevoked accountId _ deviceId =>
      some (.membership accountId deviceId)
  | .humanAccountSelected _ => some (.accountSelection fact.authorId)
  | _ => none

/-- Facts filed by a key; facts without a key are left out. -/
def groupFacts {κ : Type} [LinearOrder κ] (keyOf : Fact → Option κ)
    (facts : List Fact) : OrderedMap κ (OrderedSet FactId) :=
  facts.foldl (fun groups fact =>
    match keyOf fact with
    | none => groups
    | some key => groups.insertMember key fact.id) ∅

/-- The projected facts of each aggregate. -/
def authorityGroups (context : ReductionContext) :
    OrderedMap AuthorityAggregateKey (OrderedSet FactId) :=
  groupFacts aggregateKey context.projectedFacts

/-- The identities of projected facts that pass a test. -/
def projectedIds (context : ReductionContext) (test : Fact → Bool) :
    OrderedSet FactId :=
  OrderedSet.ofList ((context.projectedFacts.filter test).map Fact.id)

/-- A retained fact read through a payload view. -/
def payloadOf (context : ReductionContext) (id : FactId) :
    Option SemanticPayload :=
  (context.facts.get? id).map Fact.payload

def rootProjections (context : ReductionContext) :
    List (ProjectionContribution AuthorityProjectionKey AuthorityProjection) :=
  context.projectedFacts.filterMap fun fact =>
    match fact.payload with
    | .installationDeclared installationId signingKey encryptionKey label =>
        some ⟨.installation installationId,
          .installation ⟨fact.id, signingKey, encryptionKey, label⟩,
          OrderedSet.ofList [fact.id]⟩
    | .mailboxCreated mailboxId kind label =>
        some ⟨.mailbox ⟨fact.authorId, mailboxId⟩,
          .mailbox ⟨fact.id, kind, label⟩, OrderedSet.ofList [fact.id]⟩
    | _ => none

def isRouteBlock : SemanticPayload → Bool
  | .peerRouteBlocked .. => true
  | _ => false

def isRouteSet : SemanticPayload → Bool
  | .peerRouteSet .. => true
  | _ => false

def peerRouteView (context : ReductionContext) (members : OrderedSet FactId) :
    PeerRouteView :=
  let frontier := maximalMembers context members
  let blocks := (frontier.filter fun id =>
    (payloadOf context id).any isRouteBlock).size
  let sets := frontier.size - blocks
  { state :=
      if 0 < blocks then .blocked
      else if sets = 1 then .routable
      else .conflicted
    frontier
    routes := OrderedMap.ofList (members.toList.filterMap fun id =>
      match payloadOf context id with
      | some (.peerRouteSet peer encryptionKey label relayHints) =>
          some (id, ⟨peer, encryptionKey, label, relayHints⟩)
      | _ => none)
    blocks := OrderedMap.ofList (members.toList.filterMap fun id =>
      match payloadOf context id with
      | some (.peerRouteBlocked _ reason) => some (id, reason)
      | _ => none) }

def peerRouteProjections (context : ReductionContext) :
    List (ProjectionContribution AuthorityProjectionKey AuthorityProjection) :=
  (authorityGroups context).entries.filterMap fun entry =>
    match entry.1 with
    | .peerRoute owner peer =>
        some ⟨.peerRoute owner peer, .peerRoute (peerRouteView context entry.2),
          maximalMembers context entry.2⟩
    | _ => none

def capabilityProjections (context : ReductionContext) :
    List (ProjectionContribution AuthorityProjectionKey AuthorityProjection) :=
  context.projectedFacts.filterMap fun grant =>
    match grant.payload with
    | .mailboxAccessGranted grantId mailbox grantee =>
        let revokes := OrderedSet.ofList
          (((mailboxRevokes context grantId).filter fun fact =>
            context.isProjected fact.id).map Fact.id)
        let observations := context.projectedFacts.filterMap fun fact =>
          match fact.payload with
          | .mailboxActionObserved observedGrant actionId =>
              if observedGrant = grantId then some (fact.id, actionId) else none
          | _ => none
        some ⟨.mailboxCapability grantId,
          .mailboxCapability
            { grantFact := grant.id
              mailbox, grantee
              active := revokes.isEmpty
              revokeFrontier := maximalMembers context revokes
              observedActions := OrderedSet.ofList (observations.map Prod.snd) },
          OrderedSet.ofList
            (grant.id :: (revokes.toList ++ observations.map Prod.fst))⟩
    | _ => none

def accountProjections (context : ReductionContext) :
    List (ProjectionContribution AuthorityProjectionKey AuthorityProjection) :=
  context.projectedFacts.filterMap fun fact =>
    match fact.payload with
    | .humanAccountCreated accountId creator label =>
        some ⟨.account accountId, .account fact.id creator label,
          OrderedSet.ofList [fact.id]⟩
    | _ => none

def isDeviceAcceptance : SemanticPayload → Bool
  | .humanDeviceAccepted .. => true
  | _ => false

def isDeviceRevoke : SemanticPayload → Bool
  | .humanDeviceRevoked .. => true
  | _ => false

def activeMembershipGrants (context : ReductionContext)
    (acceptances : OrderedSet FactId) : OrderedSet GrantId :=
  OrderedSet.ofList (acceptances.toList.filterMap fun id =>
    match payloadOf context id with
    | some (.humanDeviceAccepted _ grantId _) => some grantId
    | _ => none)

def membershipView (context : ReductionContext) (account : AccountId)
    (device : InstallationId) (members : OrderedSet FactId) :
    MembershipView :=
  let acceptances := members.filter fun id =>
    (payloadOf context id).any isDeviceAcceptance
  let revokes := members.filter fun id =>
    (payloadOf context id).any isDeviceRevoke
  let activeAcceptances := acceptances.filter fun id =>
    activeAcceptance context id account device
  { state :=
      if !activeAcceptances.isEmpty then .active
      else if !revokes.isEmpty then .revoked
      else .pending
    frontier := maximalMembers context members
    grants := OrderedMap.ofList (members.toList.filterMap fun id =>
      match payloadOf context id with
      | some (.humanDeviceGranted _ grantId granted label relayHints) =>
          some (grantId, ⟨id, granted, label, relayHints⟩)
      | _ => none)
    acceptances, revokes, activeAcceptances
    activeGrants := activeMembershipGrants context activeAcceptances }

def membershipProjections (context : ReductionContext) :
    List (ProjectionContribution AuthorityProjectionKey AuthorityProjection) :=
  (authorityGroups context).entries.filterMap fun entry =>
    match entry.1 with
    | .membership account device =>
        some ⟨.membership account device,
          .membership (membershipView context account device entry.2), entry.2⟩
    | _ => none

def selectedAccount : SemanticPayload → Option AccountId
  | .humanAccountSelected accountId => some accountId
  | _ => none

def selectionProjections (policy : AuthorityPolicy)
    (context : ReductionContext) :
    List (ProjectionContribution AuthorityProjectionKey AuthorityProjection) :=
  let members := OrderedSet.ofList
    ((context.projectedFacts.filter fun fact =>
      fact.authorId = policy.localInstallation &&
        (selectedAccount fact.payload).isSome).map Fact.id)
  if members.isEmpty then []
  else
    let frontier := maximalMembers context members
    let candidates := OrderedSet.ofList (frontier.toList.filterMap fun id =>
      (payloadOf context id).bind selectedAccount)
    let active := match candidates.toList with
      | [accountId] => some accountId
      | _ => none
    [⟨.accountSelection policy.localInstallation,
      .accountSelection candidates active, frontier⟩]

def deriveAuthorityProjections (policy : AuthorityPolicy)
    (context : ReductionContext) :
    List (ProjectionContribution AuthorityProjectionKey AuthorityProjection) :=
  rootProjections context ++ peerRouteProjections context ++
    capabilityProjections context ++ accountProjections context ++
    membershipProjections context ++ selectionProjections policy context

/-- Concurrent values of a register that admits one. -/
def deriveAuthorityConflicts (context : ReductionContext) :
    List (ConflictObservation AuthorityReason) :=
  (authorityGroups context).entries.filterMap fun entry =>
    let frontier := maximalMembers context entry.2
    let conflicted := match entry.1 with
      | .peerRoute .. => 1 < frontier.size &&
          frontier.toList.all fun id => (payloadOf context id).any isRouteSet
      | .accountSelection _ => 1 < frontier.size
      | _ => false
    if conflicted then some ⟨.domain .concurrentRegisterConflict, frontier⟩
    else none

def authorityReducer (policy : AuthorityPolicy) :
    DomainReducer AuthorityAggregateKey AuthorityProjectionKey
      AuthorityProjection AuthorityReason where
  classify fact context := classifyFact policy fact context
  aggregateKeys fact _ := (aggregateKey fact).toList
  projections context := deriveAuthorityProjections policy context
  conflicts context := deriveAuthorityConflicts context
  presentationEntries _ := []

end Hq
