/-
Agent projections: name reservations, lifecycle, sessions, contexts,
selections, renames and direct sessions.
-/
import Hq.Agent

namespace Hq

/-- A provider session. -/
@[ext] structure SessionIdentity where
  provider : ProviderId
  session : ProviderSessionId
deriving DecidableEq

inductive AgentAggregateKey where
  | name (name : ShortText)
  | agent (id : AgentId)
  | mailbox (address : MailboxAddress)
  | session (session : SessionIdentity)
  | selection (id : AgentId)
  | rename (agent : AgentId) (session : SessionIdentity)
  | context (address : MailboxAddress)

instance : Coded AgentAggregateKey where
  code
    | .name name => [[0], name.field]
    | .agent id => [[1], id.field]
    | .mailbox address =>
        [[2], address.installationId.field, address.mailboxId.field]
    | .session session => [[3], session.provider.field, session.session.field]
    | .selection id => [[4], id.field]
    | .rename agent session =>
        [[5], agent.field, session.provider.field, session.session.field]
    | .context address =>
        [[6], address.installationId.field, address.mailboxId.field]
  code_injective := by
    intro left right h
    cases left <;> cases right <;>
      simp_all [OpaqueBytes.field_injective.eq_iff,
        BoundedText.field_injective.eq_iff, MailboxAddress.ext_iff,
        SessionIdentity.ext_iff]

instance : LinearOrder AgentAggregateKey := Coded.linearOrder _

inductive AgentProjectionKey where
  | name (name : ShortText)
  | agent (id : AgentId)
  | session (session : SessionIdentity)
  | context (address : MailboxAddress)
  | selection (id : AgentId)
  | rename (agent : AgentId) (session : SessionIdentity)
  | directSession (mailbox : MailboxAddress) (session : SessionIdentity)

instance : Coded AgentProjectionKey where
  code
    | .name name => [[0], name.field]
    | .agent id => [[1], id.field]
    | .session session => [[2], session.provider.field, session.session.field]
    | .context address =>
        [[3], address.installationId.field, address.mailboxId.field]
    | .selection id => [[4], id.field]
    | .rename agent session =>
        [[5], agent.field, session.provider.field, session.session.field]
    | .directSession mailbox session =>
        [[6], mailbox.installationId.field, mailbox.mailboxId.field,
          session.provider.field, session.session.field]
  code_injective := by
    intro left right h
    cases left <;> cases right <;>
      simp_all [OpaqueBytes.field_injective.eq_iff,
        BoundedText.field_injective.eq_iff, MailboxAddress.ext_iff,
        SessionIdentity.ext_iff]

instance : LinearOrder AgentProjectionKey := Coded.linearOrder _

structure NameClaimSubject where
  agentId : AgentId
  mailbox : MailboxAddress
deriving DecidableEq

structure NameReservationView where
  claims : OrderedMap FactId NameClaimSubject
  conflicted : Bool
  retired : Bool
deriving DecidableEq

inductive AgentLifecycle where
  | active | conflicted | retired
deriving DecidableEq

structure AgentView where
  claims : OrderedSet FactId
  names : OrderedSet ShortText
  mailboxes : OrderedSet MailboxAddress
  retirements : OrderedSet FactId
  lifecycle : AgentLifecycle
  runnable : Bool
  selectedSession : Option SessionIdentity
  nameReserved : Bool
deriving DecidableEq

structure SessionBindingView where
  bindings : OrderedMap FactId MailboxAddress
  conflicted : Bool
  mailbox : Option MailboxAddress
deriving DecidableEq

structure ContextHistoryView where
  history : OrderedMap FactId RepositoryContext
  frontier : OrderedSet FactId
deriving DecidableEq

structure SelectionCandidate where
  session : SessionIdentity
  context : RepositoryContext
deriving DecidableEq

structure SelectionView where
  candidates : OrderedMap FactId SelectionCandidate
  frontier : OrderedSet FactId
  active : Option SelectionCandidate
  conflicted : Bool
deriving DecidableEq

structure RenameView where
  candidates : OrderedMap FactId (Option ShortText)
  frontier : OrderedSet FactId
  resolved : Bool
  displayName : Option ShortText
deriving DecidableEq

structure DirectSessionView where
  bindingFacts : OrderedSet FactId
  mailbox : MailboxAddress
  namedAgent : Option AgentId
  conflicted : Bool
deriving DecidableEq

inductive AgentProjection where
  | name (view : NameReservationView)
  | agent (view : AgentView)
  | session (view : SessionBindingView)
  | context (view : ContextHistoryView)
  | selection (view : SelectionView)
  | rename (view : RenameView)
  | directSession (view : DirectSessionView)
deriving DecidableEq

/-! Readers of agent payloads. -/

/-- The subject of a name claim. -/
def claimSubject (fact : Fact) :
    Option (AgentId × MailboxAddress × ShortText) :=
  match fact.payload with
  | .agentNameClaimed agentId mailboxId name =>
      some (agentId, ⟨fact.authorId, mailboxId⟩, name)
  | _ => none

def boundSession (fact : Fact) : Option (MailboxAddress × SessionIdentity) :=
  match fact.payload with
  | .mailboxSessionBound mailboxId provider session =>
      some (⟨fact.authorId, mailboxId⟩, ⟨provider, session⟩)
  | _ => none

def recordedContext (fact : Fact) :
    Option (MailboxAddress × RepositoryContext) :=
  match fact.payload with
  | .mailboxContextRecorded mailboxId context =>
      some (⟨fact.authorId, mailboxId⟩, context)
  | _ => none

def selectedSession (fact : Fact) : Option (AgentId × SelectionCandidate) :=
  match fact.payload with
  | .providerSessionSelected agentId _ provider session context =>
      some (agentId, ⟨⟨provider, session⟩, context⟩)
  | _ => none

def renamedSession (fact : Fact) :
    Option (AgentId × SessionIdentity × Option ShortText) :=
  match fact.payload with
  | .providerSessionRenamed agentId provider session displayName =>
      some (agentId, ⟨provider, session⟩, displayName)
  | _ => none

def agentAggregateKeys (fact : Fact) : List AgentAggregateKey :=
  match fact.payload with
  | .mailboxSessionBound _ provider session => [.session ⟨provider, session⟩]
  | .mailboxContextRecorded mailboxId _ => [.context ⟨fact.authorId, mailboxId⟩]
  | .agentNameClaimed agentId mailboxId name =>
      [.name name, .agent agentId, .mailbox ⟨fact.authorId, mailboxId⟩]
  | .agentRetired agentId _ => [.agent agentId]
  | .providerSessionSelected agentId _ _ _ _ => [.selection agentId]
  | .providerSessionRenamed agentId provider session _ =>
      [.rename agentId ⟨provider, session⟩]
  | _ => []

/-- The facts of a set read one by one; unread facts are left out. -/
def readMembers {α : Type} (context : ReductionContext)
    (read : Fact → Option α) (members : OrderedSet FactId) :
    List (FactId × α) :=
  members.toList.filterMap fun id =>
    ((context.facts.get? id).bind read).map fun value => (id, value)

/-- The only value of a list that has one, up to repetition. -/
def onlyValue {α : Type} [DecidableEq α] (values : List α) : Option α :=
  match values.dedup with
  | [value] => some value
  | _ => none

/-- More than one distinct value. -/
def severalValues {α : Type} [DecidableEq α] (values : List α) : Bool :=
  1 < values.dedup.length

def agentRetired (agentId : AgentId) (context : ReductionContext) : Bool :=
  context.projectedFacts.any (retiresAgent agentId)

/-- Two claims share a name, an agent or a mailbox without being equal. -/
def claimConflicted (fact : Fact) (context : ReductionContext) : Bool :=
  match claimSubject fact with
  | none => false
  | some subject => context.projectedFacts.any fun candidate =>
      match claimSubject candidate with
      | none => false
      | some other =>
          (other.1 = subject.1 || other.2.1 = subject.2.1 ||
            other.2.2 = subject.2.2) && other ≠ subject

def sessionBindings (identity : SessionIdentity) (context : ReductionContext) :
    OrderedMap FactId MailboxAddress :=
  OrderedMap.ofList (context.projectedFacts.filterMap fun fact =>
    match boundSession fact with
    | some (mailbox, session) =>
        if session = identity then some (fact.id, mailbox) else none
    | none => none)

def sessionUnconflicted (session : SessionIdentity)
    (context : ReductionContext) : Bool :=
  (sessionBindings session context).values.dedup.length = 1

def selectionMembers (agentId : AgentId) (context : ReductionContext) :
    OrderedSet FactId :=
  projectedIds context fun fact =>
    (selectedSession fact).any fun selected => selected.1 = agentId

def selectionValue (agentId : AgentId) (context : ReductionContext) :
    Option SessionIdentity :=
  let frontier := maximalMembers context (selectionMembers agentId context)
  let values := (readMembers context selectedSession frontier).map
    fun selected => selected.2.2.session
  (onlyValue values).filter fun session => sessionUnconflicted session context

def uniqueAgentForMailbox (mailbox : MailboxAddress)
    (context : ReductionContext) : Option AgentId :=
  onlyValue (context.projectedFacts.filterMap fun fact =>
    match claimSubject fact with
    | some subject =>
        if subject.2.1 = mailbox && !claimConflicted fact context then
          some subject.1
        else none
    | none => none)

/-! The projections, one group for each key family. -/

def nameProjections (context : ReductionContext) :
    List (ProjectionContribution AgentProjectionKey AgentProjection) :=
  (groupFacts (fun fact => (claimSubject fact).map fun subject =>
    subject.2.2) context.projectedFacts).entries.map fun entry =>
      let claims := OrderedMap.ofList
        ((readMembers context claimSubject entry.2).map fun claim =>
          (claim.1, (⟨claim.2.1, claim.2.2.1⟩ : NameClaimSubject)))
      let retired := claims.values.any fun subject =>
        context.projectedFacts.any fun candidate =>
          match candidate.payload with
          | .agentRetired agentId mailboxId => agentId = subject.agentId &&
              (⟨candidate.authorId, mailboxId⟩ : MailboxAddress) =
                subject.mailbox
          | _ => false
      ⟨.name entry.1, .name ⟨claims, severalValues claims.values, retired⟩,
        entry.2⟩

def sessionProjections (context : ReductionContext) :
    List (ProjectionContribution AgentProjectionKey AgentProjection) :=
  (groupFacts (fun fact => (boundSession fact).map fun bound =>
    AgentProjectionKey.session bound.2) context.projectedFacts).entries.map
      fun entry =>
        let bindings := OrderedMap.ofList
          ((readMembers context boundSession entry.2).map fun bound =>
            (bound.1, bound.2.1))
        ⟨entry.1,
          .session ⟨bindings, severalValues bindings.values,
            onlyValue bindings.values⟩, entry.2⟩

def contextProjections (context : ReductionContext) :
    List (ProjectionContribution AgentProjectionKey AgentProjection) :=
  (groupFacts (fun fact => (recordedContext fact).map Prod.fst)
    context.projectedFacts).entries.map fun entry =>
      let history := OrderedMap.ofList
        ((readMembers context recordedContext entry.2).map fun recorded =>
          (recorded.1, recorded.2.2))
      ⟨.context entry.1, .context ⟨history, maximalMembers context entry.2⟩,
        entry.2⟩

def agentSelectionProjections (context : ReductionContext) :
    List (ProjectionContribution AgentProjectionKey AgentProjection) :=
  (groupFacts (fun fact => (selectedSession fact).map Prod.fst)
    context.projectedFacts).entries.map fun entry =>
      let frontier := maximalMembers context entry.2
      let candidates := OrderedMap.ofList
        ((readMembers context selectedSession frontier).map fun selected =>
          (selected.1, selected.2.2))
      let active := if agentRetired entry.1 context then none
        else (onlyValue candidates.values).filter fun candidate =>
          sessionUnconflicted candidate.session context
      ⟨.selection entry.1,
        .selection ⟨candidates, frontier, active,
          severalValues candidates.values⟩, entry.2⟩

def renameProjections (context : ReductionContext) :
    List (ProjectionContribution AgentProjectionKey AgentProjection) :=
  (groupFacts (fun fact => (renamedSession fact).map fun renamed =>
    AgentProjectionKey.rename renamed.1 renamed.2.1)
      context.projectedFacts).entries.map fun entry =>
        let frontier := maximalMembers context entry.2
        let candidates := OrderedMap.ofList
          ((readMembers context renamedSession frontier).map fun renamed =>
            (renamed.1, renamed.2.2.2))
        let resolved := candidates.values.dedup.length = 1 &&
          match entry.1 with
          | .rename agent _ => !agentRetired agent context
          | _ => false
        ⟨entry.1,
          .rename ⟨candidates, frontier, resolved,
            if resolved then (onlyValue candidates.values).join else none⟩,
          entry.2⟩

def agentProjection (context : ReductionContext) (agentId : AgentId)
    (claims : OrderedSet FactId) :
    ProjectionContribution AgentProjectionKey AgentProjection :=
  let subjects := (readMembers context claimSubject claims).map Prod.snd
  let names := OrderedSet.ofList (subjects.map fun subject => subject.2.2)
  let mailboxes := OrderedSet.ofList (subjects.map fun subject => subject.2.1)
  let retirements := projectedIds context (retiresAgent agentId)
  let globalConflict := (claims.toList.filterMap context.facts.get?).any
    fun claim => claimConflicted claim context
  let lifecycle : AgentLifecycle :=
    if !retirements.isEmpty then .retired
    else if names.size = 1 && mailboxes.size = 1 && !globalConflict then .active
    else .conflicted
  let selected := selectionValue agentId context
  let runnable := lifecycle = .active && selected.isSome
  ⟨.agent agentId,
    .agent
      { claims, names, mailboxes, retirements, lifecycle, runnable
        selectedSession := if runnable then selected else none
        nameReserved := true },
    OrderedSet.ofList (claims.toList ++ retirements.toList ++
      (selectionMembers agentId context).toList)⟩

def agentProjections (context : ReductionContext) :
    List (ProjectionContribution AgentProjectionKey AgentProjection) :=
  (groupFacts (fun fact => (claimSubject fact).map Prod.fst)
    context.projectedFacts).entries.map fun entry =>
      agentProjection context entry.1 entry.2

def directSessionProjections (context : ReductionContext) :
    List (ProjectionContribution AgentProjectionKey AgentProjection) :=
  (groupFacts (fun fact => (boundSession fact).map fun bound =>
    AgentProjectionKey.directSession bound.1 bound.2)
      context.projectedFacts).entries.filterMap fun entry =>
        match entry.1 with
        | .directSession mailbox session =>
            some ⟨entry.1,
              .directSession
                { bindingFacts := entry.2
                  mailbox
                  namedAgent := uniqueAgentForMailbox mailbox context
                  conflicted :=
                    severalValues (sessionBindings session context).values },
              entry.2⟩
        | _ => none

def deriveAgentProjections (context : ReductionContext) :
    List (ProjectionContribution AgentProjectionKey AgentProjection) :=
  nameProjections context ++ sessionProjections context ++
    contextProjections context ++ agentSelectionProjections context ++
    renameProjections context ++ agentProjections context ++
    directSessionProjections context

/-- A conflict with at least two participants. -/
def agentConflict (reason : AgentReason) (participants : OrderedSet FactId) :
    List (ConflictObservation AgentReason) :=
  if 1 < participants.size then [⟨.domain reason, participants⟩] else []

/-- Report a set of claims whose subjects differ. -/
def claimConflict (context : ReductionContext) (reason : AgentReason)
    (test : AgentId × MailboxAddress × ShortText → Bool) :
    List (ConflictObservation AgentReason) :=
  let members := projectedIds context fun fact => (claimSubject fact).any test
  if severalValues ((readMembers context claimSubject members).map Prod.snd) then
    agentConflict reason members
  else []

/-- Report a register whose maximal facts carry several values. -/
def registerConflict {α : Type} [DecidableEq α] (context : ReductionContext)
    (reason : AgentReason) (read : Fact → Option α)
    (members : OrderedSet FactId) :
    List (ConflictObservation AgentReason) :=
  let frontier := maximalMembers context members
  if severalValues ((readMembers context read frontier).map Prod.snd) then
    agentConflict reason frontier
  else []

def deriveAgentConflicts (context : ReductionContext) :
    List (ConflictObservation AgentReason) :=
  let subjects := context.projectedFacts.filterMap claimSubject
  let sessions := OrderedSet.ofList
    (context.projectedFacts.filterMap fun fact =>
      (boundSession fact).map fun bound =>
        AgentProjectionKey.session bound.2)
  let selections := groupFacts (fun fact =>
    (selectedSession fact).map Prod.fst) context.projectedFacts
  let renames := groupFacts (fun fact => (renamedSession fact).map
    fun renamed => AgentProjectionKey.rename renamed.1 renamed.2.1)
    context.projectedFacts
  subjects.flatMap (fun subject =>
    claimConflict context .nameConflict (fun other =>
      other.2.2 = subject.2.2) ++
    claimConflict context .agentClaimConflict (fun other =>
      other.1 = subject.1 || other.2.1 = subject.2.1)) ++
  sessions.toList.flatMap (fun key =>
    match key with
    | .session session =>
        let bindings := sessionBindings session context
        if severalValues bindings.values then
          agentConflict .sessionBindingConflict bindings.keys
        else []
    | _ => []) ++
  selections.values.flatMap (registerConflict context .selectionConflict
    fun fact => (selectedSession fact).map Prod.snd) ++
  renames.values.flatMap (registerConflict context .renameConflict
    fun fact => (renamedSession fact).map fun renamed => renamed.2.2)

def agentReducer (policy : AuthorityPolicy) :
    DomainReducer AgentAggregateKey AgentProjectionKey AgentProjection
      AgentReason where
  classify fact context := classifyAgentFact policy fact context
  aggregateKeys fact _ := agentAggregateKeys fact
  projections context := deriveAgentProjections context
  conflicts context := deriveAgentConflicts context
  presentationEntries _ := []

end Hq
