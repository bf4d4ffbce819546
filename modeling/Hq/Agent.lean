/-
Named agents: name claims, session bindings, repository contexts, selections,
renames and retirement.  Every rule reads the projected parents of a fact or
a retirement above it.
-/
import Hq.ConversationViews

namespace Hq

inductive AgentReason where
  | authority (reason : AuthorityReason)
  | invalidName
  | agentMailboxMismatch
  | subjectMismatch
  | retiredAgent
  | nameConflict
  | agentClaimConflict
  | sessionBindingConflict
  | selectionConflict
  | renameConflict
deriving DecidableEq

instance : FieldCoded AgentReason where
  field
    | .authority reason => 0 :: FieldCoded.field reason
    | .invalidName => [1]
    | .agentMailboxMismatch => [2]
    | .subjectMismatch => [3]
    | .retiredAgent => [4]
    | .nameConflict => [5]
    | .agentClaimConflict => [6]
    | .sessionBindingConflict => [7]
    | .selectionConflict => [8]
    | .renameConflict => [9]
  field_injective := by
    intro left right h
    cases left <;> cases right <;>
      simp_all [FieldCoded.field_injective.eq_iff]

def isAsciiLower (char : Char) : Bool := 'a' ≤ char && char ≤ 'z'

def isAsciiDigit (char : Char) : Bool := '0' ≤ char && char ≤ '9'

def isAsciiUpper (char : Char) : Bool := 'A' ≤ char && char ≤ 'Z'

/-- A lowercase letter first, a letter or digit last, and only lowercase
letters, digits and hyphens.  The last byte of a text with a character
outside ASCII fails the third test, so characters may stand for bytes. -/
def validAgentName (name : ShortText) : Bool :=
  name.chars.head?.any isAsciiLower &&
    name.chars.getLast?.any (fun last =>
      isAsciiLower last || isAsciiUpper last || isAsciiDigit last) &&
    name.chars.all fun char =>
      isAsciiLower char || isAsciiDigit char || char = '-'

/-- The first projected parent of a fact that a reader accepts. -/
def findParent {α : Type} (fact : Fact) (context : ReductionContext)
    (read : Fact → Option α) : Option α :=
  context.facts.facts.findSome? fun candidate =>
    if context.isProjected candidate.id &&
        candidate.id ∈ fact.causal.parents then read candidate
    else none

/-- Read a fact that passes a test. -/
def readIf {α : Type} (test : Bool) (value : α) : Option α :=
  if test then some value else none

def requireAgentMailbox (fact : Fact) (mailboxId : MailboxId)
    (context : ReductionContext) : Except AgentReason Unit :=
  require (findParent fact context fun candidate =>
    readIf (createsAgentMailbox ⟨fact.authorId, mailboxId⟩ candidate)
      candidate).isSome .agentMailboxMismatch

/-- The mailbox a claim reserves for an agent. -/
def claimedMailbox (agentId : AgentId) (candidate : Fact) :
    Option MailboxId :=
  match candidate.payload with
  | .agentNameClaimed claimed mailboxId _ =>
      if claimed = agentId then some mailboxId else none
  | _ => none

def requireClaimParent (fact : Fact) (agentId : AgentId)
    (mailboxId : MailboxId) (context : ReductionContext) :
    Except AgentReason Unit :=
  require (findParent fact context fun candidate =>
    readIf (claimedMailbox agentId candidate = some mailboxId)
      candidate).isSome .subjectMismatch

def requireClaimForAgentParent (fact : Fact) (agentId : AgentId)
    (context : ReductionContext) : Except AgentReason MailboxId :=
  match findParent fact context (claimedMailbox agentId) with
  | some mailboxId => .ok mailboxId
  | none => .error .subjectMismatch

def bindsSession (mailboxId : MailboxId) (provider : ProviderId)
    (session : ProviderSessionId) (candidate : Fact) : Bool :=
  match candidate.payload with
  | .mailboxSessionBound candidateMailbox candidateProvider candidateSession =>
      candidateMailbox = mailboxId && candidateProvider = provider &&
        candidateSession = session
  | _ => false

def requireBindingParent (fact : Fact) (mailboxId : MailboxId)
    (provider : ProviderId) (session : ProviderSessionId)
    (context : ReductionContext) : Except AgentReason Unit :=
  require (findParent fact context fun candidate =>
    readIf (bindsSession mailboxId provider session candidate)
      candidate).isSome .subjectMismatch

def recordsContext (mailboxId : MailboxId) (selected : RepositoryContext)
    (candidate : Fact) : Bool :=
  match candidate.payload with
  | .mailboxContextRecorded candidateMailbox candidateContext =>
      candidateMailbox = mailboxId && candidateContext = selected
  | _ => false

def requireContextParent (fact : Fact) (mailboxId : MailboxId)
    (selected : RepositoryContext) (context : ReductionContext) :
    Except AgentReason Unit :=
  require (findParent fact context fun candidate =>
    readIf (recordsContext mailboxId selected candidate)
      candidate).isSome .subjectMismatch

def retiresAgent (agentId : AgentId) (candidate : Fact) : Bool :=
  match candidate.payload with
  | .agentRetired retired _ => retired = agentId
  | _ => false

/-- A projected retirement of the agent stands above a fact. -/
def retiredBefore (agentId : AgentId) (fact : Fact)
    (context : ReductionContext) : Bool :=
  context.facts.facts.any fun candidate =>
    context.isProjected candidate.id && retiresAgent agentId candidate &&
      context.graph.structurallyReaches candidate.id fact.id

def rejectAfterRetirement (fact : Fact) (agentId : AgentId)
    (context : ReductionContext) : Except AgentReason Unit :=
  require (!retiredBefore agentId fact context) .retiredAgent

def validateAgentFact (fact : Fact) (context : ReductionContext) :
    Except AgentReason Unit :=
  match fact.payload with
  | .mailboxSessionBound mailboxId _ _ | .mailboxContextRecorded mailboxId _ =>
      requireAgentMailbox fact mailboxId context
  | .agentNameClaimed agentId mailboxId name => do
      require (validAgentName name) .invalidName
      requireAgentMailbox fact mailboxId context
      require (!retiredBefore agentId fact context) .retiredAgent
  | .agentRetired agentId mailboxId =>
      requireClaimParent fact agentId mailboxId context
  | .providerSessionSelected agentId mailboxId provider session selected => do
      requireClaimParent fact agentId mailboxId context
      requireBindingParent fact mailboxId provider session context
      requireContextParent fact mailboxId selected context
      rejectAfterRetirement fact agentId context
  | .providerSessionRenamed agentId provider session _ => do
      let mailboxId ← requireClaimForAgentParent fact agentId context
      requireBindingParent fact mailboxId provider session context
      rejectAfterRetirement fact agentId context
  | _ => .ok ()

/-- Authority rules first, agent rules for what they admit. -/
def classifyAgentFact (policy : AuthorityPolicy) (fact : Fact)
    (context : ReductionContext) : DomainDecision AgentReason :=
  match classifyFact policy fact context with
  | .projected =>
      match validateAgentFact fact context with
      | .ok () => .projected
      | .error reason => .invalid reason
  | decision => mapAuthorityDecision .authority decision

end Hq
