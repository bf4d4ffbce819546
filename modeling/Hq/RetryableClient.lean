/-
A client that keeps retryable commands across connections.  The four tables of
pending commands are one table ordered by family and identity; its own
requests (subscriptions, refreshes, ordinary requests) appear only where they
share the request numbers or force a reconnect.  Request numbers and
generations are counted without end.
-/
import Hq.OrderedMap

namespace Hq

namespace RetryableClient

inductive Family where
  | mutation | project | retirement | session
deriving DecidableEq

def Family.rank : Family → Nat
  | .mutation => 0 | .project => 1 | .retirement => 2 | .session => 3

@[ext] structure Slot where
  family : Family
  identity : Nat
deriving DecidableEq

def Slot.code (slot : Slot) : Nat ×ₗ Nat :=
  toLex (slot.family.rank, slot.identity)

theorem Slot.code_injective : Function.Injective Slot.code := by
  rintro ⟨first, x⟩ ⟨second, y⟩ h
  obtain ⟨hrank, rfl⟩ := Prod.mk.inj (toLex.injective h)
  cases first <;> cases second <;> first | rfl | cases hrank

instance : LinearOrder Slot := LinearOrder.lift' Slot.code Slot.code_injective

inductive RequestKind where
  | mutation | mailbox | project | retirement | session
deriving DecidableEq

/-- Mailbox commands wait among the mutations. -/
def RequestKind.family : RequestKind → Family
  | .mutation | .mailbox => .mutation
  | .project => .project
  | .retirement => .retirement
  | .session => .session

structure Request where
  kind : RequestKind
  identity : Nat
  digest : Nat
  body : Nat

def Request.slot (request : Request) : Slot :=
  ⟨request.kind.family, request.identity⟩

/-- How requests become frames, and the digest of a session request. -/
structure Wire (Frame : Type) where
  encode : Nat → Request → Option Frame
  sessionDigest : Request → Option Nat

structure Pending (Frame : Type) where
  requestId : Nat
  digest : Nat
  frame : Frame

inductive Phase where
  | idle
  | connecting (generation : Nat)
  | negotiating (generation : Nat)
  | active (generation : Nat)
  | incompatible (generation : Nat)
deriving DecidableEq

def Phase.generation? : Phase → Option Nat
  | .idle => none
  | .connecting generation | .negotiating generation | .active generation
  | .incompatible generation => some generation

structure Client (Frame : Type) where
  phase : Phase
  nextGeneration : Nat
  nextRequestId : Nat
  pending : OrderedMap Slot (Pending Frame)
  completedDigests : OrderedMap Nat Nat
  completedOrder : List Nat
  completedCapacity : Nat

inductive ClientError where
  | alreadyStarted | changedCommandIdentity | retryableCommandCapacity | codec
  | protocolOrder | invalidAgentSessionRequest
deriving DecidableEq

inductive Answer where
  | error | nonterminal | terminal
deriving DecidableEq

/-- What a call asks for and tells. -/
inductive Output (Frame : Type) where
  | wrote (generation : Nat) (frame : Frame)
  | answered (slot : Slot) (answer : Answer)
  | other

abbrev Outcome (Frame : Type) :=
  Client Frame × Except ClientError (List (Output Frame))

/-! What the provider of the connection says. -/

/-- How a message about the client's own requests ends: it is refused, it
begins so many further requests, or it forces a reconnect. -/
inductive OwnOutcome where
  | refused
  | kept (begins : Nat)
  | reconnect

/-- A mutation result says whether it names the command and its digest. -/
inductive Result where
  | error (own : OwnOutcome)
  | mutation (completed names : Bool)
  | project (terminal : Bool)
  | retirement (terminal : Bool)
  | session (terminal : Bool)
  | own (own : OwnOutcome)

inductive Message where
  | serverHello (begins : Nat)
  | versionRejected
  | response (requestId : Nat) (result : Result)
  | invalidation (begins : Nat)
  | unexpected

/-- A frame that does not decode carries no message. -/
inductive Input where
  | start
  | connected (generation : Nat)
  | lost (generation : Nat)
  | receive (generation : Nat) (message : Option Message)
  | submit (request : Request)
  | continueProject (identity : Nat)
  | ownRequests (begins : Nat)

namespace Client

variable {Frame : Type}

def maxInFlight : Nat := 256

def new (capacity : Nat) : Client Frame := ⟨.idle, 1, 1, ∅, ∅, [], capacity⟩

/-! Numbers. -/

/-- Begin requests of the client's own. -/
def beginOwn (begins : Nat) (client : Client Frame) : Outcome Frame :=
  ({ client with nextRequestId := client.nextRequestId + begins },
    .ok (List.replicate begins .other))

/-- Connect anew, after what there is to tell. -/
def reconnect (told : List (Output Frame)) (client : Client Frame) :
    Outcome Frame :=
  ({ client with
      nextGeneration := client.nextGeneration + 1
      phase := .connecting client.nextGeneration }, .ok (told ++ [.other]))

def ownOutcome (outcome : OwnOutcome) (client : Client Frame) :
    Outcome Frame :=
  match outcome with
  | .refused => (client, .error .protocolOrder)
  | .kept begins => client.beginOwn begins
  | .reconnect => client.reconnect [.other]

/-! Identities. -/

def pendingDigest (client : Client Frame) (identity : Nat) : Option Nat :=
  [Family.mutation, .project, .retirement, .session].findSome? fun family =>
    (client.pending.get? ⟨family, identity⟩).map Pending.digest

def retryableIdentityExists (client : Client Frame) (identity digest : Nat) :
    Except ClientError Bool :=
  let known := (client.pendingDigest identity).toList ++
    (client.completedDigests.get? identity).toList
  if known.any (· ≠ digest) then .error .changedCommandIdentity
  else .ok !known.isEmpty

/-- Forget the oldest identities beyond the capacity. -/
def forgetOldest (client : Client Frame) : Client Frame :=
  let excess := client.completedOrder.length - client.completedCapacity
  { client with
    completedOrder := client.completedOrder.drop excess
    completedDigests := (client.completedOrder.take excess).foldl
      (fun digests oldest => digests.erase oldest) client.completedDigests }

def rememberCompleted (identity digest : Nat) (client : Client Frame) :
    Client Frame :=
  forgetOldest { client with
    completedDigests := client.completedDigests.insert identity digest
    completedOrder :=
      if client.completedDigests.contains identity then client.completedOrder
      else client.completedOrder ++ [identity] }

/-! Submissions. -/

/-- A frame on the active generation, if there is one. -/
def write (client : Client Frame) (frame : Frame) : List (Output Frame) :=
  match client.phase with
  | .active generation => [.wrote generation frame]
  | _ => []

def submit (wire : Wire Frame) (request : Request) (client : Client Frame) :
    Outcome Frame :=
  if request.kind = .session ∧
      wire.sessionDigest request ≠ some request.digest then
    (client, .error .invalidAgentSessionRequest)
  else
    match client.retryableIdentityExists request.identity request.digest with
    | .error error => (client, .error error)
    | .ok true => (client, .ok [])
    | .ok false =>
        if maxInFlight ≤ client.pending.size then
          (client, .error .retryableCommandCapacity)
        else
          let after :=
            { client with nextRequestId := client.nextRequestId + 1 }
          match wire.encode client.nextRequestId request with
          | none => (after, .error .codec)
          | some frame =>
              ({ after with
                  pending := client.pending.insert request.slot
                    ⟨client.nextRequestId, request.digest, frame⟩ },
                .ok (client.write frame))

def continueProject (identity : Nat) (client : Client Frame) : Outcome Frame :=
  match client.pending.get? ⟨.project, identity⟩ with
  | none => (client, .error .protocolOrder)
  | some pending => (client, .ok (client.write pending.frame))

/-! Responses. -/

/-- The command of a family that waits under a request number. -/
def waiting (client : Client Frame) (family : Family) (requestId : Nat) :
    Option (Slot × Pending Frame) :=
  client.pending.entries.find? fun entry =>
    entry.1.family = family && entry.2.requestId = requestId

/-- Take a command out and remember it or not. -/
def settle (slot : Slot) (pending : Pending Frame) (remember : Bool)
    (client : Client Frame) : Client Frame :=
  let after := { client with pending := client.pending.erase slot }
  if remember then after.rememberCompleted slot.identity pending.digest
  else after

def terminality (terminal : Bool) : Answer :=
  if terminal then .terminal else .nonterminal

/-- An error takes a command out.  Only mutations are remembered. -/
def handleErrorResponse (requestId : Nat) (own : OwnOutcome)
    (client : Client Frame) : Outcome Frame :=
  match [Family.mutation, .project, .retirement, .session].findSome?
      fun family => client.waiting family requestId with
  | some (slot, pending) =>
      (client.settle slot pending (slot.family = .mutation),
        .ok [.answered slot .error])
  | none => client.ownOutcome own

def handleResponse (requestId : Nat) (result : Result)
    (client : Client Frame) : Outcome Frame :=
  match result with
  | .error own => client.handleErrorResponse requestId own
  | .own own => client.ownOutcome own
  | .mutation completed names =>
      match client.waiting .mutation requestId with
      | none => (client, .error .protocolOrder)
      | some (slot, pending) =>
          if !names then (client, .error .protocolOrder)
          else if completed then
            (client.settle slot pending true, .ok [.answered slot .terminal])
          else client.reconnect [.answered slot .nonterminal]
  | .project terminal =>
      match client.waiting .project requestId with
      | none => (client, .error .protocolOrder)
      | some (slot, pending) =>
          (if terminal then client.settle slot pending true else client,
            .ok [.answered slot (terminality terminal)])
  | .retirement terminal =>
      match client.waiting .retirement requestId with
      | none => (client, .error .protocolOrder)
      | some (slot, pending) =>
          (client.settle slot pending terminal,
            .ok [.answered slot (terminality terminal)])
  | .session terminal =>
      match client.waiting .session requestId with
      | none => (client, .error .protocolOrder)
      | some (slot, pending) =>
          if terminal then
            (client.settle slot pending true, .ok [.answered slot .terminal])
          else client.reconnect [.answered slot .nonterminal]

/-! Connections. -/

/-- The client's own requests come first, then every pending frame. -/
def handleNegotiation (generation : Nat) (message : Message)
    (client : Client Frame) : Outcome Frame :=
  match message with
  | .serverHello begins =>
      ({ client with
          phase := .active generation
          nextRequestId := client.nextRequestId + begins },
        .ok (List.replicate begins .other ++
          client.pending.values.map fun pending =>
            .wrote generation pending.frame))
  | .versionRejected =>
      ({ client with phase := .incompatible generation }, .ok [.other])
  | _ => (client, .error .protocolOrder)

def handleActive (message : Message) (client : Client Frame) : Outcome Frame :=
  match message with
  | .response requestId result => client.handleResponse requestId result
  | .invalidation begins => client.beginOwn begins
  | _ => (client, .error .protocolOrder)

def receiveFrame (generation : Nat) (message : Option Message)
    (client : Client Frame) : Outcome Frame :=
  if client.phase.generation? ≠ some generation then (client, .ok [])
  else
    match message with
    | none => (client, .error .codec)
    | some message =>
        match client.phase with
        | .negotiating _ => client.handleNegotiation generation message
        | .active _ => client.handleActive message
        | _ => (client, .error .protocolOrder)

def connected (generation : Nat) (client : Client Frame) : Outcome Frame :=
  if client.phase = .connecting generation then
    ({ client with phase := .negotiating generation }, .ok [.other])
  else (client, .ok [])

/-- A failed connection attempt or a lost connection. -/
def lost (generation : Nat) (client : Client Frame) : Outcome Frame :=
  match client.phase with
  | .incompatible _ => (client, .ok [])
  | phase =>
      if phase.generation? = some generation then client.reconnect []
      else (client, .ok [])

def step (wire : Wire Frame) (client : Client Frame) : Input → Outcome Frame
  | .start =>
      if client.phase = .idle then client.reconnect []
      else (client, .error .alreadyStarted)
  | .connected generation => client.connected generation
  | .lost generation => client.lost generation
  | .receive generation message => client.receiveFrame generation message
  | .submit request => client.submit wire request
  | .continueProject identity => client.continueProject identity
  | .ownRequests begins => client.beginOwn begins

end Client

/-- A client and all that it has asked for and told. -/
structure Run (Frame : Type) where
  client : Client Frame
  trace : List (Output Frame)

section Law

variable {Frame : Type}

/-- A call that fails asks for nothing and tells nothing. -/
def outputs : Except ClientError (List (Output Frame)) → List (Output Frame)
  | .ok list => list
  | .error _ => []

def Run.step (wire : Wire Frame) (run : Run Frame) (input : Input) :
    Run Frame :=
  ⟨(run.client.step wire input).1,
    run.trace ++ outputs (run.client.step wire input).2⟩

def Run.of (wire : Wire Frame) (capacity : Nat) (inputs : List Input) :
    Run Frame :=
  inputs.foldl (Run.step wire) ⟨Client.new capacity, []⟩

/-! What a call can do. -/

/-- A request becomes a command under the next number, with its own frame. -/
structure Starts (wire : Wire Frame) (before after : Client Frame)
    (request : Request) (pending : Pending Frame) : Prop where
  encoded : wire.encode before.nextRequestId request = some pending.frame
  number : pending.requestId = before.nextRequestId
  digest : pending.digest = request.digest
  phase : after.phase = before.phase
  numbers : after.nextRequestId = before.nextRequestId + 1
  unknown : ∀ family, before.pending.get? ⟨family, request.identity⟩ = none
  unremembered : before.completedDigests.get? request.identity = none
  room : before.pending.size < Client.maxInFlight
  inserted : after.pending = before.pending.insert request.slot pending
  completed : after.completedDigests = before.completedDigests

/-- The commands stay as they are. -/
structure Keeps (before after : Client Frame) : Prop where
  numbers : before.nextRequestId ≤ after.nextRequestId
  pending : after.pending = before.pending
  completed : after.completedDigests = before.completedDigests

inductive Moves (wire : Wire Frame) (before : Client Frame) :
    Client Frame → List (Output Frame) → Prop where
  | quiet {after : Client Frame} {told : List (Output Frame)}
      (active : ∀ generation, after.phase = .active generation →
        before.phase = .active generation)
      (keeps : Keeps before after)
      (silent : ∀ output ∈ told, output = .other) : Moves wire before after told
  | submitted {after : Client Frame} (request : Request)
      (pending : Pending Frame) (starts : Starts wire before after request pending) :
      Moves wire before after (before.write pending.frame)
  | resent (slot : Slot) (pending : Pending Frame)
      (held : before.pending.get? slot = some pending) :
      Moves wire before before (before.write pending.frame)
  | settled {after : Client Frame} (slot : Slot) (pending : Pending Frame)
      (answer : Answer) (held : before.pending.get? slot = some pending)
      (phase : after.phase = before.phase)
      (numbers : after.nextRequestId = before.nextRequestId)
      (erased : after.pending = before.pending.erase slot)
      (completed : ∀ identity, after.completedDigests.get? identity ≠ none →
        before.completedDigests.get? identity ≠ none ∨
          identity = slot.identity ∧ (answer = .terminal ∨
            slot.family = .mutation ∧ answer = .error)) :
      Moves wire before after [.answered slot answer]
  | replied {after : Client Frame} {told : List (Output Frame)} (slot : Slot)
      (pending : Pending Frame) (held : before.pending.get? slot = some pending)
      (phase : after = before ∧ slot.family = .project ∨
        ∀ generation, after.phase ≠ .active generation)
      (keeps : Keeps before after)
      (silent : ∀ output ∈ told, output = .other) :
      Moves wire before after (.answered slot .nonterminal :: told)
  | activated {after : Client Frame} {told : List (Output Frame)}
      (generation : Nat) (phase : after.phase = .active generation)
      (keeps : Keeps before after)
      (silent : ∀ output ∈ told, output = .other) :
      Moves wire before after (told ++ before.pending.values.map fun pending =>
        .wrote generation pending.frame)

/-- A call moves the client to its outcome. -/
abbrev Ends (wire : Wire Frame) (client : Client Frame)
    (outcome : Outcome Frame) : Prop :=
  Moves wire client outcome.1 (outputs outcome.2)

variable {wire : Wire Frame}

theorem Keeps.refl (client : Client Frame) : Keeps client client :=
  ⟨le_rfl, rfl, rfl⟩

theorem Moves.nothing {client : Client Frame} : Moves wire client client [] :=
  .quiet (fun _ h => h) (.refl client) fun _ hmem => absurd hmem List.not_mem_nil

namespace Client

variable {client : Client Frame}

theorem beginOwn_moves (begins : Nat) (client : Client Frame) :
    Ends wire client (client.beginOwn begins) :=
  .quiet (fun _ h => h) ⟨Nat.le_add_right _ _, rfl, rfl⟩ fun _ hmem =>
    List.eq_of_mem_replicate hmem

theorem reconnect_moves (client : Client Frame) {told : List (Output Frame)}
    (hother : ∀ output ∈ told, output = .other) :
    Ends wire client (client.reconnect told) := by
  refine .quiet (fun _ h => nomatch h) ⟨le_rfl, rfl, rfl⟩ fun output hmem => ?_
  rcases List.mem_append.1 hmem with hmem | hmem
  · exact hother output hmem
  · exact List.mem_singleton.1 hmem

theorem ownOutcome_moves (outcome : OwnOutcome) (client : Client Frame) :
    Ends wire client (client.ownOutcome outcome) := by
  cases outcome with
  | refused => exact .nothing
  | kept begins => exact beginOwn_moves begins client
  | reconnect =>
      exact reconnect_moves client fun _ hmem => List.mem_singleton.1 hmem

theorem answer_reconnect_moves {slot : Slot} {pending : Pending Frame}
    (held : client.pending.get? slot = some pending) :
    Ends wire client (client.reconnect [.answered slot .nonterminal]) :=
  .replied slot pending held (.inr fun _ h => nomatch h) ⟨le_rfl, rfl, rfl⟩
    fun _ hmem => List.mem_singleton.1 hmem

theorem get?_foldl_erase {digests : OrderedMap Nat Nat} {forgotten : List Nat}
    {identity : Nat}
    (h : (forgotten.foldl (fun digests oldest => digests.erase oldest)
      digests).get? identity ≠ none) : digests.get? identity ≠ none := by
  induction forgotten generalizing digests with
  | nil => exact h
  | cons oldest forgotten ih =>
      obtain ⟨digest, hdigest⟩ := Option.ne_none_iff_exists'.1 (ih h)
      rw [(OrderedMap.get?_erase.1 hdigest).1]
      exact Option.some_ne_none _

theorem rememberCompleted_get? {identity digest other : Nat}
    (h : (client.rememberCompleted identity digest).completedDigests.get?
      other ≠ none) :
    client.completedDigests.get? other ≠ none ∨ other = identity := by
  have hinsert := get?_foldl_erase h
  by_cases hother : other = identity
  · exact .inr hother
  · rw [OrderedMap.get?_insert, if_neg hother] at hinsert
    exact .inl hinsert

theorem settle_moves {slot : Slot} {pending : Pending Frame}
    (held : client.pending.get? slot = some pending) (remember : Bool)
    (answer : Answer)
    (hremember : remember = true →
      answer = .terminal ∨ slot.family = .mutation ∧ answer = .error) :
    Moves wire client (client.settle slot pending remember)
      [.answered slot answer] := by
  cases remember with
  | false => exact .settled slot pending answer held rfl rfl rfl fun _ h => .inl h
  | true =>
      refine .settled slot pending answer held rfl rfl rfl fun identity h => ?_
      rcases rememberCompleted_get? h with hold | rfl
      · exact .inl hold
      · exact .inr ⟨rfl, hremember rfl⟩

theorem waiting_eq_some {family : Family} {requestId : Nat} {slot : Slot}
    {pending : Pending Frame}
    (h : client.waiting family requestId = some (slot, pending)) :
    client.pending.get? slot = some pending ∧ slot.family = family := by
  have hfound := List.find?_some h
  simp only [Bool.and_eq_true, decide_eq_true_eq] at hfound
  exact ⟨OrderedMap.get?_eq_some_iff.2 (List.mem_of_find?_eq_some h), hfound.1⟩

theorem handleErrorResponse_moves (requestId : Nat) (own : OwnOutcome)
    (client : Client Frame) :
    Ends wire client (client.handleErrorResponse requestId own) := by
  unfold handleErrorResponse
  split
  next slot pending h =>
    obtain ⟨family, -, hwaiting⟩ := List.exists_of_findSome?_eq_some h
    refine settle_moves (waiting_eq_some hwaiting).1 _ .error fun hfamily => ?_
    exact .inr ⟨of_decide_eq_true hfamily, rfl⟩
  · exact ownOutcome_moves own client

theorem handleResponse_moves (requestId : Nat) (result : Result)
    (client : Client Frame) :
    Ends wire client (client.handleResponse requestId result) := by
  cases result with
  | error own => exact handleErrorResponse_moves requestId own client
  | own own => exact ownOutcome_moves own client
  | mutation completed names =>
      simp only [handleResponse]
      split
      · exact .nothing
      next slot pending h =>
        have held := (waiting_eq_some h).1
        cases names with
        | false => exact .nothing
        | true =>
            cases completed with
            | false => exact answer_reconnect_moves held
            | true => exact settle_moves held true .terminal fun _ => .inl rfl
  | project terminal =>
      simp only [handleResponse]
      split
      · exact .nothing
      next slot pending h =>
        obtain ⟨held, hfamily⟩ := waiting_eq_some h
        cases terminal with
        | false =>
            exact .replied slot pending held (.inl ⟨rfl, hfamily⟩) (.refl client)
              fun _ hmem => absurd hmem List.not_mem_nil
        | true => exact settle_moves held true .terminal fun _ => .inl rfl
  | retirement terminal =>
      simp only [handleResponse]
      split
      · exact .nothing
      next slot pending h =>
        refine settle_moves (waiting_eq_some h).1 terminal _
          fun hterminal => .inl ?_
        rw [hterminal]
        rfl
  | session terminal =>
      simp only [handleResponse]
      split
      · exact .nothing
      next slot pending h =>
        have held := (waiting_eq_some h).1
        cases terminal with
        | false => exact answer_reconnect_moves held
        | true => exact settle_moves held true .terminal fun _ => .inl rfl

theorem handleNegotiation_moves (generation : Nat) (message : Message)
    (client : Client Frame) :
    Ends wire client (client.handleNegotiation generation message) := by
  cases message with
  | serverHello begins =>
      exact .activated generation rfl ⟨Nat.le_add_right _ _, rfl, rfl⟩
        fun _ hmem => List.eq_of_mem_replicate hmem
  | versionRejected =>
      exact .quiet (fun _ h => nomatch h) ⟨le_rfl, rfl, rfl⟩ fun _ hmem =>
        List.mem_singleton.1 hmem
  | response => exact .nothing
  | invalidation => exact .nothing
  | unexpected => exact .nothing

theorem handleActive_moves (message : Message) (client : Client Frame) :
    Ends wire client (client.handleActive message) := by
  cases message with
  | response requestId result => exact handleResponse_moves requestId result client
  | invalidation begins => exact beginOwn_moves begins client
  | serverHello => exact .nothing
  | versionRejected => exact .nothing
  | unexpected => exact .nothing

theorem receiveFrame_moves (generation : Nat) (message : Option Message)
    (client : Client Frame) :
    Ends wire client (client.receiveFrame generation message) := by
  unfold receiveFrame
  split
  · exact .nothing
  · cases message with
    | none => exact .nothing
    | some message =>
        simp only
        split
        · exact handleNegotiation_moves generation message client
        · exact handleActive_moves message client
        · exact .nothing

theorem pendingDigest_eq_none {identity : Nat}
    (h : client.pendingDigest identity = none) (family : Family) :
    client.pending.get? ⟨family, identity⟩ = none := by
  have hnone := List.findSome?_eq_none_iff.1 h family
  cases family <;> simpa using hnone

theorem retryableIdentityExists_false {identity digest : Nat}
    (h : client.retryableIdentityExists identity digest = .ok false) :
    client.pendingDigest identity = none ∧
      client.completedDigests.get? identity = none := by
  simp only [retryableIdentityExists] at h
  split at h
  · cases h
  · simpa [List.isEmpty_iff] using Except.ok.inj h

theorem pendingDigest_eq_some {identity digest : Nat}
    (h : client.pendingDigest identity = some digest) :
    ∃ family pending, client.pending.get? ⟨family, identity⟩ = some pending ∧
      pending.digest = digest := by
  obtain ⟨family, -, hget⟩ := List.exists_of_findSome?_eq_some h
  exact ⟨family, Option.map_eq_some_iff.1 hget⟩

theorem submit_changed (wire : Wire Frame) {request : Request} {digest : Nat}
    (hne : digest ≠ request.digest)
    (hknown : client.pendingDigest request.identity = some digest ∨
      client.completedDigests.get? request.identity = some digest) :
    ∃ error, client.submit wire request = (client, .error error) := by
  have hchanged : client.retryableIdentityExists request.identity
      request.digest = .error .changedCommandIdentity := by
    refine if_pos (List.any_eq_true.2 ⟨digest, ?_, by simpa using hne⟩)
    rcases hknown with hpending | hcompleted
    · exact List.mem_append_left _ (by simp [hpending])
    · exact List.mem_append_right _ (by simp [hcompleted])
  unfold submit
  split
  · exact ⟨_, rfl⟩
  · rw [hchanged]
    exact ⟨_, rfl⟩

/-- A submission is refused, or its identity is known, or it starts. -/
inductive Submits (wire : Wire Frame) (client : Client Frame)
    (request : Request) : Outcome Frame → Prop
  | refused (error : ClientError) (drawn : Nat) :
      Submits wire client request
        ({ client with nextRequestId := client.nextRequestId + drawn },
          .error error)
  | known : client.pendingDigest request.identity ≠ none ∨
      client.completedDigests.get? request.identity ≠ none →
      Submits wire client request (client, .ok [])
  | starts {after : Client Frame} (pending : Pending Frame) :
      client.pendingDigest request.identity = none →
      Starts wire client after request pending →
      Submits wire client request (after, .ok (client.write pending.frame))

theorem submit_cases (wire : Wire Frame) (request : Request)
    (client : Client Frame) :
    Submits wire client request (client.submit wire request) := by
  unfold submit
  split
  · exact .refused _ 0
  · split
    · exact .refused _ 0
    next hexists =>
      refine .known ?_
      by_contra hnone
      push Not at hnone
      simp [retryableIdentityExists, hnone] at hexists
    next hexists =>
      obtain ⟨hpending, hcompleted⟩ := retryableIdentityExists_false hexists
      split
      · exact .refused _ 0
      next hroom =>
        simp only
        split
        · exact .refused _ 1
        next frame hencoded =>
          exact .starts ⟨client.nextRequestId, request.digest, frame⟩ hpending
            ⟨hencoded, rfl, rfl, rfl, rfl, pendingDigest_eq_none hpending,
              hcompleted, not_le.1 hroom, rfl, rfl⟩

theorem submit_moves (wire : Wire Frame) (request : Request)
    (client : Client Frame) :
    Ends wire client (client.submit wire request) := by
  have hcases := submit_cases wire request client
  generalize client.submit wire request = outcome at hcases ⊢
  cases hcases with
  | refused error drawn =>
      exact .quiet (fun _ h => h) ⟨Nat.le_add_right _ _, rfl, rfl⟩
        fun _ hmem => absurd hmem List.not_mem_nil
  | known => exact .nothing
  | starts pending _ starts => exact .submitted request pending starts

/-- Everything a client does is one of the moves. -/
theorem step_moves (wire : Wire Frame) (client : Client Frame)
    (input : Input) :
    Ends wire client (client.step wire input) := by
  have hreconnect : Ends wire client (client.reconnect []) :=
    client.reconnect_moves fun _ hmem => absurd hmem List.not_mem_nil
  cases input with
  | start =>
      simp only [step]
      split
      · exact hreconnect
      · exact .nothing
  | connected generation =>
      simp only [step, connected]
      split
      · exact .quiet (fun _ h => nomatch h) ⟨le_rfl, rfl, rfl⟩ fun _ hmem =>
          List.mem_singleton.1 hmem
      · exact .nothing
  | lost generation =>
      simp only [step, lost]
      split
      · exact .nothing
      · split
        · exact hreconnect
        · exact .nothing
  | receive generation message =>
      exact receiveFrame_moves generation message client
  | submit request => exact submit_moves wire request client
  | continueProject identity =>
      simp only [step, continueProject]
      split
      · exact .nothing
      next pending held => exact .resent _ pending held
  | ownRequests begins => exact beginOwn_moves begins client

end Client

/-! Commands that are carried. -/

def Silent (slot : Slot) (told : List (Output Frame)) : Prop :=
  ∀ answer, .answered slot answer ∉ told

/-- A frame was written on a generation and not answered since. -/
def Outstanding (trace : List (Output Frame)) (generation : Nat) (slot : Slot)
    (frame : Frame) : Prop :=
  ∃ before after, trace = before ++ .wrote generation frame :: after ∧
    Silent slot after

/-- A command waits, and on an active generation its frame is outstanding. -/
def Carried (run : Run Frame) (slot : Slot) (pending : Pending Frame) : Prop :=
  run.client.pending.get? slot = some pending ∧
    ∀ generation, run.client.phase = .active generation →
      Outstanding run.trace generation slot pending.frame

/-- The last answer to an identity. -/
def LastAnswer (trace : List (Output Frame)) (slot : Slot) (answer : Answer) :
    Prop :=
  ∃ before after, trace = before ++ .answered slot answer :: after ∧
    ∀ other : Slot, other.identity = slot.identity → Silent other after

variable {trace told : List (Output Frame)} {before after : Client Frame}
  {slot : Slot} {pending : Pending Frame} {generation : Nat} {frame : Frame}

theorem Silent.of_other (h : ∀ output ∈ told, output = .other) :
    Silent slot told :=
  fun _ hmem => nomatch h _ hmem

theorem Silent.append {more : List (Output Frame)} (hfirst : Silent slot told)
    (hsecond : Silent slot more) : Silent slot (told ++ more) :=
  fun answer hmem =>
    (List.mem_append.1 hmem).elim (hfirst answer) (hsecond answer)

theorem silent_write (client : Client Frame) : Silent slot (client.write frame) := by
  intro answer hmem
  unfold Client.write at hmem
  split at hmem
  · cases List.mem_singleton.1 hmem
  · exact absurd hmem List.not_mem_nil

theorem Outstanding.append (h : Outstanding trace generation slot frame)
    (hsilent : Silent slot told) :
    Outstanding (trace ++ told) generation slot frame := by
  obtain ⟨before, after, rfl, hafter⟩ := h
  exact ⟨before, after ++ told, List.append_assoc .., hafter.append hsilent⟩

theorem outstanding_of_mem (hmem : .wrote generation frame ∈ told)
    (hsilent : Silent slot told) :
    Outstanding (trace ++ told) generation slot frame := by
  obtain ⟨first, last, rfl⟩ := List.append_of_mem hmem
  refine ⟨trace ++ first, last, (List.append_assoc ..).symm, fun answer hlast => ?_⟩
  exact hsilent answer
    (List.mem_append_right _ (List.mem_cons_of_mem _ hlast))

theorem LastAnswer.append {answer : Answer} (h : LastAnswer trace slot answer)
    (hsilent : ∀ other : Slot, other.identity = slot.identity →
      Silent other told) : LastAnswer (trace ++ told) slot answer := by
  obtain ⟨before, after, rfl, hafter⟩ := h
  exact ⟨before, after ++ told, List.append_assoc .., fun other hother =>
    (hafter other hother).append (hsilent other hother)⟩

theorem get?_erased (h : after.pending = before.pending.erase slot) :
    after.pending.get? slot = none := by
  rw [h, Option.eq_none_iff_forall_ne_some]
  exact fun value hget => (OrderedMap.get?_erase.1 hget).2 rfl

/-- Only commands that wait are answered; one that stays is a project command,
or the connection is given up. -/
theorem Moves.answered (h : Moves wire before after told) {answer : Answer}
    (hmem : .answered slot answer ∈ told) :
    ∃ held, before.pending.get? slot = some held ∧
      (after.pending.get? slot = none ∨
        (answer = .nonterminal ∧ slot.family = .project ∧
          ∃ more, told = .answered slot .nonterminal :: more ∧
            ∀ output ∈ more, output = .other) ∨
        ∀ generation, after.phase ≠ .active generation) := by
  cases h with
  | quiet active keeps silent => cases silent _ hmem
  | submitted => exact absurd hmem (silent_write before answer)
  | resent => exact absurd hmem (silent_write before answer)
  | settled other old found held phase numbers erased =>
      cases List.mem_singleton.1 hmem
      exact ⟨old, held, .inl (get?_erased erased)⟩
  | @replied _ more other old held phase keeps silent =>
      rcases List.mem_cons.1 hmem with hmem | hmem
      · cases hmem
        refine ⟨old, held, .inr ?_⟩
        rcases phase with ⟨-, hfamily⟩ | hphase
        · exact .inl ⟨rfl, hfamily, more, rfl, silent⟩
        · exact .inr hphase
      · cases silent _ hmem
  | activated generation phase keeps silent =>
      rcases List.mem_append.1 hmem with hmem | hmem
      · cases silent _ hmem
      · obtain ⟨pending, -, h⟩ := List.mem_map.1 hmem
        cases h

/-- A command that is not answered stays carried. -/
theorem Carried.step (h : Moves wire before after told) (hsilent : Silent slot told)
    (hcarried : Carried ⟨before, trace⟩ slot pending) :
    Carried ⟨after, trace ++ told⟩ slot pending := by
  obtain ⟨hheld, hout⟩ := hcarried
  have hold : ∀ generation, before.phase = .active generation →
      Outstanding (trace ++ told) generation slot pending.frame :=
    fun generation hphase => (hout generation hphase).append hsilent
  cases h with
  | quiet active keeps =>
      exact ⟨keeps.pending ▸ hheld, fun generation hphase =>
        hold generation (active generation hphase)⟩
  | submitted request new starts =>
      refine ⟨?_, fun generation hphase =>
        hold generation (starts.phase.symm.trans hphase)⟩
      simp only
      rw [starts.inserted, OrderedMap.get?_insert, if_neg, hheld]
      intro heq
      rw [heq] at hheld
      exact nomatch (starts.unknown request.slot.family).symm.trans hheld
  | resent => exact ⟨hheld, hold⟩
  | settled other old answer held phase numbers erased =>
      refine ⟨?_, fun generation hphase =>
        hold generation (phase.symm.trans hphase)⟩
      simp only
      rw [erased]
      refine OrderedMap.get?_erase.2 ⟨hheld, ?_⟩
      rintro rfl
      exact hsilent answer List.mem_cons_self
  | replied other old held phase keeps =>
      refine ⟨keeps.pending ▸ hheld, fun generation hactive => ?_⟩
      rcases phase with ⟨rfl, -⟩ | hphase
      · exact hold generation hactive
      · exact absurd hactive (hphase generation)
  | activated current phase keeps =>
      refine ⟨keeps.pending ▸ hheld, fun generation hactive => ?_⟩
      obtain rfl : current = generation :=
        Phase.active.inj (phase.symm.trans hactive)
      refine outstanding_of_mem (List.mem_append_right _ ?_) hsilent
      exact List.mem_map.2 ⟨pending, OrderedMap.mem_values.2 ⟨slot, hheld⟩, rfl⟩

/-! What every run keeps. -/

/-- The frame of a command is that of a request of its family, identity and
digest under the number of the command. -/
def Encodes (wire : Wire Frame) (slot : Slot) (pending : Pending Frame) : Prop :=
  ∃ request : Request, request.slot = slot ∧ request.digest = pending.digest ∧
    wire.encode pending.requestId request = some pending.frame

structure Inv (wire : Wire Frame) (run : Run Frame) : Prop where
  encoded : ∀ slot held, run.client.pending.get? slot = some held →
    Encodes wire slot held ∧ held.requestId < run.client.nextRequestId
  numbered : ∀ first second held other,
    run.client.pending.get? first = some held →
    run.client.pending.get? second = some other →
      held.requestId = other.requestId → first = second
  size : run.client.pending.size ≤ Client.maxInFlight
  once : ∀ first second held other, run.client.pending.get? first = some held →
    run.client.pending.get? second = some other →
      first.identity = second.identity → first = second
  apart : ∀ slot held, run.client.pending.get? slot = some held →
    run.client.completedDigests.get? slot.identity = none
  carried : ∀ slot held, run.client.pending.get? slot = some held →
    Carried run slot held ∨
      slot.family = .project ∧ LastAnswer run.trace slot .nonterminal
  remembered : ∀ identity, run.client.completedDigests.get? identity ≠ none →
    ∃ slot answer, slot.identity = identity ∧
      LastAnswer run.trace slot answer ∧
        (answer = .terminal ∨ slot.family = .mutation ∧ answer = .error)

/-- A move keeps the commands, starts one or settles one. -/
theorem Moves.commands (h : Moves wire before after told) :
    Keeps before after ∨
      (∃ request pending, told = before.write pending.frame ∧
        Starts wire before after request pending) ∨
      ∃ slot answer, told = [.answered slot answer] ∧
        after.nextRequestId = before.nextRequestId ∧
        after.pending = before.pending.erase slot ∧
        ∀ identity, after.completedDigests.get? identity ≠ none →
          before.completedDigests.get? identity ≠ none ∨
            identity = slot.identity ∧ (answer = .terminal ∨
              slot.family = .mutation ∧ answer = .error) := by
  cases h with
  | quiet active keeps => exact .inl keeps
  | submitted request pending starts =>
      exact .inr (.inl ⟨request, pending, rfl, starts⟩)
  | resent => exact .inl (.refl before)
  | settled slot pending answer held phase numbers erased completed =>
      exact .inr (.inr ⟨slot, answer, rfl, numbers, erased, completed⟩)
  | replied slot pending held phase keeps => exact .inl keeps
  | activated generation phase keeps => exact .inl keeps

/-- A command that waits after a move waited before it or is the new one. -/
theorem Moves.held_cases (h : Moves wire before after told)
    (hheld : after.pending.get? slot = some pending) :
    before.pending.get? slot = some pending ∨
      ∃ request, slot = request.slot ∧ told = before.write pending.frame ∧
        Starts wire before after request pending := by
  rcases h.commands with keeps | ⟨request, new, htold, starts⟩ |
    ⟨other, answer, -, -, erased, -⟩
  · exact .inl (keeps.pending ▸ hheld)
  · have hget := hheld
    rw [starts.inserted, OrderedMap.get?_insert] at hget
    split at hget
    next heq =>
      obtain rfl := Option.some.inj hget
      exact .inr ⟨request, heq, htold, starts⟩
    · exact .inl hget
  · rw [erased] at hheld
    exact .inl (OrderedMap.get?_erase.1 hheld).1

theorem Moves.size_le (h : Moves wire before after told)
    (hsize : before.pending.size ≤ Client.maxInFlight) :
    after.pending.size ≤ Client.maxInFlight := by
  rcases h.commands with keeps | ⟨request, new, -, starts⟩ |
    ⟨other, answer, -, -, erased, -⟩
  · exact keeps.pending ▸ hsize
  · rw [starts.inserted]
    exact (OrderedMap.length_insertEntry_le _ _ _).trans starts.room
  · rw [erased]
    exact (List.length_filter_le _ _).trans hsize

/-- What is remembered after a move was remembered before it or is told. -/
theorem Moves.remembered_cases (h : Moves wire before after told) {identity : Nat}
    (hmem : after.completedDigests.get? identity ≠ none) :
    before.completedDigests.get? identity ≠ none ∨
      ∃ slot answer, slot.identity = identity ∧ told = [.answered slot answer] ∧
        after.pending.get? slot = none ∧
          (answer = .terminal ∨ slot.family = .mutation ∧ answer = .error) := by
  rcases h.commands with keeps | ⟨request, new, -, starts⟩ |
    ⟨slot, answer, htold, -, erased, completed⟩
  · exact .inl (keeps.completed ▸ hmem)
  · exact .inl (starts.completed ▸ hmem)
  · rcases completed identity hmem with hold | ⟨rfl, hanswer⟩
    · exact .inl hold
    · exact .inr ⟨slot, answer, rfl, htold, get?_erased erased, hanswer⟩

theorem Inv.once_step (hinv : Inv wire ⟨before, trace⟩)
    (h : Moves wire before after told) {first second : Slot}
    {held other : Pending Frame} (hfirst : after.pending.get? first = some held)
    (hsecond : after.pending.get? second = some other)
    (hidentity : first.identity = second.identity) : first = second := by
  -- A new command is the only one of its identity.
  have hnew : ∀ {request : Request} {old : Slot} {new kept : Pending Frame},
      after.pending.get? old = some kept → old.identity = request.identity →
      Starts wire before after request new → old = request.slot := by
    intro request old new kept hold hsame hstarts
    by_contra hne
    rw [hstarts.inserted, OrderedMap.get?_insert, if_neg hne] at hold
    have habsent := hstarts.unknown old.family
    rw [← hsame] at habsent
    exact nomatch habsent.symm.trans hold
  rcases h.held_cases hfirst with hbefore | ⟨request, rfl, -, hstarts⟩
  · rcases h.held_cases hsecond with hbefore' | ⟨request, rfl, -, hstarts⟩
    · exact hinv.once first second held other hbefore hbefore' hidentity
    · exact hnew hfirst hidentity hstarts
  · exact (hnew hsecond hidentity.symm hstarts).symm

theorem Inv.silent_of_identity (hinv : Inv wire ⟨before, trace⟩)
    (h : Moves wire before after told)
    (hheld : before.pending.get? slot = some pending)
    (hsilent : Silent slot told) (other : Slot)
    (hother : other.identity = slot.identity) : Silent other told := by
  intro answer hmem
  obtain ⟨held, hget, -⟩ := h.answered hmem
  obtain rfl := hinv.once other slot held pending hget hheld hother
  exact hsilent answer hmem

theorem carried_new (hphase : after.phase = before.phase)
    (hheld : after.pending.get? slot = some pending) :
    Carried ⟨after, trace ++ before.write pending.frame⟩ slot pending := by
  refine ⟨hheld, fun generation hactive => ?_⟩
  have hwrite : before.write pending.frame =
      [.wrote generation pending.frame] := by
    rw [Client.write, hphase.symm.trans hactive]
  exact outstanding_of_mem (hwrite ▸ List.mem_singleton_self _)
    (silent_write before)

theorem Inv.carried_step (hinv : Inv wire ⟨before, trace⟩)
    (h : Moves wire before after told)
    (hheld : after.pending.get? slot = some pending) :
    Carried ⟨after, trace ++ told⟩ slot pending ∨
      slot.family = .project ∧ LastAnswer (trace ++ told) slot .nonterminal := by
  rcases h.held_cases hheld with hbefore | ⟨request, -, rfl, hstarts⟩
  · by_cases hsilent : Silent slot told
    · rcases hinv.carried slot pending hbefore with hcarried | ⟨hfamily, hlast⟩
      · exact .inl (hcarried.step h hsilent)
      · exact .inr ⟨hfamily, hlast.append
          (hinv.silent_of_identity h hbefore hsilent)⟩
    · unfold Silent at hsilent
      push Not at hsilent
      obtain ⟨answer, hmem⟩ := hsilent
      obtain ⟨-, -, hnone | ⟨-, hfamily, more, rfl, hother⟩ | hphase⟩ :=
        h.answered hmem
      · exact nomatch hnone.symm.trans hheld
      · exact .inr ⟨hfamily, trace, more, rfl, fun _ _ => Silent.of_other hother⟩
      · exact .inl ⟨hheld, fun generation hactive =>
          absurd hactive (hphase generation)⟩
  · exact .inl (carried_new hstarts.phase hheld)

theorem Inv.apart_step (hinv : Inv wire ⟨before, trace⟩)
    (h : Moves wire before after told)
    (hheld : after.pending.get? slot = some pending) :
    after.completedDigests.get? slot.identity = none := by
  by_contra hmem
  rcases h.remembered_cases hmem with hold | ⟨other, answer, hother, rfl, hgone, -⟩
  · rcases h.held_cases hheld with hbefore | ⟨request, rfl, -, hstarts⟩
    · exact hold (hinv.apart slot pending hbefore)
    · exact hold hstarts.unremembered
  · obtain ⟨held, hget, -⟩ := h.answered (List.mem_singleton_self _)
    rcases h.held_cases hheld with hbefore | ⟨-, -, htold, -⟩
    · obtain rfl := hinv.once other slot held pending hget hbefore hother
      exact nomatch hgone.symm.trans hheld
    · exact silent_write before answer (htold ▸ List.mem_singleton_self _)

theorem Inv.remembered_step (hinv : Inv wire ⟨before, trace⟩)
    (h : Moves wire before after told) {identity : Nat}
    (hmem : after.completedDigests.get? identity ≠ none) :
    ∃ slot answer, slot.identity = identity ∧
      LastAnswer (trace ++ told) slot answer ∧
        (answer = .terminal ∨ slot.family = .mutation ∧ answer = .error) := by
  rcases h.remembered_cases hmem with hold | ⟨slot, answer, rfl, rfl, -, hanswer⟩
  · obtain ⟨slot, answer, rfl, hlast, hanswer⟩ := hinv.remembered identity hold
    refine ⟨slot, answer, rfl, hlast.append fun other hother found hfound => ?_,
      hanswer⟩
    -- Nothing of a remembered identity waits, so nothing of it is answered.
    obtain ⟨held, hget, -⟩ := h.answered hfound
    exact hold (hother ▸ hinv.apart other held hget)
  · exact ⟨slot, answer, rfl, ⟨trace, [], rfl, fun _ _ _ hfound =>
      absurd hfound List.not_mem_nil⟩, hanswer⟩

theorem Moves.number_le (h : Moves wire before after told) :
    before.nextRequestId ≤ after.nextRequestId := by
  rcases h.commands with keeps | ⟨request, new, -, starts⟩ |
    ⟨other, answer, -, numbers, -⟩
  · exact keeps.numbers
  · exact starts.numbers ▸ Nat.le_succ _
  · exact numbers.ge

theorem Inv.encoded_step (hinv : Inv wire ⟨before, trace⟩)
    (h : Moves wire before after told)
    (hheld : after.pending.get? slot = some pending) :
    Encodes wire slot pending ∧ pending.requestId < after.nextRequestId := by
  rcases h.held_cases hheld with hbefore | ⟨request, rfl, -, hstarts⟩
  · obtain ⟨hencodes, hlt⟩ := hinv.encoded slot pending hbefore
    exact ⟨hencodes, hlt.trans_le h.number_le⟩
  · refine ⟨⟨request, rfl, hstarts.digest.symm, ?_⟩, ?_⟩
    · rw [hstarts.number]
      exact hstarts.encoded
    · rw [hstarts.number, hstarts.numbers]
      exact Nat.lt_succ_self _

theorem Inv.numbered_step (hinv : Inv wire ⟨before, trace⟩)
    (h : Moves wire before after told) {first second : Slot}
    {held other : Pending Frame} (hfirst : after.pending.get? first = some held)
    (hsecond : after.pending.get? second = some other)
    (hnumber : held.requestId = other.requestId) : first = second := by
  rcases h.held_cases hfirst with hbefore | ⟨request, rfl, -, hstarts⟩
  · rcases h.held_cases hsecond with hbefore' | ⟨request, rfl, -, hstarts⟩
    · exact hinv.numbered first second held other hbefore hbefore' hnumber
    · have hlt := (hinv.encoded first held hbefore).2
      rw [hnumber, hstarts.number] at hlt
      exact absurd hlt (lt_irrefl _)
  · rcases h.held_cases hsecond with hbefore' | ⟨again, rfl, -, hagain⟩
    · have hlt := (hinv.encoded second other hbefore').2
      rw [← hnumber, hstarts.number] at hlt
      exact absurd hlt (lt_irrefl _)
    · -- Both are the one command that the move inserted.
      by_contra hne
      rw [hstarts.inserted, OrderedMap.get?_insert, if_neg (Ne.symm hne)]
        at hsecond
      exact nomatch (hagain.unknown again.slot.family).symm.trans hsecond

theorem Inv.step (hinv : Inv wire ⟨before, trace⟩)
    (h : Moves wire before after told) : Inv wire ⟨after, trace ++ told⟩ where
  encoded _ _ hheld := hinv.encoded_step h hheld
  numbered _ _ _ _ hfirst hsecond := hinv.numbered_step h hfirst hsecond
  size := h.size_le hinv.size
  once _ _ _ _ hfirst hsecond := hinv.once_step h hfirst hsecond
  apart _ _ hheld := hinv.apart_step h hheld
  carried _ _ hheld := hinv.carried_step h hheld
  remembered _ hmem := hinv.remembered_step h hmem

theorem run_inv (wire : Wire Frame) (capacity : Nat) (inputs : List Input) :
    Inv wire (Run.of wire capacity inputs) := by
  refine List.foldlRecOn inputs (Run.step wire) (motive := Inv wire) ?_
    fun run hinv input _ => hinv.step (Client.step_moves wire run.client input)
  exact ⟨fun _ _ h => (nomatch h), fun _ _ _ _ h => (nomatch h),
    Nat.zero_le _, fun _ _ _ _ h => (nomatch h), fun _ _ h => (nomatch h),
    fun _ _ h => (nomatch h), fun _ h => absurd rfl h⟩

theorem trace_grows (wire : Wire Frame) (inputs : List Input)
    (run : Run Frame) :
    ∃ told, (inputs.foldl (Run.step wire) run).trace = run.trace ++ told := by
  induction inputs generalizing run with
  | nil => exact ⟨[], (List.append_nil _).symm⟩
  | cons input inputs ih =>
      obtain ⟨told, htold⟩ := ih (run.step wire input)
      exact ⟨_, htold.trans (List.append_assoc _ _ _)⟩

/-- A command stays carried over all inputs that do not answer it. -/
theorem Carried.run (wire : Wire Frame) (inputs : List Input) {run : Run Frame}
    {told : List (Output Frame)} (hcarried : Carried run slot pending)
    (htrace : (inputs.foldl (Run.step wire) run).trace = run.trace ++ told)
    (hsilent : Silent slot told) :
    Carried (inputs.foldl (Run.step wire) run) slot pending := by
  induction inputs generalizing run told with
  | nil => exact hcarried
  | cons input inputs ih =>
      obtain ⟨later, hlater⟩ := trace_grows wire inputs (run.step wire input)
      have hsplit := htrace.symm.trans (hlater.trans (List.append_assoc _ _ _))
      obtain rfl := List.append_cancel_left hsplit
      exact ih (hcarried.step (Client.step_moves wire run.client input)
        fun answer hmem => hsilent answer (List.mem_append_left _ hmem)) hlater
        fun answer hmem => hsilent answer (List.mem_append_right _ hmem)

theorem Inv.pendingDigest {run : Run Frame} (hinv : Inv wire run)
    (hheld : run.client.pending.get? slot = some pending) :
    run.client.pendingDigest slot.identity = some pending.digest := by
  cases hdigest : run.client.pendingDigest slot.identity with
  | none =>
      exact nomatch (Client.pendingDigest_eq_none hdigest slot.family).symm.trans
        hheld
  | some digest =>
      obtain ⟨family, other, hother, rfl⟩ := Client.pendingDigest_eq_some hdigest
      rw [hinv.once _ slot other pending hother hheld rfl] at hother
      rw [Option.some.inj (hother.symm.trans hheld)]

/-- A submission that succeeds is carried exactly when its identity is not
remembered and what already waits under it is carried in its own place. -/
theorem Inv.submission {run : Run Frame} (hinv : Inv wire run)
    {request : Request} {told : List (Output Frame)}
    (h : (run.client.submit wire request).2 = .ok told) :
    (∃ pending, pending.digest = request.digest ∧
        Carried (run.step wire (.submit request)) request.slot pending) ↔
      run.client.completedDigests.get? request.identity = none ∧
        ∀ slot pending, run.client.pending.get? slot = some pending →
          slot.identity = request.identity →
            slot = request.slot ∧ Carried run slot pending := by
  have hcases := Client.submit_cases wire request run.client
  generalize houtcome : run.client.submit wire request = outcome at h hcases
  cases hcases with
  | refused => cases h
  | known hknown =>
    have hrun : run.step wire (.submit request) = run := by
      simp only [Run.step, Client.step, houtcome, outputs, List.append_nil]
    rw [hrun]
    constructor
    · rintro ⟨pending, -, hcarried⟩
      refine ⟨hinv.apart request.slot pending hcarried.1,
        fun other held hother hsame => ?_⟩
      obtain rfl := hinv.once other request.slot held pending hother hcarried.1
        hsame
      obtain rfl := Option.some.inj (hcarried.1.symm.trans hother)
      exact ⟨rfl, hcarried⟩
    · rintro ⟨hcompleted, hall⟩
      have hdigest := hknown.resolve_right (absurd hcompleted ·)
      obtain ⟨digest, hdigest⟩ := Option.ne_none_iff_exists'.1 hdigest
      obtain ⟨family, pending, hheld, rfl⟩ :=
        Client.pendingDigest_eq_some hdigest
      obtain ⟨hslot, hcarried⟩ := hall _ pending hheld rfl
      refine ⟨pending, ?_, hslot ▸ hcarried⟩
      -- Another digest would have been refused.
      by_contra hne
      obtain ⟨error, herror⟩ := Client.submit_changed wire hne (.inl hdigest)
      cases houtcome.symm.trans herror
  | starts pending hpending hstarts =>
    refine ⟨fun _ => ⟨hstarts.unremembered, fun slot held hslot hsame => ?_⟩,
      fun _ => ⟨pending, hstarts.digest, ?_⟩⟩
    · exact nomatch (hsame ▸ hstarts.unknown slot.family).symm.trans hslot
    · simp only [Run.step, Client.step, houtcome, outputs]
      refine carried_new hstarts.phase ?_
      rw [hstarts.inserted, OrderedMap.get?_insert, if_pos rfl]

/-- A client on an active generation with one command submitted and answered. -/
def answeredOnce (kind : RequestKind) (result : Result) : List Input :=
  [.start, .connected 1, .receive 1 (some (.serverHello 0)),
    .submit ⟨kind, 7, 5, 0⟩, .receive 1 (some (.response 1 result))]

def numberWire : Wire Nat := ⟨fun requestId _ => some requestId, fun _ => none⟩

end Law

end RetryableClient

end Hq
