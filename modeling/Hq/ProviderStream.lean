/-
The reader of the provider's output.  Frames are lines of JSON; they are
collected during one read, thinned, and sent on when the read is used up.
-/
import Hq.Fallible

namespace Hq.ProviderStream

/-- JSON as far as the reader looks into it. -/
inductive Value where
  | null
  | bool (value : Bool)
  | number (text : String)
  | string (text : String)
  | array (items : List Value)
  | object (members : List (String × Value))

def Value.asStr : Value → Option String
  | .string text => some text
  | _ => none

def Value.asObject : Value → Option (List (String × Value))
  | .object members => some members
  | _ => none

structure WireError where
  code : Int
  message : String
  data : Value

structure WireMessage where
  id : Option Value
  method : Option String
  params : Option Value
  result : Option Value
  error : Option WireError

inductive TransportFailure where
  | malformed | oversized | truncated | read
deriving DecidableEq

inductive TransportRead where
  | message (message : WireMessage)
  | closed
  | failed (failure : TransportFailure)

def maxCodexFrameBytes : Nat := 4 * 1024 * 1024

def newline : UInt8 := 10

def validEnvelope (message : WireMessage) : Bool :=
  let request := message.id.isSome && message.method.isSome &&
    message.result.isNone && message.error.isNone
  let notification := message.id.isNone && message.method.isSome &&
    message.result.isNone && message.error.isNone
  let response := message.id.isSome && message.method.isNone &&
    (message.result.isSome ^^ message.error.isSome)
  request || notification || response

/-- The method, thread, turn and item of a notification that a later one of
the same four may replace. -/
def replaceableNotificationKey (message : WireMessage) :
    Option (String × String × String × String) :=
  if message.id.isSome then none
  else do
    let method ← message.method
    if method ∈ ["item/plan/delta", "item/commandExecution/outputDelta",
        "item/fileChange/outputDelta", "item/mcpToolCall/progress"] then do
      let members ← message.params.bind Value.asObject
      let text (name : String) := (members.lookup name).bind Value.asStr
      let thread ← text "threadId"
      let turn ← text "turnId"
      let item ← text "itemId"
      some (method, thread, turn, item)
    else none

/-- Two notifications of one method, thread, turn and item. -/
def replaces (message previous : WireMessage) : Bool :=
  (replaceableNotificationKey previous).any fun key =>
    replaceableNotificationKey message = some key

/-- Push a message, or put it in the place of the last one. -/
def pushCoalesced (messages : List WireMessage) (message : WireMessage) :
    List WireMessage × Bool :=
  if messages.getLast?.any (replaces message) then
    (messages.dropLast ++ [message], true)
  else (messages ++ [message], false)

def controlIdPrefix : String := "hq-control-"

def maxControlRequests : Nat := 8

/-- The control calls that wait, and the replies that reached them. -/
structure ControlResponses where
  closed : Bool := false
  waiting : List String := []
  answered : List (String × WireMessage) := []

/-- The control call that a message replies to. -/
def controlId (message : WireMessage) : Option String :=
  ((message.id.bind Value.asStr).filter fun id =>
    id.startsWith controlIdPrefix).filter fun _ => message.method.isNone

namespace ControlResponses

def route (controls : ControlResponses) (message : WireMessage) :
    ControlResponses × Option WireMessage :=
  match controlId message with
  | none => (controls, some message)
  | some id =>
      if id ∈ controls.waiting then
        ({ controls with
            waiting := controls.waiting.erase id
            answered := controls.answered ++ [(id, message)] }, none)
      else (controls, none)

def close (controls : ControlResponses) : ControlResponses :=
  { controls with closed := true, waiting := [] }

/-- A control call starts to wait. -/
def request (controls : ControlResponses) (id : String) : ControlResponses :=
  if controls.closed then controls
  else if maxControlRequests ≤ controls.waiting.length then controls
  else { controls with waiting := id :: controls.waiting }

/-- A control call stops waiting. -/
def forget (controls : ControlResponses) (id : String) : ControlResponses :=
  { controls with waiting := controls.waiting.erase id }

end ControlResponses

/-- What happens while one read is used up. -/
inductive Event where
  | byte (value : UInt8)
  | request (id : String)
  | forget (id : String)

structure Reader where
  pending : List UInt8 := []
  ready : List WireMessage := []
  coalesced : Nat := 0
  controls : ControlResponses := {}
  incoming : List TransportRead := []
  transportCoalesced : List Nat := []
  returned : Bool := false

/-- How the reads end. -/
inductive Ending where
  | endOfFile | readError
deriving DecidableEq

section Frames

variable (fromSlice : List UInt8 → Option WireMessage)

/-- The message of a line, if it is a valid frame. -/
def validFrame (line : List UInt8) : Option WireMessage :=
  (fromSlice line).filter validEnvelope

namespace Reader

/-- Send messages and a last status, and return. -/
def fail (reader : Reader) (messages : List WireMessage)
    (failure : TransportFailure) : Reader :=
  { reader with
    controls := reader.controls.close
    incoming := reader.incoming ++ messages.map .message ++ [.failed failure]
    returned := true }

def readByte (reader : Reader) (byte : UInt8) : Reader :=
  if reader.returned then reader
  else if byte = newline then
    -- an empty line is refused without sending what is ready
    if reader.pending = [] then reader.fail [] .malformed
    else match validFrame fromSlice reader.pending with
      | none => { reader with pending := [] }.fail reader.ready .malformed
      | some message =>
          match reader.controls.route message with
          | (controls, none) => { reader with pending := [], controls }
          | (controls, some message) =>
              { reader with
                pending := []
                controls
                ready := (pushCoalesced reader.ready message).1
                coalesced := reader.coalesced +
                  (pushCoalesced reader.ready message).2.toNat }
  else if reader.pending.length = maxCodexFrameBytes then
    reader.fail [] .oversized
  else { reader with pending := reader.pending ++ [byte] }

def readEvent (reader : Reader) : Event → Reader
  | .byte value => readByte fromSlice reader value
  | .request id => { reader with controls := reader.controls.request id }
  | .forget id => { reader with controls := reader.controls.forget id }

/-- Send what is ready at the end of a read. -/
def flush (reader : Reader) : Reader :=
  if reader.returned then reader
  else
    { reader with
      incoming := reader.incoming ++ reader.ready.map .message
      transportCoalesced := reader.transportCoalesced ++
        (if 0 < reader.coalesced then [reader.coalesced] else []) }

def readChunk (reader : Reader) (events : List Event) : Reader :=
  (events.foldl (readEvent fromSlice)
    { reader with ready := [], coalesced := 0 }).flush

/-- The status sent when no further byte comes. -/
def terminal (pending : List UInt8) : Ending → TransportRead
  | .endOfFile => if pending = [] then .closed else .failed .truncated
  | .readError => .failed .read

def finish (reader : Reader) (ending : Ending) : Reader :=
  if reader.returned then reader
  else
    { reader with
      controls := reader.controls.close
      incoming := reader.incoming ++ [terminal reader.pending ending]
      returned := true }

end Reader

def readFrames (reads : List (List Event)) (ending : Ending) : Reader :=
  (reads.foldl (Reader.readChunk fromSlice) {}).finish ending

/-! The stream without cuts. -/

inductive Fault where
  | emptyLine | badFrame | oversized
deriving DecidableEq

def Fault.failure : Fault → TransportFailure
  | .emptyLine | .badFrame => .malformed
  | .oversized => .oversized

/-- The valid frames up to the first fault, and the unfinished line. -/
structure Scan where
  messages : List WireMessage := []
  pending : List UInt8 := []
  fault : Option Fault := none

def scanByte (scan : Scan) (byte : UInt8) : Scan :=
  if scan.fault.isSome then scan
  else if byte = newline then
    if scan.pending = [] then { scan with fault := some .emptyLine }
    else match validFrame fromSlice scan.pending with
      | none => { scan with fault := some .badFrame }
      | some message =>
          { scan with pending := [], messages := scan.messages ++ [message] }
  else if scan.pending.length = maxCodexFrameBytes then
    { scan with fault := some .oversized }
  else { scan with pending := scan.pending ++ [byte] }

def scanBytes (scan : Scan) (bytes : List UInt8) : Scan :=
  bytes.foldl (scanByte fromSlice) scan

def Scan.status (scan : Scan) (ending : Ending) : TransportRead :=
  match scan.fault with
  | some fault => .failed fault.failure
  | none => Reader.terminal scan.pending ending

/-- The messages that reply to no control call. -/
def ordinary (messages : List WireMessage) : List WireMessage :=
  messages.filter fun message => (controlId message).isNone

def bytesOf (events : List Event) : List UInt8 :=
  events.filterMap fun
    | .byte value => some value
    | _ => none

/-- What is ready after the messages of one read. -/
def coalesce (messages : List WireMessage) : List WireMessage :=
  (ordinary messages).foldl
    (fun ready message => (pushCoalesced ready message).1) []

/-- What a read sends of its messages. -/
def sendRead (messages : List WireMessage) : Option Fault → List WireMessage
  | none | some .badFrame => coalesce messages
  | some .emptyLine | some .oversized => []

/-- The frames that bytes complete after a point of the stream. -/
def framesFrom (scan : Scan) (bytes : List UInt8) : List WireMessage :=
  (scanBytes fromSlice scan bytes).messages.drop scan.messages.length

/-- The messages sent after a point of the stream. -/
def sentFrom (scan : Scan) : List (List Event) → List WireMessage
  | [] => []
  | read :: reads =>
      let next := scanBytes fromSlice scan (bytesOf read)
      sendRead (framesFrom fromSlice scan (bytesOf read)) next.fault ++
        sentFrom next reads

end Frames

/-! The reader follows the scan. -/

section Follows

variable {fromSlice : List UInt8 → Option WireMessage} {reader : Reader}
  {scan : Scan}

@[simp] theorem ordinary_append (messages more : List WireMessage) :
    ordinary (messages ++ more) = ordinary messages ++ ordinary more :=
  List.filter_append ..

theorem coalesce_reply {messages : List WireMessage} {message : WireMessage}
    {id : String} (h : controlId message = some id) :
    coalesce (messages ++ [message]) = coalesce messages := by
  simp [coalesce, ordinary, h]

theorem coalesce_message {messages : List WireMessage} {message : WireMessage}
    (h : controlId message = none) :
    coalesce (messages ++ [message]) =
      (pushCoalesced (coalesce messages) message).1 := by
  simp [coalesce, ordinary, h]

/-- What one byte does to the control calls. -/
inductive Takes (scan next : Scan) (before : ControlResponses) :
    ControlResponses → Prop
  | nothing : next.messages = scan.messages → Takes scan next before before
  | frame {message : WireMessage} :
      next.messages = scan.messages ++ [message] →
      Takes scan next before (before.route message).1
  | fault : next.messages = scan.messages → next.fault.isSome = true →
      Takes scan next before before.close

theorem route_closed (controls : ControlResponses) (message : WireMessage) :
    (controls.route message).1.closed = controls.closed := by
  rw [ControlResponses.route]
  split
  · rfl
  · split
    · rfl
    · rfl

theorem request_closed (controls : ControlResponses) (id : String) :
    (controls.request id).closed = controls.closed := by
  rw [ControlResponses.request]
  repeat' split
  all_goals rfl

/-- Inside a read that began after the messages `base` with `delivered` sent. -/
inductive Follows (base delivered : List WireMessage) (reader : Reader)
    (scan : Scan) : Prop
  | reading {fresh : List WireMessage} :
      reader.returned = false → reader.controls.closed = false →
      scan.fault = none → reader.pending = scan.pending →
      scan.messages = base ++ fresh → reader.incoming = delivered.map .message →
      reader.ready = coalesce fresh → Follows base delivered reader scan
  | stopped {fault : Fault} {fresh : List WireMessage} :
      reader.returned = true → scan.fault = some fault →
      scan.messages = base ++ fresh →
      reader.incoming = (delivered ++ sendRead fresh fault).map .message ++
        [.failed fault.failure] →
      Follows base delivered reader scan

/-- Between two reads. -/
inductive Sent (sent : List WireMessage) (reader : Reader) (scan : Scan) : Prop
  | waiting :
      reader.returned = false → reader.controls.closed = false →
      scan.fault = none → reader.pending = scan.pending →
      reader.incoming = sent.map .message → Sent sent reader scan
  | stopped {fault : Fault} :
      reader.returned = true → scan.fault = some fault →
      reader.incoming = sent.map .message ++ [.failed fault.failure] →
      Sent sent reader scan

variable {base delivered : List WireMessage}

theorem scanByte_of_fault {fault : Fault} (h : scan.fault = some fault)
    (byte : UInt8) :
    scanByte fromSlice scan byte = scan := by
  rw [scanByte, h]
  rfl

theorem readByte_follows (h : Follows base delivered reader scan) (byte : UInt8) :
    Follows base delivered (reader.readByte fromSlice byte)
        (scanByte fromSlice scan byte) ∧
      Takes scan (scanByte fromSlice scan byte) reader.controls
        (reader.readByte fromSlice byte).controls := by
  cases h with
  | stopped hreturned hfault hmessages hincoming =>
      rw [scanByte_of_fault hfault, Reader.readByte, if_pos hreturned]
      exact ⟨.stopped hreturned hfault hmessages hincoming, .nothing rfl⟩
  | @reading fresh hreturned hclosed hfault hpending hmessages hincoming hready =>
      rw [Reader.readByte, scanByte, hreturned, hfault, hpending]
      simp only [Bool.false_eq_true, Option.isSome_none, if_false]
      by_cases hbyte : byte = newline
      · rw [if_pos hbyte, if_pos hbyte]
        by_cases hempty : scan.pending = []
        · rw [if_pos hempty, if_pos hempty]
          refine ⟨@Follows.stopped _ _ _ _ .emptyLine fresh rfl rfl hmessages ?_,
            .fault rfl rfl⟩
          simp [Reader.fail, hincoming, sendRead, Fault.failure]
        · rw [if_neg hempty, if_neg hempty]
          cases validFrame fromSlice scan.pending with
          | none =>
              refine ⟨@Follows.stopped _ _ _ _ .badFrame fresh rfl rfl hmessages ?_,
                .fault rfl rfl⟩
              simp [Reader.fail, hincoming, hready, sendRead, Fault.failure]
          | some message =>
              have hnext : scan.messages ++ [message] =
                  base ++ (fresh ++ [message]) := by
                rw [hmessages, List.append_assoc]
              have hopen := (route_closed reader.controls message).trans hclosed
              have htakes : Takes scan
                  { messages := scan.messages ++ [message] } reader.controls
                  (reader.controls.route message).1 := .frame rfl
              cases hid : controlId message with
              | none =>
                  have hroute : reader.controls.route message =
                      (reader.controls, some message) := by
                    rw [ControlResponses.route, hid]
                  simp only [hroute] at hopen htakes ⊢
                  refine ⟨.reading rfl hopen rfl rfl hnext hincoming ?_, htakes⟩
                  rw [coalesce_message hid, hready]
              | some id =>
                  obtain ⟨controls, hroute⟩ : ∃ controls,
                      reader.controls.route message = (controls, none) := by
                    rw [ControlResponses.route, hid]
                    dsimp only
                    split
                    · exact ⟨_, rfl⟩
                    · exact ⟨_, rfl⟩
                  simp only [hroute] at hopen htakes ⊢
                  refine ⟨.reading rfl hopen rfl rfl hnext hincoming ?_, htakes⟩
                  rw [coalesce_reply hid, hready]
      · rw [if_neg hbyte, if_neg hbyte]
        by_cases hlong : scan.pending.length = maxCodexFrameBytes
        · rw [if_pos hlong, if_pos hlong]
          refine ⟨@Follows.stopped _ _ _ _ .oversized fresh rfl rfl hmessages ?_,
            .fault rfl rfl⟩
          simp [Reader.fail, hincoming, sendRead, Fault.failure]
        · rw [if_neg hlong, if_neg hlong]
          exact ⟨.reading rfl hclosed rfl rfl hmessages hincoming hready,
            .nothing rfl⟩

theorem readEvent_follows (h : Follows base delivered reader scan)
    (event : Event) :
    Follows base delivered (reader.readEvent fromSlice event)
      (scanBytes fromSlice scan (bytesOf [event])) := by
  cases event with
  | byte value => exact (readByte_follows h value).1
  | request id | forget id =>
      cases h with
      | stopped hreturned hfault hmessages hincoming =>
          exact .stopped hreturned hfault hmessages hincoming
      | reading hreturned hclosed hfault hpending hmessages hincoming hready =>
          refine .reading hreturned ?_ hfault hpending hmessages hincoming hready
          first
          | exact hclosed
          | exact (request_closed _ id).trans hclosed

theorem bytesOf_cons (event : Event) (events : List Event) :
    bytesOf (event :: events) = bytesOf [event] ++ bytesOf events := by
  rw [← List.singleton_append]
  exact List.filterMap_append ..

theorem scanBytes_append (scan : Scan) (bytes more : List UInt8) :
    scanBytes fromSlice scan (bytes ++ more) =
      scanBytes fromSlice (scanBytes fromSlice scan bytes) more :=
  List.foldl_append

theorem bytesOf_flatten_cons (read : List Event) (reads : List (List Event)) :
    bytesOf (read :: reads).flatten = bytesOf read ++ bytesOf reads.flatten := by
  rw [List.flatten_cons]
  exact List.filterMap_append ..

variable (fromSlice) in
theorem readEvents_follow (events : List Event)
    (h : Follows base delivered reader scan) :
    Follows base delivered (events.foldl (Reader.readEvent fromSlice) reader)
      (scanBytes fromSlice scan (bytesOf events)) := by
  induction events generalizing reader scan with
  | nil => exact h
  | cons event events ih =>
      rw [bytesOf_cons, scanBytes_append]
      exact ih (readEvent_follows h event)

/-- A read begins. -/
theorem Sent.follows (h : Sent delivered reader scan) :
    Follows scan.messages delivered { reader with ready := [], coalesced := 0 }
      scan := by
  cases h with
  | waiting hreturned hclosed hfault hpending hincoming =>
      exact .reading hreturned hclosed hfault hpending (List.append_nil _).symm
        hincoming rfl
  | @stopped fault hreturned hfault hincoming =>
      refine .stopped hreturned hfault (List.append_nil _).symm ?_
      have hnone : sendRead [] (some fault) = [] := by cases fault <;> rfl
      rw [hnone, List.append_nil]
      exact hincoming

/-- A read ends. -/
theorem Follows.flush (h : Follows base delivered reader scan) :
    Sent (delivered ++ sendRead (scan.messages.drop base.length) scan.fault)
      reader.flush scan := by
  rw [Reader.flush]
  cases h with
  | reading hreturned hclosed hfault hpending hmessages hincoming hready =>
      rw [if_neg (by simp [hreturned]), hmessages, List.drop_left, hfault]
      refine .waiting hreturned hclosed hfault hpending ?_
      rw [hincoming, hready, ← List.map_append]
      rfl
  | stopped hreturned hfault hmessages hincoming =>
      rw [if_pos hreturned, hmessages, List.drop_left, hfault]
      exact .stopped hreturned hfault hincoming

variable (fromSlice) in
theorem readChunks_sent (reads : List (List Event))
    (h : Sent delivered reader scan) :
    Sent (delivered ++ sentFrom fromSlice scan reads)
      (reads.foldl (Reader.readChunk fromSlice) reader)
      (scanBytes fromSlice scan (bytesOf reads.flatten)) := by
  induction reads generalizing reader scan delivered with
  | nil =>
      rw [sentFrom, List.append_nil]
      exact h
  | cons read reads ih =>
      rw [bytesOf_flatten_cons, scanBytes_append, sentFrom, ← List.append_assoc]
      exact ih (readEvents_follow fromSlice read h.follows).flush

end Follows

/-! What may be lost. -/

/-- Control replies are taken out, and a member of a run of adjacent
replaceable notifications may be missing if it is not the last of its run. -/
inductive Thins : List WireMessage → List WireMessage → Prop
  | nil : Thins [] []
  | reply {message : WireMessage} {full thin : List WireMessage} :
      (controlId message).isSome = true → Thins full thin →
      Thins (message :: full) thin
  | keep {message : WireMessage} {full thin : List WireMessage} :
      controlId message = none → Thins full thin →
      Thins (message :: full) (message :: thin)
  | drop {message next : WireMessage} {full thin : List WireMessage} :
      replaces next message = true → Thins (next :: full) thin →
      Thins (message :: next :: full) thin

/-- No control reply stands between a notification and one that replaces it. -/
def Unbroken (messages : List WireMessage) : Prop :=
  ∀ before first replies second after,
    messages = before ++ first :: (replies ++ second :: after) → replies ≠ [] →
    (∀ reply ∈ replies, (controlId reply).isSome = true) →
    controlId first = none → replaces second first = false

/-- Notifications that a later one may replace. -/
def replaceable (messages : List WireMessage) : List WireMessage :=
  messages.filter fun message => (replaceableNotificationKey message).isSome

/-- Ordinary messages that nothing replaces. -/
def lasting (messages : List WireMessage) : List WireMessage :=
  messages.filter fun message =>
    (controlId message).isNone && (replaceableNotificationKey message).isNone

/-- A read loses nothing else: no run is broken, and an empty or oversized
line follows no ordinary frame. -/
def Kept (fresh : List WireMessage) (fault : Option Fault) : Prop :=
  Unbroken fresh ∧
    (fault = some .emptyLine ∨ fault = some .oversized → ordinary fresh = [])

/-- No read of the stream loses anything else. -/
def Whole (fromSlice : List UInt8 → Option WireMessage) (scan : Scan) :
    List (List Event) → Prop
  | [] => True
  | read :: reads =>
      let next := scanBytes fromSlice scan (bytesOf read)
      Kept (framesFrom fromSlice scan (bytesOf read)) next.fault ∧
        Whole fromSlice next reads

section Lost

variable {full thin more fewer messages : List WireMessage}
  {message previous : WireMessage}

@[simp] theorem lasting_append (messages more : List WireMessage) :
    lasting (messages ++ more) = lasting messages ++ lasting more := by
  simp [lasting]

theorem replaceable_of_replaces (h : replaces message previous = true) :
    (replaceableNotificationKey previous).isSome = true := by
  obtain ⟨key, hkey, -⟩ := (Option.any_eq_true _ _).1 h
  rw [hkey]
  rfl

/-- Different notifications: one that comes early does not come late. -/
theorem not_mem_of_replaceable (h : (replaceable (messages ++ more)).Nodup)
    (hkey : (replaceableNotificationKey message).isSome = true)
    (hmem : message ∈ messages) : message ∉ more := by
  intro hmore
  rw [replaceable, List.filter_append, List.nodup_append] at h
  exact h.2.2 message (List.mem_filter.2 ⟨hmem, hkey⟩) message
    (List.mem_filter.2 ⟨hmore, hkey⟩) rfl

/-- What replaces a notification is one. -/
theorem controlId_of_replaces (h : replaces message previous = true) :
    controlId message = none := by
  obtain ⟨key, -, hkey⟩ := (Option.any_eq_true _ _).1 h
  have hnone : message.id = none := by
    by_contra hid
    rw [replaceableNotificationKey, if_pos (Option.isSome_iff_ne_none.2 hid)]
      at hkey
    simp at hkey
  simp [controlId, hnone]

namespace Thins

theorem append (h : Thins full thin) (h' : Thins more fewer) :
    Thins (full ++ more) (thin ++ fewer) := by
  induction h with
  | nil => exact h'
  | reply hid _ ih => exact .reply hid ih
  | keep hid _ ih => exact .keep hid ih
  | drop hkey _ ih => exact .drop hkey ih

theorem of_replies
    (h : ∀ reply ∈ messages, (controlId reply).isSome = true) :
    Thins messages [] := by
  induction messages with
  | nil => exact .nil
  | cons reply messages ih =>
      exact .reply (h reply List.mem_cons_self)
        (ih fun other hother => h other (List.mem_cons_of_mem _ hother))

/-- A last ordinary message is kept, and what follows it decides its fate. -/
theorem last (h : Thins (full ++ [previous]) thin)
    (hprevious : controlId previous = none) :
    ∃ front, thin = front ++ [previous] ∧ ∀ more fewer,
      Thins (previous :: more) fewer →
      Thins (full ++ previous :: more) (front ++ fewer) := by
  generalize hlist : full ++ [previous] = list at h
  induction h generalizing full with
  | nil => simp at hlist
  | @reply first _ _ hid _ ih =>
      cases full with
      | nil =>
          obtain ⟨rfl, -⟩ := List.cons.inj hlist
          rw [hprevious] at hid
          cases hid
      | cons head full =>
          obtain ⟨rfl, hrest⟩ := List.cons.inj hlist
          obtain ⟨front, hfront, hmore⟩ := ih hrest
          exact ⟨front, hfront, fun more fewer h => .reply hid (hmore more fewer h)⟩
  | @keep first _ _ hid htail ih =>
      cases full with
      | nil =>
          obtain ⟨rfl, rfl⟩ := List.cons.inj hlist
          cases htail
          exact ⟨[], rfl, fun _ _ h => h⟩
      | cons head full =>
          obtain ⟨rfl, hrest⟩ := List.cons.inj hlist
          obtain ⟨front, rfl, hmore⟩ := ih hrest
          exact ⟨head :: front, rfl,
            fun more fewer h => .keep hid (hmore more fewer h)⟩
  | @drop first next _ _ hkey _ ih =>
      cases full with
      | nil => simp at hlist
      | cons head full =>
          obtain ⟨rfl, hrest⟩ := List.cons.inj hlist
          obtain ⟨front, hfront, hmore⟩ := ih hrest
          refine ⟨front, hfront, fun more fewer h => ?_⟩
          have htail := hmore more fewer h
          cases full with
          | nil =>
              obtain ⟨rfl, -⟩ := List.cons.inj hrest
              exact .drop hkey htail
          | cons second full =>
              obtain ⟨rfl, -⟩ := List.cons.inj hrest
              exact .drop hkey htail

/-- A message that no notification follows at once is kept. -/
theorem mem (h : Thins full thin) {before after : List WireMessage}
    (hfull : full = before ++ message :: after) (hid : controlId message = none)
    (hafter : ∀ next ∈ after.head?, (controlId next).isSome = true) :
    message ∈ thin := by
  induction h generalizing before with
  | nil => simp at hfull
  | @reply first _ _ hfirst _ ih =>
      cases before with
      | nil =>
          obtain ⟨rfl, -⟩ := List.cons.inj hfull
          rw [hid] at hfirst
          cases hfirst
      | cons head before => exact ih (List.cons.inj hfull).2
  | @keep first _ _ _ _ ih =>
      cases before with
      | nil =>
          obtain ⟨rfl, -⟩ := List.cons.inj hfull
          exact List.mem_cons_self
      | cons head before =>
          exact List.mem_cons_of_mem _ (ih (List.cons.inj hfull).2)
  | @drop first next _ _ hkey _ ih =>
      cases before with
      | nil =>
          obtain ⟨rfl, rfl⟩ := List.cons.inj hfull
          have hnext := hafter next rfl
          rw [controlId_of_replaces hkey] at hnext
          cases hnext
      | cons head before => exact ih (List.cons.inj hfull).2

/-- Nothing that lasts is missing. -/
theorem lasting_eq (h : Thins full thin) : lasting thin = lasting full := by
  induction h with
  | nil => rfl
  | reply hid _ ih =>
      rw [ih]
      simp [lasting, Option.isSome_iff_ne_none.1 hid]
  | @keep message full thin _ _ ih =>
      rw [← List.singleton_append, lasting_append, ih, ← lasting_append]
      rfl
  | drop hkey _ ih =>
      rw [ih]
      have hsome := Option.isSome_iff_ne_none.1 (replaceable_of_replaces hkey)
      simp [lasting, List.filter_cons, hsome]

end Thins

theorem ordinary_eq_nil :
    ordinary messages = [] ↔
      ∀ reply ∈ messages, (controlId reply).isSome = true := by
  simp [ordinary, Option.isSome_iff_ne_none]

/-- A list without ordinary messages, or one up to its last ordinary one. -/
theorem last_ordinary (messages : List WireMessage) :
    ordinary messages = [] ∨ ∃ front last replies,
      messages = front ++ last :: replies ∧ controlId last = none ∧
      ordinary replies = [] := by
  induction messages using List.reverseRecOn with
  | nil => exact .inl rfl
  | append_singleton messages message ih =>
      cases hid : controlId message with
      | none => exact .inr ⟨messages, message, [], rfl, hid, rfl⟩
      | some id =>
          have hnone : ordinary [message] = [] := by simp [ordinary, hid]
          rcases ih with hempty | ⟨front, last, replies, rfl, hlast, hempty⟩
          · exact .inl (by rw [ordinary_append, hempty, hnone, List.append_nil])
          · refine .inr ⟨front, last, replies ++ [message], by simp, hlast, ?_⟩
            rw [ordinary_append, hempty, hnone, List.append_nil]

theorem coalesce_append_replies (h : ordinary more = []) :
    coalesce (messages ++ more) = coalesce messages := by
  rw [coalesce, ordinary_append, h, List.append_nil, coalesce]

theorem mem_pushCoalesced {last : WireMessage}
    (h : message ∈ (pushCoalesced messages last).1) :
    message ∈ messages ∨ message = last := by
  rw [pushCoalesced] at h
  split at h
  · rcases List.mem_append.1 h with hready | hlast
    · exact .inl (List.mem_of_mem_dropLast hready)
    · exact .inr (List.mem_singleton.1 hlast)
  · simpa using h

theorem coalesce_sublist (messages : List WireMessage) :
    (coalesce messages).Sublist messages := by
  induction messages using List.reverseRecOn with
  | nil => exact List.Sublist.refl []
  | append_singleton messages last ih =>
      cases hid : controlId last with
      | some id =>
          rw [coalesce_reply hid]
          exact ih.trans (List.sublist_append_left _ _)
      | none =>
          rw [coalesce_message hid, pushCoalesced]
          split
          · exact ((List.dropLast_sublist _).trans ih).append (.refl _)
          · exact ih.append (.refl _)

/-- An ordinary message is the last one ready. -/
theorem coalesce_concat (messages : List WireMessage)
    (h : controlId message = none) :
    ∃ kept, coalesce (messages ++ [message]) = kept ++ [message] ∧
      kept ⊆ messages := by
  rw [coalesce_message h, pushCoalesced]
  split
  · exact ⟨_, rfl, ((List.dropLast_sublist _).trans
      (coalesce_sublist messages)).subset⟩
  · exact ⟨_, rfl, (coalesce_sublist messages).subset⟩

theorem Unbroken.of_append (h : Unbroken (messages ++ more)) :
    Unbroken messages := by
  intro before first replies second after hmessages
  refine h before first replies second (after ++ more) ?_
  simp [hmessages]

/-- Within a read only members of runs are lost. -/
theorem thins_coalesce (h : Unbroken messages) :
    Thins messages (coalesce messages) := by
  induction messages using List.reverseRecOn with
  | nil => exact .nil
  | append_singleton messages message ih =>
      have hthins := ih h.of_append
      cases hid : controlId message with
      | some id =>
          rw [coalesce_reply hid, ← List.append_nil (coalesce messages)]
          exact hthins.append (.reply (by rw [hid]; rfl) .nil)
      | none =>
          rw [coalesce_message hid, pushCoalesced]
          split
          case isFalse => exact hthins.append (.keep hid .nil)
          case isTrue hreplaces =>
          rcases last_ordinary messages with hempty |
            ⟨front, last, replies, rfl, hlast, hempty⟩
          · rw [coalesce, hempty] at hreplaces
            simp at hreplaces
          -- the replaced message is the last ordinary one
          have hready : coalesce (front ++ last :: replies) =
              coalesce (front ++ [last]) := by
            rw [← List.singleton_append, ← List.append_assoc]
            exact coalesce_append_replies hempty
          obtain ⟨kept, hkept, -⟩ := coalesce_concat front hlast
          rw [hready, hkept] at hreplaces ⊢
          simp only [List.getLast?_append, List.getLast?_singleton,
            Option.some_or, Option.any_some, List.dropLast_concat]
            at hreplaces ⊢
          cases replies with
          | nil =>
              obtain ⟨_, hsame, hmore⟩ := hthins.last hlast
              obtain ⟨rfl, -⟩ := List.append_inj' (hkept.symm.trans hsame) rfl
              rw [List.append_assoc, List.cons_append, List.nil_append]
              exact hmore _ _ (.drop hreplaces (.keep hid .nil))
          | cons reply replies =>
              have hbroken := h front last (reply :: replies) message []
                (by simp) (List.cons_ne_nil _ _) (ordinary_eq_nil.1 hempty) hlast
              rw [hbroken] at hreplaces
              cases hreplaces

theorem not_mem_coalesce_append (h : message ∉ coalesce messages)
    (hmore : message ∉ more) : message ∉ coalesce (messages ++ more) := by
  induction more using List.reverseRecOn with
  | nil => rwa [List.append_nil]
  | append_singleton more last ih =>
      rw [List.mem_append, List.mem_singleton, not_or] at hmore
      have hready := ih hmore.1
      rw [← List.append_assoc]
      cases hid : controlId last with
      | some id => rwa [coalesce_reply hid]
      | none =>
          rw [coalesce_message hid]
          exact fun hmem => (mem_pushCoalesced hmem).elim hready hmore.2

/-- A notification replaced over control replies is not sent. -/
theorem not_mem_coalesce {before replies after : List WireMessage}
    {first second : WireMessage}
    (hnodup : (replaceable
      (before ++ first :: (replies ++ second :: after))).Nodup)
    (hreplies : ordinary replies = []) (hfirst : controlId first = none)
    (hkey : replaces second first = true) :
    first ∉ coalesce (before ++ first :: (replies ++ second :: after)) := by
  obtain ⟨kept, hkept, hsubset⟩ := coalesce_concat before hfirst
  have hready : coalesce (before ++ [first] ++ replies) = kept ++ [first] :=
    (coalesce_append_replies hreplies).trans hkept
  have hlist : before ++ first :: (replies ++ second :: after) =
      (before ++ [first] ++ replies ++ [second]) ++ after := by simp
  have hsome := replaceable_of_replaces hkey
  have hbefore : first ∉ before := fun hmem =>
    not_mem_of_replaceable hnodup hsome hmem List.mem_cons_self
  rw [← List.singleton_append, ← List.append_assoc] at hnodup
  have hrest := not_mem_of_replaceable hnodup hsome (by simp)
  simp only [List.mem_append, List.mem_cons, not_or] at hrest
  rw [hlist]
  refine not_mem_coalesce_append ?_ hrest.2.2
  rw [coalesce_message (controlId_of_replaces hkey), hready, pushCoalesced]
  simp only [List.getLast?_append, List.getLast?_singleton, Option.some_or,
    Option.any_some, hkey, if_true, List.dropLast_concat, List.mem_append,
    List.mem_singleton, not_or]
  exact ⟨fun hmem => hbefore (hsubset hmem), hrest.2.1⟩

theorem Kept.thins {fault : Option Fault} (h : Kept messages fault) :
    Thins messages (sendRead messages fault) := by
  obtain ⟨hunbroken, hfault⟩ := h
  rcases fault with _ | _ | _ | _
  · exact thins_coalesce hunbroken
  · exact .of_replies (ordinary_eq_nil.1 (hfault (.inl rfl)))
  · exact thins_coalesce hunbroken
  · exact .of_replies (ordinary_eq_nil.1 (hfault (.inr rfl)))

theorem sendRead_sublist (messages : List WireMessage) (fault : Option Fault) :
    (sendRead messages fault).Sublist messages := by
  rcases fault with _ | _ | _ | _
  · exact coalesce_sublist messages
  · exact List.nil_sublist _
  · exact coalesce_sublist messages
  · exact List.nil_sublist _

/-- A frame that must be sent and is not. -/
inductive Loses (frames sent : List WireMessage) : Prop
  | notification {before after : List WireMessage} {message : WireMessage} :
      frames = before ++ message :: after → controlId message = none →
      (∀ next ∈ after.head?, (controlId next).isSome = true) →
      (replaceableNotificationKey message).isSome = true → message ∉ sent →
      Loses frames sent
  | lasting : (lasting sent).length < (lasting frames).length →
      Loses frames sent

theorem Loses.not_thins {frames sent : List WireMessage} (h : Loses frames sent) :
    ¬ Thins frames sent := by
  intro hthins
  cases h with
  | notification hframes hid hafter _ hnot =>
      exact hnot (hthins.mem hframes hid hafter)
  | lasting hshort =>
      rw [hthins.lasting_eq] at hshort
      exact Nat.lt_irrefl _ hshort

/-- A read that is not kept loses a frame for good. -/
theorem loses_of_not_kept {fault : Option Fault} (h : ¬ Kept messages fault)
    (hnodup : (replaceable (messages ++ more)).Nodup)
    (hmore : fewer.Sublist more) (hlast : fault.isSome = true → more = []) :
    Loses (messages ++ more) (sendRead messages fault ++ fewer) := by
  by_cases hfault : fault = some .emptyLine ∨ fault = some .oversized
  · have hnone : sendRead messages fault = [] := by
      rcases hfault with rfl | rfl
      · rfl
      · rfl
    obtain rfl : more = [] := hlast (by rcases hfault with rfl | rfl <;> rfl)
    obtain rfl := List.sublist_nil.1 hmore
    have hordinary : ordinary messages ≠ [] := by
      intro hempty
      refine h ⟨?_, fun _ => hempty⟩
      intro before first replies second after hmessages _ _ hfirst
      have hsome := ordinary_eq_nil.1 hempty first (by simp [hmessages])
      rw [hfirst] at hsome
      cases hsome
    obtain ⟨front, last, replies, rfl, hid, hreplies⟩ :=
      (last_ordinary messages).resolve_left hordinary
    rw [hnone, List.append_nil, List.append_nil]
    by_cases hkey : (replaceableNotificationKey last).isSome = true
    · exact .notification rfl hid (fun next hnext =>
        ordinary_eq_nil.1 hreplies next (List.mem_of_mem_head? hnext)) hkey
        List.not_mem_nil
    · refine .lasting (List.length_pos_of_mem (a := last) ?_)
      refine List.mem_filter.2 ⟨by simp, ?_⟩
      simpa [hid] using hkey
  · have hsend : sendRead messages fault = coalesce messages := by
      rcases fault with _ | _ | _ | _
      · rfl
      · exact absurd (.inl rfl) hfault
      · rfl
      · exact absurd (.inr rfl) hfault
    have hbroken : ¬ Unbroken messages := fun hunbroken =>
      h ⟨hunbroken, fun hsome => absurd hsome hfault⟩
    simp only [Unbroken, not_forall] at hbroken
    obtain ⟨before, first, replies, second, after, rfl, hne, hreplies, hid,
      hkey⟩ := hbroken
    rw [Bool.not_eq_false] at hkey
    have hsome := replaceable_of_replaces hkey
    have hread : (replaceable (before ++ first :: (replies ++ second ::
        after))).Nodup := by
      rw [replaceable, List.filter_append] at hnodup
      exact hnodup.of_append_left
    refine .notification (List.append_assoc ..) hid ?_ hsome ?_
    · obtain ⟨reply, replies, rfl⟩ := List.exists_cons_of_ne_nil hne
      intro next hnext
      obtain rfl : reply = next := by simpa using hnext
      exact hreplies reply List.mem_cons_self
    · rw [hsend, List.mem_append, not_or]
      exact ⟨not_mem_coalesce hread (ordinary_eq_nil.2 hreplies) hid hkey,
        fun hsent => not_mem_of_replaceable hnodup hsome (by simp)
          (hmore.subset hsent)⟩

end Lost

/-! What a whole stream loses. -/

section Stream

variable {fromSlice : List UInt8 → Option WireMessage}

theorem scanByte_messages (scan : Scan) (byte : UInt8) :
    scan.messages <+: (scanByte fromSlice scan byte).messages := by
  rw [scanByte]
  repeat' split
  all_goals first | exact List.prefix_rfl | exact List.prefix_append ..

variable (fromSlice) in
theorem scanBytes_messages (scan : Scan) (bytes : List UInt8) :
    scan.messages <+: (scanBytes fromSlice scan bytes).messages := by
  induction bytes generalizing scan with
  | nil => exact List.prefix_rfl
  | cons byte bytes ih => exact (scanByte_messages scan byte).trans (ih _)

theorem framesFrom_append (scan : Scan) (bytes more : List UInt8) :
    framesFrom fromSlice scan (bytes ++ more) =
      framesFrom fromSlice scan bytes ++
        framesFrom fromSlice (scanBytes fromSlice scan bytes) more := by
  obtain ⟨fresh, hfresh⟩ := scanBytes_messages fromSlice scan bytes
  obtain ⟨later, hlater⟩ := scanBytes_messages fromSlice
    (scanBytes fromSlice scan bytes) more
  rw [framesFrom, framesFrom, framesFrom, scanBytes_append, ← hlater,
    List.drop_left, ← hfresh, List.append_assoc, List.drop_left, List.drop_left]

theorem scanBytes_of_fault {scan : Scan} {fault : Fault}
    (h : scan.fault = some fault) (bytes : List UInt8) :
    scanBytes fromSlice scan bytes = scan := by
  induction bytes with
  | nil => rfl
  | cons byte bytes ih =>
      rw [scanBytes, List.foldl_cons, scanByte_of_fault h]
      exact ih

theorem framesFrom_of_fault {scan : Scan} {fault : Fault}
    (h : scan.fault = some fault) (bytes : List UInt8) :
    framesFrom fromSlice scan bytes = [] := by
  rw [framesFrom, scanBytes_of_fault h, List.drop_length]

variable (fromSlice) in
theorem Whole.thins (reads : List (List Event)) {scan : Scan}
    (h : Whole fromSlice scan reads) :
    Thins (framesFrom fromSlice scan (bytesOf reads.flatten))
      (sentFrom fromSlice scan reads) := by
  induction reads generalizing scan with
  | nil =>
      have hnone : framesFrom fromSlice scan (bytesOf []) = [] :=
        List.drop_length
      rw [List.flatten_nil, hnone]
      exact .nil
  | cons read reads ih =>
      rw [bytesOf_flatten_cons, framesFrom_append, sentFrom]
      exact h.1.thins.append (ih h.2)

variable (fromSlice) in
theorem sentFrom_sublist (reads : List (List Event)) (scan : Scan) :
    (sentFrom fromSlice scan reads).Sublist
      (framesFrom fromSlice scan (bytesOf reads.flatten)) := by
  induction reads generalizing scan with
  | nil => exact List.nil_sublist _
  | cons read reads ih =>
      rw [bytesOf_flatten_cons, framesFrom_append]
      exact (sendRead_sublist _ _).append (ih _)

variable (fromSlice) in
theorem loses_of_not_whole (reads : List (List Event)) {scan : Scan}
    (hnodup : (replaceable
      (framesFrom fromSlice scan (bytesOf reads.flatten))).Nodup)
    (h : ¬ Whole fromSlice scan reads) :
    Loses (framesFrom fromSlice scan (bytesOf reads.flatten))
      (sentFrom fromSlice scan reads) := by
  induction reads generalizing scan with
  | nil => exact absurd trivial h
  | cons read reads ih =>
      rw [bytesOf_flatten_cons, framesFrom_append] at hnodup ⊢
      rw [sentFrom]
      by_cases hkept : Kept (framesFrom fromSlice scan (bytesOf read))
          (scanBytes fromSlice scan (bytesOf read)).fault
      · have hrest := hnodup
        rw [replaceable, List.filter_append] at hrest
        cases ih hrest.of_append_right fun hwhole => h ⟨hkept, hwhole⟩ with
        | @notification before after message hframes hid hafter hkey hnot =>
            refine .notification ((congrArg _ hframes).trans
              (List.append_assoc ..).symm) hid hafter hkey ?_
            rw [List.mem_append, not_or]
            refine ⟨fun hmem => ?_, hnot⟩
            refine not_mem_of_replaceable hnodup hkey
              ((sendRead_sublist _ _).subset hmem) ?_
            rw [hframes]
            exact List.mem_append_right _ List.mem_cons_self
        | lasting hshort =>
            refine .lasting ?_
            rw [lasting_append, lasting_append, List.length_append,
              List.length_append]
            exact Nat.add_lt_add_of_le_of_lt
              ((sendRead_sublist _ _).filter _).length_le hshort
      · refine loses_of_not_kept hkept hnodup
          (sentFrom_sublist fromSlice reads _) fun hsome => ?_
        obtain ⟨fault, hfault⟩ := Option.isSome_iff_exists.1 hsome
        exact framesFrom_of_fault hfault _

end Stream

/-! The control calls. -/

/-- What one event may do to the control calls. -/
structure Attends (scan next : Scan) (before after : ControlResponses)
    (event : Event) : Prop where
  replied : ∀ message id, next.messages = scan.messages ++ [message] →
    controlId message = some id → id ∈ before.waiting →
    after.waiting = before.waiting.erase id ∧
      after.answered = before.answered ++ [(id, message)]
  only : after.answered = before.answered ∨ ∃ message id,
    next.messages = scan.messages ++ [message] ∧ controlId message = some id ∧
      id ∈ before.waiting
  waits : ∀ id, event = .request id → scan.fault = none →
    before.waiting.length < maxControlRequests →
    after.waiting = id :: before.waiting
  stays : ∀ id ∈ before.waiting, id ∈ after.waiting ∨ event = .forget id ∨
    next.fault.isSome = true ∨ ∃ message,
      next.messages = scan.messages ++ [message] ∧ controlId message = some id

/-- The reader inside a read that follows whole reads. -/
def readerAt (fromSlice : List UInt8 → Option WireMessage)
    (reads : List (List Event)) (events : List Event) : Reader :=
  events.foldl (Reader.readEvent fromSlice)
    { reads.foldl (Reader.readChunk fromSlice) {} with
      ready := [], coalesced := 0 }

/-- The stream at the same place. -/
def scanAt (fromSlice : List UInt8 → Option WireMessage)
    (reads : List (List Event)) (events : List Event) : Scan :=
  scanBytes fromSlice {} (bytesOf (reads.flatten ++ events))

section Controls

variable {fromSlice : List UInt8 → Option WireMessage} {reader : Reader}
  {scan : Scan}

/-- A frame reaches the call that waits for it. -/
theorem Takes.attends {next : Scan} {before after : ControlResponses}
    (h : Takes scan next before after) (value : UInt8) :
    Attends scan next before after (.byte value) := by
  cases h with
  | nothing hsame =>
      refine ⟨fun message id hmore => ?_, .inl rfl, nofun, fun id hid => .inl hid⟩
      simp [hsame] at hmore
  | fault hsame hfault =>
      refine ⟨fun message id hmore => ?_, .inl rfl, nofun,
        fun id hid => .inr (.inr (.inl hfault))⟩
      simp [hsame] at hmore
  | @frame message hmessages =>
      have hmessage : ∀ other, next.messages = scan.messages ++ [other] →
          other = message := fun other hother => by
        simpa using hother.symm.trans hmessages
      cases hid : controlId message with
      | none =>
          have hroute : (before.route message).1 = before := by
            rw [ControlResponses.route, hid]
          rw [hroute]
          refine ⟨fun other id hother hsome => ?_, .inl rfl, nofun,
            fun id hwaits => .inl hwaits⟩
          rw [hmessage other hother, hid] at hsome
          cases hsome
      | some id =>
          by_cases hwaits : id ∈ before.waiting
          · have hroute : (before.route message).1 =
                { before with
                  waiting := before.waiting.erase id
                  answered := before.answered ++ [(id, message)] } := by
              rw [ControlResponses.route, hid]
              exact congrArg Prod.fst (if_pos hwaits)
            rw [hroute]
            refine ⟨fun other key hother hsome _ => ?_,
              .inr ⟨message, id, hmessages, hid, hwaits⟩, nofun,
              fun key hkey => ?_⟩
            · obtain rfl := hmessage other hother
              obtain rfl := Option.some.inj (hid.symm.trans hsome)
              exact ⟨rfl, rfl⟩
            · by_cases hsame : key = id
              · exact .inr (.inr (.inr ⟨message, hmessages, hsame ▸ hid⟩))
              · exact .inl ((List.mem_erase_of_ne hsame).2 hkey)
          · have hroute : (before.route message).1 = before := by
              rw [ControlResponses.route, hid]
              exact congrArg Prod.fst (if_neg hwaits)
            rw [hroute]
            refine ⟨fun other key hother hsome hkey => ?_, .inl rfl, nofun,
              fun key hkey => .inl hkey⟩
            obtain rfl := hmessage other hother
            obtain rfl := Option.some.inj (hid.symm.trans hsome)
            exact absurd hkey hwaits

theorem scanAt_append (reads : List (List Event)) (events more : List Event) :
    scanAt fromSlice reads (events ++ more) =
      scanBytes fromSlice (scanAt fromSlice reads events) (bytesOf more) := by
  rw [scanAt, ← List.append_assoc, bytesOf, List.filterMap_append]
  exact scanBytes_append ..

variable (fromSlice) in
theorem readFrames_sent (reads : List (List Event)) :
    Sent (sentFrom fromSlice {} reads)
      (reads.foldl (Reader.readChunk fromSlice) {})
      (scanBytes fromSlice {} (bytesOf reads.flatten)) :=
  @readChunks_sent fromSlice {} {} [] reads (.waiting rfl rfl rfl rfl rfl)

theorem readerAt_follows (reads : List (List Event)) (events : List Event) :
    ∃ base delivered, Follows base delivered (readerAt fromSlice reads events)
      (scanAt fromSlice reads events) := by
  have hread := readEvents_follow fromSlice events
    (readFrames_sent fromSlice reads).follows
  rw [← List.nil_append events, scanAt_append, scanAt, List.append_nil]
  exact ⟨_, _, hread⟩

theorem readEvent_attends {base delivered : List WireMessage}
    (h : Follows base delivered reader scan) (event : Event) :
    Attends scan (scanBytes fromSlice scan (bytesOf [event])) reader.controls
      (reader.readEvent fromSlice event).controls event := by
  cases event with
  | byte value => exact (readByte_follows h value).2.attends value
  | forget id =>
      refine ⟨fun message key hmore => ?_, .inl rfl, nofun, fun key hkey => ?_⟩
      · simp [bytesOf, scanBytes] at hmore
      · by_cases hsame : key = id
        · exact .inr (.inl (hsame ▸ rfl))
        · exact .inl ((List.mem_erase_of_ne hsame).2 hkey)
  | request id =>
      refine ⟨fun message key hmore => ?_, .inl ?_, ?_, fun key hkey => .inl ?_⟩
      · simp [bytesOf, scanBytes] at hmore
      · change (reader.controls.request id).answered = _
        rw [ControlResponses.request]
        repeat' split
        all_goals rfl
      · rintro _ ⟨⟩ hfault hroom
        cases h with
        | stopped _ hsome => simp [hfault] at hsome
        | reading _ hclosed =>
            change (reader.controls.request id).waiting = _
            rw [ControlResponses.request, if_neg (by simp [hclosed]),
              if_neg (Nat.not_le.2 hroom)]
      · change key ∈ (reader.controls.request id).waiting
        rw [ControlResponses.request]
        repeat' split
        · exact hkey
        · exact hkey
        · exact List.mem_cons_of_mem _ hkey

/-- Sending on at the end of a read leaves the control calls alone. -/
theorem readerAt_next (reads : List (List Event)) (read : List Event) :
    (readerAt fromSlice (reads ++ [read]) []).controls =
      (readerAt fromSlice reads read).controls := by
  simp only [readerAt, List.foldl_append, List.foldl_cons, List.foldl_nil,
    Reader.readChunk, Reader.flush]
  split
  · rfl
  · rfl

end Controls

/-- The messages sent, and the status. -/
theorem readFrames_incoming (fromSlice : List UInt8 → Option WireMessage)
    (reads : List (List Event)) (ending : Ending) :
    (readFrames fromSlice reads ending).incoming =
      (sentFrom fromSlice {} reads).map .message ++
        [(scanBytes fromSlice {} (bytesOf reads.flatten)).status ending] := by
  rw [readFrames]
  cases readFrames_sent fromSlice reads with
  | waiting hgoing _ hnone hpending hincoming =>
      rw [Reader.finish, hgoing, Scan.status, hnone, hincoming, hpending]
      rfl
  | stopped hreturned hfault hincoming =>
      rw [Reader.finish, if_pos hreturned, Scan.status, hfault, hincoming]

/-- For every byte stream and every cut.  The status sent last depends on the
bytes and the ending alone; the messages before it are the valid frames up to
the first fault, but for control replies and lost members of runs, exactly
when the reads are whole; and control replies reach the calls that wait. -/
theorem provider_stream_iff (fromSlice : List UInt8 → Option WireMessage)
    (reads : List (List Event)) (ending : Ending) :
    let scan := scanBytes fromSlice {} (bytesOf reads.flatten)
    let reader := readFrames fromSlice reads ending
    (∃ sent,
      reader.incoming = sent.map .message ++ [scan.status ending] ∧
      (Whole fromSlice {} reads → Thins scan.messages sent) ∧
      ((replaceable scan.messages).Nodup → Thins scan.messages sent →
        Whole fromSlice {} reads)) ∧
    (∀ before front event back after,
      reads = before ++ (front ++ event :: back) :: after →
      Attends (scanAt fromSlice before front)
        (scanAt fromSlice before (front ++ [event]))
        (readerAt fromSlice before front).controls
        (readerAt fromSlice before (front ++ [event])).controls event) ∧
    (∀ before read, (readerAt fromSlice (before ++ [read]) []).controls =
      (readerAt fromSlice before read).controls) ∧
    reader.controls.answered = (readerAt fromSlice reads []).controls.answered := by
  intro scan reader
  have hframes : framesFrom fromSlice {} (bytesOf reads.flatten) =
      scan.messages := List.drop_zero
  refine ⟨⟨sentFrom fromSlice {} reads, readFrames_incoming .., fun hwhole => ?_,
    fun hnodup hthins => ?_⟩, ?_, readerAt_next, ?_⟩
  · rw [← hframes]
    exact hwhole.thins fromSlice reads
  · by_contra hwhole
    rw [← hframes] at hnodup hthins
    exact (loses_of_not_whole fromSlice reads hnodup hwhole).not_thins hthins
  · intro before front event back after _
    obtain ⟨_, _, hfollows⟩ := readerAt_follows before front
    rw [scanAt_append, readerAt, readerAt, List.foldl_append]
    exact readEvent_attends hfollows event
  · change (Reader.finish _ ending).controls.answered = _
    rw [Reader.finish]
    split
    · rfl
    · rfl

/-- Progress of one item. -/
def progress (text : String) : WireMessage where
  id := none
  method := some "item/mcpToolCall/progress"
  params := some (.object [("threadId", .string "thread"),
    ("turnId", .string "turn"), ("itemId", .string "item"),
    ("message", .string text)])
  result := none
  error := none

def controlReply : WireMessage where
  id := some (.string "hq-control-1")
  method := none
  params := none
  result := some .null
  error := none

/-- A codec that knows three lines. -/
def threeLines (line : List UInt8) : Option WireMessage :=
  match line with
  | [1] => some (progress "first")
  | [2] => some controlReply
  | [3] => some (progress "second")
  | _ => none

/-- One read loses the frame before an empty line, and the progress that a
control reply separates from the next; other cuts deliver them. -/
theorem frame_lost_with_empty_line :
    (readFrames threeLines [[.byte 1, .byte newline, .byte newline]]
      .endOfFile).incoming = [.failed .malformed] ∧
    (readFrames threeLines [[.byte 1, .byte newline], [.byte newline]]
      .endOfFile).incoming = [.message (progress "first"), .failed .malformed] ∧
    (readFrames threeLines [[.byte 1, .byte newline, .byte 2, .byte newline,
      .byte 3, .byte newline]] .endOfFile).incoming =
      [.message (progress "second"), .closed] ∧
    (readFrames threeLines [[.byte 1, .byte newline],
      [.byte 2, .byte newline, .byte 3, .byte newline]] .endOfFile).incoming =
      [.message (progress "first"), .message (progress "second"), .closed] := by
  have hstart : "hq-control-1".startsWith controlIdPrefix = true := by
    decide +kernel
  have hid : controlId controlReply = some "hq-control-1" := by
    simp [controlId, controlReply, Value.asStr, hstart]
  have hlast : ordinary [controlReply, progress "second"] =
      [progress "second"] := by
    simp [ordinary, hid]
    rfl
  have hall : ordinary [progress "first", controlReply, progress "second"] =
      [progress "first", progress "second"] :=
    congrArg (progress "first" :: ·) hlast
  have hlost : coalesce [progress "first", controlReply, progress "second"] =
      [progress "second"] := by
    rw [coalesce, hall]
    rfl
  have hkept : coalesce [controlReply, progress "second"] =
      [progress "second"] := by
    rw [coalesce, hlast]
    rfl
  refine ⟨rfl, rfl, ?_, ?_⟩
  · rw [readFrames_incoming]
    exact congrArg
      (fun sent => (sent ++ []).map .message ++ [TransportRead.closed]) hlost
  · rw [readFrames_incoming]
    exact congrArg (fun sent =>
      .message (progress "first") :: (sent ++ []).map .message ++
        [TransportRead.closed])
      hkept

end Hq.ProviderStream
