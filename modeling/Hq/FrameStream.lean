/-
Frames of the local API.  A message travels as a length and a canonical body,
and a reader cuts the byte stream wherever its reads end.
-/
import Hq.Bytes
import Hq.Fallible

namespace Hq.FrameStream

/-- The messages of the protocol and their JSON bodies. -/
structure Wire where
  Message : Type
  toVec : Message → List UInt8
  fromSlice : List UInt8 → Option Message
  valid : Message → Bool
  fromSlice_toVec : ∀ message, fromSlice (toVec message) = some message

inductive EncodeError where
  | invalidValue | frameTooLarge
deriving DecidableEq

inductive DecodeError where
  | truncated | frameTooLarge | trailingData | malformed | invalidValue
  | nonCanonical
deriving DecidableEq

def maxFrameBytes : Nat := 1024 * 1024

def maxBufferedBytes : Nat := maxFrameBytes + 4

section Codec

variable (wire : Wire)

/-- A body behind its length. -/
def frame (body : List UInt8) : List UInt8 := bigEndian 4 body.length ++ body

def encodeFrame (message : wire.Message) : Except EncodeError (List UInt8) :=
  do
  require (wire.valid message) .invalidValue
  require (decide ((wire.toVec message).length ≤ maxFrameBytes)) .frameTooLarge
  .ok (frame (wire.toVec message))

/-- The length that the first four bytes declare. -/
def declared (bytes : List UInt8) : Nat := fromBigEndian (bytes.take 4)

def decodeFrame (bytes : List UInt8) : Except DecodeError wire.Message := do
  require (decide (4 ≤ bytes.length)) .truncated
  require (decide (declared bytes ≤ maxFrameBytes)) .frameTooLarge
  require (decide (declared bytes ≤ bytes.length - 4)) .truncated
  require (decide (bytes.length - 4 ≤ declared bytes)) .trailingData
  match wire.fromSlice (bytes.drop 4) with
  | none => .error .malformed
  | some message => do
      require (wire.valid message) .invalidValue
      require (decide (wire.toVec message = bytes.drop 4)) .nonCanonical
      .ok message

/-- One push of the decoder: the next message, and the bytes retained. -/
def push (buffer bytes : List UInt8) :
    Except DecodeError (Option wire.Message × List UInt8) := do
  require (decide (buffer.length + bytes.length ≤ maxBufferedBytes))
    .frameTooLarge
  if (buffer ++ bytes).length < 4 then .ok (none, buffer ++ bytes)
  else do
    require (decide (declared (buffer ++ bytes) ≤ maxFrameBytes))
      .frameTooLarge
    if (buffer ++ bytes).length < declared (buffer ++ bytes) + 4 then
      .ok (none, buffer ++ bytes)
    else do
      let message ← decodeFrame wire
        ((buffer ++ bytes).take (declared (buffer ++ bytes) + 4))
      .ok (some message, (buffer ++ bytes).drop
        (declared (buffer ++ bytes) + 4))

variable {wire} in
theorem push_shrinks {buffer bytes rest : List UInt8} {message : wire.Message}
    (h : push wire buffer bytes = .ok (some message, rest)) :
    rest.length < buffer.length + bytes.length := by
  obtain ⟨⟨⟩, -, h⟩ := bind_eq_ok.1 h
  split at h
  · cases h
  · rename_i hlength
    obtain ⟨⟨⟩, -, h⟩ := bind_eq_ok.1 h
    split at h
    · cases h
    · obtain ⟨found, -, h⟩ := bind_eq_ok.1 h
      obtain ⟨-, rfl⟩ := Prod.mk.inj (Except.ok.inj h)
      rw [List.length_drop]
      rw [List.length_append] at hlength ⊢
      omega

/-- Push a chunk, then nothing, until no message is left. -/
def feed (buffer bytes : List UInt8) :
    Except DecodeError (List wire.Message × List UInt8) :=
  match _h : push wire buffer bytes with
  | .error reason => .error reason
  | .ok (none, rest) => .ok ([], rest)
  | .ok (some message, rest) => do
      let (messages, last) ← feed rest []
      .ok (message :: messages, last)
termination_by buffer.length + bytes.length
decreasing_by
  have hlt := push_shrinks _h
  simpa using hlt

/-- The messages of a run of reads, and the bytes retained at its end. -/
def feedAll (buffer : List UInt8) : List (List UInt8) →
    Except DecodeError (List wire.Message × List UInt8)
  | [] => .ok ([], buffer)
  | chunk :: chunks => do
      let (messages, rest) ← feed wire buffer chunk
      let (later, last) ← feedAll rest chunks
      .ok (messages ++ later, last)

end Codec

/-! One frame. -/

section Frames

variable {wire : Wire} {message : wire.Message}
  {buffer bytes rest encoded : List UInt8}

theorem encodeFrame_eq_ok :
    encodeFrame wire message = .ok encoded ↔ wire.valid message = true ∧
      (wire.toVec message).length ≤ maxFrameBytes ∧
      encoded = frame (wire.toVec message) := by
  simp only [encodeFrame, require_bind_eq_ok, decide_eq_true_eq,
    Except.ok.injEq]
  exact and_congr_right fun _ => and_congr_right fun _ => eq_comm

@[simp] theorem length_frame (body : List UInt8) :
    (frame body).length = body.length + 4 := by
  rw [frame, List.length_append, length_bigEndian, Nat.add_comm]

theorem drop_frame (body : List UInt8) : (frame body).drop 4 = body :=
  List.drop_left' (length_bigEndian 4 body.length)

theorem declared_frame {body : List UInt8}
    (h : body.length ≤ maxFrameBytes) (rest : List UInt8) :
    declared (frame body ++ rest) = body.length := by
  have htake : (frame body ++ rest).take 4 = bigEndian 4 body.length := by
    rw [frame, List.append_assoc]
    exact List.take_left' (length_bigEndian 4 body.length)
  have hlt : body.length < 256 ^ 4 := h.trans_lt (by decide)
  rw [declared, htake, fromBigEndian_bigEndian hlt]

/-- A frame that is decoded is the frame of its message, and conversely. -/
theorem decodeFrame_eq_ok : decodeFrame wire encoded = .ok message ↔
    encodeFrame wire message = .ok encoded := by
  simp only [decodeFrame, require_bind_eq_ok, decide_eq_true_eq,
    encodeFrame_eq_ok]
  constructor
  · rintro ⟨hfour, hmax, hlow, hhigh, h⟩
    split at h
    · cases h
    · rename_i found hfound
      simp only [require_bind_eq_ok, decide_eq_true_eq] at h
      obtain ⟨hvalid, hcanonical, h⟩ := h
      obtain rfl := Except.ok.inj h
      have hlength : (wire.toVec found).length = declared encoded := by
        rw [hcanonical, List.length_drop]
        omega
      have hhead : bigEndian 4 (declared encoded) = encoded.take 4 := by
        have hback := bigEndian_fromBigEndian (encoded.take 4)
        rwa [List.length_take, Nat.min_eq_left hfour] at hback
      refine ⟨hvalid, by omega, ?_⟩
      rw [frame, hlength, hhead, hcanonical, List.take_append_drop]
  · rintro ⟨hvalid, hmax, rfl⟩
    have hdeclared := declared_frame hmax []
    rw [List.append_nil] at hdeclared
    rw [hdeclared, length_frame, drop_frame, wire.fromSlice_toVec]
    refine ⟨by omega, hmax, by omega, by omega, ?_⟩
    simp [hvalid, require, bind, Except.bind]

/-- A push that completes a frame returns its message. -/
theorem push_frame (hencoded : encodeFrame wire message = .ok encoded)
    (hbytes : buffer ++ bytes = encoded ++ rest)
    (hfits : buffer.length + bytes.length ≤ maxBufferedBytes) :
    push wire buffer bytes = .ok (some message, rest) := by
  obtain ⟨-, hmax, hframe⟩ := encodeFrame_eq_ok.1 hencoded
  have hdeclared : declared (encoded ++ rest) + 4 = encoded.length := by
    rw [hframe, declared_frame hmax, length_frame]
  have hlength : encoded.length = (wire.toVec message).length + 4 := by
    rw [hframe, length_frame]
  have hdecoded := decodeFrame_eq_ok.2 hencoded
  rw [push, hbytes, hdeclared, List.take_left, List.drop_left,
    List.length_append, if_neg (by omega), if_neg (by omega), hdecoded]
  simp only [require_bind_eq_ok, decide_eq_true_eq]
  exact ⟨hfits, by omega, rfl⟩

/-- A push that does not complete the frame retains everything. -/
theorem push_incomplete (hencoded : encodeFrame wire message = .ok encoded)
    (hbytes : encoded = buffer ++ bytes ++ rest) (hrest : rest ≠ [])
    (hfits : buffer.length + bytes.length ≤ maxBufferedBytes) :
    push wire buffer bytes = .ok (none, buffer ++ bytes) := by
  obtain ⟨-, hmax, hframe⟩ := encodeFrame_eq_ok.1 hencoded
  have hmore := List.length_pos_iff.2 hrest
  have htotal : (buffer ++ bytes).length + rest.length =
      (wire.toVec message).length + 4 := by
    rw [← length_frame, ← hframe, hbytes]
    exact List.length_append.symm
  rw [push]
  simp only [require_bind_eq_ok, decide_eq_true_eq]
  refine ⟨hfits, ?_⟩
  by_cases hshort : (buffer ++ bytes).length < 4
  · rw [if_pos hshort]
  · have htake : encoded.take 4 = (buffer ++ bytes).take 4 := by
      rw [hbytes, List.take_append_of_le_length (by omega)]
    have hdeclared : declared (buffer ++ bytes) =
        (wire.toVec message).length := by
      rw [declared, ← htake, hframe, ← List.append_nil (frame _)]
      exact declared_frame hmax []
    rw [if_neg hshort, hdeclared, if_pos (by omega)]
    simp only [require_bind_eq_ok, decide_eq_true_eq]
    exact ⟨hmax, trivial⟩

/-- What a push returns: a message whose frame was in front, or nothing. -/
theorem push_eq_ok {found : Option wire.Message}
    (h : push wire buffer bytes = .ok (found, rest)) :
    (found = none ∧ rest = buffer ++ bytes) ∨
      ∃ message encoded, found = some message ∧
        encodeFrame wire message = .ok encoded ∧
        buffer ++ bytes = encoded ++ rest := by
  obtain ⟨⟨⟩, -, h⟩ := bind_eq_ok.1 h
  split at h
  · obtain ⟨rfl, rfl⟩ := Prod.mk.inj (Except.ok.inj h)
    exact .inl ⟨rfl, rfl⟩
  · obtain ⟨⟨⟩, -, h⟩ := bind_eq_ok.1 h
    split at h
    · obtain ⟨rfl, rfl⟩ := Prod.mk.inj (Except.ok.inj h)
      exact .inl ⟨rfl, rfl⟩
    · obtain ⟨message, hdecoded, h⟩ := bind_eq_ok.1 h
      obtain ⟨rfl, rfl⟩ := Prod.mk.inj (Except.ok.inj h)
      exact .inr ⟨message, _, rfl, decodeFrame_eq_ok.1 hdecoded,
        (List.take_append_drop _ _).symm⟩

theorem feed_of_none (h : push wire buffer bytes = .ok (none, rest)) :
    feed wire buffer bytes = .ok ([], rest) := by
  rw [feed]
  split
  · rename_i hpush
    cases h.symm.trans hpush
  · rename_i found hpush
    cases h.symm.trans hpush
    rfl
  · rename_i found last hpush
    cases h.symm.trans hpush

theorem feed_of_some {messages : List wire.Message} {last : List UInt8}
    (h : push wire buffer bytes = .ok (some message, rest))
    (hrest : feed wire rest [] = .ok (messages, last)) :
    feed wire buffer bytes = .ok (message :: messages, last) := by
  rw [feed]
  split
  · rename_i hpush
    cases h.symm.trans hpush
  · rename_i found hpush
    cases h.symm.trans hpush
  · rename_i found remainder hpush
    cases h.symm.trans hpush
    exact bind_eq_ok.2 ⟨_, hrest, rfl⟩

theorem feed_too_large
    (h : ¬ buffer.length + bytes.length ≤ maxBufferedBytes) :
    feed wire buffer bytes = .error .frameTooLarge := by
  have hpush : push wire buffer bytes = .error .frameTooLarge := by
    rw [push, require, if_neg (by simpa using h)]
    rfl
  rw [feed]
  split
  · rename_i reason hother
    cases hpush.symm.trans hother
    rfl
  · rename_i found hother
    cases hpush.symm.trans hother
  · rename_i found remainder hother
    cases hpush.symm.trans hother

end Frames

/-! Streams of frames. -/

section Streams

variable {wire : Wire}

/-- The frames of a list of messages that are all encoded. -/
abbrev Encodes (wire : Wire) (messages : List wire.Message)
    (frames : List (List UInt8)) : Prop :=
  List.Forall₂ (fun message encoded =>
    encodeFrame wire message = .ok encoded) messages frames

/-- The bytes are not yet the whole of the next frame. -/
def Short (buffer : List UInt8) : List (List UInt8) → Prop
  | [] => buffer = []
  | next :: _ => buffer.length < next.length

/-- A fitting chunk yields the messages it completes and leaves a part of the
next frame. -/
theorem feed_frames {messages : List wire.Message}
    {frames : List (List UInt8)} (hframes : Encodes wire messages frames)
    {buffer bytes tail : List UInt8}
    (hstream : buffer ++ bytes ++ tail = frames.flatten)
    (hfits : buffer.length + bytes.length ≤ maxBufferedBytes) :
    ∃ complete open_ completeFrames openFrames rest,
      messages = complete ++ open_ ∧ frames = completeFrames ++ openFrames ∧
      Encodes wire open_ openFrames ∧
      feed wire buffer bytes = .ok (complete, rest) ∧
      buffer ++ bytes = completeFrames.flatten ++ rest ∧
      Short rest openFrames := by
  induction hframes generalizing buffer bytes with
  | nil =>
      have hempty : buffer ++ bytes = [] := (List.append_eq_nil_iff.1 hstream).1
      refine ⟨[], [], [], [], [], rfl, rfl, .nil, ?_, hempty, rfl⟩
      apply feed_of_none
      rw [push, hempty]
      simp only [require_bind_eq_ok, decide_eq_true_eq]
      exact ⟨hfits, rfl⟩
  | @cons message encoded messages frames hencoded hframes ih =>
      rw [List.flatten_cons] at hstream
      rcases List.append_eq_append_iff.1 hstream with
        ⟨more, hframe, htail⟩ | ⟨more, hbytes, hrest⟩
      · by_cases hmore : more = []
        · -- the chunk ends with the frame
          subst hmore
          rw [List.append_nil] at hframe
          have hpush : push wire buffer bytes = .ok (some message, []) :=
            push_frame hencoded (by rw [hframe, List.append_nil]) hfits
          obtain ⟨complete, open_, completeFrames, openFrames, rest, rfl, rfl,
            hopen, hfeed, hsplit, hshort⟩ := @ih [] [] htail (Nat.zero_le _)
          refine ⟨message :: complete, open_, encoded :: completeFrames,
            openFrames, rest, rfl, rfl, hopen, feed_of_some hpush hfeed, ?_,
            hshort⟩
          rw [List.flatten_cons, List.append_assoc, ← hsplit, hframe]
          simp
        · refine ⟨[], message :: messages, [], encoded :: frames,
            buffer ++ bytes, rfl, rfl, .cons hencoded hframes,
            feed_of_none (push_incomplete hencoded hframe hmore hfits), rfl, ?_⟩
          have hlength := List.length_pos_iff.2 hmore
          change (buffer ++ bytes).length < encoded.length
          calc (buffer ++ bytes).length
              _ < (buffer ++ bytes).length + more.length := by omega
              _ = encoded.length := by rw [hframe, ← List.length_append]
      · have hpush := push_frame hencoded hbytes hfits
        have hsize := congrArg List.length hbytes
        simp only [List.length_append] at hsize
        have hstream : more ++ [] ++ tail = frames.flatten := by
          rw [List.append_nil, hrest]
        obtain ⟨complete, open_, completeFrames, openFrames, rest, rfl, rfl,
          hopen, hfeed, hsplit, hshort⟩ := ih hstream (by simp; omega)
        refine ⟨message :: complete, open_, encoded :: completeFrames,
          openFrames, rest, rfl, rfl, hopen, feed_of_some hpush hfeed, ?_,
          hshort⟩
        rw [List.append_nil] at hsplit
        rw [List.flatten_cons, List.append_assoc, ← hsplit, hbytes]

/-- How many of the first bytes of a stream belong to an unfinished frame. -/
def retained : List (List UInt8) → Nat → Nat
  | [], count => count
  | next :: frames, count =>
      if next.length ≤ count then retained frames (count - next.length)
      else count

theorem retained_append (complete openFrames : List (List UInt8))
    (count : Nat) :
    retained (complete ++ openFrames) (complete.flatten.length + count) =
      retained openFrames count := by
  induction complete with
  | nil => simp
  | cons next complete ih =>
      rw [List.cons_append, retained, List.flatten_cons, List.length_append,
        if_pos (by omega), ← ih]
      congr 1
      omega

theorem retained_short {buffer : List UInt8} {frames : List (List UInt8)}
    (h : Short buffer frames) :
    retained frames buffer.length = buffer.length := by
  cases frames with
  | nil => rfl
  | cons next frames => exact if_neg (Nat.not_le.2 h)

/-- No read makes the retained bytes and the chunk larger than one maximal
frame. -/
def Fits (frames chunks : List (List UInt8)) : Prop :=
  ∀ before chunk after, chunks = before ++ chunk :: after →
    retained frames before.flatten.length + chunk.length ≤ maxBufferedBytes

/-- From any point of the stream on, the reads yield the remaining messages
exactly when each of them fits. -/
theorem feedAll_iff (complete : List (List UInt8))
    {messages : List wire.Message} {openFrames : List (List UInt8)}
    {buffer : List UInt8} (hframes : Encodes wire messages openFrames)
    (hshort : Short buffer openFrames) (chunks : List (List UInt8))
    (hstream : buffer ++ chunks.flatten = openFrames.flatten) :
    feedAll wire buffer chunks = .ok (messages, []) ↔
      ∀ before chunk after, chunks = before ++ chunk :: after →
        retained (complete ++ openFrames)
          ((complete.flatten ++ buffer ++ before.flatten).length) +
            chunk.length ≤ maxBufferedBytes := by
  induction chunks generalizing messages complete openFrames buffer with
  | nil =>
      rw [List.flatten_nil, List.append_nil] at hstream
      have hnone : openFrames = [] := by
        cases openFrames with
        | nil => rfl
        | cons next frames =>
            have hsize := congrArg List.length hstream
            rw [List.flatten_cons, List.length_append] at hsize
            have hlt : buffer.length < next.length := hshort
            omega
      subst hnone
      cases hframes
      have hbuffer : buffer = [] := hshort
      subst hbuffer
      simp [feedAll]
  | cons chunk chunks ih =>
      have hfirst : retained (complete ++ openFrames)
          ((complete.flatten ++ buffer ++ ([] : List (List UInt8)).flatten).length)
            = buffer.length := by
        rw [List.flatten_nil, List.append_nil, List.length_append,
          retained_append, retained_short hshort]
      by_cases hfits : buffer.length + chunk.length ≤ maxBufferedBytes
      · rw [List.flatten_cons, ← List.append_assoc] at hstream
        obtain ⟨found, open_, foundFrames, rest, last, rfl, rfl, hopen, hfeed,
          hsplit, hlast⟩ := feed_frames hframes hstream hfits
        rw [hsplit, List.flatten_append, List.append_assoc,
          List.append_cancel_left_eq] at hstream
        have htail := ih (complete ++ foundFrames) hopen hlast hstream
        have hresult : feedAll wire buffer (chunk :: chunks) =
            .ok (found ++ open_, []) ↔
            feedAll wire last chunks = .ok (open_, []) := by
          rw [feedAll, hfeed]
          constructor
          · intro h
            obtain ⟨⟨first, second⟩, hpair, h⟩ := bind_eq_ok.1 h
            obtain ⟨rfl, rfl⟩ := Prod.mk.inj (Except.ok.inj hpair)
            obtain ⟨⟨later, final⟩, hlater, h⟩ := bind_eq_ok.1 h
            obtain ⟨hmessages, rfl⟩ := Prod.mk.inj (Except.ok.inj h)
            rw [hlater, List.append_cancel_left hmessages]
          · intro h
            refine bind_eq_ok.2 ⟨_, rfl, bind_eq_ok.2 ⟨_, h, rfl⟩⟩
        have hread : ∀ before : List (List UInt8),
            complete.flatten ++ buffer ++ (chunk :: before).flatten =
              (complete ++ foundFrames).flatten ++ last ++ before.flatten := by
          intro before
          rw [List.flatten_cons, List.flatten_append, List.append_assoc,
            ← List.append_assoc buffer, hsplit]
          simp
        rw [hresult, htail, List.append_assoc complete]
        constructor
        · intro h before piece after heq
          cases before with
          | nil =>
              obtain ⟨rfl, -⟩ := List.cons.inj heq
              rw [hfirst]
              exact hfits
          | cons head before =>
              obtain ⟨rfl, hrest⟩ := List.cons.inj heq
              rw [hread]
              exact h before piece after hrest
        · intro h before piece after heq
          rw [← hread]
          exact h (chunk :: before) piece after (by rw [heq]; rfl)
      · constructor
        · intro h
          obtain ⟨_, hfeed, -⟩ := bind_eq_ok.1 h
          rw [feed_too_large hfits] at hfeed
          cases hfeed
        · intro h
          have hle := h [] chunk chunks rfl
          rw [hfirst] at hle
          exact absurd hle hfits

/-- A stream is read from its start exactly when every read fits. -/
theorem feedAll_iff_fits {messages : List wire.Message}
    {frames : List (List UInt8)} (hframes : Encodes wire messages frames)
    (chunks : List (List UInt8)) (hstream : chunks.flatten = frames.flatten) :
    feedAll wire [] chunks = .ok (messages, []) ↔ Fits frames chunks := by
  have hshort : Short [] frames := by
    cases hframes with
    | nil => rfl
    | cons hencoded =>
        obtain ⟨-, -, rfl⟩ := encodeFrame_eq_ok.1 hencoded
        change 0 < _
        rw [length_frame]
        exact Nat.succ_pos _
  exact feedAll_iff [] hframes hshort chunks hstream

/-- What a chunk yields re-encodes to what was read. -/
theorem feed_encodes {buffer bytes rest : List UInt8}
    {messages : List wire.Message}
    (h : feed wire buffer bytes = .ok (messages, rest)) :
    ∃ frames, Encodes wire messages frames ∧
      buffer ++ bytes = frames.flatten ++ rest := by
  induction hsize : buffer.length + bytes.length using Nat.strong_induction_on
    generalizing buffer bytes messages with
  | _ size ih =>
  rw [feed] at h
  split at h
  · cases h
  · rename_i found hpush
    obtain ⟨rfl, rfl⟩ := Prod.mk.inj (Except.ok.inj h)
    rcases push_eq_ok hpush with ⟨-, hrest⟩ | ⟨message, encoded, hsome, -⟩
    · exact ⟨[], .nil, by rw [hrest]; rfl⟩
    · cases hsome
  · rename_i message remainder hpush
    obtain ⟨⟨later, last⟩, hlater, h⟩ := bind_eq_ok.1 h
    obtain ⟨rfl, rfl⟩ := Prod.mk.inj (Except.ok.inj h)
    have hlt := push_shrinks hpush
    obtain ⟨frames, hframes, hsplit⟩ :=
      ih remainder.length (by omega) hlater rfl
    rw [List.append_nil] at hsplit
    rcases push_eq_ok hpush with ⟨hnone, -⟩ | ⟨found, encoded, hsome,
      hencoded, hbytes⟩
    · cases hnone
    · obtain rfl := Option.some.inj hsome
      refine ⟨encoded :: frames, .cons hencoded hframes, ?_⟩
      rw [hbytes, hsplit, List.flatten_cons, List.append_assoc]

theorem feedAll_encodes {chunks : List (List UInt8)}
    {buffer rest : List UInt8} {messages : List wire.Message}
    (h : feedAll wire buffer chunks = .ok (messages, rest)) :
    ∃ frames, Encodes wire messages frames ∧
      buffer ++ chunks.flatten = frames.flatten ++ rest := by
  induction chunks generalizing buffer messages with
  | nil =>
      obtain ⟨rfl, rfl⟩ := Prod.mk.inj (Except.ok.inj h)
      exact ⟨[], .nil, by simp⟩
  | cons chunk chunks ih =>
      obtain ⟨⟨first, middle⟩, hfeed, h⟩ := bind_eq_ok.1 h
      obtain ⟨⟨later, last⟩, hlater, h⟩ := bind_eq_ok.1 h
      obtain ⟨rfl, rfl⟩ := Prod.mk.inj (Except.ok.inj h)
      obtain ⟨frames, hframes, hsplit⟩ := feed_encodes hfeed
      obtain ⟨others, hothers, hrest⟩ := ih hlater
      refine ⟨frames ++ others, List.rel_append hframes hothers, ?_⟩
      rw [List.flatten_cons, ← List.append_assoc, hsplit, List.append_assoc,
        hrest, List.flatten_append, List.append_assoc]

end Streams

/-- However a stream of frames is cut, the reads yield exactly its messages
and retain nothing if and only if every read fits beside the unfinished frame
before it; and every stream that is accepted re-encodes to itself. -/
theorem frame_stream_iff (wire : Wire) :
    (∀ messages frames chunks, Encodes wire messages frames →
      chunks.flatten = frames.flatten →
      (feedAll wire [] chunks = .ok (messages, []) ↔ Fits frames chunks)) ∧
    ∀ chunks messages rest, feedAll wire [] chunks = .ok (messages, rest) →
      ∃ frames, Encodes wire messages frames ∧
        chunks.flatten = frames.flatten ++ rest := by
  constructor
  · intro messages frames chunks hframes hstream
    exact feedAll_iff_fits hframes chunks hstream
  · intro chunks messages rest h
    exact feedAll_encodes h

/-- A codec whose messages are their bodies, none of them empty. -/
def bodies : Wire where
  Message := { body : List UInt8 // body ≠ [] }
  toVec := Subtype.val
  fromSlice := fun body => if h : body ≠ [] then some ⟨body, h⟩ else none
  valid := fun _ => true
  fromSlice_toVec := fun message => dif_pos message.2

/-- A body of one byte. -/
def digit : bodies.Message := ⟨[48], List.cons_ne_nil _ _⟩

/-- A frame read byte by byte, its last byte together with the next frame. -/
def straddling (body : List UInt8) : List (List UInt8) :=
  (((frame body).take (body.length + 3)).map fun byte => [byte]) ++
    [(frame body).drop (body.length + 3) ++ frame digit.1]

theorem straddling_flatten (body : List UInt8) :
    (straddling body).flatten = [frame body, frame digit.1].flatten := by
  have hsingle : ((frame body).take (body.length + 3)).flatMap
      (fun byte => [byte]) = (frame body).take (body.length + 3) :=
    List.flatMap_singleton' _
  rw [straddling, List.flatten_append, ← List.flatMap_def, hsingle]
  simp [← List.append_assoc]

/-- Two frames whose reads are all short, the first of them maximal, are not
decoded. -/
theorem straddling_refused :
    ∃ body : bodies.Message,
      Encodes bodies [body, digit] [frame body.1, frame digit.1] ∧
      (straddling body.1).flatten = [frame body.1, frame digit.1].flatten ∧
      (∀ chunk ∈ straddling body.1, chunk.length ≤ 8192) ∧
      feedAll bodies [] (straddling body.1) ≠ .ok ([body, digit], []) := by
  obtain ⟨body, hbody⟩ : ∃ body : bodies.Message,
      body.1.length = maxFrameBytes :=
    ⟨⟨List.replicate maxFrameBytes 48, List.ne_nil_of_length_pos (by
      rw [List.length_replicate]
      exact Nat.le_of_ble_eq_true rfl)⟩, List.length_replicate⟩
  have hframes : Encodes bodies [body, digit] [frame body.1, frame digit.1] :=
    .cons (encodeFrame_eq_ok.2 ⟨rfl, hbody.le, rfl⟩)
      (.cons (encodeFrame_eq_ok.2 ⟨rfl, Nat.le_of_ble_eq_true rfl, rfl⟩) .nil)
  refine ⟨body, hframes, straddling_flatten body.1, ?_, ?_⟩
  · intro chunk hchunk
    rcases List.mem_append.1 hchunk with hchunk | hchunk
    · obtain ⟨byte, -, rfl⟩ := List.mem_map.1 hchunk
      exact Nat.le_of_ble_eq_true rfl
    · obtain rfl := List.mem_singleton.1 hchunk
      rw [List.length_append, List.length_drop, length_frame, length_frame]
      simp [digit]
  · intro h
    have hfits := (feedAll_iff_fits hframes _ (straddling_flatten body.1)).1 h
      _ _ [] rfl
    have hread : (((frame body.1).take (body.1.length + 3)).map
        fun byte => [byte]).flatten.length = body.1.length + 3 := by
      rw [← List.flatMap_def, List.flatMap_singleton', List.length_take,
        length_frame]
      omega
    have hlast : ((frame body.1).drop (body.1.length + 3) ++
        frame digit.1).length = 6 := by
      rw [List.length_append, List.length_drop, length_frame, length_frame]
      simp only [digit, List.length_singleton]
      omega
    -- all but one byte of the maximal frame is retained before the last read
    rw [hread, retained, length_frame, if_neg (by omega), hlast, hbody,
      maxBufferedBytes] at hfits
    omega

end Hq.FrameStream
