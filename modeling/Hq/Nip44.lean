/-
Encrypted payloads of relay envelopes: padding with its two length forms, the
key schedule, the stream cipher and the authentication code around it, and the
base64 text they travel as.  ChaCha20 and HMAC-SHA256 are given.
-/
import Hq.Base64
import Hq.Bytes
import Hq.Fallible

namespace Hq

/-- Why a wrapper could not be opened or made. -/
inductive FailureClass where
  | size | malformedJson | eventIdentity | signature | invalidPublicKey
  | layerShape | recipient | unsupportedEncryption | malformedEncryption
  | mac | padding | envelopeVersion | canonical | identityAgreement
  | oneUseKeyReuse | authenticationInput | cryptography
deriving DecidableEq

variable {plaintext padded payload : List UInt8} {key : FixedBytes 32}
  {length : Nat}

namespace Nip44

def maxNip44PayloadBytes : Nat := 256 * 1024

def maxPlaintextBytes : Nat := 192 * 1024

/-- The power of two that a length is rounded up to, unless it leaves 64
bits. -/
def checkedNextPowerOfTwo (length : Nat) : Option Nat :=
  if 2 ^ Nat.clog 2 length < 2 ^ 64 then some (2 ^ Nat.clog 2 length) else none

def checkedAdd (left right : Nat) : Option Nat :=
  if left + right < 2 ^ 64 then some (left + right) else none

def paddedLen (length : Nat) : Except FailureClass Nat :=
  if length ≤ 32 then .ok 32
  else match checkedNextPowerOfTwo length with
    | none => .error .size
    | some nextPower =>
        let chunk := if nextPower ≤ 256 then 32 else nextPower / 8
        match checkedAdd length (chunk - 1) with
        | none => .error .size
        | some value => .ok (value / chunk * chunk)

/-- The length in front of a plaintext, in the short or the extended form. -/
def lengthLead (length : Nat) : List UInt8 :=
  if 65536 ≤ length then 0 :: 0 :: bigEndian 4 length else bigEndian 2 length

def pad (plaintext : List UInt8) : Except FailureClass (List UInt8) :=
  if plaintext = [] ∨ maxPlaintextBytes < plaintext.length then .error .size
  else do
    let padded ← paddedLen plaintext.length
    return lengthLead plaintext.length ++ plaintext ++
      List.replicate (padded - plaintext.length) 0

/-- The length and the width of the lead it is read from. -/
def readLength (padded : List UInt8) : Except FailureClass (Nat × Nat) :=
  let short := fromBigEndian (padded.take 2)
  if short = 0 then
    if padded.length < 6 then .error .padding
    else
      let length := fromBigEndian ((padded.drop 2).take 4)
      if length < 65536 then .error .padding else .ok (length, 6)
  else .ok (short, 2)

def unpad (padded : List UInt8) : Except FailureClass (List UInt8) :=
  if padded.length < 34 then .error .padding
  else do
    let (length, leadLen) ← readLength padded
    if length = 0 ∨ maxPlaintextBytes < length ∨
        (paddedLen length).toOption.bind (checkedAdd · leadLen) ≠
          some padded.length then .error .padding
    else if padded.length < leadLen + length then .error .padding
    else
      let plaintext := (padded.drop leadLen).take length
      if (padded.drop (leadLen + length)).any (· ≠ 0) then .error .padding
      else if isText plaintext then .ok plaintext
      else .error .padding

/-! Padded lengths. -/

/-- The multiples that a length is rounded up to. -/
def chunkSize (length : Nat) : Nat :=
  if 2 ^ Nat.clog 2 length ≤ 256 then 32 else 2 ^ Nat.clog 2 length / 8

/-- What is known of the length a plaintext is padded to. -/
structure PaddedTo (length total : Nat) : Prop where
  least : 32 ≤ total
  covers : length ≤ total
  below : total < 2 * length + 33
  rounded : 32 < length → total =
    (length + (chunkSize length - 1)) / chunkSize length * chunkSize length

theorem chunkSize_eq_two_pow (length : Nat) :
    ∃ k, 5 ≤ k ∧ chunkSize length = 2 ^ k := by
  unfold chunkSize
  split
  next => exact ⟨5, le_refl 5, rfl⟩
  next hlarge =>
    have hlog : 8 < Nat.clog 2 length := by
      by_contra hsmall
      exact hlarge (Nat.pow_le_pow_right (n := 2) (by decide)
        (show Nat.clog 2 length ≤ 8 by omega))
    refine ⟨Nat.clog 2 length - 3, by omega, ?_⟩
    rw [show (8 : Nat) = 2 ^ 3 from rfl,
      Nat.pow_div (show 3 ≤ Nat.clog 2 length by omega) (by decide)]

theorem chunkSize_mono {left right : Nat} (h : left ≤ right) :
    chunkSize left ∣ chunkSize right := by
  obtain ⟨k, hk, hleft⟩ := chunkSize_eq_two_pow left
  obtain ⟨m, hm, hright⟩ := chunkSize_eq_two_pow right
  rw [hleft, hright]
  refine Nat.pow_dvd_pow 2 ?_
  have hpow : 2 ^ Nat.clog 2 left ≤ 2 ^ Nat.clog 2 right :=
    Nat.pow_le_pow_right (by decide) (Nat.clog_mono_right 2 h)
  have hchunk : chunkSize left ≤ chunkSize right := by
    unfold chunkSize
    split
    next =>
      split
      next => exact le_refl 32
      next => omega
    next =>
      rw [if_neg (by omega)]
      exact Nat.div_le_div_right hpow
  rw [hleft, hright] at hchunk
  exact (Nat.pow_le_pow_iff_right (by decide)).1 hchunk

/-- Twice a length is more than the power of two it is rounded up to. -/
theorem two_pow_clog_lt (h : 1 < length) :
    2 ^ Nat.clog 2 length < 2 * length := by
  have hpred := Nat.pow_pred_clog_lt_self (b := 2) (by decide) h
  have hpos := Nat.clog_pos (b := 2) (by decide) h
  have hsucc : 2 ^ Nat.clog 2 length = 2 * 2 ^ (Nat.clog 2 length).pred := by
    conv_lhs => rw [← Nat.succ_pred_eq_of_pos hpos]
    rw [Nat.pow_succ, Nat.mul_comm]
  omega

theorem chunkSize_le (h : 32 < length) :
    32 ≤ chunkSize length ∧ chunkSize length < length := by
  have hbelow := two_pow_clog_lt (show 1 < length by omega)
  unfold chunkSize
  split <;> omega

theorem paddedLen_eq_ok {total : Nat} (h : paddedLen length = .ok total) :
    PaddedTo length total := by
  unfold paddedLen at h
  split at h
  next hsmall =>
    cases h
    exact ⟨by omega, by omega, by omega, fun _ => by omega⟩
  next hlarge =>
    split at h
    next => cases h
    next nextPower hpower =>
      obtain ⟨-, hpower⟩ := Option.ite_none_right_eq_some.1 hpower
      cases hpower
      simp only at h
      split at h
      next => cases h
      next value hvalue =>
        obtain ⟨-, hvalue⟩ := Option.ite_none_right_eq_some.1 hvalue
        cases hvalue
        cases h
        change PaddedTo length ((length + (chunkSize length - 1)) /
          chunkSize length * chunkSize length)
        have hchunk := chunkSize_le (show 32 < length by omega)
        have hdiv := Nat.div_add_mod (length + (chunkSize length - 1))
          (chunkSize length)
        have hmod := Nat.mod_lt (length + (chunkSize length - 1))
          (show 0 < chunkSize length by omega)
        rw [Nat.mul_comm] at hdiv
        exact ⟨by omega, by omega, by omega, fun _ => rfl⟩

theorem paddedLen_ok (h : length ≤ maxPlaintextBytes) :
    ∃ total, paddedLen length = .ok total := by
  unfold paddedLen
  split
  next => exact ⟨32, rfl⟩
  next hlarge =>
    have hmax : maxPlaintextBytes = 196608 := rfl
    have hpower : 2 ^ Nat.clog 2 length < 2 ^ 64 := by
      have := two_pow_clog_lt (show 1 < length by omega)
      omega
    have hchunk := chunkSize_le (show 32 < length by omega)
    have hsum : length + (chunkSize length - 1) < 2 ^ 64 := by omega
    rw [checkedNextPowerOfTwo, if_pos hpower]
    refine ⟨(length + (chunkSize length - 1)) / chunkSize length *
      chunkSize length, ?_⟩
    have hadd : checkedAdd length (chunkSize length - 1) =
        some (length + (chunkSize length - 1)) := if_pos hsum
    unfold chunkSize at hadd ⊢
    simp only [hadd]

/-- The padded length of a longer plaintext is a multiple of the chunks of a
shorter one, and the shorter one is rounded up to the least such multiple. -/
theorem paddedLen_mono {left right leftTotal rightTotal : Nat}
    (hleft : paddedLen left = .ok leftTotal)
    (hright : paddedLen right = .ok rightTotal) (h : left ≤ right) :
    leftTotal ≤ rightTotal := by
  have hr := paddedLen_eq_ok hright
  by_cases hsmall : left ≤ 32
  · have htotal : leftTotal = 32 := by
      simpa [paddedLen, hsmall] using hleft.symm
    exact htotal ▸ hr.least
  · have hchunk := chunkSize_le (show 32 < left by omega)
    obtain ⟨factor, hfactor⟩ := chunkSize_mono h
    rw [(paddedLen_eq_ok hleft).rounded (by omega)]
    have hmultiple : rightTotal = chunkSize left *
        (factor * ((right + (chunkSize right - 1)) / chunkSize right)) := by
      rw [hr.rounded (by omega), hfactor]
      ring
    calc (left + (chunkSize left - 1)) / chunkSize left * chunkSize left
        ≤ (rightTotal + (chunkSize left - 1)) / chunkSize left *
            chunkSize left := by
          have := hr.covers
          gcongr
          omega
      _ = rightTotal := by
          rw [hmultiple, Nat.mul_add_div (by omega),
            Nat.div_eq_of_lt (show chunkSize left - 1 < chunkSize left by omega),
            Nat.add_zero, Nat.mul_comm]

/-! Padding and its removal. -/

theorem pad_eq_ok_iff :
    pad plaintext = .ok padded ↔
      plaintext ≠ [] ∧ plaintext.length ≤ maxPlaintextBytes ∧
      ∃ total, paddedLen plaintext.length = .ok total ∧
        padded = lengthLead plaintext.length ++ plaintext ++
          List.replicate (total - plaintext.length) 0 := by
  unfold pad
  split
  next hrefused =>
    refine iff_of_false (by simp) ?_
    rintro ⟨hne, hbound, -⟩
    rcases hrefused with rfl | hlong
    · exact hne rfl
    · omega
  next hadmitted =>
    obtain ⟨hne, hbound⟩ := not_or.1 hadmitted
    rw [bind_eq_ok]
    constructor
    · rintro ⟨total, htotal, hresult⟩
      cases hresult
      exact ⟨hne, Nat.not_lt.1 hbound, total, htotal, rfl⟩
    · rintro ⟨-, -, total, htotal, rfl⟩
      exact ⟨total, htotal, rfl⟩

theorem length_lengthLead (length : Nat) :
    (lengthLead length).length = if 65536 ≤ length then 6 else 2 := by
  unfold lengthLead
  split <;> simp

/-- The length is read back from the front of a padded plaintext. -/
theorem readLength_lengthLead (hpos : 0 < length)
    (hbound : length < 2 ^ 32) (rest : List UInt8) :
    readLength (lengthLead length ++ rest) =
      .ok (length, (lengthLead length).length) := by
  rw [length_lengthLead]
  unfold readLength lengthLead
  split
  next hextended =>
    have hzero : fromBigEndian [0, 0] = 0 := rfl
    have hread : ((0 :: 0 :: bigEndian 4 length ++ rest).drop 2).take 4 =
        bigEndian 4 length := by
      simp
    have hfront : (0 :: 0 :: bigEndian 4 length ++ rest).take 2 = [0, 0] := rfl
    simp only [hfront, hread, hzero, if_true]
    rw [if_neg (by simp), fromBigEndian_bigEndian (by omega), if_neg (by omega)]
  next hshort =>
    have hread : (bigEndian 2 length ++ rest).take 2 = bigEndian 2 length := by
      simp
    rw [hread, fromBigEndian_bigEndian (by omega), if_neg (by omega)]

/-- A length that is read stands in front in its only form. -/
theorem readLength_eq_ok {leadLen : Nat}
    (hlong : 34 ≤ padded.length)
    (h : readLength padded = .ok (length, leadLen)) :
    padded.take leadLen = lengthLead length ∧
      leadLen = (lengthLead length).length := by
  have hshort := bigEndian_fromBigEndian (padded.take 2)
  have hlt := fromBigEndian_lt (padded.take 2)
  rw [List.length_take, Nat.min_eq_left (by omega)] at hshort hlt
  unfold readLength at h
  simp only at h
  split at h
  next hzero =>
    split at h
    next => cases h
    next =>
      split at h
      next => cases h
      next hextended =>
        cases h
        have hread := bigEndian_fromBigEndian ((padded.drop 2).take 4)
        rw [List.length_take, List.length_drop, Nat.min_eq_left (by omega)]
          at hread
        have hfront : padded.take 2 = [0, 0] := by
          rw [← hshort, hzero]
          rfl
        rw [lengthLead, if_pos (by omega), hread]
        refine ⟨?_, by simp; omega⟩
        rw [show 6 = 2 + 4 from rfl, List.take_add, hfront]
        rfl
  next hsome =>
    cases h
    rw [lengthLead, if_neg (by omega), hshort]
    exact ⟨rfl, by simp; omega⟩

/-- What removing the padding checks. -/
structure Unpads (padded plaintext : List UInt8) (length leadLen : Nat) :
    Prop where
  long : 34 ≤ padded.length
  read : readLength padded = .ok (length, leadLen)
  positive : length ≠ 0
  bounded : length ≤ maxPlaintextBytes
  padding : (paddedLen length).toOption.bind (checkedAdd · leadLen) =
    some padded.length
  present : leadLen + length ≤ padded.length
  plaintext_eq : plaintext = (padded.drop leadLen).take length
  zeros : ∀ byte ∈ padded.drop (leadLen + length), byte = 0
  text : isText plaintext = true

theorem unpad_eq_ok :
    unpad padded = .ok plaintext ↔
      ∃ length leadLen, Unpads padded plaintext length leadLen := by
  unfold unpad
  split
  next hshort =>
    refine iff_of_false (by simp) ?_
    rintro ⟨length, leadLen, h⟩
    have := h.long
    omega
  next hlong =>
    rw [bind_eq_ok]
    constructor
    · rintro ⟨⟨length, leadLen⟩, hread, h⟩
      simp only at h
      split at h
      next => cases h
      next hlength =>
        obtain ⟨hpositive, hlength⟩ := not_or.1 hlength
        obtain ⟨hbounded, hpadding⟩ := not_or.1 hlength
        split at h
        next => cases h
        next hpresent =>
          split at h
          next => cases h
          next hzeros =>
            split at h
            next htext =>
              cases h
              exact ⟨length, leadLen, Nat.not_lt.1 hlong, hread, hpositive,
                Nat.not_lt.1 hbounded, not_not.1 hpadding,
                Nat.not_lt.1 hpresent, rfl, by simpa using hzeros, htext⟩
            next => cases h
    · rintro ⟨length, leadLen, h⟩
      refine ⟨(length, leadLen), h.read, ?_⟩
      have hlength : ¬ (length = 0 ∨ maxPlaintextBytes < length ∨
          (paddedLen length).toOption.bind (checkedAdd · leadLen) ≠
            some padded.length) := by
        rintro (hzero | hlarge | hpadding)
        · exact h.positive hzero
        · exact absurd h.bounded (Nat.not_le.2 hlarge)
        · exact hpadding h.padding
      have hzeros : ¬ (padded.drop (leadLen + length)).any (· ≠ 0) = true := by
        simpa using h.zeros
      simp only [hlength, if_false, Nat.not_lt.2 h.present, hzeros,
        ← h.plaintext_eq, h.text, if_true]
      simp

/-- Removing the padding accepts the padded texts and nothing else. -/
theorem unpad_eq_ok_iff :
    unpad padded = .ok plaintext ↔
      isText plaintext = true ∧ pad plaintext = .ok padded := by
  rw [unpad_eq_ok, pad_eq_ok_iff]
  constructor
  · rintro ⟨length, leadLen, h⟩
    obtain ⟨hfront, hlead⟩ := readLength_eq_ok h.long h.read
    have hlength : plaintext.length = length := by
      rw [h.plaintext_eq, List.length_take, List.length_drop]
      have := h.present
      omega
    obtain ⟨total, htotal, hsum⟩ := Option.bind_eq_some_iff.1 h.padding
    obtain ⟨-, hsum⟩ := Option.ite_none_right_eq_some.1 hsum
    have hsum := Option.some.inj hsum
    have hpadded : paddedLen length = .ok total := by
      cases hresult : paddedLen length with
      | error failure =>
          rw [hresult] at htotal
          cases htotal
      | ok value =>
          rw [hresult] at htotal
          rw [Option.some.inj htotal]
    have hrest : padded.drop (leadLen + length) =
        List.replicate (total - length) 0 := by
      refine List.eq_replicate_iff.2 ⟨?_, h.zeros⟩
      rw [List.length_drop]
      omega
    refine ⟨h.text, ?_, hlength ▸ h.bounded, total, hlength ▸ hpadded, ?_⟩
    · rintro rfl
      exact h.positive hlength.symm
    · rw [hlength, ← hfront, ← hrest, h.plaintext_eq, List.append_assoc,
        ← List.drop_drop, List.take_append_drop, List.take_append_drop]
  · rintro ⟨htext, hne, hbound, total, htotal, rfl⟩
    have hpos : 0 < plaintext.length := List.length_pos_iff.2 hne
    have hto := paddedLen_eq_ok htotal
    have hmax : maxPlaintextBytes = 196608 := rfl
    have hlead : (lengthLead plaintext.length).length ≤ 6 ∧
        2 ≤ (lengthLead plaintext.length).length := by
      rw [length_lengthLead]
      split <;> omega
    have hread := readLength_lengthLead hpos
      (show plaintext.length < 2 ^ 32 by omega)
      (plaintext ++ List.replicate (total - plaintext.length) 0)
    refine ⟨plaintext.length, (lengthLead plaintext.length).length, ?_, ?_,
      by omega, hbound, ?_, ?_, ?_, ?_, htext⟩
    · have := hto.least
      have := hto.covers
      simp only [List.length_append, List.length_replicate]
      omega
    · rw [List.append_assoc]
      exact hread
    · rw [htotal]
      have hcovers := hto.covers
      have hbelow := hto.below
      simp only [Except.toOption, Option.bind_some, checkedAdd,
        List.length_append, List.length_replicate]
      rw [if_pos (by omega)]
      congr 1
      omega
    · simp
    · simp
    · simp

theorem unpad_pad
    (htext : isText plaintext = true) (h : pad plaintext = .ok padded) :
    unpad padded = .ok plaintext :=
  unpad_eq_ok_iff.2 ⟨htext, h⟩

/-! Encryption around the padding. -/

/-- The primitives: HMAC-SHA256 by key and message, and the ChaCha20 key
stream by key, nonce and position. -/
structure Ciphers where
  hmac : List UInt8 → List UInt8 → List UInt8
  length_hmac : ∀ key message, (hmac key message).length = 32
  keystream : List UInt8 → List UInt8 → Nat → UInt8

section Payload

variable (ciphers : Ciphers)

def expandKeys (key nonce : FixedBytes 32) : List UInt8 :=
  ([1, 2, 3].foldl (fun (state : List UInt8 × List UInt8) counter =>
    let previous := ciphers.hmac key.1 (state.1 ++ nonce.1 ++ [counter])
    (previous, state.2 ++ previous.take (76 - state.2.length))) ([], [])).2

def authenticate (key : List UInt8) (nonce : FixedBytes 32)
    (ciphertext : List UInt8) : List UInt8 :=
  ciphers.hmac key (nonce.1 ++ ciphertext)

def applyKeystream (keys bytes : List UInt8) : List UInt8 :=
  bytes.mapIdx fun position byte =>
    byte ^^^ ciphers.keystream (keys.take 32) ((keys.drop 32).take 12) position

/-- The bytes behind the base64 text. -/
def payloadBytes (key nonce : FixedBytes 32) (padded : List UInt8) : List UInt8 :=
  let keys := expandKeys ciphers key nonce
  let ciphertext := applyKeystream ciphers keys padded
  2 :: (nonce.1 ++ ciphertext ++
    authenticate ciphers (keys.drop 44) nonce ciphertext)

def encrypt (plaintext : List UInt8) (key nonce : FixedBytes 32) :
    Except FailureClass (List UInt8) := do
  let padded ← pad plaintext
  let encoded := encodeBase64 (payloadBytes ciphers key nonce padded)
  if maxNip44PayloadBytes < encoded.length then .error .size else .ok encoded

theorem length_nonce {decoded : List UInt8} (hlong : ¬ decoded.length < 99) :
    ((decoded.drop 1).take 32).length = 32 := by
  rw [List.length_take, List.length_drop]
  omega

def decrypt (payload : List UInt8) (key : FixedBytes 32) :
    Except FailureClass (List UInt8) :=
  if payload.head? = some 35 then .error .unsupportedEncryption
  else if payload.length < 132 ∨ maxNip44PayloadBytes < payload.length then
    .error .size
  else match decodeBase64 payload with
    | none => .error .malformedEncryption
    | some decoded =>
        if hlong : decoded.length < 99 then .error .malformedEncryption
        else if decoded.head? ≠ some 2 then .error .unsupportedEncryption
        else
          let nonce : FixedBytes 32 := ⟨(decoded.drop 1).take 32, length_nonce hlong⟩
          let ciphertext := (decoded.take (decoded.length - 32)).drop 33
          let keys := expandKeys ciphers key nonce
          let wanted := authenticate ciphers (keys.drop 44) nonce ciphertext
          if !constantTimeEqual wanted (decoded.drop (decoded.length - 32)) then
            .error .mac
          else unpad (applyKeystream ciphers keys ciphertext)

variable {ciphers}

theorem applyKeystream_applyKeystream (keys bytes : List UInt8) :
    applyKeystream ciphers keys (applyKeystream ciphers keys bytes) = bytes := by
  refine List.ext_getElem (by simp [applyKeystream]) fun position _ _ => ?_
  simp only [applyKeystream, List.getElem_mapIdx, UInt8.xor_assoc,
    UInt8.xor_self, UInt8.xor_zero]

@[simp] theorem length_applyKeystream (keys bytes : List UInt8) :
    (applyKeystream ciphers keys bytes).length = bytes.length := by
  simp [applyKeystream]

theorem length_payloadBytes (key nonce : FixedBytes 32) (padded : List UInt8) :
    (payloadBytes ciphers key nonce padded).length = padded.length + 65 := by
  have hmac := ciphers.length_hmac
  simp [payloadBytes, authenticate, hmac, nonce.2]
  omega

/-- The parts of the bytes behind a base64 text. -/
theorem framed_parts {version : UInt8} {nonce ciphertext tag : List UInt8}
    (hnonce : nonce.length = 32) (htag : tag.length = 32) :
    let decoded := version :: (nonce ++ ciphertext ++ tag)
    (decoded.drop 1).take 32 = nonce ∧
      (decoded.take (decoded.length - 32)).drop 33 = ciphertext ∧
      decoded.drop (decoded.length - 32) = tag := by
  intro decoded
  have hlength : decoded.length - 32 = 33 + ciphertext.length := by
    simp only [decoded, List.length_cons, List.length_append]
    omega
  have hfront : decoded = (version :: nonce ++ ciphertext) ++ tag := by
    simp [decoded]
  refine ⟨?_, ?_, ?_⟩
  · simp [decoded, ← hnonce]
  · rw [hlength, hfront, List.take_left' (by simp; omega),
      List.drop_left' (by simp [hnonce])]
  · rw [hlength, hfront, List.drop_left' (by simp; omega)]

theorem framed_eq {decoded : List UInt8} (hlong : 99 ≤ decoded.length)
    (hhead : decoded.head? = some 2) :
    decoded = 2 :: ((decoded.drop 1).take 32 ++
      (decoded.take (decoded.length - 32)).drop 33 ++
        decoded.drop (decoded.length - 32)) := by
  have hfront : (decoded.take (decoded.length - 32)).take 33 =
      2 :: (decoded.drop 1).take 32 := by
    rw [List.take_take, Nat.min_eq_left (by omega)]
    cases decoded with
    | nil => cases hhead
    | cons first tail =>
        rw [Option.some.inj hhead]
        rfl
  calc decoded
      = decoded.take (decoded.length - 32) ++
          decoded.drop (decoded.length - 32) :=
        (List.take_append_drop _ decoded).symm
    _ = ((decoded.take (decoded.length - 32)).take 33 ++
          (decoded.take (decoded.length - 32)).drop 33) ++
            decoded.drop (decoded.length - 32) := by
        rw [List.take_append_drop 33 (decoded.take (decoded.length - 32))]
    _ = _ := by rw [hfront]; simp

theorem encrypt_eq_ok_iff {nonce : FixedBytes 32} :
    encrypt ciphers plaintext key nonce = .ok payload ↔
      ∃ padded, pad plaintext = .ok padded ∧
        encodeBase64 (payloadBytes ciphers key nonce padded) = payload ∧
          payload.length ≤ maxNip44PayloadBytes := by
  simp only [encrypt, bind_eq_ok]
  refine exists_congr fun padded => and_congr_right fun _ => ?_
  split
  next hlong =>
    refine iff_of_false (by simp) ?_
    rintro ⟨rfl, hshort⟩
    omega
  next hshort =>
    rw [Except.ok.injEq]
    refine ⟨?_, And.left⟩
    rintro rfl
    exact ⟨rfl, Nat.not_lt.1 hshort⟩

/-- Different conversation keys authenticate no message alike. -/
def KeyedApart (ciphers : Ciphers) : Prop :=
  ∀ left right nonce message,
    ciphers.hmac ((expandKeys ciphers left nonce).drop 44) message =
      ciphers.hmac ((expandKeys ciphers right nonce).drop 44) message →
        left = right

theorem isText_encrypt {nonce : FixedBytes 32}
    (h : encrypt ciphers plaintext key nonce = .ok payload) :
    isText payload = true := by
  obtain ⟨padded, -, rfl, -⟩ := encrypt_eq_ok_iff.1 h
  exact isText_of_ascii fun byte hmem => (mem_encodeBase64 hmem).1

/-- A payload that decryption accepts, taken apart. -/
structure Decrypts (ciphers : Ciphers) (payload : List UInt8) (key : FixedBytes 32)
    (plaintext : List UInt8) (nonce : FixedBytes 32) (ciphertext : List UInt8) :
    Prop where
  unflagged : payload.head? ≠ some 35
  long : 132 ≤ payload.length
  short : payload.length ≤ maxNip44PayloadBytes
  decoded : decodeBase64 payload = some (2 :: (nonce.1 ++ ciphertext ++
    authenticate ciphers ((expandKeys ciphers key nonce).drop 44) nonce
      ciphertext))
  filled : 34 ≤ ciphertext.length
  unpadded :
    unpad (applyKeystream ciphers (expandKeys ciphers key nonce) ciphertext) =
      .ok plaintext

theorem decrypt_eq_ok :
    decrypt ciphers payload key = .ok plaintext ↔
      ∃ nonce ciphertext,
        Decrypts ciphers payload key plaintext nonce ciphertext := by
  simp only [decrypt]
  constructor
  · intro h
    split at h
    next => cases h
    next hflag =>
      split at h
      next => cases h
      next hsize =>
        obtain ⟨hlong, hshort⟩ := not_or.1 hsize
        split at h
        next => cases h
        next decoded hdecoded =>
          split at h
          next => cases h
          next hlen =>
            split at h
            next => cases h
            next hversion =>
              split at h
              next => cases h
              next htag =>
                have hframe := framed_eq (Nat.not_lt.1 hlen)
                  (not_not.1 hversion)
                rw [Bool.not_eq_true', Bool.not_eq_false,
                  constantTimeEqual_iff] at htag
                rw [← htag] at hframe
                refine ⟨_, _, hflag, Nat.not_lt.1 hlong, Nat.not_lt.1 hshort,
                  hdecoded.trans (congrArg some hframe), ?_, h⟩
                simp only [List.length_drop, List.length_take]
                omega
  · rintro ⟨nonce, ciphertext, h⟩
    have htag := ciphers.length_hmac
      ((expandKeys ciphers key nonce).drop 44) (nonce.1 ++ ciphertext)
    obtain ⟨hnonce, hciphertext, htail⟩ :=
      @framed_parts 2 nonce.1 ciphertext _ nonce.2 htag
    have hsize : ¬ (payload.length < 132 ∨
        maxNip44PayloadBytes < payload.length) :=
      not_or.2 ⟨Nat.not_lt.2 h.long, Nat.not_lt.2 h.short⟩
    have hlen : ¬ (2 :: (nonce.1 ++ ciphertext ++ authenticate ciphers
        ((expandKeys ciphers key nonce).drop 44) nonce ciphertext)).length <
          99 := by
      have := h.filled
      simp only [authenticate, List.length_cons, List.length_append, htag,
        nonce.2]
      omega
    rw [if_neg h.unflagged, if_neg hsize]
    simp only [h.decoded, dif_neg hlen]
    rw [if_neg (by simp)]
    have heq (tag : List UInt8) : constantTimeEqual tag tag = true :=
      constantTimeEqual_iff.2 rfl
    simp only [authenticate] at hnonce hciphertext htail ⊢
    simp only [hnonce, hciphertext, htail, heq, Subtype.coe_eta, Bool.not_true,
      Bool.false_eq_true, if_false]
    exact h.unpadded

/-- Where keys authenticate apart, a payload opens under one key only. -/
theorem KeyedApart.eq_of_decrypt {left right : List UInt8}
    {peer : FixedBytes 32} (hapart : KeyedApart ciphers)
    (hleft : decrypt ciphers payload key = .ok left)
    (hright : decrypt ciphers payload peer = .ok right) : key = peer := by
  obtain ⟨nonce, ciphertext, hkey⟩ := decrypt_eq_ok.1 hleft
  obtain ⟨nonce', ciphertext', hpeer⟩ := decrypt_eq_ok.1 hright
  have hframe := Option.some.inj (hkey.decoded.symm.trans hpeer.decoded)
  obtain ⟨hfront, htag⟩ := List.append_inj' (List.cons.inj hframe).2 (by
    simp only [authenticate, ciphers.length_hmac])
  obtain ⟨hnonce, rfl⟩ := List.append_inj hfront (by rw [nonce.2, nonce'.2])
  obtain rfl := Subtype.ext hnonce
  exact hapart _ _ _ _ htag

/-- Decryption accepts what encryption under the same key produces from a
text, and nothing else. -/
theorem decrypt_eq_ok_iff :
    decrypt ciphers payload key = .ok plaintext ↔
      isText plaintext = true ∧
        ∃ nonce, encrypt ciphers plaintext key nonce = .ok payload := by
  rw [decrypt_eq_ok]
  constructor
  · rintro ⟨nonce, ciphertext, h⟩
    obtain ⟨htext, hpad⟩ := unpad_eq_ok_iff.1 h.unpadded
    refine ⟨htext, nonce, encrypt_eq_ok_iff.2 ⟨_, hpad, ?_, h.short⟩⟩
    rw [payloadBytes, applyKeystream_applyKeystream]
    exact encodeBase64_of_decodeBase64 h.decoded
  · rintro ⟨htext, nonce, h⟩
    obtain ⟨padded, hpad, rfl, hshort⟩ := encrypt_eq_ok_iff.1 h
    have hfilled : 34 ≤ padded.length := by
      obtain ⟨-, -, total, htotal, rfl⟩ := pad_eq_ok_iff.1 hpad
      have hleast := (paddedLen_eq_ok htotal).least
      have hcovers := (paddedLen_eq_ok htotal).covers
      simp only [List.length_append, List.length_replicate, length_lengthLead]
      split <;> omega
    refine ⟨nonce, applyKeystream ciphers (expandKeys ciphers key nonce) padded,
      ?_, ?_, hshort, decodeBase64_encodeBase64 _, by simpa using hfilled, ?_⟩
    · intro hflag
      exact (mem_encodeBase64 (List.mem_of_head? hflag)).2 rfl
    · rw [length_encodeBase64, length_payloadBytes]
      omega
    · rw [applyKeystream_applyKeystream]
      exact unpad_pad htext hpad

theorem length_of_pad {total : Nat}
    (htotal : paddedLen plaintext.length = .ok total)
    (h : pad plaintext = .ok padded) :
    padded.length = (if 65536 ≤ plaintext.length then 6 else 2) + total := by
  obtain ⟨-, -, other, hother, rfl⟩ := pad_eq_ok_iff.1 h
  have hcovers := (paddedLen_eq_ok htotal).covers
  cases htotal.symm.trans hother
  simp only [List.length_append, List.length_replicate, length_lengthLead]
  omega

/-- The longest plaintext whose base64 text stays inside its limit. -/
theorem paddedLen_longest : paddedLen 163840 = .ok 163840 := by
  decide +kernel

theorem paddedLen_past_longest : paddedLen 163841 = .ok 196608 := by
  decide +kernel

theorem encrypt_ok (hne : plaintext ≠ [])
    (hbound : plaintext.length ≤ 163840) (key nonce : FixedBytes 32) :
    ∃ payload, encrypt ciphers plaintext key nonce = .ok payload := by
  have hmax : maxPlaintextBytes = 196608 := rfl
  have hlimit : maxNip44PayloadBytes = 262144 := rfl
  obtain ⟨total, htotal⟩ := paddedLen_ok (show plaintext.length ≤ _ by omega)
  have hle := paddedLen_mono htotal paddedLen_longest hbound
  have hpad := pad_eq_ok_iff.2 ⟨hne, by omega, total, htotal, rfl⟩
  have hlength := length_of_pad htotal hpad
  refine ⟨_, encrypt_eq_ok_iff.2 ⟨_, hpad, rfl, ?_⟩⟩
  rw [length_encodeBase64, length_payloadBytes, hlength, hlimit]
  split <;> omega

theorem encrypt_past_longest
    (hbound : 163840 < plaintext.length) (key nonce : FixedBytes 32) :
    encrypt ciphers plaintext key nonce = .error .size := by
  have hlimit : maxNip44PayloadBytes = 262144 := rfl
  simp only [encrypt]
  cases hpad : pad plaintext with
  | error failure =>
      -- the padded length is defined, so only the plaintext bound is left
      by_cases hmax : plaintext = [] ∨ maxPlaintextBytes < plaintext.length
      · rw [pad, if_pos hmax] at hpad
        cases hpad
        rfl
      · obtain ⟨hne, hshort⟩ := not_or.1 hmax
        obtain ⟨total, htotal⟩ := paddedLen_ok (Nat.not_lt.1 hshort)
        rw [pad_eq_ok_iff.2 ⟨hne, Nat.not_lt.1 hshort, total, htotal, rfl⟩]
          at hpad
        cases hpad
  | ok padded =>
      obtain ⟨-, -, total, htotal, -⟩ := pad_eq_ok_iff.1 hpad
      have hle := paddedLen_mono paddedLen_past_longest htotal hbound
      have hlength := length_of_pad htotal hpad
      refine if_pos ?_
      rw [length_encodeBase64, length_payloadBytes, hlength, hlimit,
        if_pos (by omega)]
      omega

/-- Padding is exact: its removal accepts the padded texts only.  Decryption
inverts encryption, which refuses the plaintexts whose base64 text would be too
long. -/
theorem padding_exact_encryption_inverts (ciphers : Ciphers) (key : FixedBytes 32)
    (plaintext : List UInt8) (htext : isText plaintext = true)
    (hne : plaintext ≠ []) (hbound : plaintext.length ≤ maxPlaintextBytes) :
    (∃ total, paddedLen plaintext.length = .ok total ∧
      plaintext.length ≤ total ∧ total < 2 * plaintext.length + 33 ∧
      (∀ length shorter, length ≤ plaintext.length →
        paddedLen length = .ok shorter → shorter ≤ total) ∧
      pad plaintext = .ok (lengthLead plaintext.length ++ plaintext ++
        List.replicate (total - plaintext.length) 0)) ∧
    (∀ padded, unpad padded = .ok plaintext ↔ pad plaintext = .ok padded) ∧
    (∀ padded text, unpad padded = .ok text →
      isText text = true ∧ pad text = .ok padded) ∧
    (∀ nonce, if plaintext.length ≤ 163840 then
        ∃ payload, encrypt ciphers plaintext key nonce = .ok payload ∧
          decrypt ciphers payload key = .ok plaintext
      else encrypt ciphers plaintext key nonce = .error .size) ∧
    (∀ payload, decrypt ciphers payload key = .ok plaintext ↔
      ∃ nonce, encrypt ciphers plaintext key nonce = .ok payload) := by
  obtain ⟨total, htotal⟩ := paddedLen_ok hbound
  have hto := paddedLen_eq_ok htotal
  refine ⟨⟨total, htotal, hto.covers, hto.below, ?_, ?_⟩, ?_, ?_, ?_, ?_⟩
  · intro length shorter hle hshorter
    exact paddedLen_mono hshorter htotal hle
  · exact pad_eq_ok_iff.2 ⟨hne, hbound, total, htotal, rfl⟩
  · intro padded
    rw [unpad_eq_ok_iff, and_iff_right htext]
  · intro padded text h
    exact unpad_eq_ok_iff.1 h
  · intro nonce
    split
    next hlongest =>
      obtain ⟨payload, hpayload⟩ := encrypt_ok hne hlongest key nonce
      exact ⟨payload, hpayload, decrypt_eq_ok_iff.2 ⟨htext, nonce, hpayload⟩⟩
    next hlonger => exact encrypt_past_longest (Nat.not_le.1 hlonger) key nonce
  · intro payload
    rw [decrypt_eq_ok_iff, and_iff_right htext]

def plainCiphers : Ciphers where
  hmac _ message := List.replicate 32 (message.foldl (· + ·) 0)
  length_hmac _ _ := List.length_replicate
  keystream _ _ position := position.toUInt8

def zeroKey : FixedBytes 32 := ⟨List.replicate 32 0, length_zeros⟩

theorem padding_exact_encryption_inverts_hello :
    isText [104, 105] = true ∧
      ∃ payload, encrypt plainCiphers [104, 105] zeroKey zeroKey = .ok payload ∧
        decrypt plainCiphers payload zeroKey = .ok [104, 105] := by
  have htext : isText [104, 105] = true := by decide +kernel
  have hexact := padding_exact_encryption_inverts plainCiphers zeroKey
    [104, 105] htext (by decide) (by decide)
  have hencrypt := hexact.2.2.2.1 zeroKey
  rw [if_pos (by decide)] at hencrypt
  exact ⟨htext, hencrypt⟩

theorem encodeText_replicate_x (count : Nat) :
    encodeText (List.replicate count 'x') = List.replicate count 120 := by
  induction count with
  | zero => rfl
  | succ count ih =>
      rw [List.replicate_succ, List.replicate_succ, ← ih]
      rfl

/-- A text inside the plaintext limit that is padded and never encrypted. -/
theorem admissible_text_not_encrypted :
    let plaintext := List.replicate 163841 (120 : UInt8)
    isText plaintext = true ∧ (∃ padded, pad plaintext = .ok padded) ∧
      encrypt plainCiphers plaintext zeroKey zeroKey = .error .size := by
  intro plaintext
  have hlength : plaintext.length = 163841 := List.length_replicate
  refine ⟨?_, ?_, encrypt_past_longest (by omega) zeroKey zeroKey⟩
  · exact isText_iff.2 ⟨_, encodeText_replicate_x 163841⟩
  · refine ⟨_, pad_eq_ok_iff.2 ⟨?_, ?_, 196608, ?_, rfl⟩⟩
    · intro hnil
      rw [hnil] at hlength
      cases hlength
    · rw [hlength]
      decide
    · rw [hlength]
      exact paddedLen_past_longest

end Payload

end Nip44

end Hq
