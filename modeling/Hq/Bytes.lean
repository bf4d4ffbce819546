/-
Bytes of texts and numbers: UTF-8, fixed-width big-endian numbers, decimal
numbers and lower-case hexadecimal digits, each with the reader that undoes it
and accepts nothing else.
-/
import Mathlib

namespace Hq

/-- An array of bytes of a fixed length. -/
abbrev FixedBytes (width : Nat) := { bytes : List UInt8 // bytes.length = width }

theorem length_zeros : (List.replicate 32 (0 : UInt8)).length = 32 :=
  List.length_replicate

/-! UTF-8. -/

def encodeText (chars : List Char) : List UInt8 :=
  chars.flatMap String.utf8EncodeChar

def decodeText (bytes : List UInt8) : Option (List Char) :=
  bytes.toByteArray.utf8Decode?.map Array.toList

/-- Bytes that are the UTF-8 of some text. -/
def isText (bytes : List UInt8) : Bool := (decodeText bytes).isSome

theorem decodeText_encodeText (chars : List Char) :
    decodeText (encodeText chars) = some chars := by
  unfold decodeText
  rw [show (encodeText chars).toByteArray = chars.utf8Encode from rfl,
    List.utf8Decode?_utf8Encode]
  rfl

theorem encodeText_of_decodeText {bytes : List UInt8} {chars : List Char}
    (h : decodeText bytes = some chars) : encodeText chars = bytes := by
  obtain ⟨array, hdecode, rfl⟩ := Option.map_eq_some_iff.1 h
  have hget := ByteArray.utf8Encode_get_utf8Decode? (b := bytes.toByteArray)
    (h := by rw [hdecode]; rfl)
  simp only [hdecode, Option.get_some] at hget
  exact List.toByteArray_inj.1 hget

theorem isText_iff {bytes : List UInt8} :
    isText bytes = true ↔ ∃ chars, encodeText chars = bytes := by
  rw [isText, Option.isSome_iff_exists]
  constructor
  · rintro ⟨chars, hchars⟩
    exact ⟨chars, encodeText_of_decodeText hchars⟩
  · rintro ⟨chars, rfl⟩
    exact ⟨chars, decodeText_encodeText chars⟩

theorem isText_append {left right : List UInt8} (hleft : isText left = true)
    (hright : isText right = true) : isText (left ++ right) = true := by
  obtain ⟨leftChars, rfl⟩ := isText_iff.1 hleft
  obtain ⟨rightChars, rfl⟩ := isText_iff.1 hright
  exact isText_iff.2 ⟨leftChars ++ rightChars, List.flatMap_append⟩

theorem utf8EncodeChar_ascii {n : Nat} (h : n < 128) :
    String.utf8EncodeChar (Char.ofNat n) = [UInt8.ofNat n] := by
  revert n
  decide +kernel

theorem isText_of_ascii {bytes : List UInt8} (h : ∀ byte ∈ bytes, byte < 128) :
    isText bytes = true := by
  induction bytes with
  | nil => exact isText_iff.2 ⟨[], rfl⟩
  | cons byte bytes ih =>
      have hbyte : byte.toNat < 128 :=
        UInt8.lt_iff_toNat_lt.1 (h byte List.mem_cons_self)
      have hfirst : isText [byte] = true := by
        refine isText_iff.2 ⟨[Char.ofNat byte.toNat], ?_⟩
        rw [encodeText, List.flatMap_singleton, utf8EncodeChar_ascii hbyte,
          UInt8.ofNat_toNat]
      exact isText_append hfirst
        (ih fun other hmem => h other (List.mem_cons_of_mem byte hmem))

/-- A text, by its bytes. -/
abbrev Utf8Text := { bytes : List UInt8 // isText bytes = true }

/-! Big-endian numbers. -/

/-- The lowest `width` bytes of a number, most significant first. -/
def bigEndian (width n : Nat) : List UInt8 :=
  match width with
  | 0 => []
  | width + 1 => bigEndian width (n / 256) ++ [UInt8.ofNat n]

def fromBigEndian (bytes : List UInt8) : Nat :=
  bytes.foldl (fun value byte => value * 256 + byte.toNat) 0

@[simp] theorem length_bigEndian (width n : Nat) :
    (bigEndian width n).length = width := by
  induction width generalizing n with
  | zero => rfl
  | succ width ih => simp [bigEndian, ih]

@[simp] theorem fromBigEndian_concat (bytes : List UInt8) (byte : UInt8) :
    fromBigEndian (bytes ++ [byte]) =
      fromBigEndian bytes * 256 + byte.toNat := by
  simp [fromBigEndian]

theorem fromBigEndian_bigEndian {width n : Nat} (h : n < 256 ^ width) :
    fromBigEndian (bigEndian width n) = n := by
  induction width generalizing n with
  | zero =>
      have : n = 0 := by simpa using h
      simp [bigEndian, fromBigEndian, this]
  | succ width ih =>
      have hhigh : n / 256 < 256 ^ width := by
        rw [Nat.div_lt_iff_lt_mul (by decide), ← Nat.pow_succ]
        exact h
      rw [bigEndian, fromBigEndian_concat, ih hhigh, UInt8.toNat_ofNat']
      exact Nat.div_add_mod' n 256

theorem bigEndian_fromBigEndian (bytes : List UInt8) :
    bigEndian bytes.length (fromBigEndian bytes) = bytes := by
  induction bytes using List.reverseRecOn with
  | nil => rfl
  | append_singleton bytes byte ih =>
      have hbyte := byte.toNat_lt
      have hhigh : (fromBigEndian bytes * 256 + byte.toNat) / 256 =
          fromBigEndian bytes := by
        change byte.toNat < 256 at hbyte
        omega
      have hlow : UInt8.ofNat (fromBigEndian bytes * 256 + byte.toNat) =
          byte := by
        apply UInt8.toNat_inj.1
        rw [UInt8.toNat_ofNat']
        change byte.toNat < 256 at hbyte
        omega
      rw [List.length_append, List.length_singleton, bigEndian,
        fromBigEndian_concat, hhigh, hlow, ih]

theorem fromBigEndian_lt (bytes : List UInt8) :
    fromBigEndian bytes < 256 ^ bytes.length := by
  induction bytes using List.reverseRecOn with
  | nil => decide
  | append_singleton bytes byte ih =>
      have hbyte : byte.toNat < 256 := byte.toNat_lt
      rw [fromBigEndian_concat, List.length_append, List.length_singleton,
        Nat.pow_succ]
      calc fromBigEndian bytes * 256 + byte.toNat
          < fromBigEndian bytes * 256 + 256 := by omega
        _ = (fromBigEndian bytes + 1) * 256 := by ring
        _ ≤ 256 ^ bytes.length * 256 := Nat.mul_le_mul_right _ ih

/-! Decimal numbers. -/

def isDecimalDigit (byte : UInt8) : Bool := 48 ≤ byte && byte ≤ 57

def encodeDecimal (n : Nat) : List UInt8 :=
  if n < 10 then [UInt8.ofNat (48 + n)]
  else encodeDecimal (n / 10) ++ [UInt8.ofNat (48 + n % 10)]

def decodeDecimal (digits : List UInt8) : Nat :=
  digits.foldl (fun value digit => value * 10 + (digit.toNat - 48)) 0

@[simp] theorem decodeDecimal_concat (digits : List UInt8) (digit : UInt8) :
    decodeDecimal (digits ++ [digit]) =
      decodeDecimal digits * 10 + (digit.toNat - 48) := by
  simp [decodeDecimal]

theorem isDecimalDigit_iff {byte : UInt8} :
    isDecimalDigit byte = true ↔ 48 ≤ byte.toNat ∧ byte.toNat ≤ 57 := by
  simp [isDecimalDigit, UInt8.le_iff_toNat_le]

theorem toNat_decimalDigit {n : Nat} (h : n < 10) :
    (UInt8.ofNat (48 + n)).toNat = 48 + n := by
  rw [UInt8.toNat_ofNat']
  omega

theorem decodeDecimal_encodeDecimal (n : Nat) :
    decodeDecimal (encodeDecimal n) = n := by
  fun_induction encodeDecimal n with
  | case1 n hsmall =>
      rw [← List.nil_append [_], decodeDecimal_concat, toNat_decimalDigit hsmall]
      simp [decodeDecimal]
  | case2 n hlarge ih =>
      rw [decodeDecimal_concat, ih, toNat_decimalDigit (by omega)]
      omega

theorem encodeDecimal_ne_nil (n : Nat) : encodeDecimal n ≠ [] := by
  unfold encodeDecimal
  split <;> simp

theorem isDecimalDigit_of_mem_encodeDecimal {n : Nat} {digit : UInt8}
    (h : digit ∈ encodeDecimal n) : isDecimalDigit digit = true := by
  fun_induction encodeDecimal n with
  | case1 n hsmall =>
      rw [List.mem_singleton.1 h, isDecimalDigit_iff, toNat_decimalDigit hsmall]
      omega
  | case2 n hlarge ih =>
      rcases List.mem_append.1 h with hfront | hlast
      · exact ih hfront
      · rw [List.mem_singleton.1 hlast, isDecimalDigit_iff,
          toNat_decimalDigit (by omega)]
        omega

/-- Only zero itself starts with a zero. -/
theorem encodeDecimal_head {n : Nat} (h : (encodeDecimal n).head? = some 48) :
    n = 0 := by
  fun_induction encodeDecimal n with
  | case1 n hsmall =>
      have heq := congrArg UInt8.toNat (Option.some.inj h)
      rw [toNat_decimalDigit hsmall] at heq
      change 48 + n = 48 at heq
      omega
  | case2 n hlarge ih =>
      rw [List.head?_append_of_ne_nil _ (encodeDecimal_ne_nil _)] at h
      have := ih h
      omega

/-- Digits without a leading zero are the numeral of their value. -/
theorem encodeDecimal_decodeDecimal {digits : List UInt8} (hne : digits ≠ [])
    (hdigits : ∀ digit ∈ digits, isDecimalDigit digit = true)
    (hlead : digits.head? = some 48 → digits = [48]) :
    encodeDecimal (decodeDecimal digits) = digits := by
  induction digits using List.reverseRecOn with
  | nil => exact absurd rfl hne
  | append_singleton digits digit ih =>
      have hdigit := isDecimalDigit_iff.1 (hdigits digit (by simp))
      have hlow : UInt8.ofNat (48 + (digit.toNat - 48)) = digit := by
        rw [Nat.add_sub_of_le hdigit.1, UInt8.ofNat_toNat]
      rw [decodeDecimal_concat]
      by_cases hnil : digits = []
      · subst hnil
        rw [encodeDecimal, if_pos (by simp [decodeDecimal]; omega)]
        simpa [decodeDecimal] using hlow
      · -- the front has no leading zero either, so its value is positive
        have hhead : digits.head? ≠ some 48 := by
          intro hzero
          have hlist := hlead (by rw [List.head?_append_of_ne_nil _ hnil, hzero])
          have hlength := congrArg List.length hlist
          rw [List.length_append, List.length_singleton] at hlength
          exact hnil (List.length_eq_zero_iff.1 (by simpa using hlength))
        have hfront := ih hnil (fun other hmem => hdigits other (by simp [hmem]))
          fun hzero => absurd hzero hhead
        have hpositive : decodeDecimal digits ≠ 0 := by
          intro hzero
          rw [hzero] at hfront
          rw [← hfront] at hhead
          exact hhead (by rw [encodeDecimal]; rfl)
        rw [encodeDecimal, if_neg (by omega),
          show (decodeDecimal digits * 10 + (digit.toNat - 48)) / 10 =
            decodeDecimal digits by omega,
          show (decodeDecimal digits * 10 + (digit.toNat - 48)) % 10 =
            digit.toNat - 48 by omega, hfront, hlow]

/-! Lower-case hexadecimal digits. -/

def hexDigit (n : Nat) : UInt8 :=
  if n < 10 then UInt8.ofNat (48 + n) else UInt8.ofNat (87 + n)

def decodeLowerHex (byte : UInt8) : Option Nat :=
  if 48 ≤ byte && byte ≤ 57 then some (byte.toNat - 48)
  else if 97 ≤ byte && byte ≤ 102 then some (byte.toNat - 87)
  else none

def encodeHex (bytes : List UInt8) : List UInt8 :=
  bytes.flatMap fun byte => [hexDigit (byte.toNat / 16), hexDigit (byte.toNat % 16)]

def decodeHex : List UInt8 → Option (List UInt8)
  | [] => some []
  | [_] => none
  | high :: low :: rest => do
      let high ← decodeLowerHex high
      let low ← decodeLowerHex low
      return UInt8.ofNat (high * 16 + low) :: (← decodeHex rest)

theorem decodeLowerHex_hexDigit {n : Nat} (h : n < 16) :
    decodeLowerHex (hexDigit n) = some n := by
  revert n
  decide

theorem hexDigit_of_decodeLowerHex {byte : UInt8} {n : Nat}
    (h : decodeLowerHex byte = some n) : n < 16 ∧ hexDigit n = byte := by
  simp only [decodeLowerHex, Bool.and_eq_true, decide_eq_true_eq,
    UInt8.le_iff_toNat_le] at h
  split at h
  next hdigit =>
    have hrange : 48 ≤ byte.toNat ∧ byte.toNat ≤ 57 := hdigit
    cases h
    refine ⟨by omega, ?_⟩
    rw [hexDigit, if_pos (by omega), Nat.add_sub_of_le hrange.1,
      UInt8.ofNat_toNat]
  next =>
    split at h
    next hletter =>
      have hrange : 97 ≤ byte.toNat ∧ byte.toNat ≤ 102 := hletter
      cases h
      refine ⟨by omega, ?_⟩
      rw [hexDigit, if_neg (by omega), Nat.add_sub_of_le (by omega),
        UInt8.ofNat_toNat]
    next => cases h

@[simp] theorem encodeHex_cons (byte : UInt8) (bytes : List UInt8) :
    encodeHex (byte :: bytes) = hexDigit (byte.toNat / 16) ::
      hexDigit (byte.toNat % 16) :: encodeHex bytes := rfl

@[simp] theorem length_encodeHex (bytes : List UInt8) :
    (encodeHex bytes).length = 2 * bytes.length := by
  induction bytes with
  | nil => rfl
  | cons byte bytes ih =>
      rw [encodeHex_cons, List.length_cons, List.length_cons, ih,
        List.length_cons]
      omega

theorem decodeHex_encodeHex (bytes : List UInt8) :
    decodeHex (encodeHex bytes) = some bytes := by
  induction bytes with
  | nil => rfl
  | cons byte bytes ih =>
      have hbyte : byte.toNat < 256 := byte.toNat_lt
      rw [encodeHex_cons, decodeHex, decodeLowerHex_hexDigit (by omega),
        decodeLowerHex_hexDigit (by omega), ih]
      simp only [Option.bind_eq_bind, Option.bind_some, Nat.div_add_mod',
        UInt8.ofNat_toNat]
      rfl

theorem encodeHex_of_decodeHex {digits bytes : List UInt8}
    (h : decodeHex digits = some bytes) : encodeHex bytes = digits := by
  fun_induction decodeHex digits generalizing bytes with
  | case1 =>
      cases h
      rfl
  | case2 => cases h
  | case3 high low rest ih =>
      obtain ⟨highValue, hhigh, h⟩ := Option.bind_eq_some_iff.1 h
      obtain ⟨lowValue, hlow, h⟩ := Option.bind_eq_some_iff.1 h
      obtain ⟨tail, htail, h⟩ := Option.bind_eq_some_iff.1 h
      cases h
      obtain ⟨hhigh, rfl⟩ := hexDigit_of_decodeLowerHex hhigh
      obtain ⟨hlow, rfl⟩ := hexDigit_of_decodeLowerHex hlow
      rw [encodeHex_cons, ih htail, UInt8.toNat_ofNat',
        Nat.mod_eq_of_lt (show highValue * 16 + lowValue < 2 ^ 8 by omega),
        show (highValue * 16 + lowValue) / 16 = highValue by omega,
        show (highValue * 16 + lowValue) % 16 = lowValue by omega]

/-! Comparison without early exit. -/

def constantTimeEqual (left right : List UInt8) : Bool :=
  left.length = right.length &&
    (left.zip right).foldl
      (fun difference pair => difference ||| (pair.1 ^^^ pair.2)) 0 = 0

theorem foldl_difference_eq_zero {left right : List UInt8}
    (hlength : left.length = right.length) (difference : UInt8) :
    (left.zip right).foldl
        (fun difference pair => difference ||| (pair.1 ^^^ pair.2))
        difference = 0 ↔ difference = 0 ∧ left = right := by
  induction left generalizing right difference with
  | nil => cases right <;> simp_all
  | cons first left ih =>
      cases right with
      | nil => cases hlength
      | cons second right =>
          have hlength : left.length = right.length := by simpa using hlength
          rw [List.zip_cons_cons, List.foldl_cons, ih hlength,
            UInt8.or_eq_zero_iff, UInt8.xor_eq_zero_iff, List.cons.injEq,
            and_assoc]

theorem constantTimeEqual_iff {left right : List UInt8} :
    constantTimeEqual left right = true ↔ left = right := by
  rw [constantTimeEqual, Bool.and_eq_true, decide_eq_true_eq, decide_eq_true_eq]
  constructor
  · rintro ⟨hlength, hzero⟩
    exact ((foldl_difference_eq_zero hlength 0).1 hzero).2
  · rintro rfl
    exact ⟨rfl, (foldl_difference_eq_zero rfl 0).2 ⟨rfl, rfl⟩⟩

end Hq
