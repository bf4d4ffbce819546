/-
Base64 with the standard alphabet and required padding.  The reader takes the
text of a byte string and nothing else: stray padding and unused bits that are
not zero are refused.
-/
import Mathlib

namespace Hq

/-- The digit of a number below 64, as an ASCII code. -/
def base64Digit (n : Nat) : UInt8 :=
  if n < 26 then .ofNat (n + 65)
  else if n < 52 then .ofNat (n + 71)
  else if n < 62 then .ofNat (n - 4)
  else if n = 62 then 43
  else 47

def base64Value (digit : UInt8) : Option Nat :=
  let code := digit.toNat
  if 65 ≤ code ∧ code < 91 then some (code - 65)
  else if 97 ≤ code ∧ code < 123 then some (code - 71)
  else if 48 ≤ code ∧ code < 58 then some (code + 4)
  else if code = 43 then some 62
  else if code = 47 then some 63
  else none

def base64Pad : UInt8 := 61

def encodeBase64 : List UInt8 → List UInt8
  | [] => []
  | [a] => [base64Digit (a.toNat / 4), base64Digit (a.toNat % 4 * 16), base64Pad,
      base64Pad]
  | [a, b] => [base64Digit (a.toNat / 4),
      base64Digit (a.toNat % 4 * 16 + b.toNat / 16),
      base64Digit (b.toNat % 16 * 4), base64Pad]
  | a :: b :: c :: rest => base64Digit (a.toNat / 4) ::
      base64Digit (a.toNat % 4 * 16 + b.toNat / 16) ::
      base64Digit (b.toNat % 16 * 4 + c.toNat / 64) ::
      base64Digit (c.toNat % 64) :: encodeBase64 rest

def decodeBase64 : List UInt8 → Option (List UInt8)
  | [] => some []
  | w :: x :: y :: z :: rest =>
      match base64Value w, base64Value x, base64Value y, base64Value z with
      | some w, some x, some y, some z =>
          (decodeBase64 rest).map fun bytes => .ofNat (w * 4 + x / 16) ::
            .ofNat (x % 16 * 16 + y / 4) :: .ofNat (y % 4 * 64 + z) :: bytes
      | some w, some x, some y', none =>
          if z = base64Pad ∧ rest = [] ∧ y' % 4 = 0 then
            some [.ofNat (w * 4 + x / 16), .ofNat (x % 16 * 16 + y' / 4)]
          else none
      | some w, some x, none, none =>
          if y = base64Pad ∧ z = base64Pad ∧ rest = [] ∧ x % 16 = 0 then
            some [.ofNat (w * 4 + x / 16)]
          else none
      | _, _, _, _ => none
  | _ => none

theorem base64Value_digit {n : Nat} (h : n < 64) :
    base64Value (base64Digit n) = some n := by
  revert n
  decide

theorem base64Digit_value {digit : UInt8} {n : Nat}
    (h : base64Value digit = some n) : n < 64 ∧ base64Digit n = digit := by
  have hcode : UInt8.ofNat digit.toNat = digit := UInt8.ofNat_toNat
  simp only [base64Value] at h
  split at h
  next hrange =>
    cases h
    refine ⟨by omega, ?_⟩
    rw [base64Digit, if_pos (by omega), Nat.sub_add_cancel hrange.1, hcode]
  next =>
    split at h
    next hrange =>
      cases h
      refine ⟨by omega, ?_⟩
      rw [base64Digit, if_neg (by omega), if_pos (by omega),
        Nat.sub_add_cancel (by omega), hcode]
    next =>
      split at h
      next hrange =>
        cases h
        refine ⟨by omega, ?_⟩
        rw [base64Digit, if_neg (by omega), if_neg (by omega),
          if_pos (by omega), Nat.add_sub_cancel, hcode]
      next =>
        split at h
        next hplus =>
          cases h
          exact ⟨by decide, by rw [← hcode, hplus]; rfl⟩
        next =>
          split at h
          next hslash =>
            cases h
            exact ⟨by decide, by rw [← hcode, hslash]; rfl⟩
          next => cases h

theorem base64Value_pad : base64Value base64Pad = none := by decide

/-- Bytes are the numbers below 256. -/
theorem ofNat_eq_of_toNat {byte : UInt8} {n : Nat} (h : n = byte.toNat) :
    UInt8.ofNat n = byte := by
  rw [h, UInt8.ofNat_toNat]

theorem decodeBase64_encodeBase64 (bytes : List UInt8) :
    decodeBase64 (encodeBase64 bytes) = some bytes := by
  fun_induction encodeBase64 bytes with
  | case1 => rfl
  | case2 a =>
      have ha : a.toNat < 256 := a.toNat_lt
      simp only [decodeBase64, base64Value_pad,
        base64Value_digit (show a.toNat / 4 < 64 by omega),
        base64Value_digit (show a.toNat % 4 * 16 < 64 by omega)]
      rw [if_pos ⟨trivial, trivial, trivial, by omega⟩,
        ofNat_eq_of_toNat (show _ = a.toNat by omega)]
  | case3 a b =>
      have ha : a.toNat < 256 := a.toNat_lt
      have hb : b.toNat < 256 := b.toNat_lt
      simp only [decodeBase64, base64Value_pad,
        base64Value_digit (show a.toNat / 4 < 64 by omega),
        base64Value_digit (show a.toNat % 4 * 16 + b.toNat / 16 < 64 by omega),
        base64Value_digit (show b.toNat % 16 * 4 < 64 by omega)]
      rw [if_pos ⟨trivial, trivial, by omega⟩,
        ofNat_eq_of_toNat (show _ = a.toNat by omega),
        ofNat_eq_of_toNat (show _ = b.toNat by omega)]
  | case4 a b c rest ih =>
      have ha : a.toNat < 256 := a.toNat_lt
      have hb : b.toNat < 256 := b.toNat_lt
      have hc : c.toNat < 256 := c.toNat_lt
      simp only [decodeBase64,
        base64Value_digit (show a.toNat / 4 < 64 by omega),
        base64Value_digit (show a.toNat % 4 * 16 + b.toNat / 16 < 64 by omega),
        base64Value_digit (show b.toNat % 16 * 4 + c.toNat / 64 < 64 by omega),
        base64Value_digit (show c.toNat % 64 < 64 by omega), ih,
        Option.map_some]
      rw [ofNat_eq_of_toNat (show _ = a.toNat by omega),
        ofNat_eq_of_toNat (show _ = b.toNat by omega),
        ofNat_eq_of_toNat (show _ = c.toNat by omega)]

theorem toNat_ofNat_of_lt {n : Nat} (h : n < 256) : (UInt8.ofNat n).toNat = n := by
  rw [UInt8.toNat_ofNat']
  exact Nat.mod_eq_of_lt h

/-- Only the text of a byte string is read. -/
theorem encodeBase64_of_decodeBase64 {text bytes : List UInt8}
    (h : decodeBase64 text = some bytes) : encodeBase64 bytes = text := by
  fun_induction decodeBase64 text generalizing bytes with
  | case1 =>
      cases h
      rfl
  | case2 w' x' y' z' rest w x y z hz hy hx hw ih =>
      obtain ⟨tail, htail, rfl⟩ := Option.map_eq_some_iff.1 h
      obtain ⟨hwl, rfl⟩ := base64Digit_value hw
      obtain ⟨hxl, rfl⟩ := base64Digit_value hx
      obtain ⟨hyl, rfl⟩ := base64Digit_value hy
      obtain ⟨hzl, rfl⟩ := base64Digit_value hz
      rw [encodeBase64, ih htail, toNat_ofNat_of_lt (by omega),
        toNat_ofNat_of_lt (by omega), toNat_ofNat_of_lt (by omega),
        show (w * 4 + x / 16) / 4 = w by omega,
        show (w * 4 + x / 16) % 4 * 16 + (x % 16 * 16 + y / 4) / 16 = x by omega,
        show (x % 16 * 16 + y / 4) % 16 * 4 + (y % 4 * 64 + z) / 64 = y by omega,
        show (y % 4 * 64 + z) % 64 = z by omega]
  | case3 w' x' y' z' rest w x y _ hy hx hw hlast =>
      cases h
      obtain ⟨rfl, rfl, hzero⟩ := hlast
      obtain ⟨hwl, rfl⟩ := base64Digit_value hw
      obtain ⟨hxl, rfl⟩ := base64Digit_value hx
      obtain ⟨hyl, rfl⟩ := base64Digit_value hy
      rw [encodeBase64, toNat_ofNat_of_lt (by omega), toNat_ofNat_of_lt (by omega),
        show (w * 4 + x / 16) / 4 = w by omega,
        show (w * 4 + x / 16) % 4 * 16 + (x % 16 * 16 + y / 4) / 16 = x by omega,
        show (x % 16 * 16 + y / 4) % 16 * 4 = y by omega]
  | case5 w' x' y' z' rest w x _ _ hx hw hlast =>
      cases h
      obtain ⟨rfl, rfl, rfl, hzero⟩ := hlast
      obtain ⟨hwl, rfl⟩ := base64Digit_value hw
      obtain ⟨hxl, rfl⟩ := base64Digit_value hx
      rw [encodeBase64, toNat_ofNat_of_lt (by omega),
        show (w * 4 + x / 16) / 4 = w by omega,
        show (w * 4 + x / 16) % 4 * 16 = x by omega]
  | case4 => cases h
  | case6 => cases h
  | case7 => cases h
  | case8 => cases h

theorem length_encodeBase64 (bytes : List UInt8) :
    (encodeBase64 bytes).length = (bytes.length + 2) / 3 * 4 := by
  fun_induction encodeBase64 bytes with
  | case1 => rfl
  | case2 a => simp
  | case3 a b => simp
  | case4 a b c rest ih =>
      simp only [List.length_cons, ih]
      omega

theorem base64Digit_plain (n : Nat) :
    base64Digit n < 128 ∧ base64Digit n ≠ 35 := by
  have hdigits : ∀ n < 64, base64Digit n < 128 ∧ base64Digit n ≠ 35 := by
    decide
  by_cases hsmall : n < 64
  · exact hdigits n hsmall
  · rw [base64Digit, if_neg (by omega), if_neg (by omega), if_neg (by omega),
      if_neg (by omega)]
    decide

/-- A text is ASCII, and has no number sign. -/
theorem mem_encodeBase64 {bytes : List UInt8} {byte : UInt8}
    (h : byte ∈ encodeBase64 bytes) : byte < 128 ∧ byte ≠ 35 := by
  have hpad : base64Pad < 128 ∧ base64Pad ≠ 35 := by decide
  fun_induction encodeBase64 bytes with
  | case1 => cases h
  | case2 a =>
      simp only [List.mem_cons, List.not_mem_nil, or_false] at h
      rcases h with rfl | rfl | rfl | rfl
      · exact base64Digit_plain _
      · exact base64Digit_plain _
      · exact hpad
      · exact hpad
  | case3 a b =>
      simp only [List.mem_cons, List.not_mem_nil, or_false] at h
      rcases h with rfl | rfl | rfl | rfl
      · exact base64Digit_plain _
      · exact base64Digit_plain _
      · exact base64Digit_plain _
      · exact hpad
  | case4 a b c rest ih =>
      simp only [List.mem_cons] at h
      rcases h with rfl | rfl | rfl | rfl | h
      · exact base64Digit_plain _
      · exact base64Digit_plain _
      · exact base64Digit_plain _
      · exact base64Digit_plain _
      · exact ih h

end Hq
