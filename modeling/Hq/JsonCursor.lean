/-
The canonical JSON cursor that frames signed events: literals, lower-case hex
fields, numbers, strings in their one spelling, and the bounded walk over a
value that is only skipped.  A cursor is the bytes it has not read yet.
-/
import Hq.Bytes
import Hq.Fallible

namespace Hq

/-- Failures of framing, signing and verifying protocol events. -/
inductive ProtocolFailure where
  | eventTooLarge | outerInvalidUtf8 | outerMemberOrder | outerFieldShape
  | outerNonCanonical | outerTrailingData | wrongKind | nonemptyTags
  | eventIdMismatch | invalidPublicKey | invalidSignatureEncoding
  | badSignature | signingFailed | contentTooLarge | contentMalformed
  | contentNonCanonical | contentTooDeep | contentTooManyItems
deriving DecidableEq

variable {remaining rest decoded content : List UInt8} {context : Context}
  {byte : UInt8} {maximum value : Nat}

namespace Json

def maxJsonDepth : Nat := 16
def maxObjectMembers : Nat := 16
def maxCollectionItems : Nat := 64

inductive Context where
  | outer | content
deriving DecidableEq

def Context.malformed : Context → ProtocolFailure
  | .outer => .outerFieldShape
  | .content => .contentMalformed

def Context.noncanonical : Context → ProtocolFailure
  | .outer => .outerNonCanonical
  | .content => .contentNonCanonical

def isAsciiWhitespace (byte : UInt8) : Bool :=
  byte = 32 || byte = 9 || byte = 10 || byte = 12 || byte = 13

/-- The actual byte at the first place where two byte strings differ. -/
def firstMismatch : List UInt8 → List UInt8 → Option UInt8
  | [], _ => none
  | actual :: _, [] => some actual
  | actual :: actuals, expected :: expecteds =>
      if actual ≠ expected then some actual
      else firstMismatch actuals expecteds

def expect (context : Context) (literal : List UInt8)
    (failure : ProtocolFailure) (remaining : List UInt8) :
    Except ProtocolFailure (List UInt8) :=
  if literal.isPrefixOf remaining then .ok (remaining.drop literal.length)
  else if (firstMismatch remaining literal).any isAsciiWhitespace then
    .error context.noncanonical
  else .error failure

def pushDigit (value : Nat) (digit : UInt8) : Option Nat :=
  if value * 10 < 2 ^ 64 then
    if value * 10 + (digit.toNat - 48) < 2 ^ 64 then
      some (value * 10 + (digit.toNat - 48))
    else none
  else none

def parseU64 (context : Context) (remaining : List UInt8) :
    Except ProtocolFailure (Nat × List UInt8) :=
  match remaining with
  | [] => .error context.malformed
  | first :: rest =>
      if !isDecimalDigit first then .error context.malformed
      else if first = 48 && rest.head?.any isDecimalDigit then
        .error context.noncanonical
      else
        match (first :: rest.takeWhile isDecimalDigit).foldlM pushDigit 0 with
        | none => .error context.malformed
        | some value => .ok (value, rest.dropWhile isDecimalDigit)

def parseHex (context : Context) (width : Nat) (remaining : List UInt8) :
    Except ProtocolFailure (FixedBytes width × List UInt8) := do
  let remaining ← expect context [34] .outerFieldShape remaining
  if remaining.length < width * 2 then .error .outerFieldShape
  else match decodeHex (remaining.take (width * 2)) with
    | none => .error .outerFieldShape
    | some decoded =>
        if hwidth : decoded.length = width then do
          let rest ← expect context [34] .outerFieldShape
            (remaining.drop (width * 2))
          return (⟨decoded, hwidth⟩, rest)
        else .error .outerFieldShape

def decodeControlEscape (context : Context) :
    List UInt8 → Except ProtocolFailure (UInt8 × List UInt8)
  | first :: second :: high :: low :: rest =>
      if first ≠ 48 ∨ second ≠ 48 then .error context.noncanonical
      else match decodeLowerHex high, decodeLowerHex low with
        | some high, some low =>
            let value := high * 16 + low
            if value = 0 ∨ 31 < value ∨ value ∈ [8, 9, 10, 12, 13] then
              .error context.noncanonical
            else .ok (UInt8.ofNat value, rest)
        | _, _ => .error .outerFieldShape
  | _ => .error context.malformed

def decodeEscape (context : Context) :
    List UInt8 → Except ProtocolFailure (UInt8 × List UInt8)
  | [] => .error context.malformed
  | escape :: rest =>
      if escape = 34 then .ok (34, rest)
      else if escape = 92 then .ok (92, rest)
      else if escape = 98 then .ok (8, rest)
      else if escape = 102 then .ok (12, rest)
      else if escape = 110 then .ok (10, rest)
      else if escape = 114 then .ok (13, rest)
      else if escape = 116 then .ok (9, rest)
      else if escape = 117 then decodeControlEscape context rest
      else .error context.noncanonical

/-- The one spelling of a byte inside a string. -/
def escapeByte (byte : UInt8) : List UInt8 :=
  if byte = 34 then [92, 34]
  else if byte = 92 then [92, 92]
  else if byte = 8 then [92, 98]
  else if byte = 12 then [92, 102]
  else if byte = 10 then [92, 110]
  else if byte = 13 then [92, 114]
  else if byte = 9 then [92, 116]
  else if byte < 32 then
    [92, 117, 48, 48, hexDigit (byte.toNat / 16), hexDigit (byte.toNat % 16)]
  else [byte]

theorem escapeByte_control (hsmall : value < 32)
    (hother : value ∉ [8, 9, 10, 12, 13]) :
    escapeByte (UInt8.ofNat value) =
      [92, 117, 48, 48, hexDigit (value / 16), hexDigit (value % 16)] := by
  revert value
  decide

theorem decodeControlEscape_eq_ok
    (h : decodeControlEscape context remaining = .ok (byte, rest)) :
    byte ≠ 0 ∧ 92 :: 117 :: remaining = escapeByte byte ++ rest := by
  unfold decodeControlEscape at h
  split at h
  next first second high low after =>
    split at h
    next => cases h
    next hzeros =>
      obtain ⟨hfirst, hsecond⟩ := not_or.1 hzeros
      split at h
      next highValue lowValue hhigh hlow =>
        obtain ⟨hhigh, rfl⟩ := hexDigit_of_decodeLowerHex hhigh
        obtain ⟨hlow, rfl⟩ := hexDigit_of_decodeLowerHex hlow
        simp only at h
        split at h
        next => cases h
        next hvalue =>
          obtain ⟨hpositive, hvalue⟩ := not_or.1 hvalue
          obtain ⟨hsmall, hother⟩ := not_or.1 hvalue
          cases h
          constructor
          · intro hzero
            have := congrArg UInt8.toNat hzero
            rw [UInt8.toNat_ofNat'] at this
            change _ = 0 at this
            omega
          · rw [not_not.1 hfirst, not_not.1 hsecond,
              escapeByte_control (by omega) hother,
              show (highValue * 16 + lowValue) / 16 = highValue by omega,
              show (highValue * 16 + lowValue) % 16 = lowValue by omega]
            rfl
      next => cases h
  next => cases h

theorem decodeEscape_eq_ok
    (h : decodeEscape context remaining = .ok (byte, rest)) :
    byte ≠ 0 ∧ 92 :: remaining = escapeByte byte ++ rest := by
  unfold decodeEscape at h
  split at h
  next => cases h
  next escape after =>
    iterate 7
      split at h
      next heq =>
        cases h
        subst heq
        exact ⟨by decide, rfl⟩
    split at h
    next heq =>
      subst heq
      exact decodeControlEscape_eq_ok h
    next => cases h

theorem decodeEscape_shorter
    (h : decodeEscape context remaining = .ok (byte, rest)) :
    rest.length < remaining.length + 1 := by
  have hlength := congrArg List.length (decodeEscape_eq_ok h).2
  have hspelled : 0 < (escapeByte byte).length := by
    unfold escapeByte
    repeat' split
    all_goals exact Nat.succ_pos _
  rw [List.length_cons, List.length_append] at hlength
  omega

/-- The characters of a string after its opening quote.  A bound, when there
is one, is checked after each of them. -/
def scanString (context : Context) (maximum : Option Nat)
    (decoded : List UInt8) :
    List UInt8 → Except ProtocolFailure (List UInt8 × List UInt8)
  | [] => .error context.malformed
  | byte :: rest =>
      if byte = 34 then .ok (decoded, rest)
      else if byte = 92 then
        match h : decodeEscape context rest with
        | .error failure => .error failure
        | .ok (character, after) =>
            if maximum.any (· < decoded.length + 1) then .error .contentTooLarge
            else
              have := decodeEscape_shorter h
              scanString context maximum (decoded ++ [character]) after
      else if byte < 32 then .error context.noncanonical
      else if maximum.any (· < decoded.length + 1) then .error .contentTooLarge
      else scanString context maximum (decoded ++ [byte]) rest
termination_by remaining => remaining.length

def parseString (context : Context) (maximum : Nat) (remaining : List UInt8) :
    Except ProtocolFailure (List UInt8 × List UInt8) := do
  let remaining ← expect context [34] context.malformed remaining
  scanString context (some maximum) [] remaining

def skipString (context : Context) (remaining : List UInt8) :
    Except ProtocolFailure (List UInt8) := do
  let remaining ← expect context [34] .contentMalformed remaining
  let (_, rest) ← scanString context none [] remaining
  return rest

/-- The items of an object or array after its opening bracket. -/
def validateItems (context : Context)
    (item : List UInt8 → Except ProtocolFailure (List UInt8)) (close : UInt8) :
    Nat → List UInt8 → Except ProtocolFailure (List UInt8)
  | 0, _ => .error .contentTooManyItems
  | left + 1, remaining => do
      match ← item remaining with
      | [] => .error context.malformed
      | byte :: rest =>
          if byte = 44 then validateItems context item close left rest
          else if byte = close then .ok rest
          else if isAsciiWhitespace byte then .error context.noncanonical
          else .error context.malformed

/-- A value with the levels of nesting that are left to it. -/
def validateValue (context : Context) :
    Nat → List UInt8 → Except ProtocolFailure (List UInt8)
  | 0, _ => .error .contentTooDeep
  | _, [] => .error context.malformed
  | levels + 1, byte :: rest =>
      if byte = 123 then
        if rest.head? = some 125 then .ok rest.tail
        else validateItems context (fun remaining => do
          let remaining ← skipString context remaining
          let remaining ← expect context [58] .contentMalformed remaining
          validateValue context levels remaining) 125 maxObjectMembers rest
      else if byte = 91 then
        if rest.head? = some 93 then .ok rest.tail
        else validateItems context (validateValue context levels) 93
          maxCollectionItems rest
      else if byte = 34 then skipString context (byte :: rest)
      else if byte = 116 then
        expect context [116, 114, 117, 101] .contentMalformed (byte :: rest)
      else if byte = 102 then
        expect context [102, 97, 108, 115, 101] .contentMalformed (byte :: rest)
      else if byte = 110 then
        expect context [110, 117, 108, 108] .contentMalformed (byte :: rest)
      else if isDecimalDigit byte then do
        let (_, rest) ← parseU64 context (byte :: rest)
        return rest
      else if isAsciiWhitespace byte then .error context.noncanonical
      else .error context.malformed

/-! What the readers accept. -/

theorem expect_eq_ok_iff {literal : List UInt8}
    {failure : ProtocolFailure} :
    expect context literal failure remaining = .ok rest ↔
      remaining = literal ++ rest := by
  unfold expect
  split
  next hstarts =>
    obtain ⟨tail, rfl⟩ := List.isPrefixOf_iff_prefix.1 hstarts
    simp
  next hstarts =>
    refine iff_of_false (by split <;> simp) ?_
    rintro rfl
    exact hstarts (List.isPrefixOf_iff_prefix.2 ⟨rest, rfl⟩)

theorem le_foldl_digits (digits : List UInt8) (start : Nat) :
    start ≤ digits.foldl
      (fun value digit => value * 10 + (digit.toNat - 48)) start := by
  induction digits generalizing start with
  | nil => exact Nat.le_refl start
  | cons digit digits ih =>
      rw [List.foldl_cons]
      have := ih (start * 10 + (digit.toNat - 48))
      omega

theorem foldlM_pushDigit {digits : List UInt8} {start : Nat}
    (hstart : start < 2 ^ 64) :
    digits.foldlM pushDigit start = some value ↔
      digits.foldl (fun value digit => value * 10 + (digit.toNat - 48)) start =
        value ∧ value < 2 ^ 64 := by
  induction digits generalizing start with
  | nil =>
      rw [List.foldlM_nil, List.foldl_nil]
      constructor
      · intro h
        cases h
        exact ⟨rfl, hstart⟩
      · rintro ⟨rfl, -⟩
        rfl
  | cons digit digits ih =>
      rw [List.foldlM_cons, List.foldl_cons, pushDigit]
      by_cases hnext : start * 10 + (digit.toNat - 48) < 2 ^ 64
      · rw [if_pos (by omega), if_pos hnext]
        exact ih hnext
      · have hlarge :=
          le_foldl_digits digits (start * 10 + (digit.toNat - 48))
        rw [show (if start * 10 < 2 ^ 64 then
            if start * 10 + (digit.toNat - 48) < 2 ^ 64 then
              some (start * 10 + (digit.toNat - 48)) else none
            else none) = none by rw [if_neg hnext, ite_self]]
        refine iff_of_false nofun ?_
        rintro ⟨rfl, hsmall⟩
        omega

theorem takeWhile_stop (hrest : rest.head?.any isDecimalDigit = false) :
    rest.takeWhile isDecimalDigit = [] ∧
      rest.dropWhile isDecimalDigit = rest := by
  cases rest with
  | nil => exact ⟨rfl, rfl⟩
  | cons byte rest =>
      have hbyte : isDecimalDigit byte = false := by simpa using hrest
      simp [hbyte]

theorem takeWhile_digits {digits : List UInt8}
    (hdigits : ∀ digit ∈ digits, isDecimalDigit digit = true)
    (hrest : rest.head?.any isDecimalDigit = false) :
    (digits ++ rest).takeWhile isDecimalDigit = digits ∧
      (digits ++ rest).dropWhile isDecimalDigit = rest := by
  obtain ⟨htake, hdrop⟩ := takeWhile_stop hrest
  rw [List.takeWhile_append_of_pos hdigits, List.dropWhile_append_of_pos hdigits,
    htake, hdrop, List.append_nil]
  exact ⟨rfl, rfl⟩

theorem head?_dropWhile_digits (bytes : List UInt8) :
    (bytes.dropWhile isDecimalDigit).head?.any isDecimalDigit = false := by
  induction bytes with
  | nil => rfl
  | cons byte bytes ih =>
      rw [List.dropWhile_cons]
      split
      next => exact ih
      next hbyte => simpa using hbyte

/-- A number is read in its one spelling, and up to a byte that is no digit. -/
theorem parseU64_eq_ok_iff :
    parseU64 context remaining = .ok (value, rest) ↔
      remaining = encodeDecimal value ++ rest ∧ value < 2 ^ 64 ∧
        rest.head?.any isDecimalDigit = false := by
  cases remaining with
  | nil =>
      refine iff_of_false nofun ?_
      rintro ⟨hnil, -⟩
      exact encodeDecimal_ne_nil value
        (List.append_eq_nil_iff.1 hnil.symm).1
  | cons first after =>
      simp only [parseU64]
      constructor
      · intro h
        split at h
        next => cases h
        next hfirst =>
          split at h
          next => cases h
          next hlead =>
            split at h
            next => cases h
            next result hvalue =>
              cases h
              obtain ⟨hvalue, hlimit⟩ :=
                (foldlM_pushDigit (by decide)).1 hvalue
              have hdigits : ∀ digit ∈ first :: after.takeWhile isDecimalDigit,
                  isDecimalDigit digit = true := by
                intro digit hmem
                rcases List.mem_cons.1 hmem with rfl | hmem
                · simpa using hfirst
                · exact List.mem_takeWhile_imp hmem
              have hspelled := encodeDecimal_decodeDecimal
                (List.cons_ne_nil _ _) hdigits (by
                  intro hzero
                  have hfirst : first = 48 := Option.some.inj hzero
                  have hnone : after.head?.any isDecimalDigit = false := by
                    simpa [hfirst] using hlead
                  rw [hfirst, (takeWhile_stop hnone).1])
              rw [show decodeDecimal (first :: after.takeWhile isDecimalDigit) =
                value from hvalue] at hspelled
              refine ⟨?_, hlimit, head?_dropWhile_digits after⟩
              rw [hspelled, List.cons_append, List.takeWhile_append_dropWhile]
      · rintro ⟨hremaining, hlimit, hrest⟩
        obtain ⟨digit, digits, hspelled⟩ :=
          List.exists_cons_of_ne_nil (encodeDecimal_ne_nil value)
        rw [hspelled, List.cons_append, List.cons.injEq] at hremaining
        obtain ⟨rfl, rfl⟩ := hremaining
        have hdigits (other : UInt8) (hmem : other ∈ first :: digits) :
            isDecimalDigit other = true :=
          isDecimalDigit_of_mem_encodeDecimal (hspelled ▸ hmem)
        obtain ⟨htake, hdrop⟩ := takeWhile_digits
          (fun other hmem => hdigits other (List.mem_cons_of_mem first hmem))
          hrest
        have hlead : (first = 48 && (digits ++ rest).head?.any isDecimalDigit) =
            false := by
          by_cases hzero : first = 48
          · have hvalue := encodeDecimal_head (n := value) (by
              rw [hspelled, hzero]
              rfl)
            rw [hvalue, encodeDecimal] at hspelled
            cases hspelled
            simpa using hrest
          · simp [hzero]
        have hvalue : (first :: digits).foldlM pushDigit 0 = some value := by
          refine (foldlM_pushDigit (by decide)).2 ⟨?_, hlimit⟩
          rw [← hspelled]
          exact decodeDecimal_encodeDecimal value
        rw [hdigits first List.mem_cons_self, hlead, htake, hdrop, hvalue]
        rfl

theorem parseHex_eq_ok_iff {width : Nat}
    {bytes : FixedBytes width} :
    parseHex context width remaining = .ok (bytes, rest) ↔
      remaining = 34 :: encodeHex bytes.1 ++ 34 :: rest := by
  simp only [parseHex, bind_eq_ok, expect_eq_ok_iff]
  constructor
  · rintro ⟨after, rfl, h⟩
    split at h
    next => cases h
    next hlong =>
      split at h
      next => cases h
      next decoded hdecoded =>
        split at h
        next hwidth =>
          obtain ⟨tail, htail, h⟩ := bind_eq_ok.1 h
          cases h
          have hsplit := List.take_append_drop (width * 2) after
          rw [expect_eq_ok_iff.1 htail] at hsplit
          rw [encodeHex_of_decodeHex hdecoded]
          exact congrArg (34 :: ·) hsplit.symm
        next => cases h
  · intro hremaining
    have hlength : (encodeHex bytes.1).length = width * 2 := by
      rw [length_encodeHex, bytes.2, Nat.mul_comm]
    refine ⟨encodeHex bytes.1 ++ 34 :: rest, hremaining, ?_⟩
    rw [if_neg (by rw [List.length_append, hlength]; omega),
      List.take_left' hlength, List.drop_left' hlength]
    simp only [decodeHex_encodeHex, dif_pos bytes.2]
    exact bind_eq_ok.2 ⟨rest, expect_eq_ok_iff.2 rfl, rfl⟩

theorem decodeControlEscape_hexDigits (context : Context)
    (hpositive : value ≠ 0) (hsmall : value < 32)
    (hother : value ∉ [8, 9, 10, 12, 13]) (rest : List UInt8) :
    decodeControlEscape context
        (48 :: 48 :: hexDigit (value / 16) :: hexDigit (value % 16) :: rest) =
      .ok (UInt8.ofNat value, rest) := by
  simp only [decodeControlEscape, decodeLowerHex_hexDigit
      (show value / 16 < 16 by omega), decodeLowerHex_hexDigit
      (show value % 16 < 16 by omega), Nat.div_add_mod']
  rw [if_neg (by simp), if_neg]
  rintro (hzero | hlarge | hmem)
  · exact hpositive hzero
  · omega
  · exact hother hmem

theorem decodeEscape_escapeByte (context : Context)
    {spelled : List UInt8} (hzero : byte ≠ 0)
    (hescaped : escapeByte byte = 92 :: spelled) (rest : List UInt8) :
    decodeEscape context (spelled ++ rest) = .ok (byte, rest) := by
  have hnat (n : UInt8) (h : byte ≠ n) : byte.toNat ≠ n.toNat :=
    fun heq => h (UInt8.toNat_inj.1 heq)
  unfold escapeByte at hescaped
  iterate 7
    split at hescaped
    next heq =>
      cases hescaped
      subst heq
      rfl
  rename_i hquote hslash hback hform hline hreturn htab
  split at hescaped
  next hcontrol =>
    cases hescaped
    have hvalue := decodeControlEscape_hexDigits context (hnat 0 hzero)
      (UInt8.lt_iff_toNat_lt.1 hcontrol) (by
        simp only [List.mem_cons, List.not_mem_nil, or_false, not_or]
        exact ⟨hnat 8 hback, hnat 9 htab, hnat 10 hline, hnat 12 hform,
          hnat 13 hreturn⟩) rest
    rw [UInt8.ofNat_toNat] at hvalue
    exact hvalue
  next =>
    cases hescaped
    exact absurd rfl hslash

/-- A byte is spelled by an escape, or stands for itself. -/
theorem escapeByte_cases (byte : UInt8) :
    (∃ spelled, escapeByte byte = 92 :: spelled) ∨
      (escapeByte byte = [byte] ∧ byte ≠ 34 ∧ byte ≠ 92 ∧ ¬ byte < 32) := by
  unfold escapeByte
  iterate 7
    split
    next => exact .inl ⟨_, rfl⟩
  rename_i hquote hslash _ _ _ _ _
  split
  next => exact .inl ⟨_, rfl⟩
  next hplain => exact .inr ⟨rfl, hquote, hslash, hplain⟩

theorem escapeByte_plain (hquote : byte ≠ 34) (hslash : byte ≠ 92)
    (hplain : ¬ byte < 32) : escapeByte byte = [byte] := by
  have hne (n : UInt8) (h : n < 32) : byte ≠ n := fun heq => hplain (heq ▸ h)
  rw [escapeByte, if_neg hquote, if_neg hslash, if_neg (hne 8 (by decide)),
    if_neg (hne 12 (by decide)), if_neg (hne 10 (by decide)),
    if_neg (hne 13 (by decide)), if_neg (hne 9 (by decide)), if_neg hplain]

theorem scanString_eq_ok (hbound : decoded.length ≤ maximum)
    (h : scanString context (some maximum) decoded remaining =
      .ok (content, rest)) :
    ∃ tail, content = decoded ++ tail ∧ content.length ≤ maximum ∧
      0 ∉ tail ∧ remaining = tail.flatMap escapeByte ++ 34 :: rest := by
  fun_induction scanString context (some maximum) decoded remaining with
  | case1 => cases h
  | case2 =>
      cases h
      exact ⟨[], (List.append_nil _).symm, hbound, nofun, rfl⟩
  | case3 => cases h
  | case4 => cases h
  | case5 decoded after character rest' hread hroom _ _ ih =>
      obtain ⟨hzero, hspelled⟩ := decodeEscape_eq_ok hread
      obtain ⟨tail, rfl, hlength, htail, rfl⟩ := ih (by simpa using hroom) h
      refine ⟨character :: tail, by simp, hlength, ?_, ?_⟩
      · rintro (_ | ⟨_, hmem⟩)
        · exact hzero rfl
        · exact htail hmem
      · rw [hspelled, List.flatMap_cons, List.append_assoc]
  | case6 => cases h
  | case7 => cases h
  | case8 decoded byte after hquote hslash hplain hroom ih =>
      obtain ⟨tail, rfl, hlength, htail, rfl⟩ := ih (by simpa using hroom) h
      refine ⟨byte :: tail, by simp, hlength, ?_, ?_⟩
      · rintro (_ | ⟨_, hmem⟩)
        · exact hplain (by decide)
        · exact htail hmem
      · rw [List.flatMap_cons, escapeByte_plain hquote hslash hplain]
        rfl

theorem scanString_escaped {tail : List UInt8} (hzero : 0 ∉ tail)
    (hbound : (decoded ++ tail).length ≤ maximum) :
    scanString context (some maximum) decoded
      (tail.flatMap escapeByte ++ 34 :: rest) = .ok (decoded ++ tail, rest) := by
  induction tail generalizing decoded with
  | nil => simp [scanString]
  | cons byte tail ih =>
      obtain ⟨hbyte, htail⟩ := not_or.1 (fun h => hzero (List.mem_cons.2 h))
      have hroom : ¬ maximum < decoded.length + 1 := by
        rw [List.length_append, List.length_cons] at hbound
        omega
      have hrest := @ih (decoded ++ [byte]) htail
        (by simpa using hbound)
      rw [List.append_assoc, List.singleton_append] at hrest
      rw [List.flatMap_cons, List.append_assoc]
      rcases escapeByte_cases byte with ⟨spelled, hspelled⟩ |
        ⟨hsame, hquote, hslash, hplain⟩
      · have hdecoded := decodeEscape_escapeByte context
          (Ne.symm hbyte) hspelled (tail.flatMap escapeByte ++ 34 :: rest)
        rw [hspelled, List.cons_append, scanString, if_neg (by decide),
          if_pos rfl]
        split
        next hfailed => rw [hdecoded] at hfailed; cases hfailed
        next hread =>
          rw [hdecoded] at hread
          cases hread
          rw [if_neg (by simpa using hroom)]
          exact hrest
      · rw [hsame, List.singleton_append, scanString, if_neg hquote,
          if_neg hslash, if_neg hplain, if_neg (by simpa using hroom)]
        exact hrest

theorem scanString_eq_ok_iff (hbound : decoded.length ≤ maximum) :
    scanString context (some maximum) decoded remaining = .ok (content, rest) ↔
      ∃ tail, content = decoded ++ tail ∧ content.length ≤ maximum ∧
        0 ∉ tail ∧ remaining = tail.flatMap escapeByte ++ 34 :: rest := by
  refine ⟨scanString_eq_ok hbound, ?_⟩
  rintro ⟨tail, rfl, hlength, hzero, rfl⟩
  exact scanString_escaped hzero hlength

theorem parseString_eq_ok_iff :
    parseString context maximum remaining = .ok (content, rest) ↔
      content.length ≤ maximum ∧ 0 ∉ content ∧
        remaining = 34 :: content.flatMap escapeByte ++ 34 :: rest := by
  have hempty : ([] : List UInt8).length ≤ maximum := Nat.zero_le maximum
  simp only [parseString, bind_eq_ok, expect_eq_ok_iff,
    scanString_eq_ok_iff hempty]
  constructor
  · rintro ⟨after, rfl, tail, rfl, hlength, hzero, rfl⟩
    exact ⟨hlength, hzero, rfl⟩
  · rintro ⟨hlength, hzero, rfl⟩
    exact ⟨_, rfl, content, rfl, hlength, hzero, rfl⟩

end Json

end Hq
