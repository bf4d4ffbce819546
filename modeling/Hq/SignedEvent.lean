/-
Signed outer events: their strict framing, the preimage of their identity, and
the step from parsed fields to a verified event.  SHA-256 and BIP-340 are
given.
-/
import Hq.JsonCursor

namespace Hq.SignedEvent

open Json

def maxEventBytes : Nat := 4194304
def maxContentBytes : Nat := 1048576
def hqEventKind : Nat := 6000
def maxCreatedAt : Nat := (2 ^ 63 - 1) / 1000

/-- Bytes of a literal. -/
def literal (text : String) : List UInt8 := encodeText text.toList

/-- SHA-256 and the verifying side of BIP-340. -/
structure EventCrypto where
  sha256 : List UInt8 → FixedBytes 32
  validKey : FixedBytes 32 → Bool
  validSignature : FixedBytes 64 → Bool
  verifyPrehash : FixedBytes 32 → FixedBytes 32 → FixedBytes 64 → Bool

/-- A signing key: its public key, and signatures by message and auxiliary
randomness. -/
structure Bip340Signer where
  publicKey : FixedBytes 32
  signRaw : FixedBytes 32 → FixedBytes 32 → Option (FixedBytes 64)

structure ParsedOuterEvent where
  raw : List UInt8
  claimedId : FixedBytes 32
  publicKey : FixedBytes 32
  createdAt : Nat
  kind : Nat
  tagsEmpty : Bool
  content : List UInt8
  signature : FixedBytes 64
deriving DecidableEq

structure CryptographicallyVerifiedEvent where
  raw : List UInt8
  eventId : FixedBytes 32
  publicKey : FixedBytes 32
  createdAt : Nat
  eventPreimage : List UInt8
  content : List UInt8
deriving DecidableEq

def escapeCharacter (character : Char) :
    Except ProtocolFailure (List UInt8) :=
  let code := character.toNat
  if code = 0 then .error .contentNonCanonical
  else if code = 34 then .ok [92, 34]
  else if code = 92 then .ok [92, 92]
  else if code = 8 then .ok [92, 98]
  else if code = 12 then .ok [92, 102]
  else if code = 10 then .ok [92, 110]
  else if code = 13 then .ok [92, 114]
  else if code = 9 then .ok [92, 116]
  else if code < 32 then
    .ok [92, 117, 48, 48, hexDigit (code / 16), hexDigit (code % 16)]
  else .ok (String.utf8EncodeChar character)

def appendJsonString (output value : List UInt8) :
    Except ProtocolFailure (List UInt8) :=
  match decodeText value with
  | none => .error .contentMalformed
  | some characters => do
      let escaped ← characters.mapM escapeCharacter
      return output ++ [34] ++ escaped.flatten ++ [34]

def encodeEventPreimage (publicKey : FixedBytes 32) (createdAt : Nat)
    (content : List UInt8) : Except ProtocolFailure (List UInt8) := do
  let encoded := literal "[0,\"" ++ encodeHex publicKey.1 ++ literal "\"," ++
    encodeDecimal createdAt ++ literal ",6000,[],"
  let encoded ← appendJsonString encoded content
  return encoded ++ literal "]"

def encodeSignedEvent (eventId publicKey : FixedBytes 32) (createdAt : Nat)
    (content : List UInt8) (signature : FixedBytes 64) :
    Except ProtocolFailure (List UInt8) := do
  let encoded := literal "\x7b\"id\":\"" ++ encodeHex eventId.1 ++
    literal "\",\"pubkey\":\"" ++ encodeHex publicKey.1 ++
    literal "\",\"created_at\":" ++ encodeDecimal createdAt ++
    literal ",\"kind\":6000,\"tags\":[],\"content\":"
  let encoded ← appendJsonString encoded content
  let encoded := encoded ++ literal ",\"sig\":\"" ++ encodeHex signature.1 ++
    literal "\"\x7d"
  if maxEventBytes < encoded.length then .error .eventTooLarge
  else .ok encoded

def newRawEventBytes (bytes : List UInt8) :
    Except ProtocolFailure (List UInt8) :=
  if maxEventBytes < bytes.length then .error .eventTooLarge else .ok bytes

/-- The member after the kind, and whether it is the empty array. -/
def parseTags (remaining : List UInt8) :
    Except ProtocolFailure (Bool × List UInt8) :=
  if (literal "[]").isPrefixOf remaining then do
    let rest ← expect .outer (literal "[]") .outerFieldShape remaining
    return (true, rest)
  else if remaining.head? ≠ some 91 then .error .outerFieldShape
  else do
    let rest ← validateValue .outer maxJsonDepth remaining
    return (false, rest)

def parseOuterEvent (raw : List UInt8) :
    Except ProtocolFailure ParsedOuterEvent := do
  require (isText raw) .outerInvalidUtf8
  let rest ← expect .outer (literal "\x7b\"id\":") .outerMemberOrder raw
  let (claimedId, rest) ← parseHex .outer 32 rest
  let rest ← expect .outer (literal ",\"pubkey\":") .outerMemberOrder rest
  let (publicKey, rest) ← parseHex .outer 32 rest
  let rest ← expect .outer (literal ",\"created_at\":") .outerMemberOrder rest
  let (createdAt, rest) ← parseU64 .outer rest
  require (createdAt ≤ maxCreatedAt) .outerFieldShape
  let rest ← expect .outer (literal ",\"kind\":") .outerMemberOrder rest
  let (kind, rest) ← parseU64 .outer rest
  require (kind < 2 ^ 16) .outerFieldShape
  let rest ← expect .outer (literal ",\"tags\":") .outerMemberOrder rest
  let (tagsEmpty, rest) ← parseTags rest
  let rest ← expect .outer (literal ",\"content\":") .outerMemberOrder rest
  let (content, rest) ← parseString .outer maxContentBytes rest
  let rest ← expect .outer (literal ",\"sig\":") .outerMemberOrder rest
  let (signature, rest) ← parseHex .outer 64 rest
  let rest ← expect .outer (literal "\x7d") .outerFieldShape rest
  require (rest = []) .outerTrailingData
  return ⟨raw, claimedId, publicKey, createdAt, kind, tagsEmpty, content,
    signature⟩

section Verification

variable (crypto : EventCrypto)

def verify (event : ParsedOuterEvent) :
    Except ProtocolFailure CryptographicallyVerifiedEvent := do
  require (event.kind = hqEventKind) .wrongKind
  require event.tagsEmpty .nonemptyTags
  let preimage ←
    encodeEventPreimage event.publicKey event.createdAt event.content
  let eventId := crypto.sha256 preimage
  require (constantTimeEqual eventId.1 event.claimedId.1) .eventIdMismatch
  require (crypto.validKey event.publicKey) .invalidPublicKey
  require (crypto.validSignature event.signature) .invalidSignatureEncoding
  require (crypto.verifyPrehash event.publicKey eventId event.signature)
    .badSignature
  return ⟨event.raw, eventId, event.publicKey, event.createdAt, preimage,
    event.content⟩

def sign (signer : Bip340Signer) (createdAt : Nat) (content : List UInt8)
    (auxiliaryRandomness : FixedBytes 32) :
    Except ProtocolFailure CryptographicallyVerifiedEvent := do
  require (createdAt ≤ maxCreatedAt) .outerFieldShape
  require (content.length ≤ maxContentBytes) .contentTooLarge
  let preimage ← encodeEventPreimage signer.publicKey createdAt content
  let eventId := crypto.sha256 preimage
  match signer.signRaw eventId auxiliaryRandomness with
  | none => .error .signingFailed
  | some signature =>
      require (crypto.verifyPrehash signer.publicKey eventId signature)
        .signingFailed
      let event ← encodeSignedEvent eventId signer.publicKey createdAt content
        signature
      let raw ← newRawEventBytes event
      let parsed ← parseOuterEvent raw
      verify crypto parsed

end Verification

/-! The spelling of content. -/

theorem le_ofNat {n : Nat} (hlow : 128 ≤ n) (hhigh : n < 256) :
    128 ≤ UInt8.ofNat n := by
  rw [UInt8.le_iff_toNat_le, UInt8.toNat_ofNat_of_lt' hhigh]
  exact hlow

variable {event : CryptographicallyVerifiedEvent} {content bytes : List UInt8}
  {createdAt : Nat} {publicKey : FixedBytes 32} {parsed : ParsedOuterEvent}
  {character : Char}

theorem utf8EncodeChar_high (h : 128 ≤ character.toNat)
    {byte : UInt8} (hbyte : byte ∈ String.utf8EncodeChar character) :
    128 ≤ byte := by
  have hlarge : ¬ character.val.toNat ≤ 127 := by
    change ¬ character.toNat ≤ 127
    omega
  simp only [String.utf8EncodeChar, hlarge, if_false] at hbyte
  split at hbyte
  next =>
    simp only [List.mem_cons, List.not_mem_nil, or_false] at hbyte
    rcases hbyte with rfl | rfl <;> apply le_ofNat <;> omega
  next =>
    split at hbyte
    next =>
      simp only [List.mem_cons, List.not_mem_nil, or_false] at hbyte
      rcases hbyte with rfl | rfl | rfl <;> apply le_ofNat <;> omega
    next =>
      simp only [List.mem_cons, List.not_mem_nil, or_false] at hbyte
      rcases hbyte with rfl | rfl | rfl | rfl <;> apply le_ofNat <;> omega

theorem flatMap_escapeByte_high
    (h : ∀ byte ∈ bytes, 128 ≤ byte) : bytes.flatMap escapeByte = bytes := by
  induction bytes with
  | nil => rfl
  | cons byte bytes ih =>
      have hbyte : 128 ≤ byte.toNat :=
        UInt8.le_iff_toNat_le.1 (h byte List.mem_cons_self)
      have hne (n : UInt8) (hn : n.toNat < 128) : byte ≠ n := by
        rintro rfl
        omega
      have hplain : ¬ byte < 32 := by
        rw [UInt8.lt_iff_toNat_lt]
        change ¬ byte.toNat < 32
        omega
      rw [List.flatMap_cons, ih fun other hmem => h other (List.mem_cons_of_mem _ hmem),
        escapeByte_plain (hne 34 (by decide)) (hne 92 (by decide)) hplain]
      rfl

theorem escapeCharacter_eq (h : character.toNat ≠ 0) :
    escapeCharacter character =
      .ok ((String.utf8EncodeChar character).flatMap escapeByte) := by
  have hascii : ∀ code < 128, code ≠ 0 →
      escapeCharacter (Char.ofNat code) =
        .ok ((String.utf8EncodeChar (Char.ofNat code)).flatMap escapeByte) := by
    decide +kernel
  by_cases hlow : character.toNat < 128
  · have := hascii character.toNat hlow h
    rwa [Char.ofNat_toNat] at this
  · have hhigh := Nat.not_lt.1 hlow
    rw [flatMap_escapeByte_high fun _ => utf8EncodeChar_high hhigh]
    simp only [escapeCharacter]
    iterate 9 rw [if_neg (by omega)]

theorem zero_mem_utf8EncodeChar :
    0 ∈ String.utf8EncodeChar character ↔ character.toNat = 0 := by
  constructor
  · intro hmem
    by_cases hlow : character.toNat < 128
    · rw [← Char.ofNat_toNat character, utf8EncodeChar_ascii hlow,
        List.mem_singleton] at hmem
      have heq := congrArg UInt8.toNat hmem
      rw [UInt8.toNat_ofNat'] at heq
      change 0 = character.toNat % 256 at heq
      omega
    · exact absurd (utf8EncodeChar_high (Nat.not_lt.1 hlow) hmem) (by decide)
  · intro hzero
    rw [← Char.ofNat_toNat character, hzero]
    decide

theorem mapM_escapeCharacter {characters : List Char}
    {escaped : List (List UInt8)} :
    characters.mapM escapeCharacter = .ok escaped ↔
      (∀ character ∈ characters, character.toNat ≠ 0) ∧
        characters.map (fun character =>
          (String.utf8EncodeChar character).flatMap escapeByte) = escaped := by
  induction characters generalizing escaped with
  | nil =>
      rw [List.mapM_nil]
      simp [pure, Except.pure]
  | cons character characters ih =>
      rw [List.mapM_cons]
      by_cases hzero : character.toNat = 0
      · have hrefused : escapeCharacter character =
            .error .contentNonCanonical := if_pos hzero
        rw [hrefused]
        refine iff_of_false nofun ?_
        rintro ⟨hall, -⟩
        exact hall character List.mem_cons_self hzero
      · rw [escapeCharacter_eq hzero, List.forall_mem_cons, List.map_cons,
          and_iff_right hzero]
        simp only [bind_eq_ok, ih, Except.ok.injEq, exists_eq_left']
        constructor
        · rintro ⟨rest, ⟨hall, rfl⟩, h⟩
          exact ⟨hall, Except.ok.inj h⟩
        · rintro ⟨hall, rfl⟩
          exact ⟨_, ⟨hall, rfl⟩, rfl⟩

theorem appendJsonString_eq_ok_iff {output value result : List UInt8} :
    appendJsonString output value = .ok result ↔
      isText value = true ∧ 0 ∉ value ∧
        result = output ++ 34 :: value.flatMap escapeByte ++ [34] := by
  unfold appendJsonString
  split
  next hnone =>
    refine iff_of_false nofun ?_
    rintro ⟨htext, -⟩
    rw [isText, hnone] at htext
    cases htext
  next characters hsome =>
    have htext : isText value = true := by
      rw [isText, hsome]
      rfl
    obtain rfl := encodeText_of_decodeText hsome
    have hzero : (∀ character ∈ characters, character.toNat ≠ 0) ↔
        0 ∉ encodeText characters := by
      rw [encodeText, List.mem_flatMap]
      simp only [zero_mem_utf8EncodeChar, not_exists, not_and, ne_eq]
    have hescaped : (characters.map fun character =>
        (String.utf8EncodeChar character).flatMap escapeByte).flatten =
          (encodeText characters).flatMap escapeByte := by
      rw [encodeText, List.flatMap_assoc, List.flatMap_def]
    simp only [bind_eq_ok, mapM_escapeCharacter]
    constructor
    · rintro ⟨escaped, ⟨hall, rfl⟩, h⟩
      refine ⟨htext, hzero.1 hall, ?_⟩
      rw [← Except.ok.inj h, hescaped]
      simp
    · rintro ⟨-, hnone, rfl⟩
      refine ⟨_, ⟨hzero.2 hnone, rfl⟩, ?_⟩
      rw [hescaped]
      simp [pure, Except.pure]

/-! The one frame of an event. -/

/-- The bytes of an event with empty tags, as its reader takes them apart. -/
def frameEvent (eventId publicKey : FixedBytes 32) (createdAt : Nat)
    (content : List UInt8) (signature : FixedBytes 64) : List UInt8 :=
  literal "\x7b\"id\":" ++ (34 :: encodeHex eventId.1 ++ 34 ::
    (literal ",\"pubkey\":" ++ (34 :: encodeHex publicKey.1 ++ 34 ::
      (literal ",\"created_at\":" ++ (encodeDecimal createdAt ++
        (literal ",\"kind\":" ++ (encodeDecimal hqEventKind ++
          (literal ",\"tags\":" ++ (literal "[]" ++
            (literal ",\"content\":" ++
              (34 :: content.flatMap escapeByte ++ 34 ::
                (literal ",\"sig\":" ++ (34 :: encodeHex signature.1 ++ 34 ::
                  literal "\x7d")))))))))))))

theorem encodeDecimal_hqEventKind :
    encodeDecimal hqEventKind = [54, 48, 48, 48] := by
  simp [encodeDecimal, hqEventKind]

theorem literal_splits :
    literal "\x7b\"id\":\"" = literal "\x7b\"id\":" ++ [34] ∧
    literal "\",\"pubkey\":\"" = 34 :: literal ",\"pubkey\":" ++ [34] ∧
    literal "\",\"created_at\":" = 34 :: literal ",\"created_at\":" ∧
    literal ",\"kind\":6000,\"tags\":[],\"content\":" =
      literal ",\"kind\":" ++ ([54, 48, 48, 48] ++ (literal ",\"tags\":" ++
        (literal "[]" ++ literal ",\"content\":"))) ∧
    literal ",\"sig\":\"" = literal ",\"sig\":" ++ [34] ∧
    literal "\"\x7d" = 34 :: literal "\x7d" := by
  decide +kernel

theorem encodedEvent_eq_frameEvent (eventId publicKey : FixedBytes 32)
    (createdAt : Nat) (content : List UInt8) (signature : FixedBytes 64) :
    literal "\x7b\"id\":\"" ++ encodeHex eventId.1 ++
      literal "\",\"pubkey\":\"" ++ encodeHex publicKey.1 ++
      literal "\",\"created_at\":" ++ encodeDecimal createdAt ++
      literal ",\"kind\":6000,\"tags\":[],\"content\":" ++
      34 :: content.flatMap escapeByte ++ [34] ++ literal ",\"sig\":\"" ++
      encodeHex signature.1 ++ literal "\"\x7d" =
        frameEvent eventId publicKey createdAt content signature := by
  obtain ⟨hid, hkey, hcreated, hkind, hsig, hend⟩ := literal_splits
  rw [hid, hkey, hcreated, hkind, hsig, hend, frameEvent,
    encodeDecimal_hqEventKind]
  simp only [List.append_assoc, List.cons_append, List.nil_append]

theorem encodeSignedEvent_eq_ok_iff {eventId : FixedBytes 32}
    {signature : FixedBytes 64} :
    encodeSignedEvent eventId publicKey createdAt content signature =
        .ok bytes ↔
      isText content = true ∧ 0 ∉ content ∧
        bytes = frameEvent eventId publicKey createdAt content signature ∧
          bytes.length ≤ maxEventBytes := by
  simp only [encodeSignedEvent, bind_eq_ok, appendJsonString_eq_ok_iff]
  constructor
  · rintro ⟨encoded, ⟨htext, hzero, rfl⟩, h⟩
    rw [encodedEvent_eq_frameEvent] at h
    split at h
    next => cases h
    next hsize =>
      cases h
      exact ⟨htext, hzero, rfl, Nat.not_lt.1 hsize⟩
  · rintro ⟨htext, hzero, rfl, hsize⟩
    refine ⟨_, ⟨htext, hzero, rfl⟩, ?_⟩
    rw [encodedEvent_eq_frameEvent, if_neg (Nat.not_lt.2 hsize)]

theorem parseTags_true {remaining rest : List UInt8} :
    parseTags remaining = .ok (true, rest) ↔
      remaining = literal "[]" ++ rest := by
  unfold parseTags
  split
  next hempty =>
    simp only [bind_eq_ok, expect_eq_ok_iff]
    constructor
    · rintro ⟨after, rfl, h⟩
      cases h
      rfl
    · rintro rfl
      exact ⟨rest, rfl, rfl⟩
  next hempty =>
    refine iff_of_false ?_ ?_
    · intro h
      split at h
      next => cases h
      next =>
        obtain ⟨after, -, h⟩ := bind_eq_ok.1 h
        cases h
    · rintro rfl
      exact hempty (List.isPrefixOf_iff_prefix.2 ⟨rest, rfl⟩)

/-- What holds of an event whose frame is accepted. -/
structure Framed (event : ParsedOuterEvent) : Prop where
  raw_eq : event.raw = frameEvent event.claimedId event.publicKey
    event.createdAt event.content event.signature
  text : isText event.raw = true
  created : event.createdAt ≤ maxCreatedAt
  kind_eq : event.kind = hqEventKind
  tags : event.tagsEmpty = true
  bounded : event.content.length ≤ maxContentBytes
  zero : 0 ∉ event.content

theorem parseOuterEvent_eq_ok {raw : List UInt8} {event : ParsedOuterEvent}
    (h : parseOuterEvent raw = .ok event) (hkind : event.kind = hqEventKind)
    (htags : event.tagsEmpty = true) : event.raw = raw ∧ Framed event := by
  simp only [parseOuterEvent, bind_eq_ok, require_eq_ok, exists_const,
    Prod.exists, expect_eq_ok_iff, parseHex_eq_ok_iff, parseU64_eq_ok_iff,
    parseString_eq_ok_iff, decide_eq_true_eq] at h
  obtain ⟨htext, _, rfl, claimedId, _, rfl, _, rfl, publicKey, _, rfl, _, rfl,
    createdAt, _, ⟨rfl, -, -⟩, hcreated, _, rfl, kind, _, ⟨rfl, -, -⟩, -, _,
    rfl, tagsEmpty, _, hparsed, _, rfl, content, _, ⟨hbounded, hzero, rfl⟩, _,
    rfl, signature, _, rfl, _, rfl, rfl, h⟩ := h
  cases h
  obtain rfl := hkind
  obtain rfl := htags
  rw [parseTags_true] at hparsed
  subst hparsed
  refine ⟨rfl, ?_, htext, hcreated, rfl, rfl, hbounded, hzero⟩
  rw [List.append_nil]
  rfl

theorem parseOuterEvent_framed {event : ParsedOuterEvent} (h : Framed event) :
    parseOuterEvent event.raw = .ok event := by
  have hdigit (text : String) (rest : List UInt8)
      (hhead : (literal text).head?.any isDecimalDigit = false)
      (hne : literal text ≠ []) :
      (literal text ++ rest).head?.any isDecimalDigit = false := by
    rwa [List.head?_append_of_ne_nil _ hne]
  simp only [parseOuterEvent, bind_eq_ok, require_eq_ok, exists_const,
    Prod.exists, expect_eq_ok_iff, parseHex_eq_ok_iff, parseU64_eq_ok_iff,
    parseString_eq_ok_iff, decide_eq_true_eq]
  refine ⟨h.text, _, h.raw_eq, event.claimedId, _, rfl, _, rfl,
    event.publicKey, _, rfl, _, rfl, event.createdAt, _, ⟨rfl, ?_, ?_⟩,
    h.created, _, rfl, hqEventKind, _, ⟨rfl, by decide, ?_⟩, by decide, _, rfl,
    true, _, parseTags_true.2 rfl, _, rfl, event.content, _,
    ⟨h.bounded, h.zero, rfl⟩, _, rfl, event.signature, _, rfl, [],
    (List.append_nil _).symm, rfl, ?_⟩
  · have hmax : maxCreatedAt < 2 ^ 64 := by decide
    have := h.created
    omega
  · exact hdigit _ _ (by decide +kernel) (by decide +kernel)
  · exact hdigit _ _ (by decide +kernel) (by decide +kernel)
  · rw [← h.kind_eq, ← h.tags]
    rfl

theorem isText_literal (text : String) : isText (literal text) = true :=
  isText_iff.2 ⟨text.toList, rfl⟩

theorem isText_encodeHex (bytes : List UInt8) :
    isText (encodeHex bytes) = true := by
  refine isText_of_ascii fun digit hmem => ?_
  obtain ⟨byte, -, hdigit⟩ := List.mem_flatMap.1 hmem
  have hascii : ∀ n < 16, hexDigit n < 128 := by decide
  have hbyte : byte.toNat < 256 := byte.toNat_lt
  rcases List.mem_pair.1 hdigit with rfl | rfl
  · exact hascii _ (by omega)
  · exact hascii _ (by omega)

theorem isText_encodeDecimal (n : Nat) : isText (encodeDecimal n) = true := by
  refine isText_of_ascii fun digit hmem => ?_
  have hdigit := isDecimalDigit_iff.1 (isDecimalDigit_of_mem_encodeDecimal hmem)
  rw [UInt8.lt_iff_toNat_lt]
  change digit.toNat < 128
  omega

theorem isText_escapeByte (h : isText content = true) :
    isText (content.flatMap escapeByte) = true := by
  obtain ⟨characters, rfl⟩ := isText_iff.1 h
  have hascii : ∀ code < 128, ∀ byte ∈ escapeByte (UInt8.ofNat code),
      byte < 128 := by
    decide +kernel
  induction characters with
  | nil => exact h
  | cons character characters ih =>
      rw [encodeText, List.flatMap_cons, List.flatMap_append]
      refine isText_append ?_ (ih (isText_iff.2 ⟨_, rfl⟩))
      by_cases hlow : character.toNat < 128
      · rw [← Char.ofNat_toNat character, utf8EncodeChar_ascii hlow,
          List.flatMap_singleton]
        exact isText_of_ascii (hascii _ hlow)
      · rw [flatMap_escapeByte_high fun _ =>
          utf8EncodeChar_high (Nat.not_lt.1 hlow)]
        exact isText_iff.2 ⟨[character], List.flatMap_singleton ..⟩

theorem isText_quoted {text rest : List UInt8} (htext : isText text = true)
    (hrest : isText rest = true) :
    isText (34 :: text ++ 34 :: rest) = true := by
  have hquote : isText [34] = true := isText_of_ascii (by simp)
  exact isText_append (isText_append hquote htext)
    (isText_append hquote hrest)

theorem isText_frameEvent {eventId : FixedBytes 32}
    {signature : FixedBytes 64}
    (h : isText content = true) :
    isText (frameEvent eventId publicKey createdAt content signature) =
      true := by
  unfold frameEvent
  apply isText_append (isText_literal _)
  apply isText_quoted (isText_encodeHex _)
  apply isText_append (isText_literal _)
  apply isText_quoted (isText_encodeHex _)
  apply isText_append (isText_literal _)
  apply isText_append (isText_encodeDecimal _)
  apply isText_append (isText_literal _)
  apply isText_append (isText_encodeDecimal _)
  apply isText_append (isText_literal _)
  apply isText_append (isText_literal _)
  apply isText_append (isText_literal _)
  apply isText_quoted (isText_escapeByte h)
  apply isText_append (isText_literal _)
  exact isText_quoted (isText_encodeHex _) (isText_literal _)

/-! Identities. -/

/-- The bytes a preimage ends in after its key. -/
def preimageTail (createdAt : Nat) (content : List UInt8) : List UInt8 :=
  literal "\"," ++ (encodeDecimal createdAt ++ (literal ",6000,[]," ++
    (34 :: content.flatMap escapeByte ++ 34 :: literal "]")))

theorem encodeEventPreimage_eq_ok_iff :
    encodeEventPreimage publicKey createdAt content = .ok bytes ↔
      isText content = true ∧ 0 ∉ content ∧
        bytes = literal "[0,\"" ++ (encodeHex publicKey.1 ++
          preimageTail createdAt content) := by
  simp only [encodeEventPreimage, bind_eq_ok, appendJsonString_eq_ok_iff]
  constructor
  · rintro ⟨encoded, ⟨htext, hzero, rfl⟩, h⟩
    cases h
    refine ⟨htext, hzero, ?_⟩
    simp [preimageTail]
  · rintro ⟨htext, hzero, rfl⟩
    refine ⟨_, ⟨htext, hzero, rfl⟩, ?_⟩
    simp [preimageTail, pure, Except.pure]

theorem encodeHex_append_injective {left right : FixedBytes 32}
    {leftRest rightRest : List UInt8}
    (h : encodeHex left.1 ++ leftRest = encodeHex right.1 ++ rightRest) :
    left = right ∧ leftRest = rightRest := by
  obtain ⟨hhex, hrest⟩ := List.append_inj h (by simp [left.2, right.2])
  have hbytes := congrArg decodeHex hhex
  rw [decodeHex_encodeHex, decodeHex_encodeHex] at hbytes
  exact ⟨Subtype.ext (Option.some.inj hbytes), hrest⟩

theorem preimageTail_injective {leftCreated rightCreated : Nat}
    {left right : List UInt8} (hleftCreated : leftCreated ≤ maxCreatedAt)
    (hrightCreated : rightCreated ≤ maxCreatedAt) (hleft : 0 ∉ left)
    (hright : 0 ∉ right)
    (h : preimageTail leftCreated left = preimageTail rightCreated right) :
    leftCreated = rightCreated ∧ left = right := by
  have hmax : maxCreatedAt < 2 ^ 64 := by decide
  have hnumber (createdAt : Nat) (hcreated : createdAt ≤ maxCreatedAt)
      (rest : List UInt8) :
      parseU64 .outer (encodeDecimal createdAt ++ (literal ",6000,[]," ++ rest)) =
        .ok (createdAt, literal ",6000,[]," ++ rest) := by
    refine parseU64_eq_ok_iff.2 ⟨rfl, by omega, ?_⟩
    rw [List.head?_append_of_ne_nil _ (by decide +kernel)]
    decide +kernel
  have hstring (content rest : List UInt8) (hzero : 0 ∉ content)
      (hlength : content.length ≤ left.length + right.length) :
      parseString .outer (left.length + right.length)
        (34 :: content.flatMap escapeByte ++ 34 :: rest) =
          .ok (content, rest) :=
    parseString_eq_ok_iff.2 ⟨hlength, hzero, rfl⟩
  -- both sides are read by the parser of events, which has one answer
  have hcreated := congrArg (parseU64 .outer) (List.append_cancel_left h)
  rw [hnumber _ hleftCreated, hnumber _ hrightCreated] at hcreated
  obtain ⟨rfl, hrest⟩ := Prod.mk.inj (Except.ok.inj hcreated)
  have hcontent := congrArg (parseString .outer (left.length + right.length))
    (List.append_cancel_left hrest)
  rw [hstring _ _ hleft (by omega), hstring _ _ hright (by omega)] at hcontent
  exact ⟨rfl, (Prod.mk.inj (Except.ok.inj hcontent)).1⟩

theorem encodeEventPreimage_injective {leftKey rightKey : FixedBytes 32}
    {leftCreated rightCreated : Nat} {left right preimage : List UInt8}
    (hleftCreated : leftCreated ≤ maxCreatedAt)
    (hrightCreated : rightCreated ≤ maxCreatedAt)
    (hleft : encodeEventPreimage leftKey leftCreated left = .ok preimage)
    (hright : encodeEventPreimage rightKey rightCreated right = .ok preimage) :
    leftKey = rightKey ∧ leftCreated = rightCreated ∧ left = right := by
  obtain ⟨-, hleftZero, rfl⟩ := encodeEventPreimage_eq_ok_iff.1 hleft
  obtain ⟨-, hrightZero, h⟩ := encodeEventPreimage_eq_ok_iff.1 hright
  obtain ⟨rfl, htail⟩ := encodeHex_append_injective (List.append_cancel_left h)
  obtain ⟨rfl, rfl⟩ := preimageTail_injective hleftCreated hrightCreated
    hleftZero hrightZero htail
  exact ⟨rfl, rfl, rfl⟩

section Verification

variable {crypto : EventCrypto}

/-- What verification establishes of a parsed event. -/
structure Verifies (crypto : EventCrypto) (parsed : ParsedOuterEvent)
    (event : CryptographicallyVerifiedEvent) : Prop where
  kind_eq : parsed.kind = hqEventKind
  tags : parsed.tagsEmpty = true
  preimage : encodeEventPreimage parsed.publicKey parsed.createdAt
    parsed.content = .ok event.eventPreimage
  identity : crypto.sha256 event.eventPreimage = parsed.claimedId
  key : crypto.validKey parsed.publicKey = true
  encoding : crypto.validSignature parsed.signature = true
  signed : crypto.verifyPrehash parsed.publicKey parsed.claimedId
    parsed.signature = true
  event_eq : event = ⟨parsed.raw, parsed.claimedId, parsed.publicKey,
    parsed.createdAt, event.eventPreimage, parsed.content⟩

theorem verify_eq_ok_iff :
    verify crypto parsed = .ok event ↔ Verifies crypto parsed event := by
  simp only [verify, bind_eq_ok, require_eq_ok, exists_const,
    decide_eq_true_eq, constantTimeEqual_iff]
  constructor
  · rintro ⟨hkind, htags, preimage, hpreimage, hid, hkey, hencoding, hsigned, h⟩
    have hid := Subtype.ext hid
    rw [hid] at hsigned
    cases h
    exact ⟨hkind, htags, hpreimage, hid, hkey, hencoding, hsigned, by rw [← hid]⟩
  · intro h
    refine ⟨h.kind_eq, h.tags, event.eventPreimage, h.preimage,
      congrArg Subtype.val h.identity, h.key, h.encoding, ?_, ?_⟩
    · rw [h.identity]
      exact h.signed
    · rw [h.identity, h.event_eq]
      rfl

/-- Reading received bytes up to a verified event. -/
def acceptEvent (crypto : EventCrypto) (bytes : List UInt8) :
    Except ProtocolFailure (ParsedOuterEvent × CryptographicallyVerifiedEvent) := do
  let raw ← newRawEventBytes bytes
  let parsed ← parseOuterEvent raw
  let event ← verify crypto parsed
  return (parsed, event)

theorem acceptEvent_eq_ok (h : acceptEvent crypto bytes = .ok (parsed, event)) :
    parsed.raw = bytes ∧ bytes.length ≤ maxEventBytes ∧ Framed parsed ∧
      Verifies crypto parsed event := by
  simp only [acceptEvent, newRawEventBytes, bind_eq_ok] at h
  obtain ⟨raw, hraw, parsed', hparsed, event', hevent, h⟩ := h
  cases h
  split at hraw
  next => cases hraw
  next hsize =>
    cases hraw
    have hverified := verify_eq_ok_iff.1 hevent
    obtain ⟨rfl, hframed⟩ :=
      parseOuterEvent_eq_ok hparsed hverified.kind_eq hverified.tags
    exact ⟨rfl, Nat.not_lt.1 hsize, hframed, hverified⟩

theorem acceptEvent_framed (hframed : Framed parsed)
    (hsize : parsed.raw.length ≤ maxEventBytes)
    (hverified : Verifies crypto parsed event) :
    acceptEvent crypto parsed.raw = .ok (parsed, event) := by
  simp only [acceptEvent, newRawEventBytes, bind_eq_ok]
  exact ⟨_, if_neg (Nat.not_lt.2 hsize), _, parseOuterEvent_framed hframed, _,
    verify_eq_ok_iff.2 hverified, rfl⟩

/-- Signing makes the events that are accepted with the signed fields and the
signature of the key. -/
theorem sign_eq_ok_iff {signer : Bip340Signer}
    {auxiliary : FixedBytes 32} :
    sign crypto signer createdAt content auxiliary = .ok event ↔
      ∃ parsed, acceptEvent crypto event.raw = .ok (parsed, event) ∧
        parsed.publicKey = signer.publicKey ∧ parsed.createdAt = createdAt ∧
        parsed.content = content ∧
        signer.signRaw parsed.claimedId auxiliary = some parsed.signature := by
  constructor
  · intro h
    simp only [sign, bind_eq_ok, require_eq_ok, exists_const,
      decide_eq_true_eq] at h
    obtain ⟨hcreated, hcontent, preimage, hpreimage, h⟩ := h
    split at h
    next => cases h
    next signature hsignature =>
      simp only [bind_eq_ok, require_eq_ok, exists_const] at h
      obtain ⟨hsigned, bytes, hbytes, raw, hraw, parsed, hparsed, hevent⟩ := h
      obtain ⟨htext, hzero, rfl, hsize⟩ := encodeSignedEvent_eq_ok_iff.1 hbytes
      rw [newRawEventBytes, if_neg (Nat.not_lt.2 hsize)] at hraw
      cases hraw
      have hframed : Framed ⟨frameEvent (crypto.sha256 preimage)
          signer.publicKey createdAt content signature, crypto.sha256 preimage,
          signer.publicKey, createdAt, hqEventKind, true, content, signature⟩ :=
        ⟨rfl, isText_frameEvent htext, hcreated, rfl, rfl, hcontent, hzero⟩
      have hread := parseOuterEvent_framed hframed
      generalize hname : frameEvent (crypto.sha256 preimage) signer.publicKey
        createdAt content signature = raw at *
      obtain rfl := Except.ok.inj (hread.symm.trans hparsed)
      have hverified := verify_eq_ok_iff.1 hevent
      have hraw : event.raw = raw := by rw [hverified.event_eq]
      have haccepted := acceptEvent_framed hframed hsize hverified
      exact ⟨_, hraw.symm ▸ haccepted, rfl, rfl, rfl, hsignature⟩
  · rintro ⟨parsed, haccepted, hkey, rfl, rfl, hsignature⟩
    obtain ⟨hraw, hsize, hframed, hverified⟩ := acceptEvent_eq_ok haccepted
    have hpreimage := hverified.preimage
    have hsigned := hverified.signed
    obtain ⟨htext, hzero, -⟩ := encodeEventPreimage_eq_ok_iff.1 hpreimage
    rw [hkey] at hpreimage hsigned
    have hencoded : encodeSignedEvent parsed.claimedId signer.publicKey
        parsed.createdAt parsed.content parsed.signature = .ok parsed.raw := by
      refine encodeSignedEvent_eq_ok_iff.2 ⟨htext, hzero, ?_, hraw ▸ hsize⟩
      rw [← hkey]
      exact hframed.raw_eq
    have hnew : newRawEventBytes parsed.raw = .ok parsed.raw :=
      if_neg (Nat.not_lt.2 (hraw ▸ hsize))
    simp only [sign, bind_eq_ok, require_eq_ok, exists_const,
      decide_eq_true_eq]
    refine ⟨hframed.created, hframed.bounded, _, hpreimage, ?_⟩
    simp only [hverified.identity, hsignature, bind_eq_ok, require_eq_ok,
      exists_const]
    exact ⟨hsigned, _, hencoded, _, hnew, _, parseOuterEvent_framed hframed,
      verify_eq_ok_iff.2 hverified⟩

/-- Accepted bytes are the encoding of their fields, and an identity fixes all
of them but the signature. -/
theorem accepted_events_canonical (crypto : EventCrypto)
    (signer : Bip340Signer) :
    (∀ bytes parsed event, acceptEvent crypto bytes = .ok (parsed, event) →
      encodeSignedEvent event.eventId event.publicKey event.createdAt
        event.content parsed.signature = .ok bytes ∧
      encodeEventPreimage event.publicKey event.createdAt event.content =
        .ok event.eventPreimage ∧
      event.eventId = crypto.sha256 event.eventPreimage ∧
      event.raw = bytes) ∧
    (∀ left leftParsed leftEvent right rightParsed rightEvent,
      acceptEvent crypto left = .ok (leftParsed, leftEvent) →
      acceptEvent crypto right = .ok (rightParsed, rightEvent) →
      (crypto.sha256 leftEvent.eventPreimage =
        crypto.sha256 rightEvent.eventPreimage →
          leftEvent.eventPreimage = rightEvent.eventPreimage) →
      leftEvent.eventId = rightEvent.eventId →
      leftEvent.publicKey = rightEvent.publicKey ∧
        leftEvent.createdAt = rightEvent.createdAt ∧
        leftEvent.content = rightEvent.content ∧
        (leftParsed.signature = rightParsed.signature ↔ left = right)) ∧
    (∀ createdAt content auxiliary event,
      sign crypto signer createdAt content auxiliary = .ok event →
      ∃ parsed, acceptEvent crypto event.raw = .ok (parsed, event) ∧
        event.publicKey = signer.publicKey ∧ event.createdAt = createdAt ∧
        event.content = content ∧
        signer.signRaw event.eventId auxiliary = some parsed.signature) := by
  have hencoded (bytes : List UInt8) (parsed : ParsedOuterEvent)
      (event : CryptographicallyVerifiedEvent)
      (h : acceptEvent crypto bytes = .ok (parsed, event)) :
      encodeSignedEvent event.eventId event.publicKey event.createdAt
        event.content parsed.signature = .ok bytes := by
    obtain ⟨hraw, hsize, hframed, hverified⟩ := acceptEvent_eq_ok h
    obtain ⟨htext, hzero, -⟩ :=
      encodeEventPreimage_eq_ok_iff.1 hverified.preimage
    rw [hverified.event_eq]
    exact encodeSignedEvent_eq_ok_iff.2
      ⟨htext, hzero, hraw ▸ hframed.raw_eq, hsize⟩
  refine ⟨?_, ?_, ?_⟩
  · intro bytes parsed event h
    obtain ⟨hraw, -, -, hverified⟩ := acceptEvent_eq_ok h
    refine ⟨hencoded bytes parsed event h, ?_, ?_, ?_⟩
    · rw [hverified.event_eq]
      exact hverified.preimage
    · rw [hverified.identity, hverified.event_eq]
    · rw [hverified.event_eq, hraw]
  · intro left leftParsed leftEvent right rightParsed rightEvent hleft hright
      hcollision hid
    obtain ⟨-, -, hleftFramed, hleftVerified⟩ := acceptEvent_eq_ok hleft
    obtain ⟨-, -, hrightFramed, hrightVerified⟩ := acceptEvent_eq_ok hright
    have hleftFields := hleftVerified.event_eq
    have hrightFields := hrightVerified.event_eq
    have hclaimed : leftParsed.claimedId = rightParsed.claimedId := by
      rw [hleftFields, hrightFields] at hid
      exact hid
    have hpreimage := hcollision (by
      rw [hleftVerified.identity, hrightVerified.identity, hclaimed])
    obtain ⟨hkey, hcreated, hcontent⟩ := encodeEventPreimage_injective
      hleftFramed.created hrightFramed.created hleftVerified.preimage
      (hpreimage ▸ hrightVerified.preimage)
    have hkey : leftEvent.publicKey = rightEvent.publicKey := by
      rw [hleftFields, hrightFields]
      exact hkey
    have hcreated : leftEvent.createdAt = rightEvent.createdAt := by
      rw [hleftFields, hrightFields]
      exact hcreated
    have hcontent : leftEvent.content = rightEvent.content := by
      rw [hleftFields, hrightFields]
      exact hcontent
    refine ⟨hkey, hcreated, hcontent, ?_, ?_⟩
    · intro hsignature
      have hbytes := hencoded left leftParsed leftEvent hleft
      rw [hid, hkey, hcreated, hcontent, hsignature,
        hencoded right rightParsed rightEvent hright] at hbytes
      exact (Except.ok.inj hbytes).symm
    · rintro rfl
      rw [hleft] at hright
      cases hright
      rfl
  · intro createdAt content auxiliary event h
    obtain ⟨parsed, haccepted, hkey, hcreated, hcontent, hsignature⟩ :=
      sign_eq_ok_iff.1 h
    obtain ⟨-, -, -, hverified⟩ := acceptEvent_eq_ok haccepted
    refine ⟨parsed, haccepted, ?_, ?_, ?_, ?_⟩
    all_goals rw [hverified.event_eq]
    · exact hkey
    · exact hcreated
    · exact hcontent
    · exact hsignature

end Verification

/-- Signatures that carry the randomness they were made with. -/
def openCrypto : EventCrypto where
  sha256 bytes := ⟨List.replicate 32 (bytes.foldl (· + ·) 0), by simp⟩
  validKey _ := true
  validSignature _ := true
  verifyPrehash _ message signature := signature.1.drop 32 = message.1

def openSigner : Bip340Signer where
  publicKey := ⟨List.replicate 32 0, length_zeros⟩
  signRaw message auxiliary :=
    some ⟨auxiliary.1 ++ message.1, by simp [auxiliary.2, message.2]⟩

theorem length_frameEvent_empty (eventId publicKey : FixedBytes 32)
    (hdigit : createdAt < 10) (signature : FixedBytes 64) :
    (frameEvent eventId publicKey createdAt [] signature).length ≤ 512 := by
  have hnumeral : encodeDecimal createdAt = [UInt8.ofNat (48 + createdAt)] := by
    rw [encodeDecimal, if_pos hdigit]
  simp only [frameEvent, hnumeral, encodeDecimal_hqEventKind,
    List.length_append, List.length_cons, length_encodeHex, eventId.2,
    publicKey.2, signature.2, List.flatMap_nil, List.length_nil]
  decide +kernel

/-- The event of an empty content, signed with some randomness. -/
def openEvent (createdAt : Nat) (auxiliary : FixedBytes 32)
    (preimage : List UInt8) : ParsedOuterEvent :=
  let eventId := openCrypto.sha256 preimage
  let signature : FixedBytes 64 :=
    ⟨auxiliary.1 ++ eventId.1, by simp [auxiliary.2, eventId.2]⟩
  ⟨frameEvent eventId openSigner.publicKey createdAt [] signature, eventId,
    openSigner.publicKey, createdAt, hqEventKind, true, [], signature⟩

theorem acceptEvent_openEvent (hdigit : createdAt < 10)
    {preimage : List UInt8}
    (hpreimage : encodeEventPreimage openSigner.publicKey createdAt [] =
      .ok preimage) (auxiliary : FixedBytes 32) :
    acceptEvent openCrypto (openEvent createdAt auxiliary preimage).raw =
      .ok (openEvent createdAt auxiliary preimage,
        ⟨(openEvent createdAt auxiliary preimage).raw,
          openCrypto.sha256 preimage, openSigner.publicKey, createdAt, preimage,
          []⟩) := by
  have hempty : isText [] = true := isText_of_ascii nofun
  have hcreated : createdAt ≤ maxCreatedAt :=
    hdigit.le.trans (by decide)
  refine acceptEvent_framed ?_ ?_ ?_
  · exact ⟨rfl, isText_frameEvent hempty, hcreated, rfl, rfl,
      Nat.zero_le _, nofun⟩
  · exact (length_frameEvent_empty _ _ hdigit _).trans (by decide)
  · refine ⟨rfl, rfl, hpreimage, rfl, rfl, rfl, ?_, rfl⟩
    simp [openEvent, openCrypto, auxiliary.2]

/-- Two signatures of one event give two accepted byte strings with one
identity. -/
theorem signatures_share_identity :
    ∃ left leftParsed leftEvent right rightParsed rightEvent,
      acceptEvent openCrypto left = .ok (leftParsed, leftEvent) ∧
      acceptEvent openCrypto right = .ok (rightParsed, rightEvent) ∧
      leftEvent.eventPreimage = rightEvent.eventPreimage ∧
      leftEvent.eventId = rightEvent.eventId ∧ left ≠ right := by
  obtain ⟨preimage, hpreimage⟩ : ∃ preimage,
      encodeEventPreimage openSigner.publicKey 0 [] = .ok preimage :=
    ⟨_, encodeEventPreimage_eq_ok_iff.2 ⟨isText_of_ascii nofun, nofun, rfl⟩⟩
  have hleft := acceptEvent_openEvent (by decide) hpreimage
    ⟨List.replicate 32 0, by simp⟩
  have hright := acceptEvent_openEvent (by decide) hpreimage
    ⟨List.replicate 32 1, by simp⟩
  refine ⟨_, _, _, _, _, _, hleft, hright, rfl, rfl, ?_⟩
  intro heq
  rw [heq, hright] at hleft
  have hsignature := congrArg
    (fun parsed : ParsedOuterEvent => parsed.signature.1.head?)
    (Prod.mk.inj (Except.ok.inj hleft)).1
  revert hsignature
  simp [openEvent]

end Hq.SignedEvent
