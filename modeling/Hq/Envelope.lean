/-
Envelopes over relays: the embedded canonical event, the rumor, the seal and
the gift wrap around it, and their opening.  JSON text, the curve and the
decoding of a canonical event into a fact are given.
-/
import Hq.Nip44
import Hq.RelayUrl
import Hq.SignedEvent
import Hq.TextCodec

namespace Hq.Envelope

open SignedEvent (EventCrypto CryptographicallyVerifiedEvent acceptEvent)

def giftWrapKind : UInt16 := 1059
def sealKind : UInt16 := 13
def hqRumorKind : UInt16 := 7282
def clientAuthKind : UInt16 := 22242
def maxGiftWrapBytes : Nat := 256 * 1024
def twoDaysSeconds : Nat := 172800
def maxChallengeBytes : Nat := 1024

def text (value : String) : Utf8Text :=
  ⟨SignedEvent.literal value, SignedEvent.isText_literal value⟩

/-- What the identity of an event covers. -/
structure EventFields where
  pubkey : Utf8Text
  createdAt : UInt64
  kind : UInt16
  tags : List (List Utf8Text)
  content : Utf8Text
deriving DecidableEq

structure UnsignedEventWire where
  id : Utf8Text
  fields : EventFields
deriving DecidableEq

structure SignedEventWire where
  id : Utf8Text
  fields : EventFields
  sig : Utf8Text
deriving DecidableEq

structure EnvelopeWire where
  schema : UInt8
  envelopeType : Utf8Text
  originInstallationId : Utf8Text
  canonicalEventId : Utf8Text
  canonicalEvent : Utf8Text
deriving DecidableEq

/-- The JSON texts of the wire types.  A raw value is embedded as it stands,
without the white space around it. -/
structure Serde where
  writePreimage : EventFields → List UInt8
  writeSigned : SignedEventWire → Utf8Text
  parseSigned : List UInt8 → Option SignedEventWire
  writeUnsigned : UnsignedEventWire → Utf8Text
  parseUnsigned : List UInt8 → Option UnsignedEventWire
  writeEnvelope : EnvelopeWire → Utf8Text
  parseEnvelope : List UInt8 → Option EnvelopeWire
  rawValue : Utf8Text → Option Utf8Text
  writePreimage_injective : Function.Injective writePreimage
  parse_writeSigned : ∀ wire, parseSigned (writeSigned wire).1 = some wire
  parse_writeUnsigned : ∀ wire, parseUnsigned (writeUnsigned wire).1 = some wire
  parse_writeEnvelope : ∀ wire,
    rawValue wire.canonicalEvent = some wire.canonicalEvent →
      parseEnvelope (writeEnvelope wire).1 = some wire
  rawValue_object : ∀ value raw, value.1.head? = some 123 →
    value.1.getLast? = some 125 → rawValue value = some raw → raw = value

/-- Keys, signatures and shared secrets, with the decoding of facts. -/
structure World extends EventCrypto, Nip44.Ciphers, Serde where
  Secret : Type
  secretOf : FixedBytes 32 → Option Secret
  publicKey : Secret → FixedBytes 32
  signRaw : Secret → FixedBytes 32 → FixedBytes 32 → Option (FixedBytes 64)
  sharedKey : Secret → FixedBytes 32 → FixedBytes 32
  /-- The origin of the fact that a supported event carries. -/
  originOf : CryptographicallyVerifiedEvent → Option (FixedBytes 32)
  validKey_publicKey : ∀ secret, validKey (publicKey secret) = true
  signRaw_valid : ∀ secret message auxiliary signature,
    signRaw secret message auxiliary = some signature →
      validSignature signature = true ∧
        verifyPrehash (publicKey secret) message signature = true
  sharedKey_symm : ∀ left right,
    sharedKey left (publicKey right) = sharedKey right (publicKey left)

section Codec

variable (world : World)

def hex {width : Nat} (bytes : FixedBytes width) : Utf8Text :=
  ⟨encodeHex bytes.1, SignedEvent.isText_encodeHex bytes.1⟩

def decodeHexText (width : Nat) (value : Utf8Text) :
    Except FailureClass (FixedBytes width) :=
  match decodeHex value.1 with
  | none => .error .malformedJson
  | some bytes =>
      if h : bytes.length = width then .ok ⟨bytes, h⟩ else .error .malformedJson

def conversationKey (secret : world.Secret) (peer : FixedBytes 32) :
    Except FailureClass (FixedBytes 32) :=
  if world.validKey peer then .ok (world.sharedKey secret peer)
  else .error .invalidPublicKey

def eventId (fields : EventFields) : FixedBytes 32 :=
  world.sha256 (world.writePreimage fields)

def signEvent (secret : world.Secret) (createdAt : UInt64) (kind : UInt16)
    (tags : List (List Utf8Text)) (content : Utf8Text) (auxiliary : FixedBytes 32) :
    Except FailureClass SignedEventWire :=
  let fields : EventFields :=
    ⟨hex (world.publicKey secret), createdAt, kind, tags, content⟩
  let id := eventId world fields
  match world.signRaw secret id auxiliary with
  | none => .error .cryptography
  | some signature => .ok ⟨hex id, fields, hex signature⟩

def verifySigned (event : SignedEventWire) :
    Except FailureClass (FixedBytes 32) := do
  let claimed ← decodeHexText 32 event.id
  require (claimed = eventId world event.fields) .eventIdentity
  let publicKey ← decodeHexText 32 event.fields.pubkey
  require (world.validKey publicKey) .invalidPublicKey
  let signature ← decodeHexText 64 event.sig
  require (world.validSignature signature) .signature
  require (world.verifyPrehash publicKey claimed signature) .signature
  return publicKey

def verifyId (event : UnsignedEventWire) : Except FailureClass Unit := do
  let claimed ← decodeHexText 32 event.id
  require (claimed = eventId world event.fields) .eventIdentity

def recipientTags (recipient : FixedBytes 32) : List (List Utf8Text) :=
  [[text "p", hex recipient]]

def oneRecipient : List (List Utf8Text) → Except FailureClass (FixedBytes 32)
  | [[name, value]] =>
      if name = text "p" then decodeHexText 32 value else .error .layerShape
  | _ => .error .layerShape

/-- One draw of 32 random bytes, while the source has them. -/
def randomArray : List (FixedBytes 32) →
    Except FailureClass (FixedBytes 32 × List (FixedBytes 32))
  | [] => .error .cryptography
  | bytes :: rest => .ok (bytes, rest)

def randomSigningKey : Nat → List (FixedBytes 32) →
    Except FailureClass (world.Secret × List (FixedBytes 32))
  | 0, _ => .error .cryptography
  | attempts + 1, random => do
      let (bytes, random) ← randomArray random
      match world.secretOf bytes with
      | some secret => return (secret, random)
      | none => randomSigningKey attempts random

def randomPast (now : UInt64) (random : List (FixedBytes 32)) :
    Except FailureClass (UInt64 × List (FixedBytes 32)) := do
  let (bytes, random) ← randomArray random
  let offset := fromBigEndian (bytes.1.take 8) % (twoDaysSeconds + 1)
  return (UInt64.ofNat (now.toNat - offset), random)

def boundPlaintext (bytes : List UInt8) : Except FailureClass Unit :=
  require (bytes ≠ [] ∧ bytes.length ≤ Nip44.maxPlaintextBytes) .size

/-- A verified event with the origin of the fact it was decoded to. -/
structure VerifiedSemanticFact where
  event : CryptographicallyVerifiedEvent
  origin : FixedBytes 32
  accepted : ∃ parsed,
    acceptEvent world.toEventCrypto event.raw = .ok (parsed, event)
  decoded : world.originOf event = some origin

def encryptText (plaintext : Utf8Text) (key nonce : FixedBytes 32) :
    Except FailureClass Utf8Text :=
  match h : Nip44.encrypt world.toCiphers plaintext.1 key nonce with
  | .error failure => .error failure
  | .ok payload => .ok ⟨payload, Nip44.isText_encrypt h⟩

variable {world} in
/-- The envelope of a fact, with its event as it stands. -/
def envelopeOf (fact : VerifiedSemanticFact world) :
    Except FailureClass EnvelopeWire :=
  if h : isText fact.event.raw = true then
    match world.rawValue ⟨fact.event.raw, h⟩ with
    | none => .error .canonical
    | some raw => .ok ⟨1, text "hq.canonical", hex fact.origin,
        hex fact.event.eventId, raw⟩
  else .error .canonical

/-- The rumor that carries an envelope to a recipient. -/
def rumorOf (secret : world.Secret) (fact : VerifiedSemanticFact world)
    (recipient : FixedBytes 32) (envelope : EnvelopeWire) : UnsignedEventWire :=
  let fields : EventFields := ⟨hex (world.publicKey secret),
    UInt64.ofNat fact.event.createdAt, hqRumorKind, recipientTags recipient,
    world.writeEnvelope envelope⟩
  ⟨hex (eventId world fields), fields⟩

/-- The first half of preparing: the seal, and the random bytes left. -/
def sealFact (secret : world.Secret) (fact : VerifiedSemanticFact world)
    (recipient : FixedBytes 32) (now : UInt64) (random : List (FixedBytes 32)) :
    Except FailureClass (SignedEventWire × List (FixedBytes 32)) := do
  require (world.validKey recipient) .invalidPublicKey
  require (fact.event.publicKey = world.publicKey secret) .identityAgreement
  let envelope ← envelopeOf fact
  let rumorJson :=
    world.writeUnsigned (rumorOf world secret fact recipient envelope)
  let sealKey ← conversationKey world secret recipient
  let (nonce, random) ← randomArray random
  let sealCipher ← encryptText world rumorJson sealKey nonce
  let (sealCreatedAt, random) ← randomPast now random
  let (auxiliary, random) ← randomArray random
  let sealed ← signEvent world secret sealCreatedAt sealKind [] sealCipher auxiliary
  return (sealed, random)

structure PreparedEnvelopeMetadata where
  wrapperId : FixedBytes 32
  oneUsePublicKey : FixedBytes 32
  recipientPublicKey : FixedBytes 32
  canonicalEventId : FixedBytes 32
  canonicalSha256 : FixedBytes 32
  wrapperSha256 : FixedBytes 32
  sealCreatedAt : UInt64
  giftWrapCreatedAt : UInt64
  byteLen : Nat
deriving DecidableEq

structure PreparedEnvelope where
  metadata : PreparedEnvelopeMetadata
  exactWire : List UInt8
deriving DecidableEq

def prepare (secret : world.Secret) (fact : VerifiedSemanticFact world)
    (recipient : FixedBytes 32) (now : UInt64) (random : List (FixedBytes 32)) :
    Except FailureClass PreparedEnvelope := do
  let (sealed, random) ← sealFact world secret fact recipient now random
  let (oneUse, random) ← randomSigningKey world 128 random
  let outerKey ← conversationKey world oneUse recipient
  let (nonce, random) ← randomArray random
  let outerCipher ← encryptText world (world.writeSigned sealed) outerKey nonce
  let (giftWrapCreatedAt, random) ← randomPast now random
  let (auxiliary, _) ← randomArray random
  let outer ← signEvent world oneUse giftWrapCreatedAt giftWrapKind
    (recipientTags recipient) outerCipher auxiliary
  let exactWire := (world.writeSigned outer).1
  require (exactWire ≠ [] ∧ exactWire.length ≤ maxGiftWrapBytes) .size
  let wrapperId ← decodeHexText 32 outer.id
  return ⟨⟨wrapperId, world.publicKey oneUse, recipient, fact.event.eventId,
    world.sha256 fact.event.raw, world.sha256 exactWire,
    sealed.fields.createdAt, giftWrapCreatedAt, exactWire.length⟩, exactWire⟩

def strictJson {α : Type} (value : Option α) : Except FailureClass α :=
  match value with
  | none => .error .malformedJson
  | some value => .ok value

/-- The first half of opening: the wrapper and the seal inside it, each with
the key that signed it. -/
structure OpenedSeal where
  outer : SignedEventWire
  outerPublic : FixedBytes 32
  sealed : SignedEventWire
  sender : FixedBytes 32

def openSeal (secret : world.Secret) (raw : List UInt8) :
    Except FailureClass OpenedSeal := do
  require (raw ≠ [] ∧ raw.length ≤ maxGiftWrapBytes) .size
  let outer ← strictJson (world.parseSigned raw)
  let outerPublic ← verifySigned world outer
  require (outer.fields.kind = giftWrapKind) .layerShape
  let recipient ← oneRecipient outer.fields.tags
  require (recipient = world.publicKey secret) .recipient
  let outerKey ← conversationKey world secret outerPublic
  let sealJson ←
    Nip44.decrypt world.toCiphers outer.fields.content.1 outerKey
  boundPlaintext sealJson
  let sealed ← strictJson (world.parseSigned sealJson)
  let sender ← verifySigned world sealed
  require (sealed.fields.kind = sealKind ∧ sealed.fields.tags = []) .layerShape
  return ⟨outer, outerPublic, sealed, sender⟩

/-- The rumor inside a seal. -/
def openRumor (secret : world.Secret) (opened : OpenedSeal) :
    Except FailureClass UnsignedEventWire := do
  let sealKey ← conversationKey world secret opened.sender
  let rumorJson ←
    Nip44.decrypt world.toCiphers opened.sealed.fields.content.1 sealKey
  boundPlaintext rumorJson
  let rumor ← strictJson (world.parseUnsigned rumorJson)
  verifyId world rumor
  require (rumor.fields.kind = hqRumorKind) .identityAgreement
  let pubkey ← decodeHexText 32 rumor.fields.pubkey
  require (pubkey = opened.sender) .identityAgreement
  let recipient ← oneRecipient rumor.fields.tags
  require (recipient = world.publicKey secret) .identityAgreement
  return rumor

structure OpenedEnvelopeMetadata where
  wrapperId : FixedBytes 32
  wrapperCreatedAt : UInt64
  oneUsePublicKey : FixedBytes 32
  senderPublicKey : FixedBytes 32
  originInstallationId : FixedBytes 32
  canonicalEventId : FixedBytes 32
deriving DecidableEq

structure OpenedEnvelope where
  canonicalEvent : List UInt8
  metadata : OpenedEnvelopeMetadata
deriving DecidableEq

/-- The supported fact in the bytes of a canonical event, by its origin. -/
def decodeCanonical (bytes : List UInt8) : Except FailureClass
    (CryptographicallyVerifiedEvent × FixedBytes 32) :=
  match acceptEvent world.toEventCrypto bytes with
  | .error _ => .error .canonical
  | .ok (_, event) =>
      match world.originOf event with
      | none => .error .canonical
      | some origin => .ok (event, origin)

def openEnvelope (secret : world.Secret) (raw : List UInt8) :
    Except FailureClass OpenedEnvelope := do
  let opened ← openSeal world secret raw
  let rumor ← openRumor world secret opened
  let envelope ← strictJson (world.parseEnvelope rumor.fields.content.1)
  require (envelope.schema = 1 ∧ envelope.envelopeType = text "hq.canonical")
    .envelopeVersion
  let (event, origin) ← decodeCanonical world envelope.canonicalEvent.1
  let canonicalId ← decodeHexText 32 envelope.canonicalEventId
  require (canonicalId = event.eventId) .identityAgreement
  let originId ← decodeHexText 32 envelope.originInstallationId
  require (originId = origin) .identityAgreement
  require (event.publicKey = opened.sender) .identityAgreement
  let wrapperId ← decodeHexText 32 opened.outer.id
  return ⟨envelope.canonicalEvent.1, wrapperId, opened.outer.fields.createdAt,
    opened.outerPublic, opened.sender, origin, event.eventId⟩

/-- A signed event for a relay connection. -/
structure AuthInput where
  relayUrl : Utf8Text
  challenge : Utf8Text
  createdAt : UInt64

def validateAuth (value : Utf8Text) (maximum : Nat) : Except FailureClass Unit :=
  require (value.1 ≠ [] ∧ value.1.length ≤ maximum ∧
    ((decodeText value.1).getD []).all fun character =>
      !(character.toNat < 32 || 127 ≤ character.toNat && character.toNat < 160))
    .authenticationInput

def authenticationEvent (secret : world.Secret) (input : AuthInput)
    (auxiliary : FixedBytes 32) : Except FailureClass SignedEventWire := do
  validateAuth input.relayUrl maxRelayUrlBytes
  validateAuth input.challenge maxChallengeBytes
  signEvent world secret input.createdAt clientAuthKind
    [[text "relay", input.relayUrl], [text "challenge", input.challenge]]
    (text "") auxiliary

end Codec

section Laws

variable {world : World}

theorem decodeHexText_hex {width : Nat} (bytes : FixedBytes width) :
    decodeHexText width (hex bytes) = .ok bytes := by
  simp [decodeHexText, hex, decodeHex_encodeHex, bytes.2]

theorem strictJson_eq_ok {α : Type} {value : Option α} {result : α} :
    strictJson value = .ok result ↔ value = some result := by
  cases value <;> simp [strictJson]

theorem conversationKey_eq_ok {secret : world.Secret} {peer key : FixedBytes 32} :
    conversationKey world secret peer = .ok key ↔
      world.validKey peer = true ∧ world.sharedKey secret peer = key := by
  unfold conversationKey
  split <;> simp_all

theorem oneRecipient_recipientTags (recipient : FixedBytes 32) :
    oneRecipient (recipientTags recipient) = .ok recipient := by
  simp [oneRecipient, recipientTags, decodeHexText_hex]

/-- An event that was signed verifies. -/
theorem signEvent_eq_ok {secret : world.Secret} {createdAt : UInt64}
    {kind : UInt16} {tags : List (List Utf8Text)} {content : Utf8Text}
    {auxiliary : FixedBytes 32} {wire : SignedEventWire}
    (h : signEvent world secret createdAt kind tags content auxiliary =
      .ok wire) :
    wire.fields =
        ⟨hex (world.publicKey secret), createdAt, kind, tags, content⟩ ∧
      wire.id = hex (eventId world wire.fields) ∧
      verifySigned world wire = .ok (world.publicKey secret) := by
  unfold signEvent at h
  simp only at h
  split at h
  next => cases h
  next signature hsignature =>
    cases h
    obtain ⟨hvalid, hverified⟩ := world.signRaw_valid _ _ _ _ hsignature
    refine ⟨rfl, rfl, ?_⟩
    simp only [verifySigned, bind_eq_ok, require_eq_ok, exists_const,
      decodeHexText_hex, Except.ok.injEq, exists_eq_left']
    simp [hvalid, hverified, world.validKey_publicKey, pure, Except.pure]

/-- What verifies was signed under the key that it names. -/
theorem verifySigned_eq_ok {event : SignedEventWire} {key : FixedBytes 32}
    (h : verifySigned world event = .ok key) :
    ∃ signature, world.verifyPrehash key (eventId world event.fields)
      signature = true := by
  simp only [verifySigned, bind_eq_ok, require_eq_ok, exists_const,
    decide_eq_true_eq] at h
  obtain ⟨_, -, rfl, _, -, -, signature, -, -, hverified, h⟩ := h
  cases h
  exact ⟨signature, hverified⟩

/-- What was encrypted is decrypted under the same key. -/
theorem encryptText_eq_ok {plaintext cipher : Utf8Text} {key nonce : FixedBytes 32}
    (h : encryptText world plaintext key nonce = .ok cipher) :
    Nip44.decrypt world.toCiphers cipher.1 key = .ok plaintext.1 ∧
      boundPlaintext plaintext.1 = .ok () := by
  unfold encryptText at h
  split at h
  next => cases h
  next payload hpayload =>
    cases h
    refine ⟨Nip44.decrypt_eq_ok_iff.2 ⟨plaintext.2, nonce, hpayload⟩, ?_⟩
    obtain ⟨padded, hpadded, -⟩ := Nip44.encrypt_eq_ok_iff.1 hpayload
    obtain ⟨hne, hbound, -⟩ := Nip44.pad_eq_ok_iff.1 hpadded
    simp [boundPlaintext, hne, hbound]

theorem frameEvent_braces (eventId publicKey : FixedBytes 32) (createdAt : Nat)
    (content : List UInt8) (signature : FixedBytes 64) :
    (SignedEvent.frameEvent eventId publicKey createdAt content
        signature).head? = some 123 ∧
      (SignedEvent.frameEvent eventId publicKey createdAt content
        signature).getLast? = some 125 := by
  have hopen : SignedEvent.literal "\x7b\"id\":" = [123, 34, 105, 100, 34, 58] := by
    decide +kernel
  have hclose : SignedEvent.literal "\x7d" = [125] := by decide +kernel
  unfold SignedEvent.frameEvent
  rw [hopen, hclose]
  refine ⟨rfl, ?_⟩
  simp [List.getLast?_append, List.getLast?_cons]

/-- The envelope of a fact carries the exact bytes of its event. -/
theorem envelopeOf_eq_ok {fact : VerifiedSemanticFact world}
    {envelope : EnvelopeWire} (h : envelopeOf fact = .ok envelope) :
    envelope.canonicalEvent.1 = fact.event.raw ∧
      envelope.schema = 1 ∧ envelope.envelopeType = text "hq.canonical" ∧
      envelope.originInstallationId = hex fact.origin ∧
      envelope.canonicalEventId = hex fact.event.eventId ∧
      world.parseEnvelope (world.writeEnvelope envelope).1 = some envelope := by
  unfold envelopeOf at h
  split at h
  next htext =>
    split at h
    next => cases h
    next raw hraw =>
      cases h
      obtain ⟨parsed, haccepted⟩ := fact.accepted
      obtain ⟨hbytes, -, hframed, -⟩ := SignedEvent.acceptEvent_eq_ok haccepted
      obtain ⟨hhead, hlast⟩ := frameEvent_braces parsed.claimedId
        parsed.publicKey parsed.createdAt parsed.content parsed.signature
      rw [← hframed.raw_eq, hbytes] at hhead hlast
      have hsame := world.rawValue_object _ _ hhead hlast hraw
      subst hsame
      exact ⟨rfl, rfl, rfl, rfl, rfl, world.parse_writeEnvelope _ hraw⟩
  next => cases h

/-- A fact sealed for a recipient. -/
structure Seals (world : World) (secret : world.Secret)
    (fact : VerifiedSemanticFact world) (recipient : FixedBytes 32)
    (sealed : SignedEventWire) (envelope : EnvelopeWire) : Prop where
  envelope_eq : envelopeOf fact = .ok envelope
  author : fact.event.publicKey = world.publicKey secret
  recipient_valid : world.validKey recipient = true
  content : ∃ nonce, encryptText world
    (world.writeUnsigned (rumorOf world secret fact recipient envelope))
    (world.sharedKey secret recipient) nonce = .ok sealed.fields.content
  kind_eq : sealed.fields.kind = sealKind
  tags_eq : sealed.fields.tags = []
  verified : verifySigned world sealed = .ok (world.publicKey secret)

theorem sealFact_eq_ok {secret : world.Secret}
    {fact : VerifiedSemanticFact world} {recipient : FixedBytes 32}
    {now : UInt64} {random rest : List (FixedBytes 32)}
    {sealed : SignedEventWire}
    (h : sealFact world secret fact recipient now random = .ok (sealed, rest)) :
    ∃ envelope, Seals world secret fact recipient sealed envelope := by
  simp only [sealFact, bind_eq_ok, require_eq_ok, exists_const, Prod.exists,
    conversationKey_eq_ok, decide_eq_true_eq] at h
  obtain ⟨hvalid, hauthor, envelope, henvelope, key, ⟨-, rfl⟩, nonce, _, -,
    cipher, hcipher, createdAt, _, -, auxiliary, _, -, wire, hsigned, h⟩ := h
  cases h
  obtain ⟨hfields, -, hverified⟩ := signEvent_eq_ok hsigned
  refine ⟨envelope, henvelope, hauthor, hvalid, ⟨nonce, ?_⟩, ?_, ?_, hverified⟩
  · rw [hfields]
    exact hcipher
  · rw [hfields]
  · rw [hfields]

/-- The recipient finds the rumor in a seal, whoever passed the seal on. -/
theorem openRumor_of_seals {sender recipient : world.Secret}
    {fact : VerifiedSemanticFact world} {sealed : SignedEventWire}
    {envelope : EnvelopeWire} {opened : OpenedSeal}
    (h : Seals world sender fact (world.publicKey recipient) sealed envelope)
    (hsender : opened.sender = world.publicKey sender)
    (hcontent : opened.sealed.fields.content = sealed.fields.content) :
    openRumor world recipient opened =
      .ok (rumorOf world sender fact (world.publicKey recipient) envelope) := by
  obtain ⟨nonce, hcipher⟩ := h.content
  obtain ⟨hdecrypted, hbound⟩ := encryptText_eq_ok hcipher
  rw [world.sharedKey_symm, ← hcontent] at hdecrypted
  simp only [openRumor, bind_eq_ok, require_eq_ok, exists_const,
    conversationKey_eq_ok, decide_eq_true_eq, strictJson_eq_ok]
  refine ⟨_, ⟨hsender ▸ world.validKey_publicKey sender, rfl⟩, _,
    hsender ▸ hdecrypted, (), hbound, _, world.parse_writeUnsigned _, (), ?_, rfl,
    world.publicKey sender, decodeHexText_hex _, hsender.symm,
    world.publicKey recipient, oneRecipient_recipientTags _, rfl, rfl⟩
  simp only [verifyId, bind_eq_ok, require_eq_ok, decide_eq_true_eq]
  exact ⟨_, decodeHexText_hex _, rfl⟩

theorem decodeCanonical_fact (fact : VerifiedSemanticFact world) :
    decodeCanonical world fact.event.raw = .ok (fact.event, fact.origin) := by
  obtain ⟨parsed, haccepted⟩ := fact.accepted
  simp [decodeCanonical, haccepted, fact.decoded]

theorem openEnvelope_of_rumor {recipient sender : world.Secret} {raw : List UInt8}
    {opened : OpenedSeal} {fact : VerifiedSemanticFact world}
    {envelope : EnvelopeWire} {wrapperId addressee : FixedBytes 32}
    (hopened : openSeal world recipient raw = .ok opened)
    (henvelope : envelopeOf fact = .ok envelope)
    (hauthor : fact.event.publicKey = opened.sender)
    (hrumor : openRumor world recipient opened =
      .ok (rumorOf world sender fact addressee envelope))
    (hwrapper : decodeHexText 32 opened.outer.id = .ok wrapperId) :
    openEnvelope world recipient raw = .ok ⟨fact.event.raw, wrapperId,
      opened.outer.fields.createdAt, opened.outerPublic, opened.sender,
      fact.origin, fact.event.eventId⟩ := by
  obtain ⟨hraw, hschema, htype, horigin, hid, hparsed⟩ :=
    envelopeOf_eq_ok henvelope
  simp only [openEnvelope, bind_eq_ok, require_eq_ok, exists_const,
    decide_eq_true_eq, strictJson_eq_ok, Prod.exists]
  refine ⟨_, hopened, _, hrumor, envelope, hparsed, ⟨hschema, htype⟩,
    fact.event, fact.origin, hraw ▸ decodeCanonical_fact fact,
    fact.event.eventId, hid ▸ decodeHexText_hex _, rfl, fact.origin,
    horigin ▸ decodeHexText_hex _, rfl, hauthor, wrapperId, hwrapper, ?_⟩
  rw [hraw]
  rfl

theorem openSeal_prepare {sender recipient : world.Secret}
    {fact : VerifiedSemanticFact world} {now : UInt64}
    {random : List (FixedBytes 32)} {prepared : PreparedEnvelope}
    (h : prepare world sender fact (world.publicKey recipient) now random =
      .ok prepared) :
    ∃ opened envelope wrapperId,
      openSeal world recipient prepared.exactWire = .ok opened ∧
      opened.sender = world.publicKey sender ∧
      Seals world sender fact (world.publicKey recipient) opened.sealed
        envelope ∧
      decodeHexText 32 opened.outer.id = .ok wrapperId := by
  simp only [prepare, bind_eq_ok, require_eq_ok, exists_const, Prod.exists,
    conversationKey_eq_ok, decide_eq_true_eq] at h
  obtain ⟨sealed, _, hsealed, oneUse, _, -, key, ⟨-, rfl⟩, nonce, _, -, cipher,
    hcipher, createdAt, _, -, auxiliary, _, -, outer, houter, hsize, wrapperId,
    hwrapper, h⟩ := h
  cases h
  obtain ⟨envelope, hseals⟩ := sealFact_eq_ok hsealed
  obtain ⟨hfields, -, hverified⟩ := signEvent_eq_ok houter
  obtain ⟨hdecrypted, hbound⟩ := encryptText_eq_ok hcipher
  rw [world.sharedKey_symm] at hdecrypted
  refine ⟨⟨outer, world.publicKey oneUse, sealed, world.publicKey sender⟩,
    envelope, wrapperId, ?_, rfl, hseals, hwrapper⟩
  simp only [openSeal, bind_eq_ok, require_eq_ok, exists_const,
    conversationKey_eq_ok, decide_eq_true_eq, strictJson_eq_ok]
  refine ⟨hsize, _, world.parse_writeSigned _, _, hverified, ?_,
    world.publicKey recipient, ?_, rfl, _,
    ⟨world.validKey_publicKey oneUse, rfl⟩, (world.writeSigned sealed).1, ?_,
    (), hbound, sealed, world.parse_writeSigned _, _, hseals.verified,
    ⟨hseals.kind_eq, hseals.tags_eq⟩, rfl⟩
  · rw [hfields]
  · rw [hfields]
    exact oneRecipient_recipientTags _
  · rw [hfields]
    exact hdecrypted

/-- How the layers of an opened wrapper agree. -/
structure Agreement (world : World) (recipient : world.Secret)
    (raw : List UInt8) (opened : OpenedEnvelope) (layers : OpenedSeal)
    (rumor : UnsignedEventWire) (envelope : EnvelopeWire)
    (event : CryptographicallyVerifiedEvent) : Prop where
  seal_opened : openSeal world recipient raw = .ok layers
  addressed : oneRecipient layers.outer.fields.tags =
    .ok (world.publicKey recipient)
  rumor_opened : openRumor world recipient layers = .ok rumor
  seal_signer : verifySigned world layers.sealed =
    .ok opened.metadata.senderPublicKey
  rumor_author : decodeHexText 32 rumor.fields.pubkey =
    .ok opened.metadata.senderPublicKey
  event_signer : event.publicKey = opened.metadata.senderPublicKey
  envelope_parsed : world.parseEnvelope rumor.fields.content.1 = some envelope
  canonical : opened.canonicalEvent = envelope.canonicalEvent.1
  accepted : ∃ parsed, acceptEvent world.toEventCrypto opened.canonicalEvent =
    .ok (parsed, event)
  supported : world.originOf event = some opened.metadata.originInstallationId
  origin_stated : decodeHexText 32 envelope.originInstallationId =
    .ok opened.metadata.originInstallationId
  id_stated : decodeHexText 32 envelope.canonicalEventId =
    .ok opened.metadata.canonicalEventId
  id_eq : opened.metadata.canonicalEventId = event.eventId

theorem decodeCanonical_eq_ok {bytes : List UInt8}
    {event : CryptographicallyVerifiedEvent} {origin : FixedBytes 32}
    (h : decodeCanonical world bytes = .ok (event, origin)) :
    (∃ parsed, acceptEvent world.toEventCrypto bytes = .ok (parsed, event)) ∧
      world.originOf event = some origin := by
  unfold decodeCanonical at h
  split at h
  next => cases h
  next parsed accepted haccepted =>
    split at h
    next => cases h
    next found hfound =>
      cases h
      exact ⟨⟨parsed, haccepted⟩, hfound⟩

theorem openSeal_eq_ok {recipient : world.Secret} {raw : List UInt8}
    {layers : OpenedSeal} (h : openSeal world recipient raw = .ok layers) :
    oneRecipient layers.outer.fields.tags = .ok (world.publicKey recipient) ∧
      verifySigned world layers.sealed = .ok layers.sender ∧
      layers.sealed.fields.kind = sealKind := by
  simp only [openSeal, bind_eq_ok, require_eq_ok, exists_const,
    decide_eq_true_eq] at h
  obtain ⟨-, outer, -, outerPublic, -, -, addressee, haddressed, rfl, _, -, _,
    -, _, -, sealed, -, sender, hsender, ⟨hkind, -⟩, h⟩ := h
  cases h
  exact ⟨haddressed, hsender, hkind⟩

theorem openRumor_eq_ok {recipient : world.Secret} {layers : OpenedSeal}
    {rumor : UnsignedEventWire}
    (h : openRumor world recipient layers = .ok rumor) :
    decodeHexText 32 rumor.fields.pubkey = .ok layers.sender ∧
      ∃ plaintext, Nip44.decrypt world.toCiphers
        layers.sealed.fields.content.1
        (world.sharedKey recipient layers.sender) = .ok plaintext := by
  simp only [openRumor, bind_eq_ok, require_eq_ok, exists_const,
    decide_eq_true_eq, conversationKey_eq_ok] at h
  obtain ⟨_, ⟨-, rfl⟩, plaintext, hdecrypted, _, -, found, -, _, -, -, author,
    hauthor, rfl, _, -, -, h⟩ := h
  cases h
  exact ⟨hauthor, plaintext, hdecrypted⟩

theorem openEnvelope_eq_ok {recipient : world.Secret} {raw : List UInt8}
    {opened : OpenedEnvelope}
    (h : openEnvelope world recipient raw = .ok opened) :
    ∃ layers rumor envelope event,
      Agreement world recipient raw opened layers rumor envelope event := by
  simp only [openEnvelope, bind_eq_ok, require_eq_ok, exists_const,
    decide_eq_true_eq, strictJson_eq_ok, Prod.exists] at h
  obtain ⟨layers, hlayers, rumor, hrumor, envelope, henvelope, -, event, origin,
    hcanonical, canonicalId, hid, rfl, originId, horigin, rfl, hsigner,
    wrapperId, -, h⟩ := h
  cases h
  obtain ⟨haccepted, hsupported⟩ := decodeCanonical_eq_ok hcanonical
  obtain ⟨haddressed, hsender, -⟩ := openSeal_eq_ok hlayers
  obtain ⟨hauthor, -⟩ := openRumor_eq_ok hrumor
  exact ⟨layers, rumor, envelope, event, hlayers, haddressed, hrumor, hsender,
    hauthor, hsigner, henvelope, rfl, haccepted, hsupported, horigin, hid, rfl⟩

end Laws

/-- What the holder of a key signs: canonical events, authentication events
and the seals of facts. -/
inductive Signing (world : World) (secret : world.Secret) where
  | canonical (fields : EventFields)
      (kind_eq : fields.kind = UInt16.ofNat SignedEvent.hqEventKind)
  | authentication (input : AuthInput) (auxiliary : FixedBytes 32)
      (wire : SignedEventWire)
      (signed : authenticationEvent world secret input auxiliary = .ok wire)
  | sealed (fact : VerifiedSemanticFact world) (recipient : FixedBytes 32)
      (now : UInt64) (random rest : List (FixedBytes 32))
      (wire : SignedEventWire)
      (signed : sealFact world secret fact recipient now random =
        .ok (wire, rest))

def Signing.fields {world : World} {secret : world.Secret} :
    Signing world secret → EventFields
  | .canonical fields _ => fields
  | .authentication _ _ wire _ => wire.fields
  | .sealed _ _ _ _ _ wire _ => wire.fields

/-- Ideal primitives around the key of a sender: a signature verifies only over
a digest that the sender signed, no other text has the digest of what was
signed, and both the authentication keys of different conversations and the
secrets shared with different peers are different. -/
structure Ideal (world : World) (sender : world.Secret)
    (log : List (Signing world sender)) : Prop where
  unforged : ∀ message signature, world.verifyPrehash (world.publicKey sender)
    message signature = true →
      ∃ signing ∈ log, eventId world signing.fields = message
  unique : ∀ signing ∈ log, ∀ preimage,
    world.sha256 preimage = eventId world signing.fields →
      preimage = world.writePreimage signing.fields
  keyed : Nip44.KeyedApart world.toCiphers
  secret : Function.Injective (world.sharedKey sender)

section Authenticity

variable {world : World}

/-- The seal of an opened wrapper is one that its sender made for the
recipient. -/
theorem sealed_of_openEnvelope {sender recipient : world.Secret}
    {log : List (Signing world sender)} {raw : List UInt8}
    {opened : OpenedEnvelope} (hideal : Ideal world sender log)
    (hopened : openEnvelope world recipient raw = .ok opened)
    (hsender : opened.metadata.senderPublicKey = world.publicKey sender) :
    ∃ fact now random rest wire signed,
      Signing.sealed fact (world.publicKey recipient) now random rest wire
        signed ∈ log ∧ opened.canonicalEvent = fact.event.raw := by
  obtain ⟨layers, rumor, envelope, event, h⟩ := openEnvelope_eq_ok hopened
  obtain ⟨-, hverified, hkind⟩ := openSeal_eq_ok h.seal_opened
  obtain ⟨-, plaintext, hdecrypted⟩ := openRumor_eq_ok h.rumor_opened
  have hfrom : layers.sender = world.publicKey sender := by
    rw [h.seal_signer, hsender] at hverified
    exact (Except.ok.inj hverified).symm
  rw [hfrom] at hverified
  -- The digest that verifies is the one of a signed event, so its fields are.
  obtain ⟨signature, hsignature⟩ := verifySigned_eq_ok hverified
  obtain ⟨signing, hmem, hdigest⟩ := hideal.unforged _ _ hsignature
  have hfields : signing.fields = layers.sealed.fields :=
    world.writePreimage_injective
      (hideal.unique signing hmem _ hdigest.symm).symm
  rw [← hfields] at hkind
  cases signing with
  | canonical fields kind_eq =>
      have hkinds : UInt16.ofNat SignedEvent.hqEventKind ≠ sealKind := by decide
      exact absurd (kind_eq.symm.trans hkind) hkinds
  | authentication input auxiliary wire signed =>
      simp only [authenticationEvent, bind_eq_ok] at signed
      obtain ⟨_, -, _, -, hsigned⟩ := signed
      have hwire : wire.fields.kind = clientAuthKind := by
        rw [(signEvent_eq_ok hsigned).1]
      have hkinds : clientAuthKind ≠ sealKind := by decide
      exact absurd (hwire.symm.trans hkind) hkinds
  | sealed fact other now random rest wire signed =>
      change wire.fields = layers.sealed.fields at hfields
      rw [← hfields, hfrom, world.sharedKey_symm] at hdecrypted
      obtain ⟨sealedEnvelope, hseals⟩ := sealFact_eq_ok signed
      -- The recipient's key opens the seal, so it was made for the recipient.
      obtain ⟨nonce, hcipher⟩ := hseals.content
      obtain rfl : other = world.publicKey recipient :=
        hideal.secret (hideal.keyed.eq_of_decrypt
          (encryptText_eq_ok hcipher).1 hdecrypted)
      have hrumor := openRumor_of_seals hseals hfrom
        (congrArg EventFields.content hfields.symm)
      rw [h.rumor_opened] at hrumor
      obtain rfl := Except.ok.inj hrumor
      obtain ⟨hraw, -, -, -, -, hparsed⟩ := envelopeOf_eq_ok hseals.envelope_eq
      have henvelope := h.envelope_parsed
      rw [show (rumorOf world sender fact (world.publicKey recipient)
        sealedEnvelope).fields.content = world.writeEnvelope sealedEnvelope
        from rfl, hparsed] at henvelope
      obtain rfl := Option.some.inj henvelope
      exact ⟨fact, now, random, rest, wire, signed, hmem,
        h.canonical.trans hraw⟩

end Authenticity

/-! A world with plain texts, in which one key signed an authentication. -/

section Sample

open TextCodec (number)

def fieldsCodec : TextCodec EventFields :=
  (TextCodec.text.pair (number.pair (number.pair
    (TextCodec.text.list.list.pair TextCodec.text)))).comap
    (fun fields => (fields.pubkey, fields.createdAt.toNat, fields.kind.toNat,
      fields.tags, fields.content))
    (fun (pubkey, createdAt, kind, tags, content) =>
      some ⟨pubkey, .ofNat createdAt, .ofNat kind, tags, content⟩)
    (by simp)

def signedCodec : TextCodec SignedEventWire :=
  (TextCodec.text.pair (fieldsCodec.pair TextCodec.text)).comap
    (fun wire => (wire.id, wire.fields, wire.sig))
    (fun (id, fields, sig) => some ⟨id, fields, sig⟩) fun _ => rfl

def unsignedCodec : TextCodec UnsignedEventWire :=
  (TextCodec.text.pair fieldsCodec).comap (fun wire => (wire.id, wire.fields))
    (fun (id, fields) => some ⟨id, fields⟩) fun _ => rfl

def envelopeCodec : TextCodec EnvelopeWire :=
  (number.pair TextCodec.text.list).comap
    (fun wire => (wire.schema.toNat, [wire.envelopeType,
      wire.originInstallationId, wire.canonicalEventId, wire.canonicalEvent]))
    (fun (schema, texts) =>
      match texts with
      | [kind, origin, id, event] => some ⟨.ofNat schema, kind, origin, id, event⟩
      | _ => none)
    (by simp)

def plainSerde : Serde where
  writePreimage := fieldsCodec.write
  writeSigned := signedCodec.encode
  parseSigned := signedCodec.decode
  writeUnsigned := unsignedCodec.encode
  parseUnsigned := unsignedCodec.decode
  writeEnvelope := envelopeCodec.encode
  parseEnvelope := envelopeCodec.decode
  rawValue := some
  writePreimage_injective := fieldsCodec.write_injective
  parse_writeSigned := signedCodec.decode_encode
  parse_writeUnsigned := unsignedCodec.decode_encode
  parse_writeEnvelope wire _ := envelopeCodec.decode_encode wire
  rawValue_object _ _ _ _ h := (Option.some.inj h).symm

/-- A key or a digest of one repeated byte. -/
def repeated (byte : UInt8) : FixedBytes 32 :=
  ⟨List.replicate 32 byte, List.length_replicate⟩

def sampleInput : AuthInput := ⟨text "wss://relay", text "challenge", 0⟩

def sampleFields : EventFields :=
  ⟨hex (repeated 0), 0, clientAuthKind,
    [[text "relay", sampleInput.relayUrl],
      [text "challenge", sampleInput.challenge]], text ""⟩

def plainCiphers : Nip44.Ciphers where
  hmac key _ := (key ++ List.replicate 32 0).take 32
  length_hmac := by simp
  keystream _ _ _ := 0

/-- The first key signs the sample alone, the second one everything. -/
def plainWorld : World :=
  { plainSerde, plainCiphers with
    sha256 := fun bytes => repeated (if bytes = fieldsCodec.write sampleFields
      then 1 else 0)
    validKey := fun _ => true
    validSignature := fun _ => true
    verifyPrehash := fun key message _ => key ≠ repeated 0 ∨ message = repeated 1
    Secret := Bool
    secretOf := fun _ => some true
    publicKey := fun second => repeated (if second then 1 else 0)
    signRaw := fun second message _ =>
      if second ∨ message = repeated 1 then
        some ⟨List.replicate 64 0, List.length_replicate⟩
      else none
    sharedKey := fun second peer =>
      if second then Equiv.swap (repeated 0) (repeated 1) peer else peer
    originOf := fun event => some event.publicKey
    validKey_publicKey := fun _ => rfl
    signRaw_valid := by
      intro second message auxiliary signature h
      refine ⟨rfl, ?_⟩
      split at h
      next hsigns =>
        cases second with
        | false => simpa using hsigns
        | true => simp [repeated]
      next => cases h
    sharedKey_symm := by
      intro left right
      cases left <;> cases right <;> simp }

theorem keyedApart_plainCiphers : Nip44.KeyedApart plainCiphers := by
  intro left right nonce message h
  have hexpand (key : FixedBytes 32) :
      (Nip44.expandKeys plainCiphers key nonce).drop 44 =
        key.1.drop 12 ++ key.1.take 12 := by
    have hwhole (n : Nat) (h : 32 ≤ n) : key.1.take n = key.1 :=
      List.take_of_length_le (key.2.trans_le h)
    have hpast : key.1.drop 44 = [] := List.drop_eq_nil_of_le (by simp [key.2])
    simp [Nip44.expandKeys, plainCiphers, key.2, List.drop_append,
      hwhole 76 (by decide), hwhole 44 (by decide), hpast]
  simp only [hexpand] at h
  simp only [plainCiphers] at h
  have hlength (key : FixedBytes 32) :
      (key.1.drop 12 ++ key.1.take 12).length = 32 := by simp [key.2]
  rw [List.take_left' (hlength left), List.take_left' (hlength right)] at h
  obtain ⟨hdrop, htake⟩ := List.append_inj h (by simp [left.2, right.2])
  apply Subtype.ext
  rw [← List.take_append_drop 12 left.1, htake, hdrop, List.take_append_drop]

/-- The authentication event that the first key signed. -/
def sampleWire : SignedEventWire :=
  ⟨hex (repeated 1), sampleFields, hex ⟨List.replicate 64 0,
    @List.length_replicate _ 64 (0 : UInt8)⟩⟩

theorem authenticationEvent_sample :
    authenticationEvent plainWorld false sampleInput (repeated 0) =
      .ok sampleWire := by
  decide +kernel

theorem ideal_plainWorld : Ideal plainWorld false
    [.authentication sampleInput (repeated 0) sampleWire
      authenticationEvent_sample] := by
  have hdigest : eventId plainWorld sampleFields = repeated 1 := by
    simp [eventId, plainWorld, plainSerde]
  refine ⟨?_, ?_, keyedApart_plainCiphers, fun _ _ h => h⟩
  · intro message signature hverified
    refine ⟨_, List.mem_singleton_self _, ?_⟩
    have hmessage : message = repeated 1 := by
      simpa [plainWorld] using hverified
    rw [hmessage]
    exact hdigest
  · intro signing hmem preimage hequal
    obtain rfl := List.mem_singleton.1 hmem
    have hone : plainWorld.sha256 preimage = repeated 1 := hequal.trans hdigest
    by_contra hother
    have hzero : plainWorld.sha256 preimage = repeated 0 :=
      congrArg repeated (if_neg hother)
    exact absurd (hzero.symm.trans hone) (by decide)

end Sample

end Hq.Envelope
