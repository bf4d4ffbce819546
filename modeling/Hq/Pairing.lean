/-
Pairing invitations: the signed evidence of one device grant, its traversal
from the grant along declared parents, and the one spelling of the artifact.
-/
import Hq.Fact
import Hq.SignedEvent
import Hq.TextCodec

namespace Hq.Pairing

open SignedEvent (EventCrypto CryptographicallyVerifiedEvent acceptEvent)

def maxPairingInvitationBytes : Nat := 1048576
def maxPairingInvitationFacts : Nat := 64

inductive PairingInvitationError where
  | tooLarge | malformed | nonCanonical | invalidEvidence | invalidGrant
  | incompleteEvidence | extraneousEvidence
deriving DecidableEq

structure PairingGrant where
  factId : FactId
  accountId : AccountId
  grantId : GrantId
  device : InstallationAddress
  label : Option ShortText
  relayHints : RelayHints
deriving DecidableEq

/-- A fact with the exact signed event it was decoded from. -/
structure VerifiedSemanticFact where
  exactEvent : List UInt8
  fact : Fact
deriving DecidableEq

structure RawInvitation where
  schema : Utf8Text
  grantFact : Utf8Text
  facts : List Utf8Text
deriving DecidableEq

structure VerifiedPairingInvitation where
  canonicalBytes : List UInt8
  grant : PairingGrant
  facts : OrderedMap FactId VerifiedSemanticFact
deriving DecidableEq

/-- Verification of events, the reading of their content, and the JSON text of
an invitation. -/
structure Protocol extends EventCrypto where
  semantic : CryptographicallyVerifiedEvent → Option Fact
  writeInvitation : RawInvitation → List UInt8
  parseInvitation : List UInt8 → Option RawInvitation
  parse_writeInvitation : ∀ raw, parseInvitation (writeInvitation raw) = some raw

def factIdBytes (id : FactId) : FixedBytes 32 :=
  ⟨bigEndian 32 id.value.val, length_bigEndian _ _⟩

def factIdOfBytes (bytes : FixedBytes 32) : FactId :=
  ⟨fromBigEndian bytes.1, by
    have := fromBigEndian_lt bytes.1
    rwa [bytes.2, show 256 ^ 32 = 2 ^ 256 by decide] at this⟩

def encodeHexText (bytes : FixedBytes 32) : Utf8Text :=
  ⟨encodeHex bytes.1, SignedEvent.isText_encodeHex bytes.1⟩

def decodeHex32 (value : Utf8Text) : Option (FixedBytes 32) :=
  (decodeHex value.1).bind fun bytes =>
    if h : bytes.length = 32 then some ⟨bytes, h⟩ else none

def pairingInvitationV1 : Utf8Text :=
  ⟨SignedEvent.literal "hq-human-pairing-invitation-v1",
    SignedEvent.isText_literal _⟩

variable {facts : OrderedMap FactId VerifiedSemanticFact}
  {verified : VerifiedSemanticFact} {events : List (List UInt8)}
  {invitation : VerifiedPairingInvitation} {grantFact : FactId}
  {visited : OrderedSet FactId} {texts : List Utf8Text}

section Validation

variable (protocol : Protocol)

def decodeSemanticEvent (exactEvent : List UInt8) :
    Option VerifiedSemanticFact :=
  match acceptEvent protocol.toEventCrypto exactEvent with
  | .error _ => none
  | .ok (_, event) => (protocol.semantic event).map fun fact =>
      ⟨event.raw, { fact with id := factIdOfBytes event.eventId }⟩

/-- Files one event under its fact.  A fact of the control namespace and a
second event of a fact are refused. -/
def admitEvent (facts : OrderedMap FactId VerifiedSemanticFact)
    (event : List UInt8) : Except PairingInvitationError
      (OrderedMap FactId VerifiedSemanticFact) :=
  match decodeSemanticEvent protocol event with
  | none => .error .invalidEvidence
  | some verified =>
      if verified.fact.payload.isRemoteControl ||
          facts.contains verified.fact.id then .error .invalidEvidence
      else .ok (facts.insert verified.fact.id verified)

def grantOf (id : FactId) (payload : SemanticPayload) :
    Except PairingInvitationError PairingGrant :=
  match payload with
  | .humanDeviceGranted accountId grantId device label relayHints =>
      .ok ⟨id, accountId, grantId, device, label, relayHints⟩
  | _ => .error .invalidGrant

/-- Facts that a traversal has not met. -/
def unvisited (facts : OrderedMap FactId VerifiedSemanticFact)
    (visited : OrderedSet FactId) : Nat :=
  (facts.entries.filter fun entry => entry.1 ∉ visited).length

theorem unvisited_insert_lt {current : FactId}
    (hfound : facts.get? current = some verified) (hnew : current ∉ visited) :
    unvisited facts (visited.insert current) < unvisited facts visited := by
  have hfilter : (facts.entries.filter fun entry =>
      entry.1 ∉ visited.insert current) =
        (facts.entries.filter fun entry => entry.1 ∉ visited).filter
          fun entry => entry.1 ≠ current := by
    rw [List.filter_filter]
    congr 1
    funext entry
    simp [OrderedSet.mem_insert]
  rw [unvisited, unvisited, hfilter, List.length_filter_lt_length_iff_exists]
  refine ⟨(current, verified), List.mem_filter.2 ⟨?_, by simpa using hnew⟩,
    by simp⟩
  exact OrderedMap.get?_eq_some_iff.1 hfound

/-- The traversal from the grant: the last pushed fact is taken first. -/
def traverse (facts : OrderedMap FactId VerifiedSemanticFact)
    (visited : OrderedSet FactId) :
    List FactId → Except PairingInvitationError (OrderedSet FactId)
  | [] => .ok visited
  | current :: pending =>
      if hseen : current ∈ visited then traverse facts visited pending
      else match hfound : facts.get? current with
        | none => .error .incompleteEvidence
        | some verified =>
            have := unvisited_insert_lt hfound hseen
            traverse facts (visited.insert current)
              (verified.fact.causal.parents.toList.reverse ++ pending)
termination_by pending => (unvisited facts visited, pending.length)

def exactText (verified : VerifiedSemanticFact) :
    Except PairingInvitationError Utf8Text :=
  if h : isText verified.exactEvent = true then .ok ⟨verified.exactEvent, h⟩
  else .error .invalidEvidence

def validate (grantFact : FactId) (events : List (List UInt8)) :
    Except PairingInvitationError VerifiedPairingInvitation := do
  require (events ≠ [] ∧ events.length ≤ maxPairingInvitationFacts) .tooLarge
  let facts ← events.foldlM (admitEvent protocol) ∅
  match facts.get? grantFact with
  | none => .error .invalidGrant
  | some root =>
      let grant ← grantOf grantFact root.fact.payload
      let visited ← traverse facts ∅ [grantFact]
      require (visited.size = facts.size) .extraneousEvidence
      let texts ← facts.values.mapM exactText
      let canonicalBytes := protocol.writeInvitation ⟨pairingInvitationV1,
        encodeHexText (factIdBytes grantFact), texts⟩
      require (canonicalBytes.length ≤ maxPairingInvitationBytes) .tooLarge
      return ⟨canonicalBytes, grant, facts⟩

def fromEvidence (grantFact : FactId) (events : List (List UInt8)) :
    Except PairingInvitationError VerifiedPairingInvitation :=
  validate protocol grantFact events

def decode (bytes : List UInt8) :
    Except PairingInvitationError VerifiedPairingInvitation := do
  require (bytes.length ≤ maxPairingInvitationBytes) .tooLarge
  match protocol.parseInvitation bytes with
  | none => .error .malformed
  | some raw =>
      require (raw.schema = pairingInvitationV1) .malformed
      match decodeHex32 raw.grantFact with
      | none => .error .malformed
      | some grantFact =>
          let invitation ← validate protocol (factIdOfBytes grantFact)
            (raw.facts.map Subtype.val)
          require (invitation.canonicalBytes = bytes) .nonCanonical
          return invitation

end Validation

/-! The traversal. -/

/-- A retained fact declares a parent. -/
def Cites (facts : OrderedMap FactId VerifiedSemanticFact)
    (child parent : FactId) : Prop :=
  ∃ verified, facts.get? child = some verified ∧
    parent ∈ verified.fact.causal.parents

/-- The facts are the ancestors of the grant, the grant included. -/
def ExactClosure (facts : OrderedMap FactId VerifiedSemanticFact)
    (grantFact : FactId) : Prop :=
  ∀ id, facts.contains id = true ↔
    Relation.ReflTransGen (Cites facts) grantFact id

theorem ExactClosure.parent_mem
    {id parent : FactId} (h : ExactClosure facts grantFact)
    (hcites : Cites facts id parent) : facts.contains parent = true := by
  obtain ⟨verified, hfound, hparent⟩ := hcites
  have hid : facts.contains id = true := by simp [OrderedMap.contains, hfound]
  exact (h parent).2 (((h id).1 hid).tail ⟨verified, hfound, hparent⟩)

section Traversal

variable {facts : OrderedMap FactId VerifiedSemanticFact}

/-- What a traversal that ends has met: its starting points, closed under
parents, and nothing that is not reached from them. -/
theorem traverse_eq_ok {result : OrderedSet FactId}
    {pending : List FactId}
    (h : traverse facts visited pending = .ok result)
    (hknown : ∀ id ∈ visited, facts.contains id = true)
    (hclosed : ∀ id ∈ visited, ∀ parent, Cites facts id parent →
      parent ∈ visited ∨ parent ∈ pending) :
    (∀ id, id ∈ visited ∨ id ∈ pending → id ∈ result) ∧
      (∀ id ∈ result, facts.contains id = true ∧
        ∀ parent, Cites facts id parent → parent ∈ result) ∧
      (∀ id ∈ result, id ∈ visited ∨
        ∃ start ∈ pending, Relation.ReflTransGen (Cites facts) start id) := by
  fun_induction traverse facts visited pending with
  | case1 visited =>
      cases h
      refine ⟨?_, ?_, ?_⟩
      · rintro id (hid | hid)
        · exact hid
        · cases hid
      · intro id hid
        refine ⟨hknown id hid, fun parent hcites => ?_⟩
        exact (hclosed id hid parent hcites).resolve_right List.not_mem_nil
      · exact fun id hid => .inl hid
  | case2 visited current pending hseen ih =>
      obtain ⟨hmet, hresult, hfrom⟩ := ih h hknown (by
        intro id hid parent hcites
        rcases hclosed id hid parent hcites with hvisited | hpending
        · exact .inl hvisited
        · rcases List.mem_cons.1 hpending with rfl | hpending
          · exact .inl hseen
          · exact .inr hpending)
      refine ⟨?_, hresult, ?_⟩
      · rintro id (hid | hid)
        · exact hmet id (.inl hid)
        · rcases List.mem_cons.1 hid with rfl | hid
          · exact hmet id (.inl hseen)
          · exact hmet id (.inr hid)
      · intro id hid
        rcases hfrom id hid with hvisited | ⟨start, hstart, hpath⟩
        · exact .inl hvisited
        · exact .inr ⟨start, List.mem_cons_of_mem current hstart, hpath⟩
  | case3 => cases h
  | case4 visited current pending hseen verified hfound _ ih =>
      have hparents (parent : FactId) : Cites facts current parent ↔
          parent ∈ verified.fact.causal.parents := by
        constructor
        · rintro ⟨other, hother, hparent⟩
          cases hfound.symm.trans hother
          exact hparent
        · exact fun hparent => ⟨verified, hfound, hparent⟩
      obtain ⟨hmet, hresult, hfrom⟩ := ih h (by
        intro id hid
        rcases OrderedSet.mem_insert.1 hid with rfl | hid
        · simp [OrderedMap.contains, hfound]
        · exact hknown id hid) (by
        intro id hid parent hcites
        rcases OrderedSet.mem_insert.1 hid with rfl | hid
        · exact .inr (List.mem_append_left _
            (List.mem_reverse.2 ((hparents parent).1 hcites)))
        · rcases hclosed id hid parent hcites with hvisited | hpending
          · exact .inl (OrderedSet.mem_insert.2 (.inr hvisited))
          · rcases List.mem_cons.1 hpending with rfl | hpending
            · exact .inl (OrderedSet.mem_insert.2 (.inl rfl))
            · exact .inr (List.mem_append_right _ hpending))
      refine ⟨?_, hresult, ?_⟩
      · rintro id (hid | hid)
        · exact hmet id (.inl (OrderedSet.mem_insert.2 (.inr hid)))
        · rcases List.mem_cons.1 hid with rfl | hid
          · exact hmet id (.inl (OrderedSet.mem_insert.2 (.inl rfl)))
          · exact hmet id (.inr (List.mem_append_right _ hid))
      · intro id hid
        rcases hfrom id hid with hvisited | ⟨start, hstart, hpath⟩
        · rcases OrderedSet.mem_insert.1 hvisited with rfl | hvisited
          · exact .inr ⟨id, List.mem_cons_self, .refl⟩
          · exact .inl hvisited
        · rcases List.mem_append.1 hstart with hparent | hpending
          · exact .inr ⟨current, List.mem_cons_self,
              .head ((hparents start).2 (List.mem_reverse.1 hparent)) hpath⟩
          · exact .inr ⟨start, List.mem_cons_of_mem current hpending, hpath⟩

theorem traverse_ok {pending : List FactId}
    (hreached : ∀ start ∈ pending, ∀ id,
      Relation.ReflTransGen (Cites facts) start id →
        facts.contains id = true) :
    ∃ result, traverse facts visited pending = .ok result := by
  fun_induction traverse facts visited pending with
  | case1 visited => exact ⟨visited, rfl⟩
  | case2 visited current pending hseen ih =>
      exact ih fun start hstart =>
        hreached start (List.mem_cons_of_mem current hstart)
  | case3 visited current pending hseen hmissing =>
      have hknown := hreached current List.mem_cons_self current .refl
      rw [OrderedMap.contains, hmissing] at hknown
      cases hknown
  | case4 visited current pending hseen verified hfound _ ih =>
      refine ih fun start hstart id hpath => ?_
      rcases List.mem_append.1 hstart with hparent | hpending
      · exact hreached current List.mem_cons_self id
          (.head ⟨verified, hfound, List.mem_reverse.1 hparent⟩ hpath)
      · exact hreached start (List.mem_cons_of_mem current hpending) id hpath

theorem size_keys : facts.keys.size = facts.size :=
  List.length_map _

theorem eq_of_subset_of_size {left right : OrderedSet FactId}
    (hsubset : ∀ id ∈ left, id ∈ right) (hsize : left.size = right.size) :
    left = right := by
  have hnodup : left.toList.Nodup := left.sorted.imp ne_of_lt
  have hperm := (hnodup.subperm hsubset).perm_of_length_le hsize.ge
  ext id
  exact hperm.mem_iff

/-- The traversal meets every fact exactly when the facts are the closure of
the grant. -/
theorem traverse_all_iff :
    (∃ visited, traverse facts ∅ [grantFact] = .ok visited ∧
      visited.size = facts.size) ↔ ExactClosure facts grantFact := by
  constructor
  · rintro ⟨visited, hvisited, hsize⟩
    obtain ⟨hmet, hresult, hfrom⟩ := traverse_eq_ok hvisited
      (fun id hid => absurd hid (OrderedSet.not_mem_empty id))
      fun id hid => absurd hid (OrderedSet.not_mem_empty id)
    have hall : visited = facts.keys := by
      refine eq_of_subset_of_size (fun id hid => ?_) (hsize.trans size_keys.symm)
      exact OrderedMap.mem_keys.2 (hresult id hid).1
    intro id
    rw [OrderedMap.contains, ← OrderedMap.mem_keys, ← hall]
    constructor
    · intro hid
      rcases hfrom id hid with hempty | ⟨start, hstart, hpath⟩
      · exact absurd hempty (OrderedSet.not_mem_empty id)
      · rwa [List.mem_singleton.1 hstart] at hpath
    · intro hpath
      induction hpath with
      | refl => exact hmet grantFact (.inr (List.mem_singleton.2 rfl))
      | tail _ hcites ih => exact (hresult _ ih).2 _ hcites
  · intro h
    obtain ⟨visited, hvisited⟩ : ∃ visited,
        traverse facts ∅ [grantFact] = .ok visited := by
      refine traverse_ok fun start hstart id hpath => ?_
      rw [List.mem_singleton.1 hstart] at hpath
      exact (h id).2 hpath
    obtain ⟨hmet, hresult, hfrom⟩ := traverse_eq_ok hvisited
      (fun id hid => absurd hid (OrderedSet.not_mem_empty id))
      fun id hid => absurd hid (OrderedSet.not_mem_empty id)
    refine ⟨visited, hvisited, ?_⟩
    rw [← size_keys]
    congr 1
    ext id
    rw [OrderedMap.mem_keys]
    constructor
    · exact fun hid => (hresult id hid).1
    · intro hknown
      have hpath := (h id).1 hknown
      induction hpath with
      | refl => exact hmet grantFact (.inr (List.mem_singleton.2 rfl))
      | tail hpath hcites ih =>
          exact (hresult _ (ih ((h _).2 hpath))).2 _ hcites

end Traversal

/-! The evidence. -/

section Evidence

variable {protocol : Protocol}

theorem decodeSemanticEvent_eq_some {event : List UInt8}
    (h : decodeSemanticEvent protocol event = some verified) :
    verified.exactEvent = event ∧ isText event = true := by
  unfold decodeSemanticEvent at h
  split at h
  next => cases h
  next parsed accepted haccepted =>
    obtain ⟨fact, -, rfl⟩ := Option.map_eq_some_iff.1 h
    obtain ⟨hraw, -, hframed, hverified⟩ := SignedEvent.acceptEvent_eq_ok haccepted
    have hevent : accepted.raw = event := by rw [hverified.event_eq, hraw]
    exact ⟨hevent, hraw ▸ hframed.text⟩

/-- The facts of some events, filed under their identities. -/
def factsOf (decoded : List VerifiedSemanticFact)
    (facts : OrderedMap FactId VerifiedSemanticFact) :
    OrderedMap FactId VerifiedSemanticFact :=
  decoded.foldl (fun facts verified => facts.insert verified.fact.id verified)
    facts

theorem foldlM_admit_eq_ok_iff
    {start : OrderedMap FactId VerifiedSemanticFact} :
    events.foldlM (admitEvent protocol) start = .ok facts ↔
      ∃ decoded : List VerifiedSemanticFact,
        events.map (decodeSemanticEvent protocol) = decoded.map some ∧
        (∀ verified ∈ decoded,
          verified.fact.payload.isRemoteControl = false ∧
            start.contains verified.fact.id = false) ∧
        (decoded.map (·.fact.id)).Nodup ∧ factsOf decoded start = facts := by
  induction events generalizing start with
  | nil =>
      rw [List.foldlM_nil]
      constructor
      · intro h
        cases h
        exact ⟨[], rfl, fun _ hmem => absurd hmem List.not_mem_nil,
          List.nodup_nil, rfl⟩
      · rintro ⟨decoded, hdecoded, -, -, rfl⟩
        obtain rfl : decoded = [] := by simpa using hdecoded.symm
        rfl
  | cons event events ih =>
      rw [List.foldlM_cons, bind_eq_ok]
      constructor
      · rintro ⟨next, hadmit, hrest⟩
        obtain ⟨decoded, hdecoded, hnew, hnodup, rfl⟩ := ih.1 hrest
        unfold admitEvent at hadmit
        split at hadmit
        next => cases hadmit
        next verified hverified =>
          split at hadmit
          next => cases hadmit
          next hadmitted =>
            obtain ⟨hcanonical, hfresh⟩ : verified.fact.payload.isRemoteControl =
                false ∧ start.contains verified.fact.id = false := by
              simpa using hadmitted
            cases hadmit
            refine ⟨verified :: decoded, ?_, ?_, ?_, rfl⟩
            · rw [List.map_cons, List.map_cons, hverified, hdecoded]
            · intro other hmem
              rcases List.mem_cons.1 hmem with rfl | hother
              · exact ⟨hcanonical, hfresh⟩
              · obtain ⟨hplain, habsent⟩ := hnew other hother
                refine ⟨hplain, ?_⟩
                rw [Bool.eq_false_iff] at habsent ⊢
                exact fun hmem =>
                  habsent (OrderedMap.contains_insert.2 (.inr hmem))
            · rw [List.map_cons, List.nodup_cons]
              refine ⟨fun hmem => ?_, hnodup⟩
              obtain ⟨other, hother, heq⟩ := List.mem_map.1 hmem
              have habsent := (hnew other hother).2
              rw [Bool.eq_false_iff] at habsent
              exact habsent (OrderedMap.contains_insert.2 (.inl heq))
      · rintro ⟨decoded, hdecoded, hnew, hnodup, rfl⟩
        obtain ⟨verified, decoded, rfl⟩ : ∃ first rest,
            decoded = first :: rest := by
          cases decoded with
          | nil => cases hdecoded
          | cons first rest => exact ⟨first, rest, rfl⟩
        rw [List.map_cons, List.map_cons, List.cons.injEq] at hdecoded
        rw [List.map_cons, List.nodup_cons] at hnodup
        obtain ⟨hcanonical, hfresh⟩ := hnew verified List.mem_cons_self
        refine ⟨start.insert verified.fact.id verified, ?_, ih.2
          ⟨decoded, hdecoded.2, ?_, hnodup.2, rfl⟩⟩
        · simp [admitEvent, hdecoded.1, hcanonical, hfresh]
        · intro other hother
          obtain ⟨hplain, habsent⟩ :=
            hnew other (List.mem_cons_of_mem verified hother)
          refine ⟨hplain, ?_⟩
          rw [Bool.eq_false_iff] at habsent ⊢
          intro hmem
          rcases OrderedMap.contains_insert.1 hmem with heq | hmem
          · exact hnodup.1 (heq ▸ List.mem_map_of_mem hother)
          · exact habsent hmem

theorem get?_factsOf {decoded : List VerifiedSemanticFact}
    (hnodup : (decoded.map (·.fact.id)).Nodup) {id : FactId} :
    (factsOf decoded ∅).get? id = some verified ↔
      verified ∈ decoded ∧ verified.fact.id = id := by
  have hlisted : factsOf decoded ∅ = OrderedMap.ofList
      (decoded.map fun verified => (verified.fact.id, verified)) := by
    rw [factsOf, OrderedMap.ofList, List.foldl_map]
  rw [hlisted]
  constructor
  · intro h
    obtain ⟨other, hother, heq⟩ :=
      List.mem_map.1 (OrderedMap.mem_of_get?_ofList h)
    cases heq
    exact ⟨hother, rfl⟩
  · rintro ⟨hmem, rfl⟩
    refine OrderedMap.get?_ofList_of_unique
      (List.mem_map.2 ⟨verified, hmem, rfl⟩) fun other hother => ?_
    obtain ⟨found, hfound, heq⟩ := List.mem_map.1 hother
    obtain ⟨hid, rfl⟩ := Prod.mk.inj heq
    exact List.inj_on_of_nodup_map hnodup hfound hmem hid

theorem exists_text {text : Utf8Text} :
    exactText verified = .ok text ↔ text.1 = verified.exactEvent := by
  unfold exactText
  split
  next htext =>
    rw [Except.ok.injEq, Subtype.ext_iff]
    exact eq_comm
  next htext =>
    refine iff_of_false (by simp) fun heq => htext ?_
    rw [← heq]
    exact text.2

theorem mapM_exactText {list : List VerifiedSemanticFact} :
    list.mapM exactText = .ok texts ↔
      texts.map Subtype.val = list.map (·.exactEvent) := by
  induction list generalizing texts with
  | nil =>
      rw [List.mapM_nil]
      constructor
      · intro h
        cases h
        rfl
      · intro h
        rw [List.map_eq_nil_iff.1 h]
        rfl
  | cons verified list ih =>
      rw [List.mapM_cons]
      simp only [bind_eq_ok, exists_text, ih]
      constructor
      · rintro ⟨text, htext, rest, hrest, h⟩
        cases h
        rw [List.map_cons, List.map_cons, htext, hrest]
      · intro h
        cases texts with
        | nil => cases h
        | cons text rest =>
            rw [List.map_cons, List.map_cons, List.cons.injEq] at h
            exact ⟨text, h.1, rest, h.2, rfl⟩

theorem decodeHex32_encodeHexText (bytes : FixedBytes 32) :
    decodeHex32 (encodeHexText bytes) = some bytes := by
  simp [decodeHex32, encodeHexText, decodeHex_encodeHex, bytes.2]

theorem factIdOfBytes_factIdBytes (id : FactId) :
    factIdOfBytes (factIdBytes id) = id := by
  obtain ⟨⟨value, hvalue⟩⟩ := id
  have hsmall : value < 256 ^ 32 := by
    rw [show 256 ^ 32 = 2 ^ 256 by norm_num]
    exact hvalue
  have hread := fromBigEndian_bigEndian hsmall
  simp only [factIdOfBytes, factIdBytes, hread]

/-- What an invitation is validated to: the closure of a device grant, each
fact decoded from its exact event, and the text of all of them. -/
structure Validates (protocol : Protocol) (grantFact : FactId)
    (events : List (List UInt8)) (invitation : VerifiedPairingInvitation)
    (decoded : List VerifiedSemanticFact) (texts : List Utf8Text) : Prop where
  decoded_eq : events.map (decodeSemanticEvent protocol) = decoded.map some
  canonical : ∀ verified ∈ decoded,
    verified.fact.payload.isRemoteControl = false
  distinct : (decoded.map (·.fact.id)).Nodup
  facts_eq : factsOf decoded ∅ = invitation.facts
  bounded : events ≠ [] ∧ events.length ≤ maxPairingInvitationFacts
  grant : ∃ root, invitation.facts.get? grantFact = some root ∧
    grantOf grantFact root.fact.payload = .ok invitation.grant
  closure : ExactClosure invitation.facts grantFact
  texts_eq : texts.map Subtype.val =
    invitation.facts.values.map (·.exactEvent)
  bytes_eq : protocol.writeInvitation ⟨pairingInvitationV1,
    encodeHexText (factIdBytes grantFact), texts⟩ = invitation.canonicalBytes
  short : invitation.canonicalBytes.length ≤ maxPairingInvitationBytes

theorem validate_eq_ok_iff :
    validate protocol grantFact events = .ok invitation ↔
      ∃ decoded texts,
        Validates protocol grantFact events invitation decoded texts := by
  simp only [validate, bind_eq_ok, require_eq_ok, exists_const,
    decide_eq_true_eq, foldlM_admit_eq_ok_iff]
  constructor
  · rintro ⟨hbounded, facts, ⟨decoded, hdecoded, hcanonical, hnodup, rfl⟩, h⟩
    split at h
    next => cases h
    next root hroot =>
      simp only [bind_eq_ok, require_eq_ok, exists_const, decide_eq_true_eq,
        mapM_exactText] at h
      obtain ⟨grant, hgrant, visited, hvisited, hsize, texts, htexts, hshort,
        h⟩ := h
      cases h
      exact ⟨decoded, texts, hdecoded, fun verified hmem =>
        (hcanonical verified hmem).1, hnodup, rfl, hbounded, ⟨root, hroot, hgrant⟩,
        traverse_all_iff.1 ⟨visited, hvisited, hsize⟩, htexts, rfl, hshort⟩
  · rintro ⟨decoded, texts, h⟩
    obtain ⟨root, hroot, hgrant⟩ := h.grant
    obtain ⟨visited, hvisited, hsize⟩ := traverse_all_iff.2 h.closure
    refine ⟨h.bounded, invitation.facts, ⟨decoded, h.decoded_eq,
      fun verified hmem => ⟨h.canonical verified hmem, rfl⟩, h.distinct,
      h.facts_eq⟩, ?_⟩
    simp only [hroot, bind_eq_ok, require_eq_ok, exists_const,
      decide_eq_true_eq, mapM_exactText]
    refine ⟨_, hgrant, visited, hvisited, hsize, texts, h.texts_eq, ?_, ?_⟩
    · rw [h.bytes_eq]
      exact h.short
    · rw [h.bytes_eq]
      rfl

/-- Facts filed under their identities, each decoded from its exact event. -/
structure Evidence (protocol : Protocol)
    (facts : OrderedMap FactId VerifiedSemanticFact) : Prop where
  keyed : ∀ id verified, facts.get? id = some verified → verified.fact.id = id
  verified : ∀ verified ∈ facts.values,
    decodeSemanticEvent protocol verified.exactEvent = some verified

theorem grantOf_factId {id : FactId} {payload : SemanticPayload}
    {grant : PairingGrant} (h : grantOf id payload = .ok grant) :
    grant.factId = id := by
  unfold grantOf at h
  split at h
  next =>
    cases h
    rfl
  next => cases h

theorem Validates.evidence {decoded : List VerifiedSemanticFact}
    (h : Validates protocol grantFact events invitation decoded texts) :
    Evidence protocol invitation.facts ∧
      ∀ verified ∈ invitation.facts.values,
        verified.fact.payload.isRemoteControl = false := by
  have hget {id : FactId} {verified : VerifiedSemanticFact} :
      invitation.facts.get? id = some verified ↔
        verified ∈ decoded ∧ verified.fact.id = id := by
    rw [← h.facts_eq]
    exact get?_factsOf h.distinct
  refine ⟨⟨fun id verified hfound => (hget.1 hfound).2, ?_⟩, ?_⟩
  · intro verified hmem
    obtain ⟨id, hfound⟩ := OrderedMap.mem_values.1 hmem
    have hsome : some verified ∈ decoded.map some :=
      List.mem_map_of_mem (hget.1 hfound).1
    rw [← h.decoded_eq] at hsome
    obtain ⟨event, -, hevent⟩ := List.mem_map.1 hsome
    rw [(decodeSemanticEvent_eq_some hevent).1]
    exact hevent
  · intro verified hmem
    obtain ⟨id, hfound⟩ := OrderedMap.mem_values.1 hmem
    exact h.canonical verified (hget.1 hfound).1

theorem map_decode_eq
    (h : ∀ event ∈ events, (decodeSemanticEvent protocol event).isSome = true) :
    events.map (decodeSemanticEvent protocol) =
      (events.filterMap (decodeSemanticEvent protocol)).map some := by
  induction events with
  | nil => rfl
  | cons event events ih =>
      obtain ⟨verified, hverified⟩ :=
        Option.isSome_iff_exists.1 (h event List.mem_cons_self)
      rw [List.map_cons, List.filterMap_cons_some hverified, List.map_cons,
        hverified, ih fun other hother => h other (List.mem_cons_of_mem _ hother)]

/-- The events of a closure are validated in any order. -/
theorem validates_of_closure
    {root : VerifiedSemanticFact} {grant : PairingGrant}
    (hevidence : Evidence protocol facts)
    (hcanonical : ∀ verified ∈ facts.values,
      verified.fact.payload.isRemoteControl = false)
    (hroot : facts.get? grantFact = some root)
    (hgrant : grantOf grantFact root.fact.payload = .ok grant)
    (hclosure : ExactClosure facts grantFact)
    (hsize : facts.size ≤ maxPairingInvitationFacts)
    (htexts : texts.map Subtype.val = facts.values.map (·.exactEvent))
    (hshort : (protocol.writeInvitation ⟨pairingInvitationV1,
      encodeHexText (factIdBytes grantFact), texts⟩).length ≤
        maxPairingInvitationBytes)
    (hperm : events.Perm (facts.values.map (·.exactEvent))) :
    Validates protocol grantFact events ⟨protocol.writeInvitation
      ⟨pairingInvitationV1, encodeHexText (factIdBytes grantFact), texts⟩, grant,
        facts⟩ (events.filterMap (decodeSemanticEvent protocol)) texts := by
  have hvalues : (facts.values.map (·.exactEvent)).filterMap
      (decodeSemanticEvent protocol) = facts.values := by
    rw [List.filterMap_map]
    refine (List.filterMap_congr fun verified hmem => ?_).trans
      List.filterMap_some
    exact hevidence.verified verified hmem
  have hdecoded := hperm.filterMap (decodeSemanticEvent protocol)
  rw [hvalues] at hdecoded
  have hids : facts.values.map (·.fact.id) = facts.keys.toList := by
    rw [OrderedMap.values, OrderedMap.keys, List.map_map]
    refine List.map_congr_left fun entry hmem => ?_
    exact hevidence.keyed entry.1 entry.2 (OrderedMap.get?_eq_some_iff.2 hmem)
  have hnodup : ((events.filterMap (decodeSemanticEvent protocol)).map
      (·.fact.id)).Nodup := by
    rw [(hdecoded.map _).nodup_iff, hids]
    exact facts.keys.sorted.imp ne_of_lt
  have hlength : events.length = facts.size := by
    rw [hperm.length_eq, List.length_map]
    exact List.length_map _
  refine ⟨map_decode_eq ?_, ?_, hnodup, ?_, ⟨?_, ?_⟩, ⟨root, hroot, hgrant⟩,
    hclosure, htexts, rfl, hshort⟩
  · intro event hevent
    obtain ⟨verified, hmem, rfl⟩ := List.mem_map.1 (hperm.mem_iff.1 hevent)
    rw [hevidence.verified verified hmem]
    rfl
  · exact fun verified hmem => hcanonical verified (hdecoded.mem_iff.1 hmem)
  · ext id verified
    rw [get?_factsOf hnodup, hdecoded.mem_iff, OrderedMap.mem_values]
    constructor
    · rintro ⟨⟨other, hfound⟩, rfl⟩
      rwa [hevidence.keyed other verified hfound]
    · exact fun hfound => ⟨⟨id, hfound⟩, hevidence.keyed id verified hfound⟩
  · rintro rfl
    have hmem := OrderedMap.get?_eq_some_iff.1 hroot
    rw [OrderedMap.size, List.length_nil] at hlength
    rw [List.length_eq_zero_iff.1 hlength.symm] at hmem
    cases hmem
  · exact hlength.trans_le hsize

theorem decode_eq_ok_iff {bytes : List UInt8} :
    decode protocol bytes = .ok invitation ↔
      ∃ decoded texts, Validates protocol invitation.grant.factId
        (texts.map Subtype.val) invitation decoded texts ∧
          invitation.canonicalBytes = bytes := by
  simp only [decode, bind_eq_ok, require_eq_ok, exists_const,
    decide_eq_true_eq]
  constructor
  · rintro ⟨hsize, h⟩
    split at h
    next => cases h
    next raw hraw =>
      simp only [bind_eq_ok, require_eq_ok, exists_const, decide_eq_true_eq] at h
      obtain ⟨hschema, h⟩ := h
      split at h
      next => cases h
      next grantFact hgrantFact =>
        simp only [bind_eq_ok, require_eq_ok, exists_const,
          decide_eq_true_eq] at h
        obtain ⟨found, hvalid, hbytes, h⟩ := h
        cases h
        obtain ⟨decoded, texts, h⟩ := validate_eq_ok_iff.1 hvalid
        obtain ⟨root, -, hgrant⟩ := h.grant
        have hsame := h.bytes_eq
        rw [hbytes] at hsame
        rw [← hsame, protocol.parse_writeInvitation] at hraw
        obtain rfl := Option.some.inj hraw
        rw [grantOf_factId hgrant]
        exact ⟨decoded, texts, h, hbytes⟩
  · rintro ⟨decoded, texts, h, rfl⟩
    refine ⟨h.short, ?_⟩
    simp only [← h.bytes_eq, protocol.parse_writeInvitation,
      decodeHex32_encodeHexText, factIdOfBytes_factIdBytes, bind_eq_ok,
      require_eq_ok, exists_const, decide_eq_true_eq]
    exact ⟨trivial, invitation, validate_eq_ok_iff.2 ⟨decoded, texts, h⟩,
      h.bytes_eq.symm, rfl⟩

/-- Evidence with a control fact is refused. -/
theorem fromEvidence_control
    (hevidence : Evidence protocol facts) (hmem : verified ∈ facts.values)
    (hcontrol : verified.fact.payload.isRemoteControl = true)
    (invitation : VerifiedPairingInvitation) :
    fromEvidence protocol grantFact (facts.values.map (·.exactEvent)) ≠
      .ok invitation := by
  intro h
  obtain ⟨decoded, _, hvalid⟩ := validate_eq_ok_iff.1 h
  have hsome : some verified ∈ decoded.map some := by
    rw [← hvalid.decoded_eq, ← hevidence.verified verified hmem]
    exact List.mem_map_of_mem (List.mem_map_of_mem hmem)
  obtain ⟨found, hfound, heq⟩ := List.mem_map.1 hsome
  obtain rfl := Option.some.inj heq
  have hcanonical := hvalid.canonical found hfound
  rw [hcontrol] at hcanonical
  cases hcanonical

theorem exists_texts {list : List VerifiedSemanticFact}
    (h : ∀ verified ∈ list, isText verified.exactEvent = true) :
    ∃ texts : List Utf8Text,
      texts.map Subtype.val = list.map (·.exactEvent) := by
  refine ⟨list.attach.map fun verified =>
    ⟨verified.1.exactEvent, h verified.1 verified.2⟩, ?_⟩
  rw [List.map_map]
  change list.attach.map (fun verified => verified.1.exactEvent) = _
  exact List.attach_map_val

/-- Invitations carry the closure of their grant and have one spelling, and
the closure of a grant without control facts has one invitation. -/
theorem invitations_exact (protocol : Protocol) :
    (∀ bytes invitation, decode protocol bytes = .ok invitation →
      ExactClosure invitation.facts invitation.grant.factId ∧
      (∀ id parent, Cites invitation.facts id parent →
        invitation.facts.contains parent = true) ∧
      Evidence protocol invitation.facts ∧
      (∃ root, invitation.facts.get? invitation.grant.factId = some root ∧
        grantOf invitation.grant.factId root.fact.payload =
          .ok invitation.grant) ∧
      (∃ raw, protocol.parseInvitation bytes = some raw ∧
        raw.facts.map Subtype.val =
          invitation.facts.values.map (·.exactEvent)) ∧
      invitation.canonicalBytes = bytes) ∧
    (∀ left leftInvitation right rightInvitation,
      decode protocol left = .ok leftInvitation →
      decode protocol right = .ok rightInvitation →
      leftInvitation.grant.factId = rightInvitation.grant.factId →
      (∀ verified, verified ∈ leftInvitation.facts.values ↔
        verified ∈ rightInvitation.facts.values) → left = right) ∧
    (∀ facts grantFact root grant, Evidence protocol facts →
      (∀ verified ∈ facts.values,
        verified.fact.payload.isRemoteControl = false) →
      facts.get? grantFact = some root →
      grantOf grantFact root.fact.payload = .ok grant →
      ExactClosure facts grantFact →
      facts.size ≤ maxPairingInvitationFacts →
      ∃ texts, texts.map Subtype.val = facts.values.map (·.exactEvent) ∧
        ((protocol.writeInvitation ⟨pairingInvitationV1,
            encodeHexText (factIdBytes grantFact), texts⟩).length ≤
              maxPairingInvitationBytes →
          ∃ invitation, invitation.facts = facts ∧ invitation.grant = grant ∧
            (∀ events, events.Perm (facts.values.map (·.exactEvent)) →
              fromEvidence protocol grantFact events = .ok invitation) ∧
            decode protocol invitation.canonicalBytes = .ok invitation)) := by
  refine ⟨?_, ?_, ?_⟩
  · intro bytes invitation h
    obtain ⟨decoded, texts, hvalid, rfl⟩ := decode_eq_ok_iff.1 h
    refine ⟨hvalid.closure, fun id parent => hvalid.closure.parent_mem,
      hvalid.evidence.1, hvalid.grant, ⟨⟨pairingInvitationV1,
        encodeHexText (factIdBytes invitation.grant.factId), texts⟩, ?_,
        hvalid.texts_eq⟩, rfl⟩
    rw [← hvalid.bytes_eq, protocol.parse_writeInvitation]
  · intro left leftInvitation right rightInvitation hl hr hgrant hfacts
    obtain ⟨_, leftTexts, hleft, rfl⟩ := decode_eq_ok_iff.1 hl
    obtain ⟨_, rightTexts, hright, rfl⟩ := decode_eq_ok_iff.1 hr
    have hsame : leftInvitation.facts = rightInvitation.facts := by
      have hkeyed (facts : OrderedMap FactId VerifiedSemanticFact)
          (hevidence : Evidence protocol facts) (id : FactId)
          (verified : VerifiedSemanticFact) :
          facts.get? id = some verified ↔
            verified ∈ facts.values ∧ verified.fact.id = id := by
        rw [OrderedMap.mem_values]
        constructor
        · exact fun h => ⟨⟨id, h⟩, hevidence.keyed id verified h⟩
        · rintro ⟨⟨other, hother⟩, rfl⟩
          rwa [hevidence.keyed other verified hother]
      ext id verified
      rw [hkeyed _ hleft.evidence.1, hkeyed _ hright.evidence.1, hfacts]
    have htexts : leftTexts = rightTexts := by
      refine List.map_injective_iff.2 Subtype.val_injective ?_
      rw [hleft.texts_eq, hright.texts_eq, hsame]
    rw [← hleft.bytes_eq, ← hright.bytes_eq, hgrant, htexts]
  · intro facts grantFact root grant hevidence hcanonical hroot hgrant hclosure
      hsize
    obtain rfl := grantOf_factId hgrant
    obtain ⟨texts, htexts⟩ := exists_texts fun verified hmem =>
      (decodeSemanticEvent_eq_some (hevidence.verified verified hmem)).2
    refine ⟨texts, htexts, fun hshort => ⟨⟨protocol.writeInvitation
      ⟨pairingInvitationV1, encodeHexText (factIdBytes grant.factId), texts⟩,
        grant, facts⟩, rfl, rfl, ?_, ?_⟩⟩
    · intro events hperm
      exact validate_eq_ok_iff.2 ⟨_, texts, validates_of_closure hevidence
        hcanonical hroot hgrant hclosure hsize htexts hshort hperm⟩
    · exact decode_eq_ok_iff.2 ⟨_, texts, validates_of_closure hevidence
        hcanonical hroot hgrant hclosure hsize htexts hshort
        (List.Perm.of_eq htexts), rfl⟩

end Evidence

/-! A grant that cites a control fact. -/

/-- The preimage of a sample event. -/
def samplePreimage (createdAt : Nat) : List UInt8 :=
  SignedEvent.literal "[0,\"" ++ (encodeHex SignedEvent.openSigner.publicKey.1 ++
    SignedEvent.preimageTail createdAt [])

def sampleEvent (createdAt : Nat) : List UInt8 :=
  (SignedEvent.openEvent createdAt ⟨List.replicate 32 0, length_zeros⟩
    (samplePreimage createdAt)).raw

def sampleId (createdAt : Nat) : FactId :=
  factIdOfBytes (SignedEvent.openCrypto.sha256 (samplePreimage createdAt))

/-- The receipt of a remote command. -/
def controlReceipt : Fact where
  id := sampleId 0
  author := ⟨.ofNat 1, .ofNat 1⟩
  authoredAt := ⟨0⟩
  scope := .remoteControl (.ofNat 2) (.ofNat 1)
  causal := .none
  payload := .remoteProjectCommandReceipt (.ofNat 8) (.ofNat 8) (.ofNat 30)
    none ⟨5⟩
  protocol_scope := rfl
  admissible := rfl

/-- A device grant whose only parent is the receipt. -/
def citingGrant : Fact where
  id := sampleId 1
  author := ⟨.ofNat 1, .ofNat 1⟩
  authoredAt := ⟨0⟩
  scope := .accountAddressed (.ofNat 2)
  causal := ⟨OrderedSet.insert (sampleId 0) ∅, ∅,
    by rw [show (OrderedSet.insert (sampleId 0) ∅).toList = [sampleId 0] from rfl]
       decide,
    by decide, by decide⟩
  payload := .humanDeviceGranted (.ofNat 2) (.ofNat 3) ⟨.ofNat 4, .ofNat 4⟩ none
    .empty
  protocol_scope := rfl
  admissible := rfl

theorem factIdOfBytes_injective : Function.Injective factIdOfBytes := by
  intro left right h
  have hvalue : fromBigEndian left.1 = fromBigEndian right.1 :=
    congrArg (fun id : FactId => id.value.val) h
  have hleft := bigEndian_fromBigEndian left.1
  have hright := bigEndian_fromBigEndian right.1
  rw [left.2, hvalue] at hleft
  rw [right.2] at hright
  exact Subtype.ext (hleft.symm.trans hright)

theorem sampleId_ne : sampleId 0 ≠ sampleId 1 := by
  intro h
  have hbytes := congrArg (fun bytes : FixedBytes 32 => bytes.1.head?)
    (factIdOfBytes_injective h)
  have hzero : encodeDecimal 0 = [48] := by
    rw [encodeDecimal]
    rfl
  have hone : encodeDecimal 1 = [49] := by
    rw [encodeDecimal]
    rfl
  simp only [SignedEvent.openCrypto, samplePreimage, SignedEvent.preimageTail,
    hzero, hone] at hbytes
  revert hbytes
  decide +kernel

theorem acceptEvent_sampleEvent {createdAt : Nat} (hdigit : createdAt < 10) :
    acceptEvent SignedEvent.openCrypto (sampleEvent createdAt) =
      .ok (SignedEvent.openEvent createdAt ⟨List.replicate 32 0, length_zeros⟩
        (samplePreimage createdAt), ⟨sampleEvent createdAt,
          SignedEvent.openCrypto.sha256 (samplePreimage createdAt),
          SignedEvent.openSigner.publicKey, createdAt, samplePreimage createdAt,
          []⟩) :=
  SignedEvent.acceptEvent_openEvent hdigit
    (SignedEvent.encodeEventPreimage_eq_ok_iff.2
      ⟨isText_of_ascii (by simp), by decide, rfl⟩) _

def sampleFacts : OrderedMap FactId VerifiedSemanticFact :=
  (OrderedMap.insert (sampleId 0) ⟨sampleEvent 0, controlReceipt⟩ ∅).insert
    (sampleId 1) ⟨sampleEvent 1, citingGrant⟩

theorem get?_sampleFacts (id : FactId) :
    sampleFacts.get? id =
      if id = sampleId 1 then some ⟨sampleEvent 1, citingGrant⟩
      else if id = sampleId 0 then some ⟨sampleEvent 0, controlReceipt⟩
      else none := by
  rw [sampleFacts, OrderedMap.get?_insert, OrderedMap.get?_insert,
    OrderedMap.get?_empty]

theorem size_sampleFacts : sampleFacts.size ≤ 2 :=
  OrderedMap.length_ofList_le
    [(sampleId 0, (⟨sampleEvent 0, controlReceipt⟩ : VerifiedSemanticFact)),
      (sampleId 1, ⟨sampleEvent 1, citingGrant⟩)]

theorem length_sampleFacts (hmem : verified ∈ sampleFacts.values) :
    verified.exactEvent.length ≤ 512 := by
  obtain ⟨id, hfound⟩ := OrderedMap.mem_values.1 hmem
  rw [get?_sampleFacts] at hfound
  split at hfound
  next =>
    cases hfound
    exact SignedEvent.length_frameEvent_empty _ _ (by decide) _
  next =>
    split at hfound
    next =>
      cases hfound
      exact SignedEvent.length_frameEvent_empty _ _ (by decide) _
    next => cases hfound

theorem exactClosure_sampleFacts : ExactClosure sampleFacts (sampleId 1) := by
  have hcites : Cites sampleFacts (sampleId 1) (sampleId 0) := by
    refine ⟨_, by rw [get?_sampleFacts, if_pos rfl], ?_⟩
    exact OrderedSet.mem_insert.2 (.inl rfl)
  intro id
  constructor
  · intro hknown
    rw [OrderedMap.contains, get?_sampleFacts] at hknown
    by_cases hgrant : id = sampleId 1
    · rw [hgrant]
    · by_cases hreceipt : id = sampleId 0
      · rw [hreceipt]
        exact .single hcites
      · simp [hgrant, hreceipt] at hknown
  · intro hpath
    induction hpath with
    | refl => simp [OrderedMap.contains, get?_sampleFacts]
    | tail _ hcites ih =>
        obtain ⟨verified, hfound, hparent⟩ := hcites
        rw [get?_sampleFacts] at hfound
        split at hfound
        next =>
          cases hfound
          rcases OrderedSet.mem_insert.1 hparent with rfl | hempty
          · simp [OrderedMap.contains, get?_sampleFacts, sampleId_ne]
          · exact absurd hempty (OrderedSet.not_mem_empty _)
        next =>
          split at hfound
          next =>
            cases hfound
            exact absurd hparent (OrderedSet.not_mem_empty _)
          next => cases hfound

/-- Invitations as plain rows. -/
def invitationCodec : TextCodec RawInvitation :=
  (TextCodec.text.pair (TextCodec.text.pair TextCodec.text.list)).comap
    (fun raw => (raw.schema, raw.grantFact, raw.facts))
    (fun (schema, grantFact, facts) => some ⟨schema, grantFact, facts⟩)
    fun _ => rfl

def sampleProtocol : Protocol :=
  { SignedEvent.openCrypto with
    semantic := fun event =>
      some (if event.createdAt = 0 then controlReceipt else citingGrant)
    writeInvitation := fun raw => (invitationCodec.encode raw).1
    parseInvitation := invitationCodec.decode
    parse_writeInvitation := invitationCodec.decode_encode }

theorem length_writeInvitation {raw : RawInvitation} {bound : Nat}
    (hfew : raw.facts.length < 10)
    (hbound : ∀ text ∈ raw.facts, text.1.length ≤ bound) :
    (sampleProtocol.writeInvitation raw).length ≤
      2 * raw.schema.1.length + 2 * raw.grantFact.1.length + 5 +
        raw.facts.length * (2 * bound + 1) := by
  have hfacts : (raw.facts.flatMap TextCodec.text.write).length ≤
      raw.facts.length * (2 * bound + 1) := by
    rw [List.length_flatMap]
    refine (List.sum_le_card_nsmul _ (2 * bound + 1) ?_).trans (by simp)
    intro length hmem
    obtain ⟨text, htext, rfl⟩ := List.mem_map.1 hmem
    have := hbound text htext
    simp only [TextCodec.text, TextCodec.comap, TextCodec.length_row_write]
    omega
  have hcount : (encodeDecimal raw.facts.length).length = 1 := by
    rw [encodeDecimal, if_pos hfew]
    rfl
  simp only [sampleProtocol, TextCodec.encode, invitationCodec, TextCodec.comap,
    TextCodec.pair, TextCodec.list, List.length_append]
  simp only [TextCodec.text, TextCodec.number, TextCodec.comap,
    TextCodec.length_row_write, hcount] at hfacts ⊢
  omega

theorem evidence_sampleFacts : Evidence sampleProtocol sampleFacts := by
  constructor
  · intro id verified hfound
    rw [get?_sampleFacts] at hfound
    split at hfound
    next hid =>
      cases hfound
      exact hid.symm
    next =>
      split at hfound
      next hid =>
        cases hfound
        exact hid.symm
      next => cases hfound
  · intro verified hmem
    obtain ⟨id, hfound⟩ := OrderedMap.mem_values.1 hmem
    have haccepted (createdAt : Nat) (hdigit : createdAt < 10) :
        acceptEvent sampleProtocol.toEventCrypto (sampleEvent createdAt) = _ :=
      acceptEvent_sampleEvent hdigit
    rw [get?_sampleFacts] at hfound
    split at hfound
    next =>
      cases hfound
      simp only [decodeSemanticEvent, haccepted 1 (by decide)]
      rfl
    next =>
      split at hfound
      next =>
        cases hfound
        simp only [decodeSemanticEvent, haccepted 0 (by decide)]
        rfl
      next => cases hfound

/-- A device grant that cites a control fact, with its verified closure inside
both limits, has no invitation. -/
theorem control_ancestor_refused :
    ∃ (protocol : Protocol) (facts : OrderedMap FactId VerifiedSemanticFact)
      (grantFact : FactId) (root : VerifiedSemanticFact) (grant : PairingGrant)
      (texts : List Utf8Text),
      Evidence protocol facts ∧ facts.get? grantFact = some root ∧
      grantOf grantFact root.fact.payload = .ok grant ∧
      ExactClosure facts grantFact ∧
      facts.size ≤ maxPairingInvitationFacts ∧
      texts.map Subtype.val = facts.values.map (·.exactEvent) ∧
      (protocol.writeInvitation ⟨pairingInvitationV1,
        encodeHexText (factIdBytes grantFact), texts⟩).length ≤
          maxPairingInvitationBytes ∧
      ∀ invitation, fromEvidence protocol grantFact
        (facts.values.map (·.exactEvent)) ≠ .ok invitation := by
  obtain ⟨texts, htexts⟩ : ∃ texts : List Utf8Text,
      texts.map Subtype.val = sampleFacts.values.map (·.exactEvent) :=
    exists_texts fun verified hmem => (decodeSemanticEvent_eq_some
      (evidence_sampleFacts.verified verified hmem)).2
  have hroot : sampleFacts.get? (sampleId 1) =
      some ⟨sampleEvent 1, citingGrant⟩ := by rw [get?_sampleFacts, if_pos rfl]
  refine ⟨sampleProtocol, sampleFacts, sampleId 1, _, _, texts,
    evidence_sampleFacts, hroot, rfl, exactClosure_sampleFacts, ?_, htexts, ?_,
    ?_⟩
  · exact size_sampleFacts.trans (by decide)
  · have hcount : texts.length ≤ 2 := by
      have hlength := congrArg List.length htexts
      rw [List.length_map, List.length_map, OrderedMap.values,
        List.length_map] at hlength
      rw [hlength]
      exact size_sampleFacts
    refine (@length_writeInvitation _ 512 (by simp only; omega) ?_).trans ?_
    · intro text hmem
      have hevent := List.mem_map_of_mem (f := Subtype.val) hmem
      rw [htexts] at hevent
      obtain ⟨verified, hverified, heq⟩ := List.mem_map.1 hevent
      rw [← heq]
      exact length_sampleFacts hverified
    · have hschema : pairingInvitationV1.1.length = 30 := by decide +kernel
      have hgrant : (encodeHexText (factIdBytes (sampleId 1))).1.length = 64 := by
        simp [encodeHexText, (factIdBytes (sampleId 1)).2]
      simp only [hschema, hgrant, maxPairingInvitationBytes]
      omega
  · have hreceipt : (⟨sampleEvent 0, controlReceipt⟩ : VerifiedSemanticFact) ∈
        sampleFacts.values := by
      refine OrderedMap.mem_values.2 ⟨sampleId 0, ?_⟩
      rw [get?_sampleFacts, if_neg sampleId_ne, if_pos rfl]
    exact fromEvidence_control evidence_sampleFacts hreceipt rfl

end Hq.Pairing
