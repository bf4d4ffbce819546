/-
Semantic values of the fact catalogue: opaque 32-byte identities, bounded
texts, addresses and resource locators.  Every value used as a key of an
ordered collection carries the order the source derives for it.
-/
import Hq.OrderedMap

namespace Hq

/-- A type whose derived order is the lexicographic order of a list of field
codes.  The source derives `Ord` field by field and constructor by
constructor, which is what the code spells out. -/
class Coded (α : Type) where
  code : α → List (List Int)
  code_injective : Function.Injective code

/-- The order derived from a code. -/
abbrev Coded.linearOrder (α : Type) [Coded α] : LinearOrder α :=
  LinearOrder.lift' Coded.code Coded.code_injective

/-- The families of 32-byte values declared by `opaque_bytes!`. -/
inductive ByteFamily where
  | fact | installation | mailbox | account | agent | project | message
  | resource | command | operation | grant | assignment | thread | dispatch
  | commandDigest | signingPublicKey | encryptionPublicKey
deriving DecidableEq

instance neZero_opaqueBytes : NeZero (2 ^ 256) := inferInstance

/-- A 32-byte value read as a big-endian number, so that the byte order of
the source is the numeric order. -/
@[ext] structure OpaqueBytes (family : ByteFamily) where
  value : Fin (2 ^ 256)

namespace OpaqueBytes

variable {family : ByteFamily}

instance : LinearOrder (OpaqueBytes family) :=
  LinearOrder.lift' OpaqueBytes.value fun _ _ => OpaqueBytes.ext

/-- Read a number as a 32-byte value. -/
def ofNat (n : Nat) : OpaqueBytes family := ⟨Fin.ofNat _ n⟩

/-- One field code per opaque value. -/
def field (bytes : OpaqueBytes family) : List Int := [bytes.value.val]

theorem field_injective :
    Function.Injective (field : OpaqueBytes family → List Int) := by
  intro left right h
  have hval : (left.value.val : Int) = right.value.val := by
    simpa [field] using h
  exact OpaqueBytes.ext (Fin.ext (Int.ofNat_inj.1 hval))

end OpaqueBytes

abbrev FactId := OpaqueBytes .fact
abbrev InstallationId := OpaqueBytes .installation
abbrev MailboxId := OpaqueBytes .mailbox
abbrev AccountId := OpaqueBytes .account
abbrev AgentId := OpaqueBytes .agent
abbrev ProjectId := OpaqueBytes .project
abbrev MessageId := OpaqueBytes .message
abbrev ResourceId := OpaqueBytes .resource
abbrev CommandId := OpaqueBytes .command
abbrev OperationId := OpaqueBytes .operation
abbrev GrantId := OpaqueBytes .grant
abbrev AssignmentId := OpaqueBytes .assignment
abbrev ThreadId := OpaqueBytes .thread
abbrev DispatchId := OpaqueBytes .dispatch
abbrev CommandDigest := OpaqueBytes .commandDigest
abbrev SigningPublicKey := OpaqueBytes .signingPublicKey
abbrev EncryptionPublicKey := OpaqueBytes .encryptionPublicKey

/-- Number of bytes of a text in UTF-8. -/
def utf8Length (chars : List Char) : Nat := (chars.map Char.utf8Size).sum

/-- A nonempty text of at most `maximumBytes` UTF-8 bytes. -/
@[ext] structure BoundedText (maximumBytes : Nat) where
  chars : List Char
  nonempty : chars ≠ []
  bounded : utf8Length chars ≤ maximumBytes

namespace BoundedText

variable {maximumBytes : Nat}

/-- Code points compare as the UTF-8 bytes of the source do. -/
def field (text : BoundedText maximumBytes) : List Int :=
  text.chars.map fun char => (char.toNat : Int)

theorem field_injective :
    Function.Injective (field : BoundedText maximumBytes → List Int) := by
  intro left right h
  ext1
  refine List.map_injective_iff.2 ?_ h
  intro a b hab
  exact Char.toNat_inj.1 (Int.ofNat_inj.1 hab)

instance : LinearOrder (BoundedText maximumBytes) :=
  LinearOrder.lift' field field_injective

/-- The text of one character. -/
def ofChar (char : Char) : BoundedText (maximumBytes + 4) where
  chars := [char]
  nonempty := List.cons_ne_nil _ _
  bounded := by
    have := char.utf8Size_le_four
    simp only [utf8Length, List.map_cons, List.map_nil, List.sum_cons,
      List.sum_nil]
    omega

end BoundedText

abbrev ShortText := BoundedText 128
abbrev ContentText := BoundedText 16384
abbrev ProviderId := BoundedText 64
abbrev ProviderSessionId := BoundedText 256
abbrev ErrorCode := BoundedText 96

/-- The field code of an optional value: absence sorts first. -/
def optionField {α : Type} (field : α → List Int) : Option α → List Int
  | none => [0]
  | some value => 1 :: field value

theorem optionField_injective {α : Type} {field : α → List Int}
    (hfield : Function.Injective field) :
    Function.Injective (optionField field) := by
  intro left right h
  cases left <;> cases right <;> simp_all [optionField, hfield.eq_iff]

/-- A list of at most `maximumItems` values. -/
structure BoundedVec (α : Type) (maximumItems : Nat) where
  items : List α
  bounded : items.length ≤ maximumItems
deriving DecidableEq

def BoundedVec.empty {α : Type} {maximumItems : Nat} :
    BoundedVec α maximumItems :=
  ⟨[], Nat.zero_le _⟩

/-- Signed presentation time in milliseconds. -/
structure Timestamp where
  unixMillis : Int
deriving DecidableEq

/-- A positive 64-bit number. -/
@[ext] structure NonZeroU64 where
  value : Nat
  positive : 0 < value
  bounded : value < 2 ^ 64
deriving DecidableEq

def NonZeroU64.one : NonZeroU64 := ⟨1, by decide, by decide⟩

/-- An installation together with the key that verifies its signatures. -/
@[ext] structure InstallationAddress where
  installationId : InstallationId
  signingKey : SigningPublicKey
deriving DecidableEq

/-- An installation-qualified mailbox. -/
@[ext] structure MailboxAddress where
  installationId : InstallationId
  mailboxId : MailboxId

instance : Coded MailboxAddress where
  code address := [address.installationId.field, address.mailboxId.field]
  code_injective := by
    intro left right h
    simp only [List.cons.injEq, OpaqueBytes.field_injective.eq_iff] at h
    exact MailboxAddress.ext h.1 h.2.1

instance : LinearOrder MailboxAddress := Coded.linearOrder _

inductive ResourceScheme where
  | gitRepository | workingTree | container | opaqueResource
deriving DecidableEq

def ResourceScheme.field : ResourceScheme → List Int
  | .gitRepository => [0]
  | .workingTree => [1]
  | .container => [2]
  | .opaqueResource => [3]

theorem ResourceScheme.field_injective :
    Function.Injective ResourceScheme.field := by
  intro left right h
  cases left <;> cases right <;> simp_all [ResourceScheme.field]

/-- A typed locator of an external resource. -/
@[ext] structure ResourceLocator where
  scheme : ResourceScheme
  value : BoundedText 4096
deriving DecidableEq

abbrev RelayHints := BoundedVec ResourceLocator 8

/-- The provider operation that produced a message or an activity. -/
@[ext] structure OperationCorrelation where
  provider : ProviderId
  session : ProviderSessionId
  operation : OperationId

instance : Coded OperationCorrelation where
  code correlation :=
    [correlation.provider.field, correlation.session.field,
      correlation.operation.field]
  code_injective := by
    intro left right h
    simp only [List.cons.injEq, OpaqueBytes.field_injective.eq_iff,
      BoundedText.field_injective.eq_iff] at h
    exact OperationCorrelation.ext h.1 h.2.1 h.2.2.1

instance : LinearOrder OperationCorrelation := Coded.linearOrder _

/-- The conversation a message or an activity is shown in. -/
inductive ConversationId where
  | projectThread (projectId : ProjectId) (thread : ThreadId)
  | thread (counterparty : MailboxAddress) (thread : ThreadId)
  | providerSession (counterparty : MailboxAddress) (provider : ProviderId)
      (session : ProviderSessionId)

instance : Coded ConversationId where
  code
    | .projectThread projectId thread => [[0], projectId.field, thread.field]
    | .thread counterparty thread =>
        [[1], counterparty.installationId.field, counterparty.mailboxId.field,
          thread.field]
    | .providerSession counterparty provider session =>
        [[2], counterparty.installationId.field, counterparty.mailboxId.field,
          provider.field, session.field]
  code_injective := by
    intro left right h
    cases left <;> cases right <;>
      simp_all [OpaqueBytes.field_injective.eq_iff,
        BoundedText.field_injective.eq_iff, MailboxAddress.ext_iff]

instance : LinearOrder ConversationId := Coded.linearOrder _

/-- Why a fact cites one of its parents. -/
inductive AuthorityRole where
  | localInstallation | mailboxOwner | mailboxGrant | accountCreator
  | deviceGrant | accountMembership | previousState | projectHome
  | activeHuman | assignment | dispatch | request | outputBinding

/-- The position of a role in the order of the source. -/
def AuthorityRole.rank : AuthorityRole → Int
  | .localInstallation => 0 | .mailboxOwner => 1 | .mailboxGrant => 2
  | .accountCreator => 3 | .deviceGrant => 4 | .accountMembership => 5
  | .previousState => 6 | .projectHome => 7 | .activeHuman => 8
  | .assignment => 9 | .dispatch => 10 | .request => 11
  | .outputBinding => 12

theorem AuthorityRole.rank_injective : Function.Injective rank := by
  intro left right h
  cases left <;> cases right <;> first | rfl | cases h

instance : LinearOrder AuthorityRole :=
  LinearOrder.lift' AuthorityRole.rank AuthorityRole.rank_injective

end Hq
