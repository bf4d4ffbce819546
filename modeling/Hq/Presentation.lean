/-
The canonical presentation order of selected facts: a topological traversal
that emits the smallest ready presentation key first.  Times and identities
order entries for display only.
-/
import Hq.CausalGraph

namespace Hq

inductive PresentationFamily where
  | message | activity
deriving DecidableEq

/-- Rank of a family: messages precede activity on an exact tie. -/
def PresentationFamily.rank : PresentationFamily → Int
  | .message => 0
  | .activity => 1

/-- The item or request a presented fact belongs to. -/
inductive PresentationItemId where
  | message (id : MessageId)
  | command (id : CommandId)
  | dispatch (id : DispatchId)
  | activity (item : ShortText)
  | fact (id : FactId)
deriving DecidableEq

def PresentationItemId.field : PresentationItemId → List Int
  | .message id => 0 :: id.field
  | .command id => 1 :: id.field
  | .dispatch id => 2 :: id.field
  | .activity item => 3 :: item.field
  | .fact id => 4 :: id.field

theorem PresentationItemId.field_injective : Function.Injective field := by
  intro left right h
  cases left <;> cases right <;>
    simp_all [field, OpaqueBytes.field_injective.eq_iff,
      BoundedText.field_injective.eq_iff]

inductive PresentationPublicId where
  | message (id : MessageId)
  | command (id : CommandId)
  | dispatch (id : DispatchId)
deriving DecidableEq

def PresentationPublicId.field : PresentationPublicId → List Int
  | .message id => 0 :: id.field
  | .command id => 1 :: id.field
  | .dispatch id => 2 :: id.field

theorem PresentationPublicId.field_injective : Function.Injective field := by
  intro left right h
  cases left <;> cases right <;>
    simp_all [field, OpaqueBytes.field_injective.eq_iff]

/-- The comparison key of a presented fact, in comparison order. -/
@[ext] structure PresentationKey where
  authoredAt : Timestamp
  presentationOccurrence : Timestamp
  family : PresentationFamily
  sourceInstallation : InstallationId
  sourceMailbox : Option MailboxId
  provider : Option ProviderId
  session : Option ProviderSessionId
  operation : Option OperationId
  itemOrRequest : Option PresentationItemId
  runtime : Option ShortText
  sourceSequence : Option NonZeroU64
  stablePublicId : Option PresentationPublicId
deriving DecidableEq

/-- One selected fact with its comparison key. -/
@[ext] structure PresentationEntry where
  factId : FactId
  key : PresentationKey

def sequenceField (sequence : NonZeroU64) : List Int := [sequence.value]

theorem sequenceField_injective : Function.Injective sequenceField := by
  intro left right h
  have hvalue : (left.value : Int) = right.value := by
    simpa [sequenceField] using h
  exact NonZeroU64.ext (Int.ofNat_inj.1 hvalue)

def PresentationKey.fields (key : PresentationKey) : List (List Int) :=
  [[key.authoredAt.unixMillis], [key.presentationOccurrence.unixMillis],
    [key.family.rank], key.sourceInstallation.field,
    optionField OpaqueBytes.field key.sourceMailbox,
    optionField BoundedText.field key.provider,
    optionField BoundedText.field key.session,
    optionField OpaqueBytes.field key.operation,
    optionField PresentationItemId.field key.itemOrRequest,
    optionField BoundedText.field key.runtime,
    optionField sequenceField key.sourceSequence,
    optionField PresentationPublicId.field key.stablePublicId]

/-- Entries compare by key, then by fact identity. -/
instance : Coded PresentationEntry where
  code entry := entry.key.fields ++ [entry.factId.field]
  code_injective := by
    rintro ⟨leftId, left⟩ ⟨rightId, right⟩ h
    simp only [PresentationKey.fields, List.cons_append, List.nil_append,
      List.cons.injEq, and_true] at h
    obtain ⟨h1, h2, h3, h4, h5, h6, h7, h8, h9, h10, h11, h12, h13⟩ := h
    have hfamily : left.family = right.family := by
      cases hleft : left.family <;> cases hright : right.family <;>
        simp_all [PresentationFamily.rank]
    ext1
    · exact OpaqueBytes.field_injective h13
    · ext1
      · exact congrArg Timestamp.mk h1
      · exact congrArg Timestamp.mk h2
      · exact hfamily
      · exact OpaqueBytes.field_injective h4
      · exact optionField_injective OpaqueBytes.field_injective h5
      · exact optionField_injective BoundedText.field_injective h6
      · exact optionField_injective BoundedText.field_injective h7
      · exact optionField_injective OpaqueBytes.field_injective h8
      · exact optionField_injective PresentationItemId.field_injective h9
      · exact optionField_injective BoundedText.field_injective h10
      · exact optionField_injective sequenceField_injective h11
      · exact optionField_injective PresentationPublicId.field_injective h12

instance : LinearOrder PresentationEntry := Coded.linearOrder _

inductive PresentationError where
  | duplicateEntry (id : FactId)
  | unknownFact (id : FactId)
  | causalCycle
deriving DecidableEq

/-- Select entries by identity, refusing unknown and repeated facts. -/
def selectEntries (graph : CausalGraph) :
    List PresentationEntry → OrderedMap FactId PresentationKey →
      Except PresentationError (OrderedMap FactId PresentationKey)
  | [], selected => .ok selected
  | entry :: rest, selected =>
      if entry.factId ∉ graph.vertices then
        .error (.unknownFact entry.factId)
      else if selected.contains entry.factId then
        .error (.duplicateEntry entry.factId)
      else selectEntries graph rest (selected.insert entry.factId entry.key)

/-- The ready key of a selected fact. -/
def readyKey (selected : OrderedMap FactId PresentationKey) (id : FactId) :
    Option PresentationEntry :=
  (selected.get? id).map fun key => ⟨id, key⟩

def presentationTraversal (graph : CausalGraph)
    (selected : OrderedMap FactId PresentationKey) : List FactId :=
  let indegree := selected.mapValues fun id _ =>
    ((graph.parents id).filter selected.contains).size
  let ready := OrderedSet.ofList
    ((selected.keys.toList.filter fun id =>
      indegree.get? id = some 0).filterMap (readyKey selected))
  kahn PresentationEntry.factId (readyKey selected)
    (fun id => ((graph.children id).filter selected.contains).toList)
    selected.size indegree ready

/-- The traversal, refused when a cycle leaves selected facts unplaced. -/
def canonicalPresentationOrder (graph : CausalGraph)
    (entries : List PresentationEntry) :
    Except PresentationError (List FactId) :=
  match selectEntries graph entries ∅ with
  | .error error => .error error
  | .ok selected =>
      let ordered := presentationTraversal graph selected
      if ordered.length = selected.size then .ok ordered
      else .error .causalCycle

end Hq
