/-
Pages of one stored conversation.  A window is cut from the presentable
entries around a boundary, and its two cursors name the entries at its edges.
-/
import Hq.Bytes
import Hq.ReductionIndex

namespace Hq.ConversationPages

inductive PageDirection where
  | older | newer
deriving DecidableEq

/-- One row of the conversation order, with the activity its fact has. -/
structure OrderedEntry where
  position : Nat
  factId : FactId
  activity : Option (ActivityKind × ActivityStatus)
deriving DecidableEq

/-- Progress, and a turn that is still running, are not part of the history. -/
def OrderedEntry.presentable (entry : OrderedEntry) : Bool :=
  match entry.activity with
  | some (.progress, _) => false
  | some (.agentTurn, .running) => false
  | _ => true

def i64Max : Nat := 2 ^ 63 - 1

/-- A conversation as the store holds it. `superseding` is the position of
the activity that replaced a stored fact. -/
structure StoredConversation where
  repaired : Bool
  persisted : Bool
  keyDigest : FixedBytes 32
  order : List OrderedEntry
  liveTail : Option FactId
  superseding : FactId → Option Nat
  ascending : order.Pairwise fun left right => left.position < right.position
  unique : order.Pairwise fun left right => left.factId ≠ right.factId
  bounded : ∀ entry ∈ order, entry.position < i64Max
  listed : ∀ fact position, superseding fact = some position →
    ∃ entry ∈ order, entry.position = position
  keyed : order ≠ [] → persisted = true

/-! Cursors. -/

def factBytes (fact : FactId) : List UInt8 := bigEndian 32 fact.value.val

def PageDirection.text : PageDirection → List UInt8
  | .older => [111, 108, 100, 101, 114]
  | .newer => [110, 101, 119, 101, 114]

def encodeConversationCursor (keyDigest : FixedBytes 32) (fact : FactId)
    (direction : PageDirection) : List UInt8 :=
  [58].intercalate [direction.text, encodeHex keyDigest.val,
    encodeHex (factBytes fact)]

def decodeDirection (text : List UInt8) : Option PageDirection :=
  if text = PageDirection.older.text then some .older
  else if text = PageDirection.newer.text then some .newer
  else none

def decodeBytes32 (digits : List UInt8) : Option (List UInt8) :=
  if digits.length = 64 then decodeHex digits else none

def decodeConversationCursor (cursor : List UInt8) :
    Except StoreErrorClass (List UInt8 × FactId × PageDirection) :=
  match cursor.splitOn 58 with
  | [direction, key, fact] =>
      match decodeDirection direction, decodeBytes32 key,
          decodeBytes32 fact with
      | some direction, some key, some fact =>
          .ok (key, OpaqueBytes.ofNat (fromBigEndian fact), direction)
      | _, _, _ => .error .invalidOperationalRequest
  | _ => .error .invalidOperationalRequest

/-! Windows. -/

structure Page where
  items : List OrderedEntry
  tail : Option FactId
  olderCursor : Option (List UInt8)
  newerCursor : Option (List UInt8)
deriving DecidableEq

namespace StoredConversation

variable (conversation : StoredConversation)

def history : List OrderedEntry :=
  conversation.order.filter OrderedEntry.presentable

def factPosition (fact : FactId) : Except StoreErrorClass Nat :=
  match conversation.order.find? fun entry => entry.factId = fact with
  | some entry => .ok entry.position
  | none => .error .invalidOperationalRequest

def anchorPosition (fact : FactId) : Except StoreErrorClass Nat :=
  match conversation.order.find? fun entry => entry.factId = fact with
  | some entry => .ok entry.position
  | none =>
      match conversation.superseding fact with
      | some position => .ok position
      | none => .error .invalidOperationalRequest

def orderedEntries (boundary : Nat) (direction : PageDirection)
    (limit : Nat) : List OrderedEntry :=
  match direction with
  | .older => (conversation.history.filter fun entry =>
      entry.position < boundary).reverse.take limit
  | .newer => (conversation.history.filter fun entry =>
      boundary < entry.position).take limit

def continuation (edge : Option OrderedEntry) (direction : PageDirection) :
    Option (List UInt8) :=
  edge.bind fun entry =>
    if (conversation.orderedEntries entry.position direction 1).isEmpty then
      none
    else
      some (encodeConversationCursor conversation.keyDigest entry.factId
        direction)

/-- The places a window leaves for history beside a live tail. -/
def historyLimit (limit : Nat) (tail : Option FactId) : Nat :=
  if tail.isSome && decide (1 < limit) then limit - 1 else limit

/-- The boundary of a window around an anchor: half of the window is newer
than the anchor, if there is that much. -/
def anchorBoundary (limit position : Nat) : Nat :=
  let half := historyLimit limit conversation.liveTail / 2
  let newer := conversation.orderedEntries position .newer (half + 1)
  if half < newer.length then
    (newer.getLast?.map OrderedEntry.position).getD i64Max
  else i64Max

def boundary (limit : Nat) (cursor : Option (List UInt8))
    (anchor : Option FactId) :
    Except StoreErrorClass (Nat × PageDirection) :=
  match cursor, anchor with
  | some cursor, _ => do
      let (key, fact, direction) ← decodeConversationCursor cursor
      require (decide (key = conversation.keyDigest.val))
        StoreErrorClass.invalidOperationalRequest
      let position ← conversation.factPosition fact
      .ok (position, direction)
  | none, some anchor => do
      let position ← conversation.anchorPosition anchor
      .ok (conversation.anchorBoundary limit position, .older)
  | none, none => .ok (i64Max, .older)

/-- The window at a boundary. -/
def window (limit boundary : Nat) (direction : PageDirection) : Page :=
  let tail := if boundary = i64Max ∨ direction = .newer then
    conversation.liveTail else none
  let selected := conversation.orderedEntries boundary direction
    (historyLimit limit tail)
  let items := if direction = .older then selected.reverse else selected
  let newerCursor := conversation.continuation items.getLast? .newer
  { items
    tail := if newerCursor.isNone && decide (items.length < limit) then tail
      else none
    olderCursor := conversation.continuation items.head? .older
    newerCursor }

def loadWindow (limit : Nat) (cursor : Option (List UInt8))
    (anchor : Option FactId) : Except StoreErrorClass Page := do
  require (decide (1 ≤ limit ∧ limit ≤ 200) &&
    !(cursor.isSome && anchor.isSome))
    StoreErrorClass.invalidOperationalRequest
  require conversation.repaired StoreErrorClass.notRepaired
  let (boundary, direction) ← conversation.boundary limit cursor anchor
  if conversation.persisted then
    .ok (conversation.window limit boundary direction)
  else .ok ⟨[], none, none, none⟩

end StoredConversation

/-! Cursors read back. -/

theorem colon_not_mem_encodeHex (bytes : List UInt8) :
    58 ∉ encodeHex bytes := by
  induction bytes with
  | nil => exact List.not_mem_nil
  | cons byte bytes ih =>
      have hdigit : ∀ n : Nat, n < 16 → (58 : UInt8) ≠ hexDigit n := by
        decide
      have hbyte : byte.toNat < 256 := byte.toNat_lt
      rw [encodeHex_cons]
      simp only [List.mem_cons, not_or]
      exact ⟨hdigit _ (by omega), hdigit _ (by omega), ih⟩

theorem colon_not_mem_text (direction : PageDirection) :
    58 ∉ direction.text := by
  cases direction <;> decide

theorem decodeDirection_text (direction : PageDirection) :
    decodeDirection direction.text = some direction := by
  cases direction <;> rfl

theorem decodeBytes32_encodeHex {bytes : List UInt8}
    (h : bytes.length = 32) : decodeBytes32 (encodeHex bytes) = some bytes := by
  rw [decodeBytes32, if_pos (by rw [length_encodeHex, h]),
    decodeHex_encodeHex]

theorem length_factBytes (fact : FactId) : (factBytes fact).length = 32 := by
  simp [factBytes]

theorem ofNat_factBytes (fact : FactId) :
    (OpaqueBytes.ofNat (fromBigEndian (factBytes fact)) : FactId) = fact := by
  have hlt : fact.value.val < 256 ^ 32 := by
    rw [show (256 : Nat) ^ 32 = 2 ^ 256 by norm_num]
    exact fact.value.isLt
  rw [factBytes, fromBigEndian_bigEndian hlt]
  obtain ⟨value⟩ := fact
  exact OpaqueBytes.ext (Fin.ofNat_val_eq_self value)

theorem splitOn_three {first second third : List UInt8}
    (hfirst : 58 ∉ first) (hsecond : 58 ∉ second) (hthird : 58 ∉ third) :
    ([58].intercalate [first, second, third]).splitOn 58 =
      [first, second, third] := by
  apply List.splitOn_intercalate
  · intro part hpart
    simp only [List.mem_cons, List.not_mem_nil, or_false] at hpart
    rcases hpart with rfl | rfl | rfl
    · exact hfirst
    · exact hsecond
    · exact hthird
  · exact List.cons_ne_nil _ _

variable {entry : OrderedEntry} {before after : List OrderedEntry}
  {direction : PageDirection}

theorem decodeConversationCursor_of_split {cursor first second third key fact :
    List UInt8}
    (hsplit : cursor.splitOn 58 = [first, second, third])
    (hfirst : decodeDirection first = some direction)
    (hsecond : decodeBytes32 second = some key)
    (hthird : decodeBytes32 third = some fact) :
    decodeConversationCursor cursor =
      .ok (key, OpaqueBytes.ofNat (fromBigEndian fact), direction) := by
  rw [decodeConversationCursor, hsplit]
  simp only [hfirst, hsecond, hthird]

theorem decode_encodeConversationCursor (keyDigest : FixedBytes 32)
    (fact : FactId) (direction : PageDirection) :
    decodeConversationCursor
      (encodeConversationCursor keyDigest fact direction) =
        .ok (keyDigest.val, fact, direction) := by
  have hsplit := splitOn_three (colon_not_mem_text direction)
    (colon_not_mem_encodeHex keyDigest.val)
    (colon_not_mem_encodeHex (factBytes fact))
  rw [encodeConversationCursor,
    decodeConversationCursor_of_split hsplit (decodeDirection_text direction)
      (decodeBytes32_encodeHex keyDigest.property)
      (decodeBytes32_encodeHex (length_factBytes fact)), ofNat_factBytes]

/-! Where a boundary cuts the history. -/

namespace StoredConversation

variable {conversation : StoredConversation}

theorem history_sorted (conversation : StoredConversation) :
    conversation.history.Pairwise fun left right =>
      left.position < right.position :=
  conversation.ascending.filter _

theorem position_lt_of_mem
    (h : entry ∈ conversation.history) : entry.position < i64Max :=
  conversation.bounded entry (List.mem_of_mem_filter h)

/-- The rows before and behind one entry of the history. -/
theorem filter_around (hcut : conversation.history = before ++ entry :: after) :
    (conversation.history.filter fun other =>
      decide (other.position < entry.position)) = before ∧
    (conversation.history.filter fun other =>
      decide (entry.position < other.position)) = after := by
  have hsorted := conversation.history_sorted
  rw [hcut] at hsorted ⊢
  obtain ⟨-, hafter, hbefore⟩ := List.pairwise_append.1 hsorted
  have hlt : ∀ other ∈ before, other.position < entry.position :=
    fun other hother => hbefore other hother entry List.mem_cons_self
  have hgt : ∀ other ∈ after, entry.position < other.position :=
    (List.pairwise_cons.1 hafter).1
  rw [List.filter_append, List.filter_append, List.filter_cons,
    List.filter_cons, if_neg (by simp), if_neg (by simp),
    List.filter_eq_self.2 fun other h => decide_eq_true (hlt other h),
    List.filter_eq_self.2 fun other h => decide_eq_true (hgt other h),
    List.filter_eq_nil_iff.2 fun other h => by simpa using (hgt other h).le,
    List.filter_eq_nil_iff.2 fun other h => by simpa using (hlt other h).le,
    List.append_nil, List.nil_append]
  exact ⟨rfl, rfl⟩

theorem filter_lt_max (conversation : StoredConversation) :
    (conversation.history.filter fun other =>
      decide (other.position < i64Max)) = conversation.history :=
  List.filter_eq_self.2 fun _ h => decide_eq_true (position_lt_of_mem h)

theorem continuation_older
    (hcut : conversation.history = before ++ entry :: after) :
    conversation.continuation (some entry) .older =
      if before = [] then none
      else some (encodeConversationCursor conversation.keyDigest
        entry.factId .older) := by
  rw [continuation, Option.bind_some, orderedEntries, (filter_around hcut).1]
  by_cases hnil : before = []
  · simp [hnil]
  · simp [hnil]

theorem continuation_newer
    (hcut : conversation.history = before ++ entry :: after) :
    conversation.continuation (some entry) .newer =
      if after = [] then none
      else some (encodeConversationCursor conversation.keyDigest
        entry.factId .newer) := by
  rw [continuation, Option.bind_some, orderedEntries, (filter_around hcut).2]
  by_cases hnil : after = []
  · simp [hnil]
  · simp [hnil]

theorem factPosition_of_mem (h : entry ∈ conversation.order) :
    conversation.factPosition entry.factId = .ok entry.position := by
  have hfind : conversation.order.find?
      (fun other => other.factId = entry.factId) = some entry := by
    obtain ⟨before, after, horder⟩ := List.append_of_mem h
    rw [horder, List.find?_append, List.find?_eq_none.2, Option.none_or,
      List.find?_cons_of_pos (by simp)]
    intro other hother
    have hunique := conversation.unique
    rw [horder] at hunique
    simpa using (List.pairwise_append.1 hunique).2.2 other hother entry
      List.mem_cons_self
  rw [factPosition, hfind]

end StoredConversation

/-- A page shows `items` of the history and has a cursor exactly at an edge
with more behind it; a live tail follows the newest entry only. -/
structure Cut (conversation : StoredConversation) (limit : Nat)
    (before items after : List OrderedEntry) (page : Page) : Prop where
  history : conversation.history = before ++ items ++ after
  shown : page.items = items
  fits : items.length + (if page.tail.isSome then 1 else 0) ≤ limit
  tail : page.tail.isSome = true → after = []
  older : page.olderCursor =
    if before = [] then none
    else items.head?.map fun entry =>
      encodeConversationCursor conversation.keyDigest entry.factId .older
  newer : page.newerCursor =
    if after = [] then none
    else items.getLast?.map fun entry =>
      encodeConversationCursor conversation.keyDigest entry.factId .newer
  edge : items = [] → before = [] ∧ after = []

/-- One page with its cut hidden. -/
def Window (conversation : StoredConversation) (limit : Nat)
    (page : Page) : Prop :=
  ∃ before after, conversation.history = before ++ page.items ++ after ∧
    page.items.length + (if page.tail.isSome then 1 else 0) ≤ limit ∧
    (page.tail.isSome = true → after = []) ∧
    (page.olderCursor.isSome = true ↔ before ≠ []) ∧
    (page.newerCursor.isSome = true ↔ after ≠ [])

theorem Cut.window {conversation : StoredConversation} {limit : Nat}
    {items : List OrderedEntry} {page : Page}
    (hcut : Cut conversation limit before items after page) :
    Window conversation limit page := by
  refine ⟨before, after, ?_, ?_, hcut.tail, ?_, ?_⟩
  · rw [hcut.shown]
    exact hcut.history
  · rw [hcut.shown]
    exact hcut.fits
  · rw [hcut.older]
    by_cases hnil : before = []
    · simp [hnil]
    · have hne : items ≠ [] := fun h => hnil (hcut.edge h).1
      simp [hnil, List.isSome_head?, hne]
  · rw [hcut.newer]
    by_cases hnil : after = []
    · simp [hnil]
    · have hne : items ≠ [] := fun h => hnil (hcut.edge h).2
      simp [hnil, hne]

namespace StoredConversation

variable {conversation : StoredConversation} {limit : Nat}
  {before items after : List OrderedEntry} {page : Page}

theorem continuation_head (hcut : conversation.history =
      before ++ items ++ after) (hedge : items = [] → before = []) :
    conversation.continuation items.head? .older =
      if before = [] then none
      else items.head?.map fun entry =>
        encodeConversationCursor conversation.keyDigest entry.factId
          .older := by
  cases items with
  | nil => simp [hedge rfl, continuation]
  | cons first rest =>
      rw [List.append_assoc, List.cons_append] at hcut
      rw [List.head?_cons, continuation_older hcut]
      rfl

theorem continuation_last (hcut : conversation.history =
      before ++ items ++ after) (hedge : items = [] → after = []) :
    conversation.continuation items.getLast? .newer =
      if after = [] then none
      else items.getLast?.map fun entry =>
        encodeConversationCursor conversation.keyDigest entry.factId
          .newer := by
  induction items using List.reverseRecOn with
  | nil => simp [hedge rfl, continuation]
  | append_singleton front last =>
      have hsplit : conversation.history =
          (before ++ front) ++ last :: after := by
        rw [hcut]
        simp
      rw [List.getLast?_concat, continuation_newer hsplit]
      rfl

theorem historyLimit_le (limit : Nat) (tail : Option FactId) :
    historyLimit limit tail ≤ limit := by
  unfold historyLimit
  split <;> omega

theorem historyLimit_pos (hlimit : 1 ≤ limit) (tail : Option FactId) :
    1 ≤ historyLimit limit tail := by
  unfold historyLimit
  split
  · rename_i h
    simp only [Bool.and_eq_true, decide_eq_true_eq] at h
    omega
  · exact hlimit

/-- A window whose items are cut out of the history. -/
theorem window_cut {boundary : Nat}
    (hcut : conversation.history = before ++ items ++ after)
    (hitems : (conversation.window limit boundary direction).items = items)
    (hlength : items.length ≤ limit)
    (hedge : items = [] → before = [] ∧ after = []) :
    Cut conversation limit before items after
      (conversation.window limit boundary direction) := by
  have hnewer : (conversation.window limit boundary direction).newerCursor =
      conversation.continuation items.getLast? .newer := by
    rw [← hitems]
    rfl
  have htail : (conversation.window limit boundary direction).tail.isSome
      = true → (conversation.window limit boundary direction).newerCursor
        = none ∧ items.length < limit := by
    intro h
    have hcondition : ((conversation.window limit boundary
        direction).newerCursor.isNone && decide ((conversation.window limit
          boundary direction).items.length < limit)) = true := by
      by_contra hno
      have hnone : (conversation.window limit boundary direction).tail =
        none := if_neg hno
      rw [hnone] at h
      cases h
    rw [hitems, Bool.and_eq_true, decide_eq_true_eq] at hcondition
    exact ⟨Option.isNone_iff_eq_none.1 hcondition.1, hcondition.2⟩
  rw [continuation_last hcut fun h => (hedge h).2] at hnewer
  refine ⟨hcut, hitems, ?_, ?_, ?_, hnewer, hedge⟩
  · split
    · rename_i hsome
      exact (htail hsome).2
    · exact hlength
  · intro hsome
    have hnone := (htail hsome).1
    rw [hnewer] at hnone
    by_contra hne
    rw [if_neg hne, Option.map_eq_none_iff, List.getLast?_eq_none_iff] at hnone
    exact hne (hedge hnone).2
  · rw [← continuation_head hcut fun h => (hedge h).1, ← hitems]
    rfl

theorem window_older {boundary : Nat}
    (hbefore : (conversation.history.filter fun entry =>
      decide (entry.position < boundary)) = before)
    (hcut : conversation.history = before ++ after)
    (hlimit : 1 ≤ limit) (hedge : before = [] → after = []) :
    ∃ front items, before = front ++ items ∧ (before ≠ [] → items ≠ []) ∧
      items.length = min (historyLimit limit (if boundary = i64Max then
        conversation.liveTail else none)) before.length ∧
      Cut conversation limit front items after
        (conversation.window limit boundary .older) := by
  obtain ⟨count, hcount⟩ : ∃ count, count = historyLimit limit
      (if boundary = i64Max then conversation.liveTail else none) := ⟨_, rfl⟩
  have hpos : 1 ≤ count := hcount ▸ historyLimit_pos hlimit _
  have hle : count ≤ limit := hcount ▸ historyLimit_le limit _
  have hitems : (conversation.window limit boundary .older).items =
      before.drop (before.length - count) := by
    simp only [window, reduceCtorEq, or_false, ↓reduceIte, orderedEntries,
      hbefore, ← hcount, List.take_reverse, List.reverse_reverse]
  have hlength : (before.drop (before.length - count)).length =
      min count before.length := by
    rw [List.length_drop]
    omega
  have hnonempty : before ≠ [] → before.drop (before.length - count) ≠ [] := by
    intro hne hnil
    have := List.length_pos_iff.2 hne
    rw [hnil, List.length_nil] at hlength
    omega
  refine ⟨before.take (before.length - count),
    before.drop (before.length - count), (List.take_append_drop _ _).symm,
    hnonempty, by rw [hlength, hcount], ?_⟩
  refine window_cut ?_ hitems (by omega) ?_
  · rw [List.take_append_drop]
    exact hcut
  · intro hnil
    have hempty : before = [] := by
      by_contra hne
      exact hnonempty hne hnil
    exact ⟨by rw [hempty, List.take_nil], hedge hempty⟩

theorem window_newer {boundary : Nat}
    (hafter : (conversation.history.filter fun entry =>
      decide (boundary < entry.position)) = after)
    (hcut : conversation.history = before ++ after)
    (hlimit : 1 ≤ limit) (hne : after ≠ []) :
    ∃ items rest, after = items ++ rest ∧ items ≠ [] ∧
      Cut conversation limit before items rest
        (conversation.window limit boundary .newer) := by
  obtain ⟨count, hcount⟩ : ∃ count, count =
      historyLimit limit conversation.liveTail := ⟨_, rfl⟩
  have hpos : 1 ≤ count := hcount ▸ historyLimit_pos hlimit _
  have hle : count ≤ limit := hcount ▸ historyLimit_le limit _
  have hitems : (conversation.window limit boundary .newer).items =
      after.take count := by
    simp only [window, or_true, ↓reduceIte, reduceCtorEq, orderedEntries,
      hafter, ← hcount]
  have hnonempty : after.take count ≠ [] := by
    intro hnil
    rcases List.take_eq_nil_iff.1 hnil with h | h
    · omega
    · exact hne h
  refine ⟨after.take count, after.drop count,
    (List.take_append_drop _ _).symm, hnonempty, ?_⟩
  refine window_cut ?_ hitems ?_ fun hnil => absurd hnil hnonempty
  · rw [List.append_assoc, List.take_append_drop]
    exact hcut
  · rw [List.length_take]
    omega

/-- A cursor this conversation issued for an entry of its history leads to
the window at that entry. -/
theorem loadWindow_cursor (hentry : entry ∈ conversation.history)
    (hlimit : 1 ≤ limit ∧ limit ≤ 200) (hrepaired : conversation.repaired = true)
    (direction : PageDirection) :
    conversation.loadWindow limit (some (encodeConversationCursor
      conversation.keyDigest entry.factId direction)) none =
      .ok (conversation.window limit entry.position direction) := by
  have horder : entry ∈ conversation.order := List.mem_of_mem_filter hentry
  have hpersisted := conversation.keyed (List.ne_nil_of_mem horder)
  have hboundary : conversation.boundary limit (some
      (encodeConversationCursor conversation.keyDigest entry.factId
        direction)) none = .ok (entry.position, direction) := by
    refine bind_eq_ok.2 ⟨_, decode_encodeConversationCursor _ _ _, ?_⟩
    refine bind_eq_ok.2 ⟨(), require_eq_ok.2 (decide_eq_true rfl), ?_⟩
    exact bind_eq_ok.2 ⟨_, factPosition_of_mem horder, rfl⟩
  simp only [loadWindow, hboundary, hrepaired, hlimit.1, hlimit.2, and_self,
    decide_true, hpersisted, ↓reduceIte, Option.isSome_none, Bool.and_false,
    Bool.not_false, Bool.and_true]
  rfl

end StoredConversation

/-! Walking along the cursors. -/

def Page.cursor (page : Page) : PageDirection → Option (List UInt8)
  | .older => page.olderCursor
  | .newer => page.newerCursor

/-- The pages met by following one kind of cursor to the end; `none` if the
fuel runs out before. -/
def follow (conversation : StoredConversation) (limit : Nat)
    (direction : PageDirection) : Nat → Page →
    Except StoreErrorClass (Option (List Page))
  | fuel, page =>
      match page.cursor direction with
      | none => .ok (some [page])
      | some cursor =>
          match fuel with
          | 0 => .ok none
          | fuel + 1 => do
              let next ← conversation.loadWindow limit (some cursor) none
              let pages ← follow conversation limit direction fuel next
              .ok (pages.map (page :: ·))

section Walks

variable {conversation : StoredConversation} {limit : Nat}
  {before items after : List OrderedEntry} {page : Page}

theorem follow_end {fuel : Nat}
    (h : page.cursor direction = none) :
    follow conversation limit direction fuel page = .ok (some [page]) := by
  rw [follow, h]

theorem follow_step {fuel : Nat}
    {cursor : List UInt8} {next : Page} {pages : List Page}
    (hcursor : page.cursor direction = some cursor)
    (hload : conversation.loadWindow limit (some cursor) none = .ok next)
    (hrest : follow conversation limit direction fuel next =
      .ok (some pages)) :
    follow conversation limit direction (fuel + 1) page =
      .ok (some (page :: pages)) := by
  rw [follow, hcursor]
  exact bind_eq_ok.2 ⟨next, hload, bind_eq_ok.2 ⟨_, hrest, rfl⟩⟩

theorem Cut.older_step (hcut : Cut conversation limit before items after page)
    (hlimit : 1 ≤ limit ∧ limit ≤ 200)
    (hrepaired : conversation.repaired = true) (hne : before ≠ []) :
    ∃ cursor front more next, page.cursor .older = some cursor ∧
      conversation.loadWindow limit (some cursor) none = .ok next ∧
      before = front ++ more ∧ more ≠ [] ∧
      Cut conversation limit front more (items ++ after) next := by
  cases items with
  | nil => exact absurd (hcut.edge rfl).1 hne
  | cons first rest =>
      have hhistory := hcut.history
      rw [List.append_assoc, List.cons_append] at hhistory
      have hmem : first ∈ conversation.history := by
        rw [hhistory]
        exact List.mem_append_right _ List.mem_cons_self
      obtain ⟨front, more, hsplit, hmore, -, hnext⟩ :=
        StoredConversation.window_older
          (StoredConversation.filter_around hhistory).1 hhistory hlimit.1
          fun h => absurd h hne
      refine ⟨_, front, more, _, ?_, StoredConversation.loadWindow_cursor
        hmem hlimit hrepaired .older, hsplit, hmore hne, hnext⟩
      exact hcut.older.trans (if_neg hne)

theorem Cut.newer_step (hcut : Cut conversation limit before items after page)
    (hlimit : 1 ≤ limit ∧ limit ≤ 200)
    (hrepaired : conversation.repaired = true) (hne : after ≠ []) :
    ∃ cursor more rest next, page.cursor .newer = some cursor ∧
      conversation.loadWindow limit (some cursor) none = .ok next ∧
      after = more ++ rest ∧ more ≠ [] ∧
      Cut conversation limit (before ++ items) more rest next := by
  induction items using List.reverseRecOn with
  | nil => exact absurd (hcut.edge rfl).2 hne
  | append_singleton front last =>
      have hhistory : conversation.history =
          (before ++ front) ++ last :: after := by
        rw [hcut.history]
        simp
      have hmem : last ∈ conversation.history := by
        rw [hhistory]
        exact List.mem_append_right _ List.mem_cons_self
      have hwhole : conversation.history =
          (before ++ (front ++ [last])) ++ after := hcut.history
      obtain ⟨more, rest, hsplit, hmore, hnext⟩ :=
        StoredConversation.window_newer
          (StoredConversation.filter_around hhistory).2 hwhole hlimit.1 hne
      refine ⟨_, more, rest, _, ?_, StoredConversation.loadWindow_cursor
        hmem hlimit hrepaired .newer, hsplit, hmore, hnext⟩
      rw [Page.cursor, hcut.newer, if_neg hne, List.getLast?_concat]
      rfl

/-- Older cursors enumerate everything up to the end of the first window and
stop at a window that begins the history. -/
theorem Cut.follow_older (hcut : Cut conversation limit before items after page)
    (hlimit : 1 ≤ limit ∧ limit ≤ 200)
    (hrepaired : conversation.repaired = true) :
    ∃ fuel pages oldest shown rest,
      follow conversation limit .older fuel page = .ok (some pages) ∧
      (∀ page ∈ pages, Window conversation limit page) ∧
      pages.reverse.flatMap Page.items = before ++ items ∧
      pages.getLast? = some oldest ∧
      Cut conversation limit [] shown rest oldest := by
  -- the rows before the window shrink with every page
  induction hsize : before.length using Nat.strong_induction_on
    generalizing before items after page with
  | _ size ih =>
  by_cases hnil : before = []
  · subst hnil
    have hend : page.cursor .older = none := hcut.older
    refine ⟨0, [page], page, items, after, follow_end hend, ?_, ?_, rfl, hcut⟩
    · intro other hother
      rw [List.mem_singleton.1 hother]
      exact hcut.window
    · simp [hcut.shown]
  · obtain ⟨cursor, front, more, next, hcursor, hload, hsplit, hmore, hnext⟩ :=
      hcut.older_step hlimit hrepaired hnil
    have hshorter : front.length < size := by
      have hlength := congrArg List.length hsplit
      have := List.length_pos_iff.2 hmore
      rw [List.length_append] at hlength
      omega
    obtain ⟨fuel, pages, oldest, shown, rest, hfollow, hwindows, hrows, hlast,
      holdest⟩ := ih front.length hshorter hnext rfl
    refine ⟨fuel + 1, page :: pages, oldest, shown, rest,
      follow_step hcursor hload hfollow, ?_, ?_, ?_, holdest⟩
    · intro other hother
      rcases List.mem_cons.1 hother with rfl | hother
      · exact hcut.window
      · exact hwindows other hother
    · rw [List.reverse_cons, List.flatMap_append, hrows, hsplit]
      simp [hcut.shown]
    · rw [List.getLast?_cons, hlast]
      rfl

/-- Newer cursors enumerate everything from the start of the window on. -/
theorem Cut.follow_newer (hcut : Cut conversation limit before items after page)
    (hlimit : 1 ≤ limit ∧ limit ≤ 200)
    (hrepaired : conversation.repaired = true) :
    ∃ fuel pages,
      follow conversation limit .newer fuel page = .ok (some pages) ∧
      (∀ page ∈ pages, Window conversation limit page) ∧
      pages.flatMap Page.items = items ++ after := by
  induction hsize : after.length using Nat.strong_induction_on
    generalizing before items after page with
  | _ size ih =>
  by_cases hnil : after = []
  · subst hnil
    have hend : page.cursor .newer = none := hcut.newer
    refine ⟨0, [page], follow_end hend, ?_, ?_⟩
    · intro other hother
      rw [List.mem_singleton.1 hother]
      exact hcut.window
    · simp [hcut.shown]
  · obtain ⟨cursor, more, rest, next, hcursor, hload, hsplit, hmore, hnext⟩ :=
      hcut.newer_step hlimit hrepaired hnil
    have hshorter : rest.length < size := by
      have hlength := congrArg List.length hsplit
      have := List.length_pos_iff.2 hmore
      rw [List.length_append] at hlength
      omega
    obtain ⟨fuel, pages, hfollow, hwindows, hrows⟩ :=
      ih rest.length hshorter hnext rfl
    refine ⟨fuel + 1, page :: pages, follow_step hcursor hload hfollow,
      ?_, ?_⟩
    · intro other hother
      rcases List.mem_cons.1 hother with rfl | hother
      · exact hcut.window
      · exact hwindows other hother
    · rw [List.flatMap_cons, hrows, hcut.shown, hsplit]

end Walks

/-! Where a walk starts. -/

theorem filter_split {entries : List OrderedEntry}
    (hsorted : entries.Pairwise fun left right =>
      left.position < right.position) (position : Nat) :
    (entries.filter fun entry => decide (entry.position ≤ position)) ++
      (entries.filter fun entry => decide (position < entry.position)) =
      entries := by
  induction entries with
  | nil => rfl
  | cons first rest ih =>
      obtain ⟨hfirst, hrest⟩ := List.pairwise_cons.1 hsorted
      by_cases hle : first.position ≤ position
      · rw [List.filter_cons_of_pos (by simpa using hle),
          List.filter_cons_of_neg (by simpa using hle), List.cons_append,
          ih hrest]
      · have hnone : rest.filter
            (fun entry => decide (entry.position ≤ position)) = [] := by
          rw [List.filter_eq_nil_iff]
          intro entry hentry
          have := hfirst entry hentry
          simp only [decide_eq_true_eq]
          omega
        have hevery : rest.filter
            (fun entry => decide (position < entry.position)) = rest := by
          rw [List.filter_eq_self]
          intro entry hentry
          have := hfirst entry hentry
          simp only [decide_eq_true_eq]
          omega
        rw [List.filter_cons_of_neg (by simpa using hle), hnone,
          List.filter_cons_of_pos (by simpa using hle), hevery,
          List.nil_append]

/-- What a first window promises: it and every page behind its cursors are
windows, older cursors lead from it to the oldest entry, newer cursors lead
from there over the whole history, and a presentable anchor is shown. -/
structure Sound (conversation : StoredConversation) (limit : Nat)
    (anchor : Option FactId) (page : Page) : Prop where
  window : Window conversation limit page
  walk : ∃ fuel olders oldest back newers beyond,
    follow conversation limit .older fuel page = .ok (some olders) ∧
    olders.getLast? = some oldest ∧
    follow conversation limit .newer back oldest = .ok (some newers) ∧
    (∀ page ∈ olders ++ newers, Window conversation limit page) ∧
    conversation.history =
      olders.reverse.flatMap Page.items ++ beyond ∧
    (page.newerCursor.isSome = true ↔ beyond ≠ []) ∧
    (anchor = none → beyond = []) ∧
    newers.flatMap Page.items = conversation.history
  shown : ∀ entry ∈ conversation.history, anchor = some entry.factId →
    entry ∈ page.items

/-- The anchor lies before the whole history, and the window has one place. -/
def Stranded (conversation : StoredConversation) (limit : Nat)
    (anchor : Option FactId) : Prop :=
  (1 ≤ limit ∧ limit ≤ 200) ∧ conversation.repaired = true ∧
    ∃ fact position, anchor = some fact ∧
      conversation.anchorPosition fact = .ok position ∧
      StoredConversation.historyLimit limit conversation.liveTail = 1 ∧
      (∀ entry ∈ conversation.history, position < entry.position) ∧
      conversation.history ≠ []

section Starts

variable {conversation : StoredConversation} {limit : Nat}
  {anchor : Option FactId} {before items after : List OrderedEntry}
  {page : Page}

theorem Cut.sound (hcut : Cut conversation limit before items after page)
    (hlimit : 1 ≤ limit ∧ limit ≤ 200)
    (hrepaired : conversation.repaired = true)
    (hnewest : anchor = none → after = [])
    (hshown : ∀ entry ∈ conversation.history, anchor = some entry.factId →
      entry ∈ items) :
    Sound conversation limit anchor page := by
  obtain ⟨fuel, olders, oldest, shown, rest, holder, hwindows, hrows, hlast,
    holdest⟩ := hcut.follow_older hlimit hrepaired
  obtain ⟨back, newers, hnewer, hnewers, hall⟩ :=
    holdest.follow_newer hlimit hrepaired
  refine ⟨hcut.window, ⟨fuel, olders, oldest, back, newers, after, holder,
    hlast, hnewer, ?_, ?_, ?_, hnewest, ?_⟩, ?_⟩
  · intro other hother
    rcases List.mem_append.1 hother with hother | hother
    · exact hwindows other hother
    · exact hnewers other hother
  · rw [hrows]
    exact hcut.history
  · rw [hcut.newer]
    by_cases hnil : after = []
    · simp [hnil]
    · have hne : items ≠ [] := fun h => hnil (hcut.edge h).2
      simp [hnil, hne]
  · rw [hall, holdest.history, List.nil_append]
  · intro entry hentry hanchor
    rw [hcut.shown]
    exact hshown entry hentry hanchor

theorem loadWindow_start (h : conversation.loadWindow limit none anchor =
      .ok page) :
    (1 ≤ limit ∧ limit ≤ 200) ∧ conversation.repaired = true ∧
      ∃ boundary direction,
        conversation.boundary limit none anchor = .ok (boundary, direction) ∧
        page = if conversation.persisted then
          conversation.window limit boundary direction
          else ⟨[], none, none, none⟩ := by
  obtain ⟨⟨⟩, hlimit, h⟩ := bind_eq_ok.1 h
  obtain ⟨⟨⟩, hrepaired, h⟩ := bind_eq_ok.1 h
  obtain ⟨⟨boundary, direction⟩, hboundary, h⟩ := bind_eq_ok.1 h
  have hrange := require_eq_ok.1 hlimit
  simp only [Option.isSome_none, Bool.false_and, Bool.not_false,
    Bool.and_true, decide_eq_true_eq] at hrange
  refine ⟨hrange, require_eq_ok.1 hrepaired, boundary, direction, hboundary, ?_⟩
  dsimp only at h
  split at h
  · rename_i hpersisted
    rw [if_pos hpersisted]
    exact (Except.ok.inj h).symm
  · rename_i hpersisted
    rw [if_neg hpersisted]
    exact (Except.ok.inj h).symm

theorem boundary_anchor {fact : FactId} {position : Nat}
    (h : conversation.anchorPosition fact = .ok position) (limit : Nat) :
    conversation.boundary limit none (some fact) =
      .ok (conversation.anchorBoundary limit position, .older) :=
  bind_eq_ok.2 ⟨position, h, rfl⟩

/-- A request that is accepted is answered. -/
theorem loadWindow_of_boundary (hlimit : 1 ≤ limit ∧ limit ≤ 200)
    (hrepaired : conversation.repaired = true) {boundary : Nat}
    {direction : PageDirection}
    (h : conversation.boundary limit none anchor = .ok (boundary, direction)) :
    conversation.loadWindow limit none anchor =
      .ok (if conversation.persisted then
        conversation.window limit boundary direction
        else ⟨[], none, none, none⟩) := by
  refine bind_eq_ok.2 ⟨(), require_eq_ok.2 (by simp [hlimit]), ?_⟩
  refine bind_eq_ok.2 ⟨(), require_eq_ok.2 hrepaired, ?_⟩
  refine bind_eq_ok.2 ⟨(boundary, direction), h, ?_⟩
  dsimp only
  split
  · rfl
  · rfl

theorem history_eq_nil_of_not_persisted
    (h : ¬ conversation.persisted = true) : conversation.history = [] := by
  by_contra hne
  apply h
  apply conversation.keyed
  intro horder
  exact hne (by rw [StoredConversation.history, horder]; rfl)

theorem cut_empty (h : conversation.history = []) (limit : Nat) :
    Cut conversation limit [] [] [] ⟨[], none, none, none⟩ :=
  ⟨h, rfl, Nat.zero_le _, nofun, rfl, rfl, fun _ => ⟨rfl, rfl⟩⟩

/-- The newest window holds the end of the history. -/
theorem window_newest (conversation : StoredConversation)
    (hlimit : 1 ≤ limit) :
    ∃ front items, conversation.history = front ++ items ∧
      items.length = min (StoredConversation.historyLimit limit
        conversation.liveTail) conversation.history.length ∧
      Cut conversation limit front items []
        (conversation.window limit i64Max .older) := by
  obtain ⟨front, items, hsplit, -, hlength, hcut⟩ :=
    StoredConversation.window_older conversation.filter_lt_max
      (List.append_nil _).symm hlimit fun _ => rfl
  rw [if_pos rfl] at hlength
  exact ⟨front, items, hsplit, hlength, hcut⟩

/-- A suffix longer than the rows behind an entry contains the entry. -/
theorem mem_of_suffix {front items left right : List OrderedEntry}
    (hsplit : front ++ items = left ++ entry :: right)
    (hlength : right.length < items.length) : entry ∈ items := by
  have hsize := congrArg List.length hsplit
  simp only [List.length_append, List.length_cons] at hsize
  have hdrop := congrArg (List.drop front.length) hsplit
  rw [List.drop_left, List.drop_append_of_le_length (by omega)] at hdrop
  rw [hdrop]
  exact List.mem_append_right _ List.mem_cons_self

/-- The rows behind a position are cut off at an entry there. -/
theorem exists_cut_at {position : Nat}
    (hentry : entry ∈ conversation.history)
    (hposition : entry.position = position) :
    ∃ left, conversation.history = left ++ entry ::
      conversation.history.filter fun other =>
        decide (position < other.position) := by
  obtain ⟨left, right, hcut⟩ := List.append_of_mem hentry
  have hright := (StoredConversation.filter_around hcut).2
  rw [hposition] at hright
  exact ⟨left, by rw [hright]; exact hcut⟩

/-- Which boundary an anchor gets: behind half a window of newer entries, or
none if there are fewer. -/
theorem anchorBoundary_cases (conversation : StoredConversation)
    (limit position : Nat) :
    let half :=
      StoredConversation.historyLimit limit conversation.liveTail / 2
    let newer := conversation.history.filter fun other =>
      decide (position < other.position)
    (∃ near entry far, newer = near ++ entry :: far ∧ near.length = half ∧
      conversation.anchorBoundary limit position = entry.position) ∨
    (newer.length ≤ half ∧
      conversation.anchorBoundary limit position = i64Max) := by
  intro half newer
  by_cases hmore : half < newer.length
  · left
    refine ⟨newer.take half, newer.get ⟨half, hmore⟩, newer.drop (half + 1),
      ?_, ?_, ?_⟩
    · rw [List.get_eq_getElem, List.getElem_cons_drop hmore,
        List.take_append_drop]
    · rw [List.length_take]
      omega
    · have htake : newer.take (half + 1) =
          newer.take half ++ [newer.get ⟨half, hmore⟩] :=
        (List.take_concat_get' newer half hmore).symm
      have hlength : half < (newer.take (half + 1)).length := by
        rw [List.length_take]
        omega
      refine (if_pos hlength).trans ?_
      change ((newer.take (half + 1)).getLast?.map _).getD _ = _
      rw [htake, List.getLast?_concat]
      rfl
  · right
    refine ⟨Nat.le_of_not_lt hmore, if_neg ?_⟩
    change ¬ half < (newer.take (half + 1)).length
    rw [List.length_take]
    omega

/-- An anchored window is cut from the history around the anchor, unless it
is stranded. -/
theorem anchored_cut {fact : FactId} {position : Nat}
    (hlimit : 1 ≤ limit ∧ limit ≤ 200)
    (hrepaired : conversation.repaired = true)
    (hposition : conversation.anchorPosition fact = .ok position)
    (hfree : ¬ Stranded conversation limit (some fact)) :
    ∃ before items after, Cut conversation limit before items after
        (conversation.window limit
          (conversation.anchorBoundary limit position) .older) ∧
      ∀ entry ∈ conversation.history, entry.position = position →
        entry ∈ items := by
  have hpos := StoredConversation.historyLimit_pos hlimit.1
    conversation.liveTail
  have hle := StoredConversation.historyLimit_le limit conversation.liveTail
  have hwhole := filter_split conversation.history_sorted position
  rcases anchorBoundary_cases conversation limit position with
    ⟨near, edge, far, hnewer, hnear, hboundary⟩ | ⟨hshort, hboundary⟩
  · rw [hnewer] at hwhole
    obtain ⟨older, holder⟩ : ∃ older, older = conversation.history.filter
        fun entry => decide (entry.position ≤ position) := ⟨_, rfl⟩
    rw [← holder] at hwhole
    have hhistory : conversation.history = (older ++ near) ++ edge :: far := by
      rw [← hwhole, List.append_assoc]
    have hedge : older ++ near = [] → edge :: far = [] := by
      intro hnil
      obtain ⟨holdnil, hnearnil⟩ := List.append_eq_nil_iff.1 hnil
      rw [hnearnil, List.length_nil] at hnear
      refine absurd ⟨hlimit, hrepaired, fact, position, rfl, hposition,
        by omega, ?_, ?_⟩ hfree
      · intro entry hentry
        by_contra hnot
        have hmem : entry ∈ older := by
          rw [holder, List.mem_filter]
          exact ⟨hentry, decide_eq_true (by omega)⟩
        rw [holdnil] at hmem
        exact List.not_mem_nil hmem
      · rw [hhistory]
        simp
    obtain ⟨front, items, hsplit, -, hlength, hcut⟩ :=
      StoredConversation.window_older
        (StoredConversation.filter_around hhistory).1 hhistory hlimit.1 hedge
    rw [hboundary]
    refine ⟨front, items, edge :: far, hcut, ?_⟩
    intro entry hentry hat
    have hmax : edge.position ≠ i64Max :=
      (StoredConversation.position_lt_of_mem (by rw [hhistory]; simp)).ne
    have hnotail : StoredConversation.historyLimit limit none = limit := rfl
    rw [if_neg hmax, hnotail] at hlength
    obtain ⟨left, hleft⟩ := exists_cut_at hentry hat
    rw [hnewer, hhistory] at hleft
    have hsame : (older ++ near) ++ edge :: far =
        (left ++ entry :: near) ++ edge :: far := by
      rw [hleft]
      simp
    have hcancel := List.append_cancel_right hsame
    rw [hsplit] at hcancel
    apply mem_of_suffix hcancel
    have hsize := congrArg List.length hcancel
    rw [← hsplit] at hsize
    simp only [List.length_append, List.length_cons] at hsize hlength
    omega
  · obtain ⟨front, items, hsplit, hlength, hcut⟩ :=
      window_newest conversation hlimit.1
    rw [hboundary]
    refine ⟨front, items, [], hcut, ?_⟩
    intro entry hentry hat
    obtain ⟨left, hleft⟩ := exists_cut_at hentry hat
    have hsize := congrArg List.length hleft
    simp only [List.length_append, List.length_cons] at hsize
    apply mem_of_suffix (hsplit.symm.trans hleft)
    omega

theorem anchorPosition_of_mem (h : entry ∈ conversation.order) :
    conversation.anchorPosition entry.factId = .ok entry.position := by
  have hfact := StoredConversation.factPosition_of_mem h
  unfold StoredConversation.factPosition at hfact
  unfold StoredConversation.anchorPosition
  split at hfact
  · exact hfact
  · cases hfact

/-- A stranded window shows nothing and has no cursor. -/
theorem stranded_window (h : Stranded conversation limit anchor) :
    conversation.loadWindow limit none anchor =
      .ok ⟨[], none, none, none⟩ ∧ conversation.history ≠ [] := by
  obtain ⟨hlimit, hrepaired, fact, position, rfl, hposition, hone, hbehind,
    hne⟩ := h
  refine ⟨?_, hne⟩
  have horder : conversation.order ≠ [] := by
    intro hnil
    exact hne (by rw [StoredConversation.history, hnil]; rfl)
  have hpersisted := conversation.keyed horder
  have hnewer : (conversation.history.filter fun other =>
      decide (position < other.position)) = conversation.history :=
    List.filter_eq_self.2 fun entry hentry =>
      decide_eq_true (hbehind entry hentry)
  have hboundary : ∃ first rest, conversation.history = first :: rest ∧
      conversation.anchorBoundary limit position = first.position := by
    rcases anchorBoundary_cases conversation limit position with
      ⟨near, edge, far, hcut, hnear, hedge⟩ | ⟨hshort, -⟩
    · rw [hone] at hnear
      rw [List.length_eq_zero_iff.1 hnear, hnewer] at hcut
      exact ⟨edge, far, hcut, hedge⟩
    · rw [hnewer, hone] at hshort
      exact absurd (List.length_eq_zero_iff.1 (Nat.le_zero.1 hshort)) hne
  obtain ⟨first, rest, hhistory, hboundary⟩ := hboundary
  have hfirst : conversation.history = [] ++ first :: rest := hhistory
  have hbefore := (StoredConversation.filter_around hfirst).1
  have hmax : first.position ≠ i64Max :=
    (StoredConversation.position_lt_of_mem
      (by rw [hhistory]; exact List.mem_cons_self)).ne
  have hwindow : conversation.window limit first.position .older =
      ⟨[], none, none, none⟩ := by
    simp [StoredConversation.window, StoredConversation.orderedEntries,
      hbefore, hmax, StoredConversation.continuation]
  rw [loadWindow_of_boundary hlimit hrepaired (boundary_anchor hposition limit),
    if_pos hpersisted, hboundary, hwindow]

end Starts

/-- Every accepted request for a first window is answered, and the windows and
everything behind their cursors are as promised exactly when the window is not
stranded before the whole history. -/
theorem first_window_sound_iff (conversation : StoredConversation)
    (limit : Nat) (anchor : Option FactId) :
    (1 ≤ limit ∧ limit ≤ 200 → conversation.repaired = true →
      (∀ fact, anchor = some fact →
        ∃ position, conversation.anchorPosition fact = .ok position) →
      ∃ page, conversation.loadWindow limit none anchor = .ok page) ∧
    ((∀ page, conversation.loadWindow limit none anchor = .ok page →
      Sound conversation limit anchor page) ↔
      ¬ Stranded conversation limit anchor) := by
  refine ⟨fun hlimit hrepaired haccepted => ?_, ?_⟩
  · cases anchor with
    | none => exact ⟨_, loadWindow_of_boundary hlimit hrepaired rfl⟩
    | some fact =>
        obtain ⟨position, hposition⟩ := haccepted fact rfl
        exact ⟨_, loadWindow_of_boundary hlimit hrepaired
          (boundary_anchor hposition limit)⟩
  constructor
  · intro hsound hstranded
    obtain ⟨hload, hne⟩ := stranded_window hstranded
    obtain ⟨before, after, hhistory, -, -, holder, hnewer⟩ :=
      (hsound _ hload).window
    have hbefore : before = [] := by simpa using holder
    have hafter : after = [] := by simpa using hnewer
    exact hne (by rw [hhistory, hbefore, hafter]; rfl)
  · intro hfree page hload
    obtain ⟨hlimit, hrepaired, boundary, direction, hboundary, rfl⟩ :=
      loadWindow_start hload
    by_cases hpersisted : conversation.persisted = true
    · rw [if_pos hpersisted]
      cases anchor with
      | none =>
          obtain ⟨rfl, rfl⟩ := Prod.mk.inj (Except.ok.inj hboundary)
          obtain ⟨front, items, -, -, hcut⟩ :=
            window_newest conversation hlimit.1
          exact hcut.sound hlimit hrepaired (fun _ => rfl) nofun
      | some fact =>
          obtain ⟨position, hposition, hrest⟩ := bind_eq_ok.1 hboundary
          obtain ⟨rfl, rfl⟩ := Prod.mk.inj (Except.ok.inj hrest)
          obtain ⟨before, items, after, hcut, hat⟩ :=
            anchored_cut hlimit hrepaired hposition hfree
          refine hcut.sound hlimit hrepaired nofun ?_
          intro entry hentry hanchor
          obtain rfl := Option.some.inj hanchor
          rw [anchorPosition_of_mem (List.mem_of_mem_filter hentry)]
            at hposition
          exact hat entry hentry (Except.ok.inj hposition)
    · rw [if_neg hpersisted]
      have hnil := history_eq_nil_of_not_persisted hpersisted
      refine (cut_empty hnil limit).sound hlimit hrepaired (fun _ => rfl) ?_
      intro entry hentry
      rw [hnil] at hentry
      exact absurd hentry List.not_mem_nil

/-- A progress record and, behind it, one message. -/
def progressFirst : StoredConversation where
  repaired := true
  persisted := true
  keyDigest := ⟨List.replicate 32 0, rfl⟩
  order := [⟨0, OpaqueBytes.ofNat 1, some (.progress, .running)⟩,
    ⟨1, OpaqueBytes.ofNat 2, none⟩]
  liveTail := none
  superseding := fun _ => none
  ascending := by simp
  unique := by decide +kernel
  bounded := by simp [i64Max]
  listed := nofun
  keyed := fun _ => rfl

/-- Anchored at the progress record, a window of one entry is empty and leads
nowhere, although the message is in the history. -/
theorem anchored_window_empty :
    progressFirst.loadWindow 1 none (some (OpaqueBytes.ofNat 1)) =
      .ok ⟨[], none, none, none⟩ ∧
    progressFirst.history = [⟨1, OpaqueBytes.ofNat 2, none⟩] := by
  decide +kernel

end Hq.ConversationPages
