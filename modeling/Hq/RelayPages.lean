/-
Pages of the durable relay state: seven tables are read side by side, each
behind its own key, until every table is exhausted.  A run of pages is read
against the database as it is at each page.
-/
import Hq.RelayStore
import Hq.StoreSteps

namespace Hq.RelayPages

variable {database : RelayState} {page : StatePage} {query : StateQuery}
  {limit : Nat}

/-! One table behind one key. -/

section Table

variable {K V : Type} [LinearOrder K] {key : V → K}

/-- The rows as `ORDER BY` lists them. -/
def orderBy (key : V → K) (rows : List V) : List V :=
  (OrderedMap.ofList (rows.map fun row => (key row, row))).values

/-- The key lies behind the position. -/
def Ahead : RelayPagePosition K → K → Prop
  | .start, _ => True
  | .after cursor, other => cursor < other
  | .done, _ => False

instance (position : RelayPagePosition K) (other : K) :
    Decidable (Ahead position other) :=
  match position with
  | .start => .isTrue trivial
  | .after cursor => inferInstanceAs (Decidable (cursor < other))
  | .done => .isFalse id

/-- The rows that a position still has to return, in key order. -/
def remaining (key : V → K) (position : RelayPagePosition K)
    (rows : List V) : List V :=
  (orderBy key rows).filter fun row => Ahead position (key row)

def select (key : V → K) (position : RelayPagePosition K) (limit : Nat)
    (rows : List V) : List V :=
  match position with
  | .done => []
  | .start => (orderBy key rows).take limit
  | .after cursor =>
      ((orderBy key rows).filter fun row => cursor < key row).take limit

def advance (current : RelayPagePosition K) (returned limit : Nat)
    (last : Option K) : RelayPagePosition K :=
  match current with
  | .done => .done
  | _ =>
      if returned < limit then .done
      else
        match last with
        | some last => .after last
        | none => .done

def isDone : RelayPagePosition K → Bool
  | .done => true
  | _ => false

omit [LinearOrder K] in
theorem isDone_iff {position : RelayPagePosition K} :
    isDone position = true ↔ position = .done := by
  cases position <;> simp [isDone]

/-- The position behind a page of rows. -/
def behind (key : V → K) (current : RelayPagePosition K) (limit : Nat)
    (page : List V) : RelayPagePosition K :=
  advance current page.length limit (page.getLast?.map key)

theorem entry_key {rows : List V} {entry : K × V}
    (hentry : entry ∈
      (OrderedMap.ofList (rows.map fun row => (key row, row))).entries) :
    entry.1 = key entry.2 ∧ entry.2 ∈ rows := by
  have hmem := OrderedMap.mem_of_get?_ofList
    (OrderedMap.get?_eq_some_iff.2 hentry)
  obtain ⟨row, hrow, heq⟩ := List.mem_map.1 hmem
  obtain ⟨hkey, hvalue⟩ := Prod.mk.inj heq
  rw [← hkey, ← hvalue]
  exact ⟨rfl, hrow⟩

theorem orderBy_sorted (rows : List V) :
    (orderBy key rows).Pairwise fun left right => key left < key right := by
  rw [orderBy, OrderedMap.values, List.pairwise_map]
  refine (OrderedMap.sorted _).imp_of_mem ?_
  intro left right hleft hright hlt
  rwa [(entry_key hleft).1, (entry_key hright).1] at hlt

theorem mem_of_mem_orderBy {rows : List V} {row : V}
    (hrow : row ∈ orderBy key rows) : row ∈ rows := by
  obtain ⟨entry, hentry, rfl⟩ := List.mem_map.1 hrow
  exact (entry_key hentry).2

theorem exists_mem_orderBy {rows : List V} {row : V} (hrow : row ∈ rows) :
    ∃ other ∈ orderBy key rows, key other = key row := by
  have hlisted : ∃ value, (key row, value) ∈
      rows.map fun row => (key row, row) :=
    ⟨row, List.mem_map.2 ⟨row, hrow, rfl⟩⟩
  obtain ⟨found, hfound⟩ :=
    Option.isSome_iff_exists.1 (OrderedMap.get?_ofList_isSome.2 hlisted)
  have hentry := OrderedMap.get?_eq_some_iff.1 hfound
  exact ⟨found, List.mem_map.2 ⟨_, hentry, rfl⟩, (entry_key hentry).1.symm⟩

/-- Rows of distinct keys are all listed, each once. -/
theorem orderBy_perm {rows : List V}
    (hkeys : rows.Pairwise fun left right => key left ≠ key right) :
    (orderBy key rows).Perm rows := by
  have hnodup : rows.Nodup := hkeys.imp fun hne heq => hne (congrArg key heq)
  have hlisted : (orderBy key rows).Nodup :=
    (orderBy_sorted rows).imp fun hlt heq => hlt.ne (congrArg key heq)
  rw [List.perm_ext_iff_of_nodup hlisted hnodup]
  intro row
  refine ⟨mem_of_mem_orderBy, fun hrow => ?_⟩
  have hexists : ∃ other ∈ orderBy key rows, key other = key row :=
    exists_mem_orderBy hrow
  obtain ⟨other, hother, hkey⟩ := hexists
  have heq : other = row := List.inj_on_of_nodup_map
    (List.pairwise_map.2 hkeys) (mem_of_mem_orderBy hother) hrow hkey
  exact heq ▸ hother

@[simp] theorem remaining_start (rows : List V) :
    remaining key .start rows = orderBy key rows :=
  List.filter_eq_self.2 fun _ _ => decide_eq_true trivial

@[simp] theorem remaining_done (rows : List V) :
    remaining key .done rows = [] :=
  List.filter_eq_nil_iff.2 fun _ _ h => of_decide_eq_true h

theorem select_eq_take (position : RelayPagePosition K) (limit : Nat)
    (rows : List V) :
    select key position limit rows =
      (remaining key position rows).take limit := by
  cases position with
  | start => simp [select]
  | after cursor => rfl
  | done => simp [select]

theorem remaining_sorted (key : V → K) (position : RelayPagePosition K)
    (rows : List V) :
    (remaining key position rows).Pairwise
      fun left right => key left < key right :=
  (orderBy_sorted rows).filter _

theorem mem_remaining {position : RelayPagePosition K} {rows : List V}
    {row : V} : row ∈ remaining key position rows ↔
      row ∈ orderBy key rows ∧ Ahead position (key row) := by
  rw [remaining, List.mem_filter, decide_eq_true_eq]

/-- What `advance` does: a short page ends the table, a full page moves the
position to its last row. -/
theorem behind_cases (key : V → K) (position : RelayPagePosition K)
    (hlimit : 0 < limit) (rows : List V) :
    let page := (remaining key position rows).take limit
    (page = remaining key position rows ∧
      behind key position limit page = .done) ∨
    ∃ front last, page = front ++ [last] ∧ position ≠ .done ∧
      behind key position limit page = .after (key last) := by
  intro page
  by_cases hdone : position = .done
  · subst hdone
    left
    simp [page, behind, advance]
  by_cases hshort : page.length < limit
  · left
    constructor
    · apply List.take_of_length_le
      rw [List.length_take] at hshort
      omega
    · cases position with
      | start => simp [behind, advance, hshort]
      | after cursor => simp [behind, advance, hshort]
      | done => rfl
  · right
    have hne : page ≠ [] := by
      rintro hnil
      rw [hnil] at hshort
      exact hshort hlimit
    refine ⟨page.dropLast, page.getLast hne,
      (List.dropLast_append_getLast hne).symm, hdone, ?_⟩
    cases position with
    | start => simp [behind, advance, hshort, List.getLast?_eq_some_getLast hne]
    | after cursor =>
        simp [behind, advance, hshort, List.getLast?_eq_some_getLast hne]
    | done => exact absurd rfl hdone

theorem ahead_after {cursor other : K} :
    Ahead (.after cursor) other ↔ cursor < other := Iff.rfl

theorem Ahead.of_lt {position : RelayPagePosition K} {other later : K}
    (hahead : Ahead position other) (hlt : other < later) :
    Ahead position later := by
  cases position with
  | start => trivial
  | after cursor => exact lt_trans hahead hlt
  | done => exact hahead

/-- The last row of a page separates it from the rows behind the page. -/
theorem page_around {position : RelayPagePosition K}
    {rows front : List V} {last : V}
    (hpage : (remaining key position rows).take limit = front ++ [last]) :
    Ahead position (key last) ∧
    (∀ row ∈ front ++ [last], key row ≤ key last) ∧
    ∀ row ∈ (remaining key position rows).drop limit,
      key last < key row := by
  have hsplit := List.take_append_drop limit (remaining key position rows)
  have hsorted := remaining_sorted key position rows
  rw [← hsplit, hpage] at hsorted
  obtain ⟨hfront, -, hrest⟩ := List.pairwise_append.1 hsorted
  have hlast : last ∈ remaining key position rows :=
    List.mem_of_mem_take (hpage ▸ List.mem_append_right _ List.mem_cons_self)
  refine ⟨(mem_remaining.1 hlast).2, ?_, ?_⟩
  · intro row hrow
    rcases List.mem_append.1 hrow with hrow | hrow
    · exact ((List.pairwise_append.1 hfront).2.2 row hrow last
        List.mem_cons_self).le
    · rw [List.mem_singleton.1 hrow]
  · intro row hrow
    exact hrest last (List.mem_append_right _ List.mem_cons_self) row hrow

/-- Against an unchanged table a page and what remains behind it are exactly
what remained before. -/
theorem remaining_behind (position : RelayPagePosition K)
    (hlimit : 0 < limit) (rows : List V) :
    remaining key (behind key position limit
      ((remaining key position rows).take limit)) rows =
      (remaining key position rows).drop limit := by
  have hsplit := List.take_append_drop limit (remaining key position rows)
  rcases behind_cases key position hlimit rows with
    ⟨hall, hbehind⟩ | ⟨front, last, hpage, -, hbehind⟩
  · rw [hbehind, remaining_done]
    rw [hall] at hsplit
    exact (List.append_right_eq_self.1 hsplit).symm
  · obtain ⟨hlast, hfront, hrest⟩ := page_around hpage
    -- rows behind the last one are among those that were left before the page
    have hwithin : remaining key (.after (key last)) rows =
        (remaining key position rows).filter fun row => key last < key row := by
      rw [remaining, remaining, List.filter_filter]
      apply List.filter_congr
      intro row _
      by_cases hlt : key last < key row
      · simp [ahead_after, hlt, hlast.of_lt hlt]
      · simp [ahead_after, hlt]
    have hnone : (front ++ [last]).filter
        (fun row => decide (key last < key row)) = [] := by
      rw [List.filter_eq_nil_iff]
      intro row hrow
      simpa using hfront row hrow
    have hevery : ((remaining key position rows).drop limit).filter
        (fun row => decide (key last < key row)) =
          (remaining key position rows).drop limit := by
      rw [List.filter_eq_self]
      intro row hrow
      simpa using hrest row hrow
    rw [hbehind, hwithin]
    nth_rewrite 1 [← hsplit]
    rw [List.filter_append, hpage, hnone, hevery, List.nil_append]

/-- One if the key still has to come at the position. -/
def due (position : RelayPagePosition K) (other : K) : Nat :=
  if Ahead position other then 1 else 0

theorem due_of_ahead {position : RelayPagePosition K} {other : K}
    (h : Ahead position other) : due position other = 1 := if_pos h

theorem due_of_not_ahead {position : RelayPagePosition K} {other : K}
    (h : ¬ Ahead position other) : due position other = 0 := if_neg h

theorem ahead_of_behind {position : RelayPagePosition K}
    (hlimit : 0 < limit) {rows : List V} {other : K}
    (h : Ahead (behind key position limit
      ((remaining key position rows).take limit)) other) :
    Ahead position other ∧
      other ∉ ((remaining key position rows).take limit).map key := by
  rcases behind_cases key position hlimit rows with
    ⟨-, hbehind⟩ | ⟨front, last, hpage, -, hbehind⟩
  · rw [hbehind] at h
    exact h.elim
  · rw [hbehind] at h
    obtain ⟨hlast, hfront, -⟩ := page_around hpage
    refine ⟨hlast.of_lt h, ?_⟩
    rw [hpage]
    intro hmem
    obtain ⟨row, hrow, rfl⟩ := List.mem_map.1 hmem
    exact absurd h (not_lt.2 (hfront row hrow))

/-- A key that is stored and due comes in the page or stays due. -/
theorem mem_page_or_ahead {position : RelayPagePosition K}
    (hlimit : 0 < limit) {rows : List V} {row : V} (hrow : row ∈ rows)
    (hahead : Ahead position (key row)) :
    key row ∈ ((remaining key position rows).take limit).map key ∨
      Ahead (behind key position limit
        ((remaining key position rows).take limit)) (key row) := by
  have hexists : ∃ other ∈ orderBy key rows, key other = key row :=
    exists_mem_orderBy hrow
  obtain ⟨other, hother, hkey⟩ := hexists
  rw [← hkey] at hahead ⊢
  have hmem := mem_remaining.2 ⟨hother, hahead⟩
  rcases behind_cases key position hlimit rows with
    ⟨hall, -⟩ | ⟨front, last, hpage, -, hbehind⟩
  · left
    rw [hall]
    exact List.mem_map_of_mem hmem
  · rw [← List.take_append_drop limit (remaining key position rows)] at hmem
    rcases List.mem_append.1 hmem with hmem | hmem
    · exact .inl (List.mem_map_of_mem hmem)
    · right
      rw [hbehind]
      exact (page_around hpage).2.2 other hmem

/-- A page returns no key that was not due, and none twice. -/
theorem count_page_le (position : RelayPagePosition K)
    (hlimit : 0 < limit) (rows : List V) (other : K) :
    (((remaining key position rows).take limit).map key).count other +
      due (behind key position limit
        ((remaining key position rows).take limit)) other ≤
      due position other := by
  have hnodup : (((remaining key position rows).take limit).map key).Nodup :=
    List.pairwise_map.2
      (((remaining_sorted key position rows).take).imp fun h => h.ne)
  by_cases hmem : other ∈ ((remaining key position rows).take limit).map key
  · have hbehind := due_of_not_ahead fun h => (ahead_of_behind hlimit h).2 hmem
    obtain ⟨row, hrow, rfl⟩ := List.mem_map.1 hmem
    rw [hbehind, List.count_eq_one_of_mem hnodup hmem,
      due_of_ahead (mem_remaining.1 (List.mem_of_mem_take hrow)).2]
  · rw [List.count_eq_zero_of_not_mem hmem, Nat.zero_add]
    unfold due
    split
    · rw [if_pos (ahead_of_behind hlimit ‹_›).1]
    · exact Nat.zero_le _

theorem count_page_eq (position : RelayPagePosition K)
    (hlimit : 0 < limit) {rows : List V} {row : V} (hrow : row ∈ rows) :
    (((remaining key position rows).take limit).map key).count (key row) +
      due (behind key position limit
        ((remaining key position rows).take limit)) (key row) =
      due position (key row) := by
  apply Nat.le_antisymm (count_page_le position hlimit rows (key row))
  by_cases hahead : Ahead position (key row)
  · rw [due_of_ahead hahead]
    rcases mem_page_or_ahead hlimit hrow hahead with hmem | hbehind
    · have := List.one_le_count_iff.2 hmem
      omega
    · rw [due_of_ahead hbehind]
      omega
  · rw [due_of_not_ahead hahead]
    exact Nat.zero_le _

end Table

/-! The seven tables and the query over them. -/

/-- Every row is stored under its own primary key. -/
def Primary {K V : Type} [LinearOrder K] (key : V → K)
    (table : OrderedMap K V) : Prop :=
  ∀ entry ∈ table.entries, entry.1 = key entry.2

/-- The durable rows a relay page is read from. -/
structure RelayState where
  outbox : OrderedMap OutboxKey OutboxIntent
  tables : RelayTables
  outbox_primary : Primary OutboxIntent.key outbox
  policies_primary : Primary RelayPolicy.url tables.policies
  prepared_primary : Primary PreparedOutbound.key tables.prepared
  attempts_primary : Primary RelayAttempt.key tables.attempts
  cursors_primary : Primary CatchupCursor.url tables.cursors
  staged_primary : Primary StagedInput.wrapperSha256 tables.staged
  quarantine_primary :
    Primary QuarantineEvidence.wrapperSha256 tables.quarantine

structure StateQuery where
  limit : Nat
  policies : RelayPagePosition RelayUrl
  outbound : RelayPagePosition OutboundCursor
  prepared : RelayPagePosition OutboxKey
  attempts : RelayPagePosition (RelayUrl ×ₗ Bytes32)
  cursors : RelayPagePosition RelayUrl
  staged : RelayPagePosition ScanBoundary
  quarantine : RelayPagePosition ScanBoundary

def StateQuery.first (limit : Nat) : StateQuery :=
  ⟨limit, .start, .start, .start, .start, .start, .start, .start⟩

structure StateSnapshot where
  policies : List RelayPolicy
  outbound : List OutboxIntent
  prepared : List PreparedOutbound
  attempts : List RelayAttempt
  cursors : List CatchupCursor
  staged : List StagedInput
  quarantine : List QuarantineEvidence

structure StatePage where
  state : StateSnapshot
  next : Option StateQuery

def outboundCursor (intent : OutboxIntent) : OutboundCursor :=
  toLex (intent.revision, intent.key)

def positionsDone (query : StateQuery) : Bool :=
  isDone query.policies && isDone query.outbound && isDone query.prepared &&
    isDone query.attempts && isDone query.cursors && isDone query.staged &&
    isDone query.quarantine

/-- Every table advanced behind its part of the snapshot. -/
def advanced (query : StateQuery) (state : StateSnapshot) : StateQuery where
  limit := query.limit
  policies := advance query.policies state.policies.length query.limit
    (state.policies.getLast?.map RelayPolicy.url)
  outbound := advance query.outbound state.outbound.length query.limit
    (state.outbound.getLast?.map outboundCursor)
  prepared := advance query.prepared state.prepared.length query.limit
    (state.prepared.getLast?.map PreparedOutbound.key)
  attempts := advance query.attempts state.attempts.length query.limit
    (state.attempts.getLast?.map RelayAttempt.key)
  cursors := advance query.cursors state.cursors.length query.limit
    (state.cursors.getLast?.map CatchupCursor.url)
  staged := advance query.staged state.staged.length query.limit
    (state.staged.getLast?.map StagedInput.timed)
  quarantine := advance query.quarantine state.quarantine.length query.limit
    (state.quarantine.getLast?.map QuarantineEvidence.timed)

def nextQuery (query : StateQuery) (state : StateSnapshot) :
    Option StateQuery :=
  if positionsDone (advanced query state) then none
  else some (advanced query state)

def boundedLimit (limit : Nat) : Except StoreErrorClass Nat :=
  if limit = 0 || maxRelayStateQueryItems < limit then
    .error .invalidOperationalRequest
  else .ok limit

def load (database : RelayState) (query : StateQuery) :
    Except StoreErrorClass StatePage := do
  let limit ← boundedLimit query.limit
  let state : StateSnapshot := {
    policies := select RelayPolicy.url query.policies limit
      database.tables.policies.values
    outbound := select outboundCursor query.outbound limit
      database.outbox.values
    prepared := select PreparedOutbound.key query.prepared limit
      database.tables.prepared.values
    attempts := select RelayAttempt.key query.attempts limit
      database.tables.attempts.values
    cursors := select CatchupCursor.url query.cursors limit
      database.tables.cursors.values
    staged := select StagedInput.timed query.staged limit
      database.tables.staged.values
    quarantine := select QuarantineEvidence.timed query.quarantine limit
      database.tables.quarantine.values }
  .ok ⟨state, nextQuery query state⟩

/-- Read one page against each database in turn, following the returned
query, until a page has none. -/
def readPages : List RelayState → StateQuery →
    Except StoreErrorClass (List StatePage × Option StateQuery)
  | [], query => .ok ([], some query)
  | database :: later, query => do
      let page ← load database query
      match page.next with
      | none => .ok ([page], none)
      | some next =>
          let (pages, last) ← readPages later next
          .ok (page :: pages, last)

/-! The tables under one index, so that each fact is proved once. -/

inductive Collection where
  | policies | outbound | prepared | attempts | cursors | staged | quarantine
deriving DecidableEq

namespace Collection

def Row : Collection → Type
  | .policies => RelayPolicy
  | .outbound => OutboxIntent
  | .prepared => PreparedOutbound
  | .attempts => RelayAttempt
  | .cursors => CatchupCursor
  | .staged => StagedInput
  | .quarantine => QuarantineEvidence

def Key : Collection → Type
  | .policies => RelayUrl
  | .outbound => OutboundCursor
  | .prepared => OutboxKey
  | .attempts => RelayUrl ×ₗ Bytes32
  | .cursors => RelayUrl
  | .staged => ScanBoundary
  | .quarantine => ScanBoundary

instance : (collection : Collection) → LinearOrder collection.Key
  | .policies => inferInstanceAs (LinearOrder RelayUrl)
  | .outbound => inferInstanceAs (LinearOrder OutboundCursor)
  | .prepared => inferInstanceAs (LinearOrder OutboxKey)
  | .attempts => inferInstanceAs (LinearOrder (RelayUrl ×ₗ Bytes32))
  | .cursors => inferInstanceAs (LinearOrder RelayUrl)
  | .staged => inferInstanceAs (LinearOrder ScanBoundary)
  | .quarantine => inferInstanceAs (LinearOrder ScanBoundary)

def key : (collection : Collection) → collection.Row → collection.Key
  | .policies => RelayPolicy.url
  | .outbound => outboundCursor
  | .prepared => PreparedOutbound.key
  | .attempts => RelayAttempt.key
  | .cursors => CatchupCursor.url
  | .staged => StagedInput.timed
  | .quarantine => QuarantineEvidence.timed

def stored (database : RelayState) :
    (collection : Collection) → List collection.Row
  | .policies => database.tables.policies.values
  | .outbound => database.outbox.values
  | .prepared => database.tables.prepared.values
  | .attempts => database.tables.attempts.values
  | .cursors => database.tables.cursors.values
  | .staged => database.tables.staged.values
  | .quarantine => database.tables.quarantine.values

def position (query : StateQuery) :
    (collection : Collection) → RelayPagePosition collection.Key
  | .policies => query.policies
  | .outbound => query.outbound
  | .prepared => query.prepared
  | .attempts => query.attempts
  | .cursors => query.cursors
  | .staged => query.staged
  | .quarantine => query.quarantine

def returned (state : StateSnapshot) :
    (collection : Collection) → List collection.Row
  | .policies => state.policies
  | .outbound => state.outbound
  | .prepared => state.prepared
  | .attempts => state.attempts
  | .cursors => state.cursors
  | .staged => state.staged
  | .quarantine => state.quarantine

/-- The position behind a page: `done` once there is no next query. -/
def positionAfter (next : Option StateQuery) (collection : Collection) :
    RelayPagePosition collection.Key :=
  match next with
  | none => .done
  | some query => position query collection

/-- The rows of one table in a run of pages. -/
def returnedBy (pages : List StatePage) (collection : Collection) :
    List collection.Row :=
  pages.flatMap fun page => returned page.state collection

end Collection

open Collection

theorem values_pairwise {K L V : Type} [LinearOrder K] {key : V → K}
    {table : OrderedMap K V} (hprimary : Primary key table) {order : V → L}
    (horder : ∀ left right, order left = order right → key left = key right) :
    table.values.Pairwise fun left right => order left ≠ order right := by
  rw [OrderedMap.values, List.pairwise_map]
  refine table.sorted.imp_of_mem ?_
  intro left right hleft hright hlt heq
  rw [hprimary left hleft, hprimary right hright,
    horder _ _ heq] at hlt
  exact lt_irrefl _ hlt

theorem stored_keys (database : RelayState) (collection : Collection) :
    (stored database collection).Pairwise fun left right =>
      collection.key left ≠ collection.key right := by
  cases collection with
  | policies => exact values_pairwise database.policies_primary fun _ _ h => h
  | outbound =>
      refine values_pairwise database.outbox_primary fun left right h => ?_
      exact congrArg (fun cursor => (ofLex cursor).2) h
  | prepared => exact values_pairwise database.prepared_primary fun _ _ h => h
  | attempts => exact values_pairwise database.attempts_primary fun _ _ h => h
  | cursors => exact values_pairwise database.cursors_primary fun _ _ h => h
  | staged =>
      refine values_pairwise database.staged_primary fun left right h => ?_
      exact congrArg (fun cursor => (ofLex cursor).2) h
  | quarantine =>
      refine values_pairwise database.quarantine_primary fun left right h => ?_
      exact congrArg (fun cursor => (ofLex cursor).2) h

theorem boundedLimit_eq_ok {result : Nat} :
    boundedLimit limit = .ok result ↔
      (0 < limit ∧ limit ≤ maxRelayStateQueryItems) ∧ result = limit := by
  unfold boundedLimit
  split
  · rename_i hout
    simp only [Bool.or_eq_true, decide_eq_true_eq] at hout
    constructor
    · nofun
    · omega
  · rename_i hin
    simp only [Bool.or_eq_true, decide_eq_true_eq, not_or, not_lt] at hin
    constructor
    · intro h
      exact ⟨⟨Nat.pos_of_ne_zero hin.1, hin.2⟩, (Except.ok.inj h).symm⟩
    · rintro ⟨-, rfl⟩
      rfl

theorem exists_load_iff (database : RelayState) :
    (∃ page, load database query = .ok page) ↔
      0 < query.limit ∧ query.limit ≤ maxRelayStateQueryItems := by
  constructor
  · rintro ⟨page, h⟩
    obtain ⟨limit, hlimit, -⟩ := bind_eq_ok.1 h
    exact (boundedLimit_eq_ok.1 hlimit).1
  · intro h
    have hlimit := boundedLimit_eq_ok.2 ⟨h, rfl⟩
    exact ⟨_, bind_eq_ok.2 ⟨_, hlimit, rfl⟩⟩

theorem positionsDone_iff :
    positionsDone query = true ↔
      ∀ collection, position query collection = .done := by
  simp only [positionsDone, Bool.and_eq_true, isDone_iff]
  constructor
  · rintro ⟨⟨⟨⟨⟨⟨h1, h2⟩, h3⟩, h4⟩, h5⟩, h6⟩, h7⟩ collection
    cases collection <;> assumption
  · intro h
    exact ⟨⟨⟨⟨⟨⟨h .policies, h .outbound⟩, h .prepared⟩, h .attempts⟩,
      h .cursors⟩, h .staged⟩, h .quarantine⟩

/-- The next query moves every table behind its own page. -/
theorem positionAfter_nextQuery (query : StateQuery) (state : StateSnapshot)
    (collection : Collection) :
    positionAfter (nextQuery query state) collection =
      behind collection.key (position query collection) query.limit
        (returned state collection) := by
  unfold nextQuery
  split
  · rename_i hdone
    have hposition := positionsDone_iff.1 hdone collection
    cases collection <;> exact hposition.symm
  · cases collection <;> rfl

theorem nextQuery_eq_some {next : StateQuery} {state : StateSnapshot}
    (h : nextQuery query state = some next) :
    next.limit = query.limit ∧
      ∃ collection, position next collection ≠ .done := by
  unfold nextQuery at h
  split at h
  · cases h
  · rename_i hdone
    obtain rfl := Option.some.inj h
    rw [positionsDone_iff, not_forall] at hdone
    exact ⟨rfl, hdone⟩

/-- What one page is: per table the next rows in key order, and the positions
behind them. -/
theorem load_eq_ok (h : load database query = .ok page) :
    (∀ collection, returned page.state collection =
      (remaining collection.key (position query collection)
        (stored database collection)).take query.limit) ∧
    page.next = nextQuery query page.state := by
  obtain ⟨limit, hlimit, hpage⟩ := bind_eq_ok.1 h
  obtain ⟨-, rfl⟩ := boundedLimit_eq_ok.1 hlimit
  obtain rfl := Except.ok.inj hpage
  refine ⟨fun collection => ?_, rfl⟩
  rw [← select_eq_take]
  cases collection <;> rfl

theorem readPages_cons {later : List RelayState}
    {pages : List StatePage} {last : Option StateQuery}
    (h : readPages (database :: later) query = .ok (pages, last)) :
    ∃ page rest, load database query = .ok page ∧ pages = page :: rest ∧
      (page.next = none ∧ rest = [] ∧ last = none ∨
        ∃ next, page.next = some next ∧
          readPages later next = .ok (rest, last)) := by
  obtain ⟨page, hpage, h⟩ := bind_eq_ok.1 h
  split at h
  · rename_i hnext
    obtain ⟨rfl, rfl⟩ := Prod.mk.inj (Except.ok.inj h)
    exact ⟨page, [], hpage, rfl, .inl ⟨hnext, rfl, rfl⟩⟩
  · rename_i next hnext
    obtain ⟨⟨rest, final⟩, hrest, h⟩ := bind_eq_ok.1 h
    obtain ⟨rfl, rfl⟩ := Prod.mk.inj (Except.ok.inj h)
    exact ⟨page, rest, hpage, rfl, .inr ⟨next, hnext, hrest⟩⟩

/-! Whole runs. -/

section Runs

variable {query : StateQuery} {pages : List StatePage}
  {last : Option StateQuery}

theorem limit_pos (h : load database query = .ok page) : 0 < query.limit :=
  ((exists_load_iff database).1 ⟨page, h⟩).1

theorem page_count_le
    (h : load database query = .ok page) (collection : Collection)
    (other : collection.Key) :
    ((returned page.state collection).map collection.key).count other +
      due (positionAfter page.next collection) other ≤
      due (position query collection) other := by
  obtain ⟨hrows, hnext⟩ := load_eq_ok h
  rw [hnext, positionAfter_nextQuery, hrows]
  exact count_page_le _ (limit_pos h) _ other

theorem page_count_eq
    (h : load database query = .ok page) {collection : Collection}
    {row : collection.Row} (hrow : row ∈ stored database collection) :
    ((returned page.state collection).map collection.key).count
        (collection.key row) +
      due (positionAfter page.next collection) (collection.key row) =
      due (position query collection) (collection.key row) := by
  obtain ⟨hrows, hnext⟩ := load_eq_ok h
  rw [hnext, positionAfter_nextQuery, hrows]
  exact count_page_eq _ (limit_pos h) hrow

theorem returnedBy_cons (page : StatePage) (pages : List StatePage)
    (collection : Collection) :
    returnedBy (page :: pages) collection =
      returned page.state collection ++ returnedBy pages collection :=
  List.flatMap_cons

/-- Whatever is written between the pages, no key comes twice. -/
theorem readPages_count_le {databases : List RelayState}
    (h : readPages databases query = .ok (pages, last))
    (collection : Collection) (other : collection.Key) :
    ((returnedBy pages collection).map collection.key).count other +
      due (positionAfter last collection) other ≤
      due (position query collection) other := by
  induction databases generalizing query pages with
  | nil =>
      obtain ⟨rfl, rfl⟩ := Prod.mk.inj (Except.ok.inj h)
      simp [returnedBy, positionAfter]
  | cons database later ih =>
      obtain ⟨page, rest, hpage, rfl, hcase⟩ := readPages_cons h
      have hstep := page_count_le hpage collection other
      rw [returnedBy_cons, List.map_append, List.count_append]
      rcases hcase with ⟨hnext, rfl, rfl⟩ | ⟨next, hnext, hrest⟩
      · rw [hnext] at hstep
        simpa [returnedBy] using hstep
      · have htail := ih hrest
        rw [hnext] at hstep
        change _ + due (position next collection) other ≤ _ at hstep
        omega

/-- A key that every database of the run stores is accounted for exactly. -/
theorem readPages_count_eq {databases : List RelayState}
    (h : readPages databases query = .ok (pages, last))
    {collection : Collection} {other : collection.Key}
    (hstored : ∀ database ∈ databases,
      ∃ row ∈ stored database collection, collection.key row = other) :
    ((returnedBy pages collection).map collection.key).count other +
      due (positionAfter last collection) other =
      due (position query collection) other := by
  induction databases generalizing query pages with
  | nil =>
      obtain ⟨rfl, rfl⟩ := Prod.mk.inj (Except.ok.inj h)
      simp [returnedBy, positionAfter]
  | cons database later ih =>
      obtain ⟨page, rest, hpage, rfl, hcase⟩ := readPages_cons h
      obtain ⟨row, hrow, hkey⟩ := hstored database List.mem_cons_self
      have hstep := page_count_eq hpage hrow
      rw [hkey] at hstep
      rw [returnedBy_cons, List.map_append, List.count_append]
      rcases hcase with ⟨hnext, rfl, rfl⟩ | ⟨next, hnext, hrest⟩
      · rw [hnext] at hstep
        simpa [returnedBy] using hstep
      · have htail := ih hrest fun database hmem =>
          hstored database (List.mem_cons_of_mem _ hmem)
        rw [hnext] at hstep
        change _ + due (position next collection) other = _ at hstep
        omega

theorem remaining_positionAfter
    (h : load database query = .ok page) (collection : Collection) :
    returned page.state collection ++
      remaining collection.key (positionAfter page.next collection)
        (stored database collection) =
      remaining collection.key (position query collection)
        (stored database collection) := by
  obtain ⟨hrows, hnext⟩ := load_eq_ok h
  rw [hnext, positionAfter_nextQuery, hrows,
    remaining_behind _ (limit_pos h), List.take_append_drop]

/-- A page with a next query is full in some table. -/
theorem exists_full_of_next
    {next : StateQuery} (h : load database query = .ok page)
    (hnext : page.next = some next) :
    ∃ collection, query.limit ≤ (remaining collection.key
      (position query collection) (stored database collection)).length := by
  obtain ⟨hrows, hquery⟩ := load_eq_ok h
  rw [hquery] at hnext
  obtain ⟨-, collection, hopen⟩ := nextQuery_eq_some hnext
  have hposition := positionAfter_nextQuery query page.state collection
  rw [hnext] at hposition
  refine ⟨collection, ?_⟩
  by_contra hshort
  have hlength : (returned page.state collection).length < query.limit := by
    rw [hrows, List.length_take]
    omega
  apply hopen
  change positionAfter (some next) collection = _
  rw [hposition, behind]
  cases position query collection with
  | start => exact if_pos hlength
  | after cursor => exact if_pos hlength
  | done => rfl

theorem exists_bound (size : Collection → Nat) :
    ∃ bound, ∀ collection, size collection ≤ bound := by
  refine ⟨size .policies + size .outbound + size .prepared + size .attempts +
    size .cursors + size .staged + size .quarantine, fun collection => ?_⟩
  cases collection <;> omega

/-- Against an unchanged database the pages end, and they hold what the first
query had left, in key order. -/
theorem exists_readPages (database : RelayState)
    (hlimit : 0 < query.limit ∧ query.limit ≤ maxRelayStateQueryItems) :
    ∃ count pages,
      readPages (List.replicate count database) query = .ok (pages, none) ∧
      ∀ collection, returnedBy pages collection =
        remaining collection.key (position query collection)
          (stored database collection) := by
  -- every page takes `limit` rows from each table, so the longest rest shrinks
  obtain ⟨bound, hbound⟩ := exists_bound fun collection : Collection =>
    (remaining collection.key (position query collection)
      (stored database collection)).length
  induction bound generalizing query with
  | zero =>
      obtain ⟨page, hpage⟩ := (exists_load_iff database).2 hlimit
      have hnext : page.next = none := by
        by_contra hne
        obtain ⟨next, hnext⟩ := Option.ne_none_iff_exists'.1 hne
        obtain ⟨collection, hfull⟩ := exists_full_of_next hpage hnext
        have := hbound collection
        omega
      refine ⟨1, [page], ?_, fun collection => ?_⟩
      · exact bind_eq_ok.2 ⟨page, hpage, by rw [hnext]⟩
      · rw [← remaining_positionAfter hpage, hnext]
        simp [returnedBy, positionAfter]
  | succ bound ih =>
      obtain ⟨page, hpage⟩ := (exists_load_iff database).2 hlimit
      cases hnext : page.next with
      | none =>
          refine ⟨1, [page], ?_, fun collection => ?_⟩
          · exact bind_eq_ok.2 ⟨page, hpage, by rw [hnext]⟩
          · rw [← remaining_positionAfter hpage, hnext]
            simp [returnedBy, positionAfter]
      | some next =>
          obtain ⟨hrows, hquery⟩ := load_eq_ok hpage
          obtain ⟨hsame, -⟩ := nextQuery_eq_some (hquery ▸ hnext)
          have hshorter : ∀ collection,
              (remaining collection.key (position next collection)
                (stored database collection)).length ≤ bound := by
            intro collection
            have hsplit := congrArg List.length
              (remaining_positionAfter hpage collection)
            rw [hnext, hrows, List.length_append, List.length_take] at hsplit
            change _ + (remaining collection.key (position next collection)
              (stored database collection)).length = _ at hsplit
            have := hbound collection
            omega
          obtain ⟨count, pages, hread, hall⟩ :=
            ih (by rw [hsame]; exact hlimit) hshorter
          refine ⟨count + 1, page :: pages, ?_, fun collection => ?_⟩
          · rw [List.replicate_succ]
            refine bind_eq_ok.2 ⟨page, hpage, ?_⟩
            rw [hnext]
            exact bind_eq_ok.2 ⟨(pages, none), hread, rfl⟩
          · rw [returnedBy_cons, hall, ← remaining_positionAfter hpage, hnext]
            rfl

end Runs

/-- Paging the relay state. A limit outside the accepted range is refused; any
other run over an unchanged database ends and returns, per table, nothing if it
was done and otherwise every stored row once in key order; and whatever is
written between the pages, no row comes twice and one that is stored throughout
comes exactly once. -/
theorem relay_pages_exact (query : StateQuery) :
    (∀ database, (∃ page, load database query = .ok page) ↔
      0 < query.limit ∧ query.limit ≤ maxRelayStateQueryItems) ∧
    (0 < query.limit ∧ query.limit ≤ maxRelayStateQueryItems →
      ∀ database, ∃ count pages,
        readPages (List.replicate count database) query = .ok (pages, none) ∧
        ∀ collection,
          ((returnedBy pages collection).Pairwise fun left right =>
            collection.key left < collection.key right) ∧
          (position query collection = .start →
            (returnedBy pages collection).Perm (stored database collection)) ∧
          (position query collection = .done →
            returnedBy pages collection = [])) ∧
    (∀ databases pages last,
      readPages databases query = .ok (pages, last) →
      ∀ (collection : Collection) (other : collection.Key),
        ((returnedBy pages collection).map collection.key).count other ≤ 1 ∧
        (position query collection = .start → last = none →
          (∀ database ∈ databases, ∃ row ∈ stored database collection,
            collection.key row = other) →
          ((returnedBy pages collection).map collection.key).count other
            = 1)) := by
  refine ⟨fun database => exists_load_iff database,
    fun hlimit database => ?_, ?_⟩
  · obtain ⟨count, pages, hread, hall⟩ := exists_readPages database hlimit
    refine ⟨count, pages, hread, fun collection => ⟨?_, ?_, ?_⟩⟩
    · rw [hall]
      exact remaining_sorted _ _ _
    · intro hstart
      rw [hall, hstart, remaining_start]
      exact orderBy_perm (stored_keys database collection)
    · intro hdone
      rw [hall, hdone, remaining_done]
  · intro databases pages last hread collection other
    constructor
    · have hle := readPages_count_le hread collection other
      have hone : due (position query collection) other ≤ 1 := by
        unfold due
        split <;> omega
      omega
    · rintro hstart rfl hstored
      have heq := readPages_count_eq hread hstored
      have hdue : due (position query collection) other = 1 := by
        rw [hstart]
        exact due_of_ahead trivial
      have hended : due (positionAfter none collection) other = 0 :=
        due_of_not_ahead id
      omega

/-- A durable state with one staged input. -/
def stagedOnly : RelayState where
  outbox := ∅
  tables := { RelayTables.empty with
    staged := (∅ : OrderedMap Bytes32 StagedInput).insert 0 ⟨0, [1], 0, 0, 0⟩ }
  outbox_primary := fun _ h => absurd h List.not_mem_nil
  policies_primary := fun _ h => absurd h List.not_mem_nil
  prepared_primary := fun _ h => absurd h List.not_mem_nil
  attempts_primary := fun _ h => absurd h List.not_mem_nil
  cursors_primary := fun _ h => absurd h List.not_mem_nil
  staged_primary := fun _ h => by
    obtain rfl := List.mem_singleton.1 h
    rfl
  quarantine_primary := fun _ h => absurd h List.not_mem_nil

/-- With a limit of zero the stored row is never returned. -/
theorem zero_limit_refused :
    stored stagedOnly .staged ≠ [] ∧
    ∀ later, readPages (stagedOnly :: later) (.first 0) =
      .error .invalidOperationalRequest :=
  ⟨List.cons_ne_nil _ _, fun _ => rfl⟩

end Hq.RelayPages
