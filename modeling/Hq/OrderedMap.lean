/-
Ordered sets and maps kept as strictly ascending lists.  The representation
is canonical, so two collections with the same members (or the same lookups)
are equal, and an iteration visits the members in key order.
-/
import Mathlib

namespace Hq

universe u v w

variable {α : Type u} {β : Type v} {γ : Type w} [LinearOrder α]

/-- A finite set whose members are listed in strictly ascending order. -/
structure OrderedSet (α : Type u) [LinearOrder α] where
  toList : List α
  sorted : toList.Pairwise (· < ·)
deriving DecidableEq

namespace OrderedSet

instance : Membership α (OrderedSet α) := ⟨fun set x => x ∈ set.toList⟩

instance (x : α) (set : OrderedSet α) : Decidable (x ∈ set) :=
  inferInstanceAs (Decidable (x ∈ set.toList))

theorem mem_def {x : α} {set : OrderedSet α} : x ∈ set ↔ x ∈ set.toList :=
  Iff.rfl

@[simp] theorem mem_toList {x : α} {set : OrderedSet α} :
    x ∈ set.toList ↔ x ∈ set := Iff.rfl

/-- Ascending listings with the same members are the same list. -/
theorem eq_of_pairwise_lt_of_mem_iff {left right : List α}
    (hleft : left.Pairwise (· < ·)) (hright : right.Pairwise (· < ·))
    (hmem : ∀ x, x ∈ left ↔ x ∈ right) : left = right := by
  have hperm : left.Perm right :=
    (List.perm_ext_iff_of_nodup (hleft.imp ne_of_lt)
      (hright.imp ne_of_lt)).2 hmem
  exact hperm.eq_of_pairwise (fun x y _ _ hxy hyx => absurd hyx hxy.asymm)
    hleft hright

@[ext] theorem ext {left right : OrderedSet α}
    (hmem : ∀ x, x ∈ left ↔ x ∈ right) : left = right := by
  obtain ⟨left, hleft⟩ := left
  obtain ⟨right, hright⟩ := right
  congr
  exact eq_of_pairwise_lt_of_mem_iff hleft hright hmem

instance : EmptyCollection (OrderedSet α) := ⟨⟨[], List.Pairwise.nil⟩⟩

@[simp] theorem not_mem_empty (x : α) : x ∉ (∅ : OrderedSet α) :=
  List.not_mem_nil

theorem eq_empty_iff {set : OrderedSet α} : set = ∅ ↔ ∀ x, x ∉ set := by
  constructor
  · rintro rfl x
    exact not_mem_empty x
  · intro hnone
    ext x
    simp [hnone x]

theorem exists_mem_of_ne_empty {set : OrderedSet α} (h : set ≠ ∅) :
    ∃ x, x ∈ set := by
  by_contra hnone
  push Not at hnone
  exact h (eq_empty_iff.2 hnone)

/-- Insert into an ascending list, keeping one copy of the element. -/
def insertSorted (x : α) : List α → List α
  | [] => [x]
  | head :: tail =>
      if x < head then x :: head :: tail
      else if x = head then head :: tail
      else head :: insertSorted x tail

theorem mem_insertSorted {x y : α} {list : List α} :
    y ∈ insertSorted x list ↔ y = x ∨ y ∈ list := by
  induction list with
  | nil => simp [insertSorted]
  | cons head tail ih =>
      unfold insertSorted
      split
      · simp
      · split
        next heq => subst heq; simp
        next => simp only [List.mem_cons, ih]; tauto

theorem insertSorted_pairwise {x : α} {list : List α}
    (hlist : list.Pairwise (· < ·)) :
    (insertSorted x list).Pairwise (· < ·) := by
  induction list with
  | nil => simp [insertSorted]
  | cons head tail ih =>
      have hhead := List.pairwise_cons.1 hlist
      unfold insertSorted
      split
      next hlt =>
        refine List.pairwise_cons.2 ⟨?_, hlist⟩
        intro y hy
        rcases List.mem_cons.1 hy with rfl | hy
        · exact hlt
        · exact hlt.trans (hhead.1 y hy)
      next hlt =>
        split
        · exact hlist
        next hne =>
          refine List.pairwise_cons.2 ⟨?_, ih hhead.2⟩
          intro y hy
          rcases mem_insertSorted.1 hy with rfl | hy
          · exact lt_of_le_of_ne (not_lt.1 hlt) (Ne.symm hne)
          · exact hhead.1 y hy

def insert (x : α) (set : OrderedSet α) : OrderedSet α :=
  ⟨insertSorted x set.toList, insertSorted_pairwise set.sorted⟩

@[simp] theorem mem_insert {x y : α} {set : OrderedSet α} :
    y ∈ set.insert x ↔ y = x ∨ y ∈ set := mem_insertSorted

/-- Collect a list into an ordered set. -/
def ofList (list : List α) : OrderedSet α :=
  list.foldr insert ∅

@[simp] theorem mem_ofList {x : α} {list : List α} :
    x ∈ ofList list ↔ x ∈ list := by
  induction list with
  | nil => simp [ofList]
  | cons head tail ih =>
      change x ∈ (ofList tail).insert head ↔ _
      rw [mem_insert, ih, List.mem_cons]

theorem length_insertSorted_le (x : α) (list : List α) :
    (insertSorted x list).length ≤ list.length + 1 := by
  induction list with
  | nil => simp [insertSorted]
  | cons head tail ih =>
      unfold insertSorted
      split
      · simp
      · split
        · simp
        · simpa using ih

theorem length_ofList_le (list : List α) :
    (ofList list).toList.length ≤ list.length := by
  induction list with
  | nil => simp [ofList]; rfl
  | cons head tail ih =>
      exact (length_insertSorted_le head _).trans (Nat.succ_le_succ ih)

def filter (keep : α → Bool) (set : OrderedSet α) : OrderedSet α :=
  ⟨set.toList.filter keep, set.sorted.filter keep⟩

@[simp] theorem mem_filter {x : α} {keep : α → Bool} {set : OrderedSet α} :
    x ∈ set.filter keep ↔ x ∈ set ∧ keep x = true := List.mem_filter

theorem filter_congr {left right : α → Bool} {set : OrderedSet α}
    (h : ∀ x ∈ set, left x = right x) : set.filter left = set.filter right := by
  ext x
  rw [mem_filter, mem_filter]
  exact and_congr_right fun hx => by rw [h x hx]

/-- Add every element of a list. -/
def extend (set : OrderedSet α) (list : List α) : OrderedSet α :=
  list.foldr insert set

@[simp] theorem mem_extend {x : α} {set : OrderedSet α} {list : List α} :
    x ∈ set.extend list ↔ x ∈ list ∨ x ∈ set := by
  induction list with
  | nil => simp [extend]
  | cons head tail ih =>
      change x ∈ (extend set tail).insert head ↔ _
      rw [mem_insert, ih, List.mem_cons, or_assoc]

def isEmpty (set : OrderedSet α) : Bool := set.toList.isEmpty

@[simp] theorem isEmpty_iff {set : OrderedSet α} :
    set.isEmpty = true ↔ set = ∅ := by
  obtain ⟨list, hlist⟩ := set
  cases list with
  | nil => exact ⟨fun _ => rfl, fun _ => rfl⟩
  | cons head tail =>
      refine ⟨fun h => by simp [isEmpty] at h, fun h => ?_⟩
      have := congrArg toList h
      simp [EmptyCollection.emptyCollection] at this

def size (set : OrderedSet α) : Nat := set.toList.length

theorem eq_of_size_le_one {set : OrderedSet α} (hsize : set.size ≤ 1) {x y : α}
    (hx : x ∈ set) (hy : y ∈ set) : x = y := by
  rw [← mem_toList] at hx hy
  unfold size at hsize
  match hlist : set.toList with
  | [] => simp [hlist] at hx
  | [only] =>
      rw [hlist, List.mem_singleton] at hx hy
      rw [hx, hy]
  | first :: second :: rest => simp [hlist] at hsize

theorem size_le_one_of_eq {set : OrderedSet α}
    (h : ∀ x ∈ set, ∀ y ∈ set, x = y) : set.size ≤ 1 := by
  unfold size
  match hlist : set.toList with
  | [] => simp
  | [only] => simp
  | first :: second :: rest =>
      have hsorted := set.sorted
      rw [hlist] at hsorted
      have hlt := (List.pairwise_cons.1 hsorted).1 second List.mem_cons_self
      have heq := h first (by simp [mem_def, hlist]) second
        (by simp [mem_def, hlist])
      exact absurd heq hlt.ne

/-- The smallest member and the remaining set. -/
def popFirst (set : OrderedSet α) : Option (α × OrderedSet α) :=
  match set with
  | ⟨[], _⟩ => none
  | ⟨head :: tail, hsorted⟩ => some (head, ⟨tail, hsorted.of_cons⟩)

theorem popFirst_eq_none {set : OrderedSet α} :
    set.popFirst = none ↔ set = ∅ := by
  obtain ⟨list, hsorted⟩ := set
  cases list with
  | nil => exact ⟨fun _ => rfl, fun _ => rfl⟩
  | cons head tail =>
      refine ⟨fun h => by simp [popFirst] at h, fun h => ?_⟩
      have := congrArg toList h
      simp [EmptyCollection.emptyCollection] at this

theorem popFirst_eq_some {set rest : OrderedSet α} {first : α}
    (h : set.popFirst = some (first, rest)) :
    first ∈ set ∧ ∀ x, x ∈ rest ↔ x ∈ set ∧ x ≠ first := by
  obtain ⟨list, hsorted⟩ := set
  cases list with
  | nil => simp [popFirst] at h
  | cons head tail =>
      simp only [popFirst, Option.some.injEq, Prod.mk.injEq] at h
      obtain ⟨rfl, rfl⟩ := h
      have hhead := (List.pairwise_cons.1 hsorted).1
      refine ⟨by simp [mem_def], fun x => ?_⟩
      simp only [mem_def, List.mem_cons]
      constructor
      · exact fun hx => ⟨Or.inr hx, (hhead x hx).ne'⟩
      · rintro ⟨rfl | hx, hne⟩
        · exact absurd rfl hne
        · exact hx

theorem popFirst_le {set rest : OrderedSet α} {first x : α}
    (h : set.popFirst = some (first, rest)) (hx : x ∈ set) : first ≤ x := by
  obtain ⟨list, hsorted⟩ := set
  cases list with
  | nil => simp [popFirst] at h
  | cons head tail =>
      simp only [popFirst, Option.some.injEq, Prod.mk.injEq] at h
      obtain ⟨rfl, -⟩ := h
      rcases List.mem_cons.1 hx with rfl | hx
      · exact le_rfl
      · exact ((List.pairwise_cons.1 hsorted).1 x hx).le

end OrderedSet

/-- A finite map whose entries are listed in strictly ascending key order. -/
structure OrderedMap (α : Type u) (β : Type v) [LinearOrder α] where
  entries : List (α × β)
  sorted : entries.Pairwise (fun left right => left.1 < right.1)
deriving DecidableEq

namespace OrderedMap

instance : EmptyCollection (OrderedMap α β) := ⟨⟨[], List.Pairwise.nil⟩⟩

def get? (map : OrderedMap α β) (key : α) : Option β :=
  (map.entries.find? fun entry => entry.1 = key).map Prod.snd

/-- Ascending entries carry at most one value for a key. -/
theorem value_unique {entries : List (α × β)}
    (hsorted : entries.Pairwise (fun left right => left.1 < right.1))
    {key : α} {left right : β} (hleft : (key, left) ∈ entries)
    (hright : (key, right) ∈ entries) : left = right := by
  induction entries with
  | nil => simp at hleft
  | cons head tail ih =>
      obtain ⟨hhead, htail⟩ := List.pairwise_cons.1 hsorted
      rcases List.mem_cons.1 hleft with hl | hl <;>
        rcases List.mem_cons.1 hright with hr | hr
      · exact (Prod.mk.inj (hl.trans hr.symm)).2
      · exact absurd (hl ▸ hhead _ hr) (lt_irrefl _)
      · exact absurd (hr ▸ hhead _ hl) (lt_irrefl _)
      · exact ih htail hl hr

theorem get?_eq_some_iff {map : OrderedMap α β} {key : α} {value : β} :
    map.get? key = some value ↔ (key, value) ∈ map.entries := by
  unfold get?
  constructor
  · intro h
    obtain ⟨⟨found, result⟩, hfind, rfl⟩ := Option.map_eq_some_iff.1 h
    have hkey : found = key := by simpa using List.find?_some hfind
    subst hkey
    exact List.mem_of_find?_eq_some hfind
  · intro hmem
    cases hfind : map.entries.find? fun entry => entry.1 = key with
    | none =>
        rw [List.find?_eq_none] at hfind
        exact absurd (by simp) (hfind _ hmem)
    | some entry =>
        obtain ⟨found, result⟩ := entry
        have hkey : found = key := by simpa using List.find?_some hfind
        subst hkey
        simp [value_unique map.sorted hmem (List.mem_of_find?_eq_some hfind)]

theorem get?_eq_none_iff {map : OrderedMap α β} {key : α} :
    map.get? key = none ↔ ∀ value, (key, value) ∉ map.entries := by
  rw [Option.eq_none_iff_forall_ne_some]
  exact forall_congr' fun value => not_congr get?_eq_some_iff

/-- Two maps with the same lookups are equal. -/
@[ext] theorem ext {left right : OrderedMap α β}
    (hget : ∀ key, left.get? key = right.get? key) : left = right := by
  have hmem : ∀ entry, entry ∈ left.entries ↔ entry ∈ right.entries := by
    rintro ⟨key, value⟩
    rw [← get?_eq_some_iff, ← get?_eq_some_iff, hget]
  have hnodup : ∀ map : OrderedMap α β, map.entries.Nodup := fun map =>
    map.sorted.imp fun hlt heq => absurd hlt (by rw [heq]; exact lt_irrefl _)
  have hperm := (List.perm_ext_iff_of_nodup (hnodup left) (hnodup right)).2 hmem
  have heq := hperm.eq_of_pairwise
    (fun x y _ _ hxy hyx => absurd hyx hxy.asymm) left.sorted right.sorted
  cases left
  cases right
  simpa using heq

@[simp] theorem get?_empty (key : α) :
    (∅ : OrderedMap α β).get? key = none := rfl

def contains (map : OrderedMap α β) (key : α) : Bool := (map.get? key).isSome

/-- Insert into ascending entries, replacing the entry of an equal key. -/
def insertEntry (key : α) (value : β) : List (α × β) → List (α × β)
  | [] => [(key, value)]
  | head :: tail =>
      if key < head.1 then (key, value) :: head :: tail
      else if key = head.1 then (key, value) :: tail
      else head :: insertEntry key value tail

theorem key_of_mem_insertEntry {key : α} {value : β} {entries : List (α × β)}
    {entry : α × β} (hmem : entry ∈ insertEntry key value entries) :
    entry.1 = key ∨ entry ∈ entries := by
  induction entries with
  | nil => simp_all [insertEntry]
  | cons head tail ih =>
      unfold insertEntry at hmem
      split at hmem
      · rcases List.mem_cons.1 hmem with rfl | hmem
        · exact Or.inl rfl
        · exact Or.inr hmem
      · split at hmem
        · rcases List.mem_cons.1 hmem with rfl | hmem
          · exact Or.inl rfl
          · exact Or.inr (List.mem_cons_of_mem _ hmem)
        · rcases List.mem_cons.1 hmem with rfl | hmem
          · exact Or.inr List.mem_cons_self
          · exact (ih hmem).imp_right (List.mem_cons_of_mem _)

theorem insertEntry_pairwise {key : α} {value : β} {entries : List (α × β)}
    (hsorted : entries.Pairwise (fun left right => left.1 < right.1)) :
    (insertEntry key value entries).Pairwise
      (fun left right => left.1 < right.1) := by
  induction entries with
  | nil => simp [insertEntry]
  | cons head tail ih =>
      obtain ⟨hhead, htail⟩ := List.pairwise_cons.1 hsorted
      unfold insertEntry
      split
      next hlt =>
        refine List.pairwise_cons.2 ⟨fun entry hentry => ?_, hsorted⟩
        rcases List.mem_cons.1 hentry with rfl | hentry
        · exact hlt
        · exact hlt.trans (hhead entry hentry)
      next hlt =>
        split
        next heq =>
          exact List.pairwise_cons.2
            ⟨fun entry hentry => heq ▸ hhead entry hentry, htail⟩
        next hne =>
          refine List.pairwise_cons.2 ⟨fun entry hentry => ?_, ih htail⟩
          rcases key_of_mem_insertEntry hentry with hkey | hentry
          · rw [hkey]
            exact lt_of_le_of_ne (not_lt.1 hlt) (Ne.symm hne)
          · exact hhead entry hentry

theorem mem_insertEntry {key : α} {value : β} {entries : List (α × β)}
    (hsorted : entries.Pairwise (fun left right => left.1 < right.1))
    {entry : α × β} :
    entry ∈ insertEntry key value entries ↔
      entry = (key, value) ∨ (entry.1 ≠ key ∧ entry ∈ entries) := by
  induction entries with
  | nil => simp [insertEntry]
  | cons head tail ih =>
      obtain ⟨hhead, htail⟩ := List.pairwise_cons.1 hsorted
      unfold insertEntry
      split
      next hlt =>
        have hkeys : ∀ other ∈ head :: tail, other.1 ≠ key := by
          intro other hother
          rcases List.mem_cons.1 hother with rfl | hother
          · exact ne_of_gt hlt
          · exact ne_of_gt (hlt.trans (hhead other hother))
        rw [List.mem_cons]
        exact or_congr_right ⟨fun h => ⟨hkeys _ h, h⟩, And.right⟩
      next hlt =>
        split
        next heq =>
          have hkeys : ∀ other ∈ tail, other.1 ≠ key := fun other hother =>
            heq ▸ ne_of_gt (hhead other hother)
          rw [List.mem_cons, List.mem_cons]
          constructor
          · rintro (rfl | h)
            · exact Or.inl rfl
            · exact Or.inr ⟨hkeys _ h, Or.inr h⟩
          · rintro (rfl | ⟨hne, rfl | h⟩)
            · exact Or.inl rfl
            · exact absurd heq.symm hne
            · exact Or.inr h
        next hne =>
          rw [List.mem_cons, ih htail, List.mem_cons]
          constructor
          · rintro (rfl | rfl | ⟨hkey, h⟩)
            · exact Or.inr ⟨Ne.symm hne, Or.inl rfl⟩
            · exact Or.inl rfl
            · exact Or.inr ⟨hkey, Or.inr h⟩
          · rintro (rfl | ⟨hkey, rfl | h⟩)
            · exact Or.inr (Or.inl rfl)
            · exact Or.inl rfl
            · exact Or.inr (Or.inr ⟨hkey, h⟩)

def insert (key : α) (value : β) (map : OrderedMap α β) : OrderedMap α β :=
  ⟨insertEntry key value map.entries, insertEntry_pairwise map.sorted⟩

theorem get?_insert (key other : α) (value : β) (map : OrderedMap α β) :
    (map.insert key value).get? other =
      if other = key then some value else map.get? other := by
  ext result
  rw [get?_eq_some_iff, insert, mem_insertEntry map.sorted]
  by_cases hkey : other = key
  · subst hkey
    simp [eq_comm]
  · simp [hkey, get?_eq_some_iff]

@[simp] theorem get?_insert_self (key : α) (value : β) (map : OrderedMap α β) :
    (map.insert key value).get? key = some value := by
  simp [get?_insert]

/-- Collect entries in order; a later entry of a key replaces an earlier. -/
def ofList (entries : List (α × β)) : OrderedMap α β :=
  entries.foldl (fun map entry => map.insert entry.1 entry.2) ∅

theorem get?_foldl_insert (entries : List (α × β)) (map : OrderedMap α β)
    (key : α) :
    (∀ value, (entries.foldl (fun map entry => map.insert entry.1 entry.2)
      map).get? key = some value →
        (key, value) ∈ entries ∨ map.get? key = some value) ∧
    ((∃ value, (key, value) ∈ entries) ∨ (map.get? key).isSome →
      ((entries.foldl (fun map entry => map.insert entry.1 entry.2)
        map).get? key).isSome) := by
  induction entries generalizing map with
  | nil => simp
  | cons head tail ih =>
      obtain ⟨hsound, hcomplete⟩ := ih (map.insert head.1 head.2)
      rw [List.foldl_cons]
      constructor
      · intro value hvalue
        rcases hsound value hvalue with hmem | hget
        · exact Or.inl (List.mem_cons_of_mem _ hmem)
        · rw [get?_insert] at hget
          split at hget
          next heq =>
            cases hget
            exact Or.inl (by simp [heq])
          next => exact Or.inr hget
      · intro h
        refine hcomplete ?_
        rw [get?_insert]
        rcases h with ⟨value, hmem⟩ | hsome
        · rcases List.mem_cons.1 hmem with heq | hmem
          · exact Or.inr (by simp [← heq])
          · exact Or.inl ⟨value, hmem⟩
        · right
          split
          · rfl
          · exact hsome

theorem length_insertEntry_le (key : α) (value : β) (entries : List (α × β)) :
    (insertEntry key value entries).length ≤ entries.length + 1 := by
  induction entries with
  | nil => simp [insertEntry]
  | cons head tail ih =>
      unfold insertEntry
      split
      · simp
      · split
        · simp
        · simpa using ih

theorem length_foldl_insert_le (entries : List (α × β))
    (map : OrderedMap α β) :
    (entries.foldl (fun map entry => map.insert entry.1 entry.2)
      map).entries.length ≤ map.entries.length + entries.length := by
  induction entries generalizing map with
  | nil => simp
  | cons head tail ih =>
      have hhead := length_insertEntry_le head.1 head.2 map.entries
      have htail := ih (map.insert head.1 head.2)
      rw [List.foldl_cons, List.length_cons]
      change _ ≤ (insertEntry head.1 head.2 map.entries).length + _ at htail
      omega

theorem length_ofList_le (entries : List (α × β)) :
    (ofList entries).entries.length ≤ entries.length :=
  (length_foldl_insert_le entries ∅).trans_eq (Nat.zero_add _)

/-- A lookup in a listed map finds a listed entry. -/
theorem mem_of_get?_ofList {entries : List (α × β)} {key : α} {value : β}
    (hget : (ofList entries).get? key = some value) : (key, value) ∈ entries :=
  ((get?_foldl_insert entries ∅ key).1 value hget).resolve_right (by simp)

theorem get?_ofList_isSome {entries : List (α × β)} {key : α} :
    ((ofList entries).get? key).isSome = true ↔
      ∃ value, (key, value) ∈ entries := by
  constructor
  · intro h
    obtain ⟨value, hvalue⟩ := Option.isSome_iff_exists.1 h
    exact ⟨value, mem_of_get?_ofList hvalue⟩
  · exact fun h => (get?_foldl_insert entries ∅ key).2 (Or.inl h)

/-- A key listed with one value only is found with it. -/
theorem get?_ofList_of_unique {entries : List (α × β)} {key : α} {value : β}
    (hmem : (key, value) ∈ entries)
    (hunique : ∀ other, (key, other) ∈ entries → other = value) :
    (ofList entries).get? key = some value := by
  obtain ⟨found, hfound⟩ :=
    Option.isSome_iff_exists.1 (get?_ofList_isSome.2 ⟨value, hmem⟩)
  rw [hfound, hunique found (mem_of_get?_ofList hfound)]

theorem ofList_eq_empty {entries : List (α × β)} :
    (ofList entries).entries = [] ↔ entries = [] := by
  constructor
  · intro h
    by_contra hne
    obtain ⟨⟨key, value⟩, hmem⟩ := List.exists_mem_of_ne_nil entries hne
    obtain ⟨found, hfound⟩ :=
      Option.isSome_iff_exists.1 (get?_ofList_isSome.2 ⟨value, hmem⟩)
    simp [get?, h] at hfound
  · rintro rfl
    rfl

def erase (key : α) (map : OrderedMap α β) : OrderedMap α β :=
  ⟨map.entries.filter fun entry => entry.1 ≠ key, map.sorted.filter _⟩

theorem get?_erase {map : OrderedMap α β} {key other : α} {value : β} :
    (map.erase key).get? other = some value ↔
      map.get? other = some value ∧ other ≠ key := by
  rw [get?_eq_some_iff, get?_eq_some_iff]
  simp [erase]

/-- Keep the entries that pass a test. -/
def filter (keep : α → β → Bool) (map : OrderedMap α β) : OrderedMap α β :=
  ⟨map.entries.filter fun entry => keep entry.1 entry.2, map.sorted.filter _⟩

theorem get?_filter {keep : α → β → Bool} {map : OrderedMap α β} {key : α}
    {value : β} : (map.filter keep).get? key = some value ↔
      map.get? key = some value ∧ keep key value = true := by
  rw [get?_eq_some_iff, get?_eq_some_iff]
  simp [filter]

def keys (map : OrderedMap α β) : OrderedSet α :=
  ⟨map.entries.map Prod.fst, List.pairwise_map.2 map.sorted⟩

@[simp] theorem mem_keys {map : OrderedMap α β} {key : α} :
    key ∈ map.keys ↔ (map.get? key).isSome = true := by
  rw [Option.isSome_iff_exists]
  simp only [get?_eq_some_iff]
  simp [keys, OrderedSet.mem_def]

theorem contains_insert {map : OrderedMap α β} {key other : α} {value : β} :
    (map.insert key value).contains other = true ↔
    other = key ∨ map.contains other = true := by
  rw [contains, get?_insert]
  split
  next hsame => simp [hsame]
  next hother => simp [hother, contains]

theorem contains_erase {map : OrderedMap α β} {key other : α} :
    (map.erase key).contains other = true ↔
    map.contains other = true ∧ other ≠ key := by
  simp only [contains, Option.isSome_iff_exists, get?_erase]
  exact exists_and_right

def values (map : OrderedMap α β) : List β := map.entries.map Prod.snd

theorem mem_values {map : OrderedMap α β} {value : β} :
    value ∈ map.values ↔ ∃ key, map.get? key = some value := by
  simp [values, get?_eq_some_iff]

/-- Replace every value by a function of its key and value. -/
def mapValues (f : α → β → γ) (map : OrderedMap α β) : OrderedMap α γ :=
  ⟨map.entries.map fun entry => (entry.1, f entry.1 entry.2),
    List.pairwise_map.2 map.sorted⟩

@[simp] theorem get?_mapValues (f : α → β → γ) (map : OrderedMap α β)
    (key : α) : (map.mapValues f).get? key = (map.get? key).map (f key) := by
  unfold get? mapValues
  rw [List.find?_map, Option.map_map]
  cases hfind : map.entries.find? fun entry => entry.1 = key with
  | none => simpa [Function.comp_def] using hfind
  | some entry =>
      have hkey : entry.1 = key := by simpa using List.find?_some hfind
      have hfind' : map.entries.find?
          ((fun entry => decide (entry.1 = key)) ∘ fun entry : α × β =>
            (entry.1, f entry.1 entry.2)) = some entry := hfind
      rw [hfind', Option.map_some, Option.map_some, Option.map_some,
        Function.comp_apply, hkey]

def size (map : OrderedMap α β) : Nat := map.entries.length

/-- Insert one member into the set filed under a key. -/
def insertMember {δ : Type w} [LinearOrder δ] (key : α) (member : δ)
    (map : OrderedMap α (OrderedSet δ)) : OrderedMap α (OrderedSet δ) :=
  map.insert key (((map.get? key).getD ∅).insert member)

/-- The set filed under a key; absent keys file the empty set. -/
def members {δ : Type w} [LinearOrder δ] (map : OrderedMap α (OrderedSet δ))
    (key : α) : OrderedSet δ :=
  (map.get? key).getD ∅

@[simp] theorem members_empty {δ : Type w} [LinearOrder δ] (key : α) :
    (∅ : OrderedMap α (OrderedSet δ)).members key = ∅ := rfl

theorem mem_members_insertMember {δ : Type w} [LinearOrder δ]
    {map : OrderedMap α (OrderedSet δ)} {key other : α} {member x : δ} :
    x ∈ (map.insertMember key member).members other ↔
      (other = key ∧ x = member) ∨ x ∈ map.members other := by
  unfold members insertMember
  rw [get?_insert]
  by_cases hkey : other = key
  · subst hkey
    simp
  · simp [hkey]

theorem mem_members_foldl {δ : Type w} [LinearOrder δ] {list : List (α × δ)}
    {map : OrderedMap α (OrderedSet δ)} {key : α} {member : δ} :
    member ∈ (list.foldl (fun map entry => map.insertMember entry.1 entry.2)
        map).members key ↔
      member ∈ map.members key ∨ (key, member) ∈ list := by
  induction list generalizing map with
  | nil => simp
  | cons head tail ih =>
      rw [List.foldl_cons, ih, mem_members_insertMember, List.mem_cons,
        Prod.ext_iff]
      tauto

end OrderedMap

end Hq
