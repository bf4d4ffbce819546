/-
Maps written as rows and rebuilt from them: a row for every item filed under
a key, a loader that files each row again, and the round trip of the two.
-/
import Hq.OrderedMap

namespace Hq

universe u v w x

variable {α : Type u} {β : Type v} {γ : Type w} {δ : Type x} [LinearOrder α]

namespace OrderedMap

/-- The items of every value, each with the key it is filed under. -/
def rows (read : β → List γ) (map : OrderedMap α β) : List (α × γ) :=
  map.entries.flatMap fun entry => (read entry.2).map fun item => (entry.1, item)

/-- Put the item of every row into the value of its key; a row of an unknown
key is refused. -/
def attach (put : β → γ → Option β) :
    List (α × γ) → OrderedMap α β → Option (OrderedMap α β)
  | [], map => some map
  | (key, item) :: rest, map =>
      match map.get? key with
      | none => none
      | some value =>
          match put value item with
          | none => none
          | some updated => attach put rest (map.insert key updated)

/-- Put the item of every row into the value of its key; an unknown key
starts from a default. -/
def collect (start : β) (put : β → γ → Option β) :
    List (α × γ) → OrderedMap α β → Option (OrderedMap α β)
  | [], map => some map
  | (key, item) :: rest, map =>
      match put ((map.get? key).getD start) item with
      | none => none
      | some updated => collect start put rest (map.insert key updated)

/-- Give every listed key without a value the default. -/
def ensure (start : β) (keys : List α) (map : OrderedMap α β) :
    OrderedMap α β :=
  keys.foldl (fun map key =>
    if map.contains key then map else map.insert key start) map

/-- Insert rows under keys of their own; a second row of a key is refused. -/
def ofRows : List (α × β) → OrderedMap α β → Option (OrderedMap α β)
  | [], map => some map
  | (key, value) :: rest, map =>
      if map.contains key then none else ofRows rest (map.insert key value)

end OrderedMap

/-- The items of a list with their positions. -/
def positioned (list : List γ) : List (Nat × γ) :=
  list.zipIdx.map fun entry => (entry.2, entry.1)

/-- Append an item whose position is the length so far. -/
def pushAt (list : List γ) (row : Nat × γ) : Option (List γ) :=
  if row.1 = list.length then some (list ++ [row.2]) else none

/-- Put an item into the element at a position. -/
def putAt (put : β → γ → β) (list : List β) (row : Nat × γ) :
    Option (List β) :=
  if row.1 < list.length then
    some (list.modify row.1 fun value => put value row.2)
  else none

end Hq
