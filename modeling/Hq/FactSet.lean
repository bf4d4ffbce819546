/-
The deduplicated fact set.  An identity given unequal facts is stored as a
collision without a winner; at every identity the stored slot is the join of
everything inserted there, so the order of insertion is not observable.
-/
import Hq.Fact

namespace Hq

/-- What the set keeps for one identity. -/
inductive StoredFact where
  | unique (fact : Fact)
  | collision
deriving DecidableEq

/-- Facts by identity; a retained fact is filed under its own identity. -/
structure FactSet where
  entries : OrderedMap FactId StoredFact
  keyed : ∀ id fact, entries.get? id = some (.unique fact) → fact.id = id

variable {set : FactSet} {fact : Fact}

namespace FactSet

@[ext] theorem ext {left right : FactSet}
    (hget : ∀ id, left.entries.get? id = right.entries.get? id) :
    left = right := by
  cases left
  cases right
  congr
  exact OrderedMap.ext hget

def empty : FactSet := ⟨∅, by simp⟩

/-- Store a fact: equal content is kept once, unequal content collides. -/
def insert (set : FactSet) (fact : Fact) : FactSet :=
  match hentry : set.entries.get? fact.id with
  | none =>
      ⟨set.entries.insert fact.id (.unique fact), by
        intro id other hother
        rw [OrderedMap.get?_insert] at hother
        split at hother
        next heq => cases hother; exact heq.symm
        next => exact set.keyed id other hother⟩
  | some (.unique existing) =>
      if existing = fact then set
      else ⟨set.entries.insert fact.id .collision, by
        intro id other hother
        rw [OrderedMap.get?_insert] at hother
        split at hother
        · cases hother
        · exact set.keyed id other hother⟩
  | some .collision => set

/-- Record a collision at an identity. -/
def insertCollision (set : FactSet) (id : FactId) : FactSet :=
  ⟨set.entries.insert id .collision, by
    intro other fact hfact
    rw [OrderedMap.get?_insert] at hfact
    split at hfact
    · cases hfact
    · exact set.keyed other fact hfact⟩

def fromFacts (facts : List Fact) : FactSet := facts.foldl insert empty

/-- Store one entry of another set. -/
def insertStored (set : FactSet) : FactId × StoredFact → FactSet
  | (_, .unique fact) => set.insert fact
  | (id, .collision) => set.insertCollision id

def merge (set other : FactSet) : FactSet :=
  other.entries.entries.foldl insertStored set

def get? (set : FactSet) (id : FactId) : Option Fact :=
  match set.entries.get? id with
  | some (.unique fact) => some fact
  | some .collision | none => none

def contains (set : FactSet) (id : FactId) : Bool := set.entries.contains id

/-- Every present identity, collided ones included. -/
def ids (set : FactSet) : OrderedSet FactId := set.entries.keys

/-- The retained facts in identity order. -/
def facts (set : FactSet) : List Fact :=
  set.entries.values.filterMap fun
    | .unique fact => some fact
    | .collision => none

def isCollision (set : FactSet) (id : FactId) : Bool :=
  set.entries.get? id = some .collision

def collisions (set : FactSet) : OrderedSet FactId :=
  set.ids.filter set.isCollision

theorem get?_eq_some_iff {id : FactId} :
    set.get? id = some fact ↔ set.entries.get? id = some (.unique fact) := by
  unfold get?
  split <;> simp_all

theorem id_of_get? {id : FactId}
    (hget : set.get? id = some fact) : fact.id = id :=
  set.keyed id fact (get?_eq_some_iff.1 hget)

theorem mem_facts :
    fact ∈ set.facts ↔ set.get? fact.id = some fact := by
  rw [get?_eq_some_iff]
  unfold facts
  rw [List.mem_filterMap]
  constructor
  · rintro ⟨stored, hstored, heq⟩
    obtain ⟨key, hkey⟩ := OrderedMap.mem_values.1 hstored
    cases stored with
    | collision => simp at heq
    | unique found =>
        cases heq
        exact set.keyed key fact hkey ▸ hkey
  · intro hget
    exact ⟨.unique fact, OrderedMap.mem_values.2 ⟨_, hget⟩, rfl⟩

/-- The retained facts are listed in the order of their identities. -/
theorem facts_sorted (set : FactSet) :
    set.facts.Pairwise fun left right => left.id < right.id := by
  unfold facts OrderedMap.values
  rw [List.pairwise_filterMap, List.pairwise_map]
  refine List.Pairwise.imp_of_mem ?_ set.entries.sorted
  rintro ⟨leftKey, leftStored⟩ ⟨rightKey, rightStored⟩ hleft hright hlt left
    hleftFact right hrightFact
  cases leftStored with
  | collision => cases hleftFact
  | unique =>
      cases rightStored with
      | collision => cases hrightFact
      | unique =>
          cases hleftFact
          cases hrightFact
          rw [set.keyed leftKey left (OrderedMap.get?_eq_some_iff.2 hleft),
            set.keyed rightKey right (OrderedMap.get?_eq_some_iff.2 hright)]
          exact hlt

theorem facts_nodup (set : FactSet) : set.facts.Nodup :=
  set.facts_sorted.imp fun hlt heq => hlt.ne (congrArg Fact.id heq)

theorem mem_facts_of_get? {id : FactId}
    (hget : set.get? id = some fact) : fact ∈ set.facts := by
  rw [mem_facts, id_of_get? hget]
  exact hget

@[simp] theorem mem_ids {id : FactId} :
    id ∈ set.ids ↔ (set.entries.get? id).isSome = true := OrderedMap.mem_keys

theorem contains_iff {id : FactId} :
    set.contains id = true ↔ id ∈ set.ids := by
  rw [mem_ids]
  rfl

theorem isCollision_iff {id : FactId} :
    set.isCollision id = true ↔ set.entries.get? id = some .collision := by
  simp [isCollision]

theorem isCollision_eq_false
    (h : set.get? fact.id = some fact) : set.isCollision fact.id = false := by
  rw [Bool.eq_false_iff, Ne, isCollision_iff, get?_eq_some_iff.1 h]
  simp

/-- A present identity is either collided or holds one fact. -/
theorem get?_isSome_of_mem_ids {id : FactId}
    (hid : id ∈ set.ids) (hcollision : set.isCollision id = false) :
    ∃ fact, set.get? id = some fact := by
  rw [mem_ids, Option.isSome_iff_exists] at hid
  obtain ⟨stored, hstored⟩ := hid
  cases stored with
  | unique fact => exact ⟨fact, get?_eq_some_iff.2 hstored⟩
  | collision => simp [isCollision, hstored] at hcollision

theorem mem_ids_of_get? {id : FactId}
    (hget : set.get? id = some fact) : id ∈ set.ids := by
  rw [mem_ids, get?_eq_some_iff.1 hget]
  rfl

/-- Two retained facts with one identity are the same fact. -/
theorem eq_of_mem_facts_of_id_eq {left right : Fact}
    (hleft : left ∈ set.facts) (hright : right ∈ set.facts)
    (hid : left.id = right.id) : left = right := by
  rw [mem_facts] at hleft hright
  rw [hid, hright] at hleft
  exact (Option.some.inj hleft).symm

end FactSet

/-- The join of two slots of one identity: absence is neutral, a collision
absorbs, and unequal facts collide. -/
def joinSlot : Option StoredFact → Option StoredFact → Option StoredFact
  | none, right => right
  | left, none => left
  | some (.unique left), some (.unique right) =>
      if left = right then some (.unique left) else some .collision
  | some _, some _ => some .collision

theorem joinSlot_comm (left right : Option StoredFact) :
    joinSlot left right = joinSlot right left := by
  rcases left with _ | _ | _ <;> rcases right with _ | _ | _ <;>
    simp only [joinSlot]
  next left right =>
    by_cases heq : left = right
    · subst heq; rfl
    · simp [heq, Ne.symm heq]

theorem joinSlot_assoc (a b c : Option StoredFact) :
    joinSlot (joinSlot a b) c = joinSlot a (joinSlot b c) := by
  rcases a with _ | a | _ <;> rcases b with _ | b | _ <;>
    rcases c with _ | c | _ <;> simp only [joinSlot] <;>
    grind [joinSlot]

theorem joinSlot_self (slot : Option StoredFact) :
    joinSlot slot slot = slot := by
  rcases slot with _ | _ | _ <;> simp [joinSlot]

/-- Slots ordered by how much they have absorbed. -/
instance : SemilatticeSup (Option StoredFact) :=
  @SemilatticeSup.mk' _ ⟨joinSlot⟩ joinSlot_comm joinSlot_assoc joinSlot_self

theorem sup_eq_joinSlot (left right : Option StoredFact) :
    left ⊔ right = joinSlot left right := rfl

instance : OrderBot (Option StoredFact) where
  bot := none
  bot_le slot := by
    rw [← sup_eq_right, sup_eq_joinSlot]
    rfl

namespace FactSet

/-- The slot one fact contributes at an identity. -/
def slot (id : FactId) (fact : Fact) : Option StoredFact :=
  if fact.id = id then some (.unique fact) else none

theorem get?_insert (set : FactSet) (fact : Fact) (id : FactId) :
    (set.insert fact).entries.get? id = set.entries.get? id ⊔ slot id fact := by
  rw [sup_eq_joinSlot]
  by_cases hid : fact.id = id
  · subst hid
    simp only [slot, ↓reduceIte]
    unfold insert
    split
    next hentry => simp [hentry, joinSlot]
    next existing hentry =>
      by_cases heq : existing = fact
      · simp [heq, hentry, joinSlot]
      · simp [heq, hentry, joinSlot]
    next hentry => simp [hentry, joinSlot]
  · simp only [slot, hid, ↓reduceIte]
    have hother : id ≠ fact.id := fun h => hid h.symm
    have hjoin : ∀ s : Option StoredFact, joinSlot s none = s := by
      rintro (_ | _) <;> rfl
    rw [hjoin]
    unfold insert
    split
    · simp [OrderedMap.get?_insert, hother]
    · split
      · rfl
      · simp [OrderedMap.get?_insert, hother]
    · rfl

theorem get?_insertCollision (set : FactSet) (id other : FactId) :
    (set.insertCollision id).entries.get? other =
      set.entries.get? other ⊔ (if id = other then some .collision else none) := by
  rw [sup_eq_joinSlot]
  unfold insertCollision
  rw [OrderedMap.get?_insert]
  by_cases hid : other = id
  · subst hid
    rcases set.entries.get? other with _ | _ | _ <;> simp [joinSlot]
  · rcases hslot : set.entries.get? other with _ | _ | _ <;>
      simp [joinSlot, hid, Ne.symm hid]

/-- At every identity the set built from facts is the join of their slots. -/
theorem get?_fromFacts (facts : List Fact) (id : FactId) :
    (fromFacts facts).entries.get? id = facts.toFinset.sup (slot id) := by
  have hfold : ∀ (set : FactSet) (facts : List Fact),
      (facts.foldl insert set).entries.get? id =
        set.entries.get? id ⊔ facts.toFinset.sup (slot id) := by
    intro set facts
    induction facts generalizing set with
    | nil => simp
    | cons head tail ih =>
        rw [List.foldl_cons, ih, get?_insert, List.toFinset_cons,
          Finset.sup_insert, sup_assoc]
  rw [fromFacts, hfold]
  exact bot_sup_eq _

theorem get?_insertStored (set : FactSet) (id key : FactId)
    (stored : StoredFact)
    (hkeyed : ∀ fact, stored = .unique fact → fact.id = key) :
    (set.insertStored (key, stored)).entries.get? id =
      set.entries.get? id ⊔ (if key = id then some stored else none) := by
  cases stored with
  | unique fact => rw [insertStored, get?_insert, slot, hkeyed fact rfl]
  | collision => rw [insertStored, get?_insertCollision]

theorem foldl_insertStored_get? (id : FactId)
    {entries : List (FactId × StoredFact)}
    (hsorted : entries.Pairwise (fun left right => left.1 < right.1))
    (hkeyed : ∀ key fact, (key, .unique fact) ∈ entries → fact.id = key)
    (set : FactSet) :
    (entries.foldl insertStored set).entries.get? id =
      set.entries.get? id ⊔
        (entries.find? fun entry => entry.1 = id).map Prod.snd := by
  induction entries generalizing set with
  | nil => exact (sup_bot_eq _).symm
  | cons head tail ih =>
      obtain ⟨key, stored⟩ := head
      obtain ⟨hhead, htail⟩ := List.pairwise_cons.1 hsorted
      rw [List.foldl_cons,
        ih htail (fun key fact h => hkeyed key fact (List.mem_cons_of_mem _ h)),
        get?_insertStored set id key stored
          (fun fact h => hkeyed key fact (h ▸ List.mem_cons_self))]
      by_cases hkey : key = id
      · -- Keys ascend, so no later entry has this identity.
        have hnone : (tail.find? fun entry => entry.1 = id) = none := by
          rw [List.find?_eq_none]
          intro entry hentry
          simpa [← hkey] using ne_of_gt (hhead entry hentry)
        rw [hnone, List.find?_cons_of_pos (by simpa using hkey), if_pos hkey]
        exact sup_bot_eq _
      · rw [List.find?_cons_of_neg (by simpa using hkey), if_neg hkey]
        exact congrArg (· ⊔ _) (sup_bot_eq _)

/-- A merged slot is the join of the two slots. -/
theorem get?_merge (left right : FactSet) (id : FactId) :
    (left.merge right).entries.get? id =
      left.entries.get? id ⊔ right.entries.get? id := by
  refine foldl_insertStored_get? id right.entries.sorted ?_ left
  intro key fact hmem
  exact right.keyed key fact (OrderedMap.get?_eq_some_iff.2 hmem)

theorem merge_comm (left right : FactSet) :
    left.merge right = right.merge left := by
  ext1 id
  rw [get?_merge, get?_merge, sup_comm]

theorem merge_assoc (a b c : FactSet) :
    (a.merge b).merge c = a.merge (b.merge c) := by
  ext1 id
  simp only [get?_merge, sup_assoc]

theorem merge_self (set : FactSet) : set.merge set = set := by
  ext1 id
  rw [get?_merge, sup_idem]

/-- Sets built from lists with the same facts are equal, whatever the order
and the number of copies. -/
theorem fromFacts_congr {left right : List Fact}
    (hmem : ∀ fact, fact ∈ left ↔ fact ∈ right) :
    fromFacts left = fromFacts right := by
  ext1 id
  rw [get?_fromFacts, get?_fromFacts]
  congr 1
  ext fact
  simp [hmem]

theorem fromFacts_append (left right : List Fact) :
    fromFacts (left ++ right) = (fromFacts left).merge (fromFacts right) := by
  ext1 id
  rw [get?_merge, get?_fromFacts, get?_fromFacts, get?_fromFacts,
    List.toFinset_append, Finset.sup_union]

/-- Merging keeps every collision. -/
theorem isCollision_merge {left : FactSet} {id : FactId}
    (hleft : left.isCollision id = true) (right : FactSet) :
    (left.merge right).isCollision id = true := by
  rw [isCollision_iff] at hleft ⊢
  rw [get?_merge, hleft, sup_eq_joinSlot]
  rcases right.entries.get? id with _ | _ | _ <;> rfl

/-- Inserting keeps every collision. -/
theorem isCollision_insert {id : FactId}
    (hset : set.isCollision id = true) (fact : Fact) :
    (set.insert fact).isCollision id = true := by
  rw [isCollision_iff] at hset ⊢
  rw [get?_insert, hset, sup_eq_joinSlot]
  rcases slot id fact with _ | _ | _ <;> rfl

theorem unique_le_unique {left right : Fact} :
    some (StoredFact.unique left) ≤ some (StoredFact.unique right) ↔
      left = right := by
  rw [← sup_eq_right, sup_eq_joinSlot]
  simp only [joinSlot]
  split <;> simp_all

theorem exists_of_mem_ids_fromFacts {facts : List Fact} {id : FactId}
    (h : id ∈ (fromFacts facts).ids) : ∃ fact ∈ facts, fact.id = id := by
  by_contra hnone
  have hbot : facts.toFinset.sup (slot id) = ⊥ := by
    refine (Finset.sup_eq_bot_iff _ _).2 fun fact hfact => ?_
    rw [slot, if_neg fun hid => hnone ⟨fact, List.mem_toFinset.1 hfact, hid⟩]
    rfl
  rw [mem_ids, get?_fromFacts, hbot] at h
  cases h

/-- A fact is retained when it is the only content given for its identity. -/
theorem get?_fromFacts_eq_some_iff {facts : List Fact} {id : FactId} :
    (fromFacts facts).get? id = some fact ↔
      fact ∈ facts ∧ fact.id = id ∧
        ∀ other ∈ facts, other.id = id → other = fact := by
  rw [get?_eq_some_iff, get?_fromFacts]
  constructor
  · intro hsup
    have hunique : ∀ other ∈ facts, other.id = id → other = fact := by
      intro other hother hid
      have hle : slot id other ≤ facts.toFinset.sup (slot id) :=
        Finset.le_sup (List.mem_toFinset.2 hother)
      rwa [hsup, slot, if_pos hid, unique_le_unique] at hle
    obtain ⟨other, hother, hid⟩ : ∃ other ∈ facts, other.id = id := by
      apply exists_of_mem_ids_fromFacts
      rw [mem_ids, get?_fromFacts, hsup]
      rfl
    have heq := hunique other hother hid
    exact ⟨heq ▸ hother, heq ▸ hid, hunique⟩
  · rintro ⟨hmem, hid, hunique⟩
    refine le_antisymm (Finset.sup_le fun other hother => ?_) ?_
    · unfold slot
      split
      next hother' =>
        rw [hunique other (List.mem_toFinset.1 hother) hother']
      next => exact bot_le
    · have hle : slot id fact ≤ facts.toFinset.sup (slot id) :=
        Finset.le_sup (List.mem_toFinset.2 hmem)
      rwa [slot, if_pos hid] at hle

end FactSet

end Hq
