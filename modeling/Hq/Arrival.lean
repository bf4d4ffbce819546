/-
Reduction does not depend on arrival: batches of facts merged in any grouping
give the set of all their facts, and so the same report.
-/
import Hq.ProjectViews

namespace Hq

/-- Batches of facts and the order and grouping of their merges. -/
inductive Batches where
  | batch (facts : List Fact)
  | merge (left right : Batches)

namespace Batches

/-- The facts of all batches. -/
def facts : Batches → List Fact
  | batch facts => facts
  | merge left right => left.facts ++ right.facts

/-- The set the merges collect. -/
def collect : Batches → FactSet
  | batch facts => FactSet.fromFacts facts
  | merge left right => left.collect.merge right.collect

theorem collect_eq (batches : Batches) :
    batches.collect = FactSet.fromFacts batches.facts := by
  induction batches with
  | batch facts => rfl
  | merge left right ihLeft ihRight =>
      rw [collect, facts, FactSet.fromFacts_append, ihLeft, ihRight]

end Batches

/-- The result of a reduction is a function of the facts alone, however often,
in whatever order and in whatever batches they arrive. -/
def ArrivalInvariant {A K V R : Type} [LinearOrder A] [LinearOrder K]
    [DecidableEq V] [DecidableEq R] [FieldCoded R]
    (domain : DomainReducer A K V R) : Prop :=
  ∀ (facts : List Fact) (batches : Batches),
    (∀ fact, fact ∈ facts ↔ fact ∈ batches.facts) →
      reduceComplete domain facts = reduceComplete domain batches.facts ∧
      reduceComplete domain facts = reduceSet domain batches.collect

theorem arrivalInvariant {A K V R : Type} [LinearOrder A] [LinearOrder K]
    [DecidableEq V] [DecidableEq R] [FieldCoded R]
    (domain : DomainReducer A K V R) : ArrivalInvariant domain := by
  intro facts batches hsame
  have hset := FactSet.fromFacts_congr hsame
  constructor
  · rw [reduceComplete, reduceComplete, hset]
  · rw [reduceComplete, batches.collect_eq, hset]

namespace FactSet

/-- Unequal facts for one identity collide in a merge. -/
theorem isCollision_merge_of_ne {left right : FactSet} {id : FactId}
    {first second : Fact} (hleft : left.get? id = some first)
    (hright : right.get? id = some second) (hne : first ≠ second) :
    (left.merge right).isCollision id = true := by
  rw [isCollision_iff, get?_merge, get?_eq_some_iff.1 hleft,
    get?_eq_some_iff.1 hright, sup_eq_joinSlot]
  simp [joinSlot, hne]

/-- Unequal facts for one identity collide when inserted after each other. -/
theorem isCollision_insert_of_ne (set : FactSet) {first second : Fact}
    (hid : first.id = second.id) (hne : first ≠ second) :
    ((set.insert first).insert second).isCollision first.id = true := by
  rw [isCollision_iff, get?_insert, get?_insert, slot, slot, if_pos rfl,
    if_pos hid.symm, sup_assoc, sup_eq_joinSlot (some _)]
  have hjoin : joinSlot (some (.unique first)) (some (.unique second)) =
      some .collision := by
    simp [joinSlot, hne]
  rw [hjoin, sup_eq_joinSlot]
  rcases set.entries.get? first.id with _ | _ | _ <;> rfl

end FactSet

/-- All four reductions ignore how facts arrive; merging is a join that keeps
every collision, whichever of two unequal facts came first. -/
theorem reduction_arrival_invariant :
    (∀ policy, ArrivalInvariant (authorityReducer policy)) ∧
    (∀ policy, ArrivalInvariant (conversationReducer policy)) ∧
    (∀ policy, ArrivalInvariant (agentReducer policy)) ∧
    (∀ policy conflicts, ArrivalInvariant (projectReducer policy conflicts)) ∧
    (∀ a b : FactSet, a.merge b = b.merge a) ∧
    (∀ a b c : FactSet, (a.merge b).merge c = a.merge (b.merge c)) ∧
    (∀ a : FactSet, a.merge a = a) ∧
    (∀ (a b : FactSet) id first second, a.get? id = some first →
      b.get? id = some second → first ≠ second →
      (a.merge b).isCollision id = true ∧ (b.merge a).isCollision id = true) ∧
    (∀ (a : FactSet) (first second : Fact), first.id = second.id →
      first ≠ second →
      ((a.insert first).insert second).isCollision first.id = true ∧
        ((a.insert second).insert first).isCollision first.id = true) ∧
    ∀ (a : FactSet) id, a.isCollision id = true →
      (∀ fact, (a.insert fact).isCollision id = true) ∧
        ∀ b, (a.merge b).isCollision id = true ∧
          (b.merge a).isCollision id = true := by
  refine ⟨fun _ => arrivalInvariant _, fun _ => arrivalInvariant _,
    fun _ => arrivalInvariant _, fun _ _ => arrivalInvariant _,
    FactSet.merge_comm, FactSet.merge_assoc, FactSet.merge_self, ?_, ?_, ?_⟩
  · intro a b id first second hfirst hsecond hne
    exact ⟨FactSet.isCollision_merge_of_ne hfirst hsecond hne,
      FactSet.isCollision_merge_of_ne hsecond hfirst hne.symm⟩
  · intro a first second hid hne
    refine ⟨a.isCollision_insert_of_ne hid hne, ?_⟩
    rw [hid]
    exact a.isCollision_insert_of_ne hid.symm hne.symm
  · intro a id hcollision
    refine ⟨fun fact => FactSet.isCollision_insert hcollision fact, fun b => ?_⟩
    have hleft := FactSet.isCollision_merge hcollision b
    exact ⟨hleft, FactSet.merge_comm a b ▸ hleft⟩

end Hq
