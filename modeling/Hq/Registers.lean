/-
Registers over a strict order of writes: the writes below no other write, and
registers in which a removal wins over every write it is not below.
-/
import Mathlib

namespace Hq

universe u

variable {α : Type u} {below : α → α → Prop} {writes removes : Set α}

/-- A write below no other write of its register. -/
def IsLast (below : α → α → Prop) (writes : Set α) (x : α) : Prop :=
  x ∈ writes ∧ ∀ y ∈ writes, ¬ below x y

/-- Every write of a finite register is a last one or below a last one. -/
theorem exists_last_above (below : α → α → Prop) [IsStrictOrder α below]
    (hfinite : writes.Finite) {x : α} (hx : x ∈ writes) :
    ∃ y, IsLast below writes y ∧ (x = y ∨ below x y) := by
  let _ : PartialOrder α := partialOrderOfSO below
  obtain ⟨y, hxy, hy⟩ := hfinite.exists_le_maximal hx
  refine ⟨y, ⟨hy.prop, fun z hz hyz => ?_⟩, hxy⟩
  rcases hy.le_of_ge hz (Or.inr hyz) with heq | hzy
  · exact irrefl_of below y (heq ▸ hyz)
  · exact irrefl_of below y (trans_of below hyz hzy)

/-- A removal is among the last writes exactly when some removal is below no
write that does not remove. -/
theorem removed_last_iff (below : α → α → Prop) [IsStrictOrder α below]
    (removes : Set α) (hfinite : writes.Finite) :
    (∃ x ∈ removes, IsLast below writes x) ↔
      ∃ x ∈ writes, x ∈ removes ∧ ∀ y ∈ writes, y ∉ removes → ¬ below x y := by
  constructor
  · rintro ⟨x, hremoves, hx, hlast⟩
    exact ⟨x, hx, hremoves, fun y hy _ => hlast y hy⟩
  · rintro ⟨x, hx, hremoves, hkept⟩
    obtain ⟨y, hlast, hxy⟩ := exists_last_above below hfinite hx
    refine ⟨y, ?_, hlast⟩
    rcases hxy with rfl | hxy
    · exact hremoves
    · by_contra hy
      exact hkept y hlast.1 hy hxy

/-- Without a removal among the last writes these are the last of the writes
that do not remove. -/
theorem isLast_iff_of_kept [IsStrictOrder α below]
    (hfinite : writes.Finite)
    (hkept : ¬ ∃ x ∈ removes, IsLast below writes x) {x : α} :
    IsLast below writes x ↔ IsLast below (writes \ removes) x := by
  constructor
  · intro h
    exact ⟨⟨h.1, fun hremoves => hkept ⟨x, hremoves, h⟩⟩,
      fun y hy => h.2 y hy.1⟩
  · rintro ⟨⟨hx, -⟩, hlast⟩
    refine ⟨hx, fun y hy hxy => ?_⟩
    obtain ⟨z, hz, hyz⟩ := exists_last_above below hfinite hy
    have hkeeps : z ∉ removes := fun hremoves => hkept ⟨z, hremoves, hz⟩
    refine hlast z ⟨hz.1, hkeeps⟩ ?_
    rcases hyz with rfl | hyz
    · exact hxy
    · exact trans_of below hxy hyz

end Hq
