/-
Lists cut at a separator: the components between separators, and when one
list goes on where another ends at a component boundary.
-/
import Mathlib

namespace Hq

universe u

variable {α : Type u} [DecidableEq α]

/-- The components of a list between separators. -/
def components (sep : α) (list : List α) : List (List α) :=
  (list.splitOn sep).filter fun part => part ≠ []

/-- Every component behind a separator of its own. -/
def separated (sep : α) (parts : List (List α)) : List α :=
  parts.flatMap (sep :: ·)

/-- Nothing follows, or a separator does. -/
def AtBoundary (sep : α) (rest : List α) : Prop :=
  rest = [] ∨ rest.head? = some sep

/-- A component is not empty and holds no separator. -/
def IsComponent (sep : α) (part : List α) : Prop :=
  part ≠ [] ∧ sep ∉ part

variable {sep : α} {part rest list : List α} {parts : List (List α)}

theorem splitOn_cons_self (sep : α) (rest : List α) :
    (sep :: rest).splitOn sep = [] :: rest.splitOn sep := by
  simp [List.splitOn, List.splitOnP_cons_eq_if_modifyHead]

theorem splitOn_cons_of_ne {x : α} (hne : x ≠ sep) :
    (x :: rest).splitOn sep = (rest.splitOn sep).modifyHead (x :: ·) := by
  simp [List.splitOn, List.splitOnP_cons_eq_if_modifyHead, hne]

theorem splitOn_append (hpart : sep ∉ part) :
    (part ++ rest).splitOn sep = (rest.splitOn sep).modifyHead (part ++ ·) := by
  induction part with
  | nil =>
      rw [List.nil_append]
      cases rest.splitOn sep <;> rfl
  | cons x part ih =>
      rw [List.mem_cons, not_or] at hpart
      rw [List.cons_append, splitOn_cons_of_ne (Ne.symm hpart.1), ih hpart.2]
      cases rest.splitOn sep <;> simp

@[simp] theorem components_nil : components sep [] = [] := by
  simp [components, List.splitOn]

@[simp] theorem components_cons_self :
    components sep (sep :: rest) = components sep rest := by
  simp [components, splitOn_cons_self]

theorem components_append (hpart : IsComponent sep part)
    (hrest : AtBoundary sep rest) :
    components sep (part ++ rest) = part :: components sep rest := by
  obtain ⟨hne, hmem⟩ := hpart
  unfold components
  rw [splitOn_append hmem]
  rcases hrest with rfl | hrest
  · simp [List.splitOn, hne]
  · obtain ⟨tail, rfl⟩ := List.head?_eq_some_iff.1 hrest
    simp [splitOn_cons_self, hne]

omit [DecidableEq α] in
theorem atBoundary_separated (hrest : AtBoundary sep rest) :
    AtBoundary sep (separated sep parts ++ rest) := by
  cases parts with
  | nil => exact hrest
  | cons part parts => exact Or.inr rfl

theorem components_separated_append
    (hparts : ∀ part ∈ parts, IsComponent sep part)
    (hrest : AtBoundary sep rest) :
    components sep (separated sep parts ++ rest) =
      parts ++ components sep rest := by
  induction parts with
  | nil => rfl
  | cons part parts ih =>
      have htail := ih fun other hother => hparts other (List.mem_cons_of_mem _ hother)
      have hsplit : separated sep (part :: parts) ++ rest =
          sep :: (part ++ (separated sep parts ++ rest)) := by
        simp [separated]
      rw [hsplit, components_cons_self, components_append
        (hparts part List.mem_cons_self) (atBoundary_separated hrest), htail]
      rfl

theorem not_mem_of_mem_splitOn (hmem : part ∈ list.splitOn sep) :
    sep ∉ part := by
  induction list generalizing part with
  | nil =>
      obtain rfl : part = [] := by simpa [List.splitOn] using hmem
      simp
  | cons x list ih =>
      by_cases hx : x = sep
      · rw [hx, splitOn_cons_self, List.mem_cons] at hmem
        rcases hmem with rfl | hmem
        · simp
        · exact ih hmem
      · rw [splitOn_cons_of_ne hx] at hmem
        cases hsplit : list.splitOn sep with
        | nil => simp [hsplit] at hmem
        | cons first others =>
            rw [hsplit, List.modifyHead_cons, List.mem_cons] at hmem
            rcases hmem with rfl | hmem
            · rw [List.mem_cons, not_or]
              exact ⟨Ne.symm hx, ih (by simp [hsplit])⟩
            · exact ih (by simp [hsplit, hmem])

theorem isComponent_of_mem_components (hmem : part ∈ components sep list) :
    IsComponent sep part := by
  obtain ⟨hmem, hne⟩ := List.mem_filter.1 hmem
  exact ⟨by simpa using hne, not_mem_of_mem_splitOn hmem⟩

omit [DecidableEq α] in
theorem separated_sublist {others : List (List α)}
    (h : parts.Sublist others) :
    (separated sep parts).Sublist (separated sep others) := by
  induction h with
  | slnil => exact List.Sublist.refl _
  | cons part _ ih =>
      exact ih.trans (List.sublist_append_right (sep :: part) _)
  | cons_cons part _ ih => exact ih.append_left (sep :: part)

theorem eq_of_splitOn (h : list.splitOn sep = part :: parts) :
    list = part ++ separated sep parts := by
  induction list generalizing part parts with
  | nil =>
      obtain ⟨rfl, rfl⟩ : part = [] ∧ parts = [] := by
        simpa [List.splitOn, eq_comm] using h
      rfl
  | cons x list ih =>
      by_cases hx : x = sep
      · rw [hx, splitOn_cons_self, List.cons.injEq] at h
        obtain ⟨rfl, hrest⟩ := h
        cases hsplit : list.splitOn sep with
        | nil => exact absurd hsplit (List.splitOn_ne_nil _ _)
        | cons first others =>
            rw [← hrest, hsplit, hx, List.nil_append]
            change sep :: list = sep :: first ++ separated sep others
            rw [ih hsplit, List.cons_append]
      · rw [splitOn_cons_of_ne hx] at h
        cases hsplit : list.splitOn sep with
        | nil => exact absurd hsplit (List.splitOn_ne_nil _ _)
        | cons first others =>
            rw [hsplit, List.modifyHead_cons, List.cons.injEq] at h
            obtain ⟨rfl, rfl⟩ := h
            rw [ih hsplit, List.cons_append]

/-- The components of a list that starts with a separator lie in it in order,
each behind a separator. -/
theorem separated_components_sublist (h : list.head? = some sep) :
    (separated sep (components sep list)).Sublist list := by
  obtain ⟨rest, rfl⟩ := List.head?_eq_some_iff.1 h
  have hsplit := splitOn_cons_self sep rest
  have hlist := eq_of_splitOn hsplit
  rw [List.nil_append] at hlist
  conv_rhs => rw [hlist]
  refine separated_sublist ?_
  unfold components
  rw [hsplit, List.filter_cons_of_neg (by simp)]
  exact List.filter_sublist

/-- A list that starts with a separator, does not end with one and has no two
in a row. -/
structure WellSeparated (sep : α) (list : List α) : Prop where
  starts : list.head? = some sep
  ends : list.getLast? ≠ some sep
  apart : list.IsChain fun left right => ¬ (left = sep ∧ right = sep)

/-- The first component of a well separated list and what follows it. -/
theorem WellSeparated.split (h : WellSeparated sep list) :
    ∃ part rest, list = sep :: (part ++ rest) ∧ IsComponent sep part ∧
      (rest = [] ∨ WellSeparated sep rest) := by
  obtain ⟨tail, rfl⟩ := List.head?_eq_some_iff.1 h.starts
  have happend := List.takeWhile_append_dropWhile
    (p := fun x => decide (x ≠ sep)) (l := tail)
  refine ⟨tail.takeWhile fun x => decide (x ≠ sep),
    tail.dropWhile fun x => decide (x ≠ sep), by rw [happend], ⟨?_, ?_⟩, ?_⟩
  · cases tail with
    | nil => exact absurd rfl h.ends
    | cons first tail =>
        have hfirst : first ≠ sep := fun heq =>
          (List.isChain_cons_cons.1 h.apart).1 ⟨rfl, heq⟩
        simp [hfirst]
  · intro hmem
    simpa using List.mem_takeWhile_imp hmem
  · cases hrest : tail.dropWhile fun x => decide (x ≠ sep) with
    | nil => exact Or.inl rfl
    | cons first rest =>
        right
        rw [hrest] at happend
        have hne : tail.dropWhile (fun x => decide (x ≠ sep)) ≠ [] := by
          rw [hrest]
          exact List.cons_ne_nil first rest
        have hfirst : first = sep := by
          have hhead := List.head_dropWhile_not (fun x => decide (x ≠ sep)) hne
          simp only [hrest, List.head_cons] at hhead
          simpa using hhead
        refine ⟨by simp [hfirst], ?_, ?_⟩
        · have hends := h.ends
          rw [← happend] at hends
          rwa [← List.cons_append, List.getLast?_append_cons] at hends
        · have hapart := h.apart
          rw [← happend, ← List.cons_append] at hapart
          exact (List.isChain_append.1 hapart).2.1

/-- A well separated list is the separated list of its components. -/
theorem separated_components (h : WellSeparated sep list) :
    separated sep (components sep list) = list := by
  generalize hlength : list.length = n
  induction n using Nat.strong_induction_on generalizing list with
  | _ n ih =>
      obtain ⟨part, rest, rfl, hpart, hrest⟩ := h.split
      have hboundary : AtBoundary sep rest :=
        hrest.imp_right fun hrest => hrest.starts
      have htail : separated sep (components sep rest) = rest := by
        rcases hrest with rfl | hrest
        · simp [separated]
        · refine ih rest.length ?_ hrest rfl
          simp only [List.length_cons, List.length_append] at hlength
          omega
      rw [components_cons_self, components_append hpart hboundary]
      change sep :: part ++ separated sep (components sep rest) = _
      rw [htail, List.cons_append]

omit [DecidableEq α] in
/-- Separated components are well separated. -/
theorem wellSeparated_separated (hne : parts ≠ [])
    (hparts : ∀ part ∈ parts, IsComponent sep part) :
    WellSeparated sep (separated sep parts) := by
  induction parts with
  | nil => exact absurd rfl hne
  | cons part parts ih =>
      obtain ⟨hpart, hfree⟩ := hparts part List.mem_cons_self
      have hlast : (sep :: part).getLast? ≠ some sep := by
        rw [List.getLast?_cons]
        obtain ⟨last, hlast⟩ := Option.isSome_iff_exists.1
          (List.getLast?_isSome.2 hpart)
        rw [hlast, Option.getD_some, ne_eq, Option.some.injEq]
        rintro rfl
        exact hfree (List.mem_of_getLast? hlast)
      have hfirst : (sep :: part).IsChain fun left right =>
          ¬ (left = sep ∧ right = sep) := by
        refine List.Pairwise.isChain (List.pairwise_cons.2 ⟨?_, ?_⟩)
        · exact fun x hx heq => hfree (heq.2 ▸ hx)
        · exact List.pairwise_of_forall_mem_list fun _ _ x hx heq =>
            hfree (heq.2 ▸ hx)
      change WellSeparated sep (sep :: part ++ separated sep parts)
      cases parts with
      | nil =>
          rw [separated, List.flatMap_nil, List.append_nil]
          exact ⟨rfl, hlast, hfirst⟩
      | cons second others =>
          have hrest := ih (List.cons_ne_nil _ _) fun other hother =>
            hparts other (List.mem_cons_of_mem _ hother)
          refine ⟨rfl, ?_, List.isChain_append.2 ⟨hfirst, hrest.apart, ?_⟩⟩
          · have hsome : (separated sep (second :: others)).getLast?.isSome :=
              List.getLast?_isSome.2 (by simp [separated])
            rw [List.getLast?_append, Option.or_of_isSome hsome]
            exact hrest.ends
          · rintro left hleft right - ⟨rfl, -⟩
            exact hlast hleft

/-- Components extend exactly where the separated lists do at a boundary. -/
theorem components_prefix_iff {others : List (List α)}
    (hparts : ∀ part ∈ parts, IsComponent sep part)
    (hothers : ∀ part ∈ others, IsComponent sep part) :
    parts <+: others ↔ ∃ rest, AtBoundary sep rest ∧
      separated sep others = separated sep parts ++ rest := by
  constructor
  · rintro ⟨more, rfl⟩
    refine ⟨separated sep more, ?_, by simp [separated]⟩
    have hboundary : AtBoundary sep (separated sep more ++ []) :=
      atBoundary_separated (Or.inl rfl)
    rwa [List.append_nil] at hboundary
  · rintro ⟨rest, hrest, heq⟩
    have hcomponents := congrArg (components sep) heq
    rw [components_separated_append hparts hrest,
      ← List.append_nil (separated sep others),
      components_separated_append hothers (Or.inl rfl), components_nil,
      List.append_nil] at hcomponents
    exact ⟨_, hcomponents.symm⟩

end Hq
