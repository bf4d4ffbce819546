/-
The path policy of the resource adapter beside the reducer's own: validity of
locators, the relation between two canonical paths, and the lexical
normalization of absolute paths.
-/
import Hq.ProjectClaims

namespace Hq.PathPolicy

/-- Component-aware relation of the left path to the right one. -/
inductive PathRelation where
  | equal | ancestor | descendant | disjoint
deriving DecidableEq

/-- The components of a normalized absolute path. -/
def components (value : List Char) : Option (List (List Char)) :=
  if value.head? ≠ some '/' ||
      (value ≠ ['/'] && (value.getLast? = some '/' ||
        (value.zip value.tail).any fun pair => pair.1 = '/' && pair.2 = '/')) ||
      (value.splitOn '/').any fun component =>
        component = ['.'] || component = ['.', '.'] then
    none
  else some (Hq.components '/' value)

def pathRelation (left right : ResourceLocator) : PathRelation :=
  if left.scheme ≠ .workingTree || right.scheme ≠ .workingTree then .disjoint
  else
    match components left.value.chars, components right.value.chars with
    | some left, some right =>
        if left = right then .equal
        else if left.length < right.length && left.isPrefixOf right then
          .ancestor
        else if right.length < left.length && right.isPrefixOf left then
          .descendant
        else .disjoint
    | _, _ => .disjoint

def validPathResource (resource : ProjectResource) : Bool :=
  resource.displayLocator.scheme = .workingTree &&
    resource.canonicalLocator.scheme = .workingTree &&
    (components resource.displayLocator.value.chars).isSome &&
    (components resource.canonicalLocator.value.chars).isSome

/-! Lexical normalization.  A path is its text, or bytes that are no text; the
components of an absolute path and the two edits of a path buffer are those of
the standard library on Unix. -/

inductive SystemPath where
  | text (value : List Char)
  | undecodable (absolute : Bool)

def SystemPath.isAbsolute : SystemPath → Bool
  | .text value => value.head? = some '/'
  | .undecodable absolute => absolute

inductive PathResourceError where
  | notAbsolute | unsupportedEncoding | invalidPath | locatorTooLong
deriving DecidableEq

inductive PathComponent where
  | rootDir | curDir | parentDir
  | normal (name : List Char)

/-- What a name between separators of an absolute path stands for: a dot is
skipped. -/
def componentOf (name : List Char) : Option PathComponent :=
  if name = ['.'] then none
  else if name = ['.', '.'] then some .parentDir
  else some (.normal name)

def pathComponents (value : List Char) : List PathComponent :=
  .rootDir :: (Hq.components '/' value).filterMap componentOf

/-- Append a component, or start over with an absolute one. -/
def push (buffer name : List Char) : List Char :=
  if name.head? = some '/' then name
  else if buffer = [] || buffer.getLast? = some '/' then buffer ++ name
  else buffer ++ '/' :: name

/-- Drop the last component; a root has none. -/
def pop (buffer : List Char) : List Char :=
  if Hq.components '/' buffer = [] then buffer
  else
    let front := (buffer.reverse.dropWhile fun char => char ≠ '/').reverse
    if front = [] then []
    else if trimEndSlashes front = [] then ['/']
    else trimEndSlashes front

def normalizeStep (normalized : List Char) : PathComponent → List Char
  | .rootDir => push normalized ['/']
  | .normal name => push normalized name
  | .curDir => normalized
  | .parentDir => pop normalized

def normalizeAbsolutePath (path : SystemPath) :
    Except PathResourceError (List Char) :=
  if !path.isAbsolute then .error .notAbsolute
  else
    match path with
    | .undecodable _ => .error .unsupportedEncoding
    | .text value =>
        if '\x00' ∈ value then .error .invalidPath
        else if utf8Length value > 4096 then .error .locatorTooLong
        else .ok ((pathComponents value).foldl normalizeStep [])

/-! Validity. -/

/-- A plain path whose components are names. -/
structure NamedPath (value : List Char) : Prop where
  plain : PlainPath value
  named : ((value.splitOn '/').any fun component =>
    component = ['.'] || component = ['.', '.']) = false

theorem components_eq {value : List Char} :
    components value =
      if value.head? = some '/' ∧
          (value = ['/'] ∨ value.getLast? ≠ some '/' ∧
            ((value.zip value.tail).any fun pair =>
              pair.1 = '/' && pair.2 = '/') = false) ∧
          ((value.splitOn '/').any fun component =>
            component = ['.'] || component = ['.', '.']) = false then
        some (Hq.components '/' value)
      else none := by
  unfold components
  split
  next hbad =>
    rw [if_neg]
    rintro ⟨hstarts, hshape, hnamed⟩
    rw [hnamed, hstarts] at hbad
    rcases hshape with hroot | ⟨hends, happart⟩
    · simp [hroot] at hbad
    · rw [happart] at hbad
      simp [hends] at hbad
  next hgood =>
    rw [if_pos]
    simp only [Bool.or_eq_true, not_or, decide_eq_true_eq, Decidable.not_not,
      Bool.and_eq_true, not_and, Bool.not_eq_true] at hgood
    refine ⟨hgood.1.1, ?_, hgood.2⟩
    by_cases hroot : value = ['/']
    · exact Or.inl hroot
    · exact Or.inr (hgood.1.2 hroot)

theorem components_eq_some {value : List Char} {parts : List (List Char)} :
    components value = some parts ↔
      NamedPath value ∧ parts = Hq.components '/' value := by
  rw [components_eq]
  split
  next h =>
    rw [Option.some.injEq]
    exact ⟨fun heq => ⟨⟨⟨h.1, h.2.1⟩, h.2.2⟩, heq.symm⟩, fun hparts =>
      hparts.2.symm⟩
  next h =>
    simp only [reduceCtorEq, false_iff]
    rintro ⟨hnamed, -⟩
    exact h ⟨hnamed.plain.starts, hnamed.plain.shape, hnamed.named⟩

theorem components_isSome {value : List Char} :
    (components value).isSome = true ↔ NamedPath value := by
  rw [Option.isSome_iff_exists]
  constructor
  · rintro ⟨parts, hparts⟩
    exact (components_eq_some.1 hparts).1
  · exact fun hnamed => ⟨_, components_eq_some.2 ⟨hnamed, rfl⟩⟩

/-- The reducer also refuses the null character. -/
theorem validAbsolutePath_iff {value : List Char} :
    validAbsolutePath value = true ↔ NamedPath value ∧ '\x00' ∉ value := by
  simp only [validAbsolutePath, Bool.and_eq_true, Bool.or_eq_true,
    decide_eq_true_eq, Bool.not_eq_true']
  constructor
  · rintro ⟨⟨⟨hstarts, hnul⟩, hshape⟩, hnamed⟩
    exact ⟨⟨⟨hstarts, hshape⟩, hnamed⟩, hnul⟩
  · rintro ⟨⟨⟨hstarts, hshape⟩, hnamed⟩, hnul⟩
    exact ⟨⟨⟨hstarts, hnul⟩, hshape⟩, hnamed⟩

/-- A resource whose locators are normalized working-tree paths, one of which
holds the null character. -/
structure HoldsNull (resource : ProjectResource) : Prop where
  display : resource.displayLocator.scheme = .workingTree
  canonical : resource.canonicalLocator.scheme = .workingTree
  displayNamed : NamedPath resource.displayLocator.value.chars
  canonicalNamed : NamedPath resource.canonicalLocator.value.chars
  null : '\x00' ∈ resource.displayLocator.value.chars ∨
    '\x00' ∈ resource.canonicalLocator.value.chars

theorem validPathResource_iff {resource : ProjectResource} :
    validPathResource resource = true ↔
      resource.displayLocator.scheme = .workingTree ∧
        resource.canonicalLocator.scheme = .workingTree ∧
        NamedPath resource.displayLocator.value.chars ∧
        NamedPath resource.canonicalLocator.value.chars := by
  simp only [validPathResource, Bool.and_eq_true, decide_eq_true_eq,
    components_isSome]
  tauto

theorem reducer_validPathResource_iff {resource : ProjectResource} :
    Hq.validPathResource resource = true ↔
      resource.displayLocator.scheme = .workingTree ∧
        resource.canonicalLocator.scheme = .workingTree ∧
        (NamedPath resource.displayLocator.value.chars ∧
          '\x00' ∉ resource.displayLocator.value.chars) ∧
        NamedPath resource.canonicalLocator.value.chars ∧
          '\x00' ∉ resource.canonicalLocator.value.chars := by
  simp only [Hq.validPathResource, Bool.and_eq_true, decide_eq_true_eq,
    validAbsolutePath_iff]
  tauto

theorem validPathResource_agree_iff (resource : ProjectResource) :
    Hq.validPathResource resource = validPathResource resource ↔
      ¬ HoldsNull resource := by
  rw [Bool.eq_iff_iff, reducer_validPathResource_iff, validPathResource_iff]
  constructor
  · intro hagree hnull
    obtain ⟨-, -, hdisplay, hcanonical⟩ := hagree.2 ⟨hnull.display,
      hnull.canonical, hnull.displayNamed, hnull.canonicalNamed⟩
    exact hnull.null.elim hdisplay.2 hcanonical.2
  · intro hnull
    constructor
    · rintro ⟨hdisplay, hcanonical, hleft, hright⟩
      exact ⟨hdisplay, hcanonical, hleft.1, hright.1⟩
    · rintro ⟨hdisplay, hcanonical, hleft, hright⟩
      have hnone := fun hnul => hnull ⟨hdisplay, hcanonical, hleft, hright, hnul⟩
      exact ⟨hdisplay, hcanonical, ⟨hleft, fun h => hnone (Or.inl h)⟩, hright,
        fun h => hnone (Or.inr h)⟩

/-! Overlap. -/

/-- A working-tree locator the adapter accepts. -/
structure Accepted (locator : ResourceLocator) : Prop where
  scheme : locator.scheme = .workingTree
  named : NamedPath locator.value.chars

instance (path claim : List Char) : Decidable (LiesInside path claim) :=
  inferInstanceAs (Decidable (_ <+: _))

section Overlap

variable {left right : ResourceLocator}

theorem pathConflicts_iff_under (hleft : Accepted left)
    (hright : Accepted right) :
    pathConflicts left right = true ↔
      LiesInside right.value.chars left.value.chars ∨
        LiesInside left.value.chars right.value.chars := by
  simp [pathConflicts, hleft.scheme, hright.scheme,
    pathContains_iff hleft.named.plain hright.named.plain,
    pathContains_iff hright.named.plain hleft.named.plain]

theorem pathRelation_eq (hleft : Accepted left) (hright : Accepted right) :
    pathRelation left right =
      if Hq.components '/' left.value.chars =
          Hq.components '/' right.value.chars then .equal
      else if LiesInside right.value.chars left.value.chars then .ancestor
      else if LiesInside left.value.chars right.value.chars then .descendant
      else .disjoint := by
  have hlonger : ∀ {short long : List (List Char)}, short ≠ long →
      ((decide (short.length < long.length) && short.isPrefixOf long) = true ↔
        short <+: long) := by
    intro short long hne
    rw [Bool.and_eq_true, decide_eq_true_eq, List.isPrefixOf_iff_prefix]
    refine ⟨And.right, fun h => ⟨?_, h⟩⟩
    exact lt_of_le_of_ne h.length_le fun heq => hne (h.eq_of_length heq)
  simp only [pathRelation, hleft.scheme, hright.scheme,
    components_eq_some.2 ⟨hleft.named, rfl⟩,
    components_eq_some.2 ⟨hright.named, rfl⟩, ne_eq, not_true_eq_false,
    decide_false, Bool.or_self, Bool.false_eq_true, if_false, LiesInside]
  by_cases hsame : Hq.components '/' left.value.chars =
      Hq.components '/' right.value.chars
  · simp only [hsame, if_true]
  · simp only [hsame, if_false, hlonger hsame, hlonger (Ne.symm hsame)]
    congr

theorem pathRelation_ne_disjoint (hleft : Accepted left)
    (hright : Accepted right) :
    pathRelation left right ≠ .disjoint ↔
      LiesInside right.value.chars left.value.chars ∨
        LiesInside left.value.chars right.value.chars := by
  rw [pathRelation_eq hleft hright]
  split
  next hsame =>
    simp only [ne_eq, reduceCtorEq, not_false_eq_true, true_iff]
    exact Or.inl ⟨[], by rw [List.append_nil, hsame]⟩
  next =>
    split
    next hinside => simp [hinside]
    next hinside =>
      split
      next hother => simp [hother]
      next hother => simp [hinside, hother]

end Overlap

/-! Normalized paths. -/

/-- The path with the given components. -/
def spell (parts : List (List Char)) : List Char :=
  if parts = [] then ['/'] else separated '/' parts

/-- One component of an absolute path, on the components before it. -/
def walk (parts : List (List Char)) (name : List Char) : List (List Char) :=
  if name = ['.'] then parts
  else if name = ['.', '.'] then parts.dropLast
  else parts ++ [name]

section Spelling

variable {parts : List (List Char)} {name : List Char}

theorem separated_append_singleton :
    separated '/' (parts ++ [name]) = separated '/' parts ++ '/' :: name := by
  simp [separated]

theorem spell_append_singleton :
    spell (parts ++ [name]) = separated '/' parts ++ '/' :: name := by
  rw [spell, if_neg (by simp), separated_append_singleton]

/-- Separated components end inside the last one. -/
theorem separated_getLast? (hparts : ∀ part ∈ parts, IsComponent '/' part) :
    (separated '/' parts).getLast? ≠ some '/' := by
  by_cases hempty : parts = []
  · simp [hempty, separated]
  · exact (wellSeparated_separated hempty hparts).ends

theorem push_spell (hparts : ∀ part ∈ parts, IsComponent '/' part)
    (hname : IsComponent '/' name) :
    push (spell parts) name = spell (parts ++ [name]) := by
  have hhead : name.head? ≠ some '/' := fun h =>
    hname.2 (List.mem_of_head? h)
  rw [push, if_neg hhead, spell_append_singleton]
  by_cases hempty : parts = []
  · simp [spell, hempty, separated]
  · have hne : separated '/' parts ≠ [] := by
      cases parts with
      | nil => exact absurd rfl hempty
      | cons first rest => simp [separated]
    rw [spell, if_neg hempty, if_neg]
    simp [hne, separated_getLast? hparts]

theorem trimEndSlashes_append_slash {front : List Char}
    (hfront : front.getLast? ≠ some '/') :
    trimEndSlashes (front ++ ['/']) = front := by
  rcases List.eq_nil_or_concat front with rfl | ⟨start, last, rfl⟩
  · simp [trimEndSlashes]
  · have hlast : last ≠ '/' := by
      rintro rfl
      exact hfront (by simp)
    simp [trimEndSlashes, hlast]

theorem components_spell (hparts : ∀ part ∈ parts, IsComponent '/' part) :
    Hq.components '/' (spell parts) = parts := by
  unfold spell
  split
  next hempty => simp [hempty]
  next =>
    have h := components_separated_append hparts
      (Or.inl rfl : AtBoundary '/' ([] : List Char))
    simpa using h

theorem pop_spell (hparts : ∀ part ∈ parts, IsComponent '/' part) :
    pop (spell parts) = spell parts.dropLast := by
  rw [pop, components_spell hparts]
  rcases List.eq_nil_or_concat parts with rfl | ⟨front, last, rfl⟩
  · simp
  · rw [List.concat_eq_append] at hparts ⊢
    have hfree := (hparts last (by simp)).2
    have hfront : ∀ part ∈ front, IsComponent '/' part := fun part hpart =>
      hparts part (List.mem_append_left _ hpart)
    have hcut : ((spell (front ++ [last])).reverse.dropWhile fun char =>
        char ≠ '/').reverse = separated '/' front ++ ['/'] := by
      rw [spell_append_singleton, List.reverse_append, List.reverse_cons,
        List.append_assoc, List.dropWhile_append_of_pos]
      · simp
      · intro char hchar
        have hne : char ≠ '/' := fun heq =>
          hfree (heq ▸ List.mem_reverse.1 hchar)
        simpa using hne
    rw [if_neg (by simp), List.dropLast_concat]
    simp only [hcut]
    rw [if_neg (by simp),
      trimEndSlashes_append_slash (separated_getLast? hfront), spell]
    cases front with
    | nil => simp [separated]
    | cons first rest => simp [separated]

theorem normalizeStep_spell (hparts : ∀ part ∈ parts, IsComponent '/' part)
    (hname : IsComponent '/' name) :
    (componentOf name).elim (spell parts) (normalizeStep (spell parts)) =
      spell (walk parts name) := by
  unfold componentOf walk
  split
  next => rfl
  next =>
    split
    next => exact pop_spell hparts
    next => exact push_spell hparts hname

theorem walk_components (hparts : ∀ part ∈ parts, IsComponent '/' part)
    (hname : IsComponent '/' name) :
    ∀ part ∈ walk parts name, IsComponent '/' part := by
  intro part hpart
  unfold walk at hpart
  split at hpart
  · exact hparts part hpart
  · split at hpart
    · exact hparts part (List.mem_of_mem_dropLast hpart)
    · rcases List.mem_append.1 hpart with hpart | hpart
      · exact hparts part hpart
      · exact List.mem_singleton.1 hpart ▸ hname

end Spelling

/-- The loop spells the walked components. -/
theorem foldl_normalizeStep (names parts : List (List Char))
    (hnames : ∀ name ∈ names, IsComponent '/' name)
    (hparts : ∀ part ∈ parts, IsComponent '/' part) :
    (names.filterMap componentOf).foldl normalizeStep (spell parts) =
      spell (names.foldl walk parts) := by
  induction names generalizing parts with
  | nil => rfl
  | cons name names ih =>
      have hname := hnames name List.mem_cons_self
      have hstep := normalizeStep_spell hparts hname
      have hrest := ih (walk parts name)
        (fun other hother => hnames other (List.mem_cons_of_mem _ hother))
        (walk_components hparts hname)
      rw [List.foldl_cons, ← hrest, ← hstep]
      cases hcomponent : componentOf name with
      | none => rw [List.filterMap_cons_none hcomponent]; rfl
      | some component => rw [List.filterMap_cons_some hcomponent]; rfl

/-- What a walk keeps is taken from the walked names, none of them a dot. -/
theorem foldl_walk (names parts : List (List Char))
    (hparts : ∀ part ∈ parts, part ≠ ['.'] ∧ part ≠ ['.', '.']) :
    (names.foldl walk parts).Sublist (parts ++ names) ∧
      ∀ part ∈ names.foldl walk parts, part ≠ ['.'] ∧ part ≠ ['.', '.'] := by
  induction names generalizing parts with
  | nil => simpa using hparts
  | cons name names ih =>
      rw [List.foldl_cons]
      have hstep : (walk parts name).Sublist (parts ++ [name]) ∧
          ∀ part ∈ walk parts name, part ≠ ['.'] ∧ part ≠ ['.', '.'] := by
        unfold walk
        split
        next => exact ⟨List.sublist_append_left _ _, hparts⟩
        next hdot =>
          split
          next =>
            exact ⟨(List.dropLast_sublist parts).trans
                (List.sublist_append_left _ _),
              fun part hpart => hparts part (List.mem_of_mem_dropLast hpart)⟩
          next hdots =>
            refine ⟨List.Sublist.refl _, fun part hpart => ?_⟩
            rcases List.mem_append.1 hpart with hpart | hpart
            · exact hparts part hpart
            · exact List.mem_singleton.1 hpart ▸ ⟨hdot, hdots⟩
      obtain ⟨hsub, hnamed⟩ := ih (walk parts name) hstep.2
      refine ⟨hsub.trans ?_, hnamed⟩
      have happend := hstep.1.append_right names
      rwa [List.append_assoc] at happend

/-- A normalized path spells its walked components. -/
theorem normalizeAbsolutePath_ok {path : SystemPath} {normalized : List Char}
    (h : normalizeAbsolutePath path = .ok normalized) :
    ∃ value, path = .text value ∧ value.head? = some '/' ∧ '\x00' ∉ value ∧
      utf8Length value ≤ 4096 ∧
      normalized = spell ((Hq.components '/' value).foldl walk []) := by
  unfold normalizeAbsolutePath at h
  split at h
  · cases h
  next habsolute =>
    split at h
    · cases h
    next value =>
      split at h
      · cases h
      next hnul =>
        split at h
        · cases h
        next hlength =>
          cases h
          refine ⟨value, rfl, by simpa [SystemPath.isAbsolute] using habsolute,
            hnul, Nat.le_of_not_lt hlength, ?_⟩
          exact foldl_normalizeStep _ []
            (fun name hname => isComponent_of_mem_components hname) nofun

theorem no_double_of_apart {value : List Char}
    (h : value.IsChain fun left right => ¬ (left = '/' ∧ right = '/')) :
    ((value.zip value.tail).any fun pair =>
      pair.1 = '/' && pair.2 = '/') = false := by
  induction value with
  | nil => rfl
  | cons first value ih =>
      cases value with
      | nil => rfl
      | cons second value =>
          obtain ⟨hfirst, hrest⟩ := List.isChain_cons_cons.1 h
          have htail := ih hrest
          rw [List.tail_cons] at htail ⊢
          rw [List.zip_cons_cons, List.any_cons, htail, Bool.or_false]
          simpa using hfirst

/-- Names that are not dots spell a normalized path. -/
theorem namedPath_spell {parts : List (List Char)}
    (hparts : ∀ part ∈ parts, IsComponent '/' part)
    (hnamed : ∀ part ∈ parts, part ≠ ['.'] ∧ part ≠ ['.', '.']) :
    NamedPath (spell parts) := by
  refine ⟨?_, ?_⟩
  · unfold spell
    split
    next => exact ⟨rfl, Or.inl rfl⟩
    next hempty =>
      have hseparated := wellSeparated_separated hempty hparts
      exact ⟨hseparated.starts, Or.inr ⟨hseparated.ends,
        no_double_of_apart hseparated.apart⟩⟩
  · rw [List.any_eq_false]
    intro component hcomponent hdot
    have hne : component ≠ [] := by
      rintro rfl
      simp at hdot
    have hmem : component ∈ Hq.components '/' (spell parts) :=
      List.mem_filter.2 ⟨hcomponent, by simpa using hne⟩
    rw [components_spell hparts] at hmem
    simp [hnamed component hmem] at hdot

/-- A normalized path is taken from the path it was made of. -/
theorem spell_walk_sublist {value : List Char}
    (hstarts : value.head? = some '/') :
    (spell ((Hq.components '/' value).foldl walk [])).Sublist value := by
  have hsub := (foldl_walk (Hq.components '/' value) [] nofun).1
  rw [List.nil_append] at hsub
  unfold spell
  split
  next =>
    obtain ⟨rest, rfl⟩ := List.head?_eq_some_iff.1 hstarts
    exact List.singleton_sublist.2 List.mem_cons_self
  next =>
    exact (separated_sublist hsub).trans (separated_components_sublist hstarts)

theorem utf8Length_le_of_sublist {left right : List Char}
    (h : left.Sublist right) : utf8Length left ≤ utf8Length right :=
  (h.map Char.utf8Size).sum_le_sum fun _ _ => Nat.zero_le _

theorem normalizeAbsolutePath_valid {path : SystemPath}
    {normalized : List Char}
    (h : normalizeAbsolutePath path = .ok normalized) :
    validAbsolutePath normalized = true ∧ utf8Length normalized ≤ 4096 := by
  obtain ⟨value, -, hstarts, hnul, hlength, rfl⟩ := normalizeAbsolutePath_ok h
  obtain ⟨hsub, hnamed⟩ := foldl_walk (Hq.components '/' value) [] nofun
  have hparts : ∀ part ∈ (Hq.components '/' value).foldl walk [],
      IsComponent '/' part := fun part hpart =>
    isComponent_of_mem_components (hsub.subset hpart)
  have hwithin := spell_walk_sublist hstarts
  exact ⟨validAbsolutePath_iff.2 ⟨namedPath_spell hparts hnamed,
      fun hmem => hnul (hwithin.subset hmem)⟩,
    (utf8Length_le_of_sublist hwithin).trans hlength⟩

/-- The relation seen from the other path. -/
def PathRelation.converse : PathRelation → PathRelation
  | .equal => .equal
  | .ancestor => .descendant
  | .descendant => .ancestor
  | .disjoint => .disjoint

theorem pathRelation_converse {left right : ResourceLocator}
    (hleft : Accepted left) (hright : Accepted right) :
    pathRelation right left = (pathRelation left right).converse := by
  rw [pathRelation_eq hleft hright, pathRelation_eq hright hleft]
  by_cases hsame : Hq.components '/' left.value.chars =
      Hq.components '/' right.value.chars
  · rw [if_pos hsame, if_pos hsame.symm]
    rfl
  · rw [if_neg hsame, if_neg (Ne.symm hsame)]
    by_cases hinside : LiesInside right.value.chars left.value.chars
    · have hother : ¬ LiesInside left.value.chars right.value.chars := by
        intro hother
        exact hsame (hinside.eq_of_length_le hother.length_le)
      rw [if_pos hinside, if_neg hother, if_pos hinside]
      rfl
    · rw [if_neg hinside, if_neg hinside]
      split <;> rfl

/-- The two policies accept the same resources unless a normalized path holds
the null character.  On accepted locators the reducer finds a conflict exactly
where the adapter sees equal or nested paths, which is where the components of
one path begin those of the other, whichever path comes first; and the
reducer accepts every normalized path. -/
theorem path_policies_agree_iff (resource : ProjectResource)
    (left right : ResourceLocator) :
    (Hq.validPathResource resource = validPathResource resource ↔
      ¬ HoldsNull resource) ∧
    (Accepted left → Accepted right →
      (pathConflicts left right = true ↔
        pathRelation left right ∈
          [.equal, .ancestor, .descendant]) ∧
      (pathConflicts left right = true ↔
        Hq.components '/' left.value.chars <+:
            Hq.components '/' right.value.chars ∨
          Hq.components '/' right.value.chars <+:
            Hq.components '/' left.value.chars) ∧
      pathConflicts left right = pathConflicts right left ∧
      pathRelation right left = (pathRelation left right).converse) ∧
    ∀ path normalized, normalizeAbsolutePath path = .ok normalized →
      validAbsolutePath normalized = true ∧ utf8Length normalized ≤ 4096 := by
  refine ⟨validPathResource_agree_iff resource, fun hleft hright => ?_,
    fun path normalized => normalizeAbsolutePath_valid⟩
  refine ⟨?_, pathConflicts_iff_under hleft hright,
    pathConflicts_comm left right, pathRelation_converse hleft hright⟩
  rw [pathConflicts_iff_under hleft hright,
    ← pathRelation_ne_disjoint hleft hright]
  cases pathRelation left right <;> simp

def outerTree : ResourceLocator :=
  ⟨.workingTree, ['/', 'a'], by decide, by decide⟩

def innerTree : ResourceLocator :=
  ⟨.workingTree, ['/', 'a', '/', 'b'], by decide, by decide⟩

/-- A tree inside another conflicts with it. -/
theorem path_policies_agree_iff_nested :
    pathConflicts outerTree innerTree = true ∧
      pathRelation innerTree outerTree = .descendant ∧
      validAbsolutePath ['/', 'b'] = true := by
  obtain ⟨-, hoverlap, hnormal⟩ := path_policies_agree_iff
    ⟨.ofNat 1, outerTree, innerTree, .healthy⟩ outerTree innerTree
  have houter : Accepted outerTree :=
    ⟨rfl, components_isSome.1 (by decide +kernel)⟩
  have hinner : Accepted innerTree :=
    ⟨rfl, components_isSome.1 (by decide +kernel)⟩
  have hrelation : pathRelation outerTree innerTree = .ancestor := by
    decide +kernel
  obtain ⟨hconflict, -, -, hconverse⟩ := hoverlap houter hinner
  refine ⟨hconflict.2 (by simp [hrelation]), by rw [hconverse, hrelation]; rfl,
    (hnormal (.text ['/', 'a', '/', '.', '.', '/', '/', 'b']) _ ?_).1⟩
  decide +kernel

/-- A working tree named by the null character. -/
def nullTree : ProjectResource :=
  ⟨.ofNat 1, ⟨.workingTree, ['/', '\x00'], by decide, by decide⟩,
    ⟨.workingTree, ['/', '\x00'], by decide, by decide⟩, .healthy⟩

/-- The adapter accepts a path with a null character that the reducer
refuses. -/
theorem null_path_splits_policies :
    validPathResource nullTree = true ∧
      Hq.validPathResource nullTree = false := by
  decide +kernel

end Hq.PathPolicy
