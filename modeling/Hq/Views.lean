/-
What projection lists have in common: groups of projected facts, causal
maxima, and contributions with projected support and one value for a key.
-/
import Hq.AuthorityViews
import Hq.AuthorityCausal
import Hq.Derivation

namespace Hq

section Groups

variable {κ : Type} [LinearOrder κ] {keyOf : Fact → Option κ}

theorem foldl_group_members (keyOf : Fact → Option κ) (list : List Fact)
    (groups : OrderedMap κ (OrderedSet FactId)) (key : κ) (id : FactId) :
    id ∈ (list.foldl (fun groups fact =>
      match keyOf fact with
      | none => groups
      | some key => groups.insertMember key fact.id) groups).members key ↔
      id ∈ groups.members key ∨
        ∃ fact ∈ list, keyOf fact = some key ∧ fact.id = id := by
  induction list generalizing groups with
  | nil => simp
  | cons head tail ih =>
      rw [List.foldl_cons, ih]
      cases hkey : keyOf head with
      | none => simp [hkey]
      | some found =>
          rw [OrderedMap.mem_members_insertMember]
          simp only [List.mem_cons, exists_eq_or_imp, hkey, Option.some.injEq]
          constructor
          · rintro ((⟨rfl, rfl⟩ | h) | h)
            · exact Or.inr (Or.inl ⟨rfl, rfl⟩)
            · exact Or.inl h
            · exact Or.inr (Or.inr h)
          · rintro (h | ⟨rfl, rfl⟩ | h)
            · exact Or.inl (Or.inr h)
            · exact Or.inl (Or.inl ⟨rfl, rfl⟩)
            · exact Or.inr h

theorem foldl_group_keys (list : List Fact)
    (groups : OrderedMap κ (OrderedSet FactId))
    (hgroups : ∀ key set, groups.get? key = some set → set ≠ ∅) (key : κ)
    (set : OrderedSet FactId)
    (hget : (list.foldl (fun groups fact =>
      match keyOf fact with
      | none => groups
      | some key => groups.insertMember key fact.id) groups).get? key =
        some set) : set ≠ ∅ := by
  induction list generalizing groups with
  | nil => exact hgroups key set hget
  | cons head tail ih =>
      rw [List.foldl_cons] at hget
      refine ih _ ?_ hget
      cases hkey : keyOf head with
      | none => exact hgroups
      | some found =>
          intro other members hmembers
          simp only [OrderedMap.insertMember, OrderedMap.get?_insert] at hmembers
          split at hmembers
          · cases hmembers
            intro hempty
            have := OrderedSet.eq_empty_iff.1 hempty head.id
            simp at this
          · exact hgroups other members hmembers

/-- A group holds exactly the facts with its key, and at least one. -/
theorem groupFacts_get? {list : List Fact} {key : κ} {set : OrderedSet FactId}
    (hget : (groupFacts keyOf list).get? key = some set) :
    set ≠ ∅ ∧ ∀ id, id ∈ set ↔
      ∃ fact ∈ list, keyOf fact = some key ∧ fact.id = id := by
  refine ⟨foldl_group_keys list ∅ (by simp) key set hget, fun id => ?_⟩
  have hmembers := foldl_group_members keyOf list ∅ key id
  simp only [OrderedMap.members_empty, OrderedSet.not_mem_empty,
    false_or] at hmembers
  rw [← hmembers]
  change id ∈ set ↔ id ∈ (groupFacts keyOf list).members key
  rw [OrderedMap.members, hget, Option.getD_some]

theorem groupFacts_entry {list : List Fact} {entry : κ × OrderedSet FactId}
    (hentry : entry ∈ (groupFacts keyOf list).entries) :
    entry.2 ≠ ∅ ∧ ∀ id, id ∈ entry.2 ↔
      ∃ fact ∈ list, keyOf fact = some entry.1 ∧ fact.id = id :=
  groupFacts_get? (OrderedMap.get?_eq_some_iff.2 hentry)

theorem groupFacts_isSome {list : List Fact} {key : κ} :
    ((groupFacts keyOf list).get? key).isSome = true ↔
      ∃ fact ∈ list, keyOf fact = some key := by
  constructor
  · intro h
    obtain ⟨set, hset⟩ := Option.isSome_iff_exists.1 h
    obtain ⟨hne, hmem⟩ := groupFacts_get? hset
    by_contra hnone
    refine hne (OrderedSet.eq_empty_iff.2 fun id hid => ?_)
    obtain ⟨fact, hfact, hkey, -⟩ := (hmem id).1 hid
    exact hnone ⟨fact, hfact, hkey⟩
  · rintro ⟨fact, hfact, hkey⟩
    have hmember := (foldl_group_members keyOf list ∅ key fact.id).2
      (Or.inr ⟨fact, hfact, hkey, rfl⟩)
    change fact.id ∈ (groupFacts keyOf list).members key at hmember
    by_contra hnone
    rw [Bool.not_eq_true, Option.isSome_eq_false_iff,
      Option.isNone_iff_eq_none] at hnone
    simp [OrderedMap.members, hnone] at hmember

theorem groupFacts_key {list : List Fact} {entry : κ × OrderedSet FactId}
    (hentry : entry ∈ (groupFacts keyOf list).entries) :
    ∃ fact ∈ list, keyOf fact = some entry.1 :=
  groupFacts_isSome.1
    (Option.isSome_iff_exists.2 ⟨_, OrderedMap.get?_eq_some_iff.2 hentry⟩)

end Groups

theorem mem_projectedFacts {context : ReductionContext} {fact : Fact} :
    fact ∈ context.projectedFacts ↔
      fact ∈ context.facts.facts ∧ context.isProjected fact.id = true := by
  unfold ReductionContext.projectedFacts
  rw [List.mem_filter]

theorem mem_projectedIds {context : ReductionContext} {test : Fact → Bool}
    {id : FactId} : id ∈ projectedIds context test ↔
      ∃ fact ∈ context.projectedFacts, test fact = true ∧ fact.id = id := by
  unfold projectedIds
  rw [OrderedSet.mem_ofList, List.mem_map]
  simp only [List.mem_filter, and_assoc]

theorem isProjected_of_mem_projectedIds {context : ReductionContext}
    {test : Fact → Bool} {id : FactId} (hid : id ∈ projectedIds context test) :
    context.isProjected id = true := by
  obtain ⟨fact, hfact, -, rfl⟩ := mem_projectedIds.1 hid
  exact (mem_projectedFacts.1 hfact).2

/-- At most one fact passes a counted test. -/
theorem eq_of_countFacts_le_one {context : ReductionContext}
    {test : Fact → Bool} (hcount : countFacts context test ≤ 1)
    {left right : Fact} (hleft : left ∈ context.facts.facts)
    (hleftTest : test left = true) (hright : right ∈ context.facts.facts)
    (hrightTest : test right = true) : left = right := by
  have hleft := List.mem_filter.2 ⟨hleft, hleftTest⟩
  have hright := List.mem_filter.2 ⟨hright, hrightTest⟩
  unfold countFacts at hcount
  match hlist : context.facts.facts.filter test with
  | [] => simp [hlist] at hleft
  | [only] =>
      rw [hlist, List.mem_singleton] at hleft hright
      rw [hleft, hright]
  | first :: second :: rest =>
      rw [hlist] at hcount
      simp at hcount

section Maxima

variable {facts : FactSet} {statuses : OrderedMap FactId DecisionStatus}

theorem maximalMembers_subset {context : ReductionContext}
    {members : OrderedSet FactId} {id : FactId}
    (h : id ∈ maximalMembers context members) : id ∈ members :=
  (OrderedSet.mem_filter.1 h).1

/-- A nonempty set of facts outside cycles has a causal maximum. -/
theorem maximalMembers_ne_empty {members : OrderedSet FactId}
    (hne : members ≠ ∅)
    (hacyclic : ∀ id ∈ members,
      ¬ Relation.TransGen facts.graph.Child id id) :
    maximalMembers (snapshot facts statuses) members ≠ ∅ := by
  obtain ⟨start, hstart⟩ := OrderedSet.exists_mem_of_ne_empty hne
  let below : members.toList.toFinset → members.toList.toFinset → Prop :=
    fun left right => Relation.TransGen facts.graph.Child right.1 left.1
  have : IsTrans members.toList.toFinset below :=
    ⟨fun _ _ _ h1 h2 => h2.trans h1⟩
  have : Std.Irrefl below :=
    ⟨fun id hid => hacyclic id.1 (List.mem_toFinset.1 id.2) hid⟩
  have hwf : WellFounded below := Finite.wellFounded_of_trans_of_irrefl below
  obtain ⟨⟨top, htop⟩, -, hmax⟩ := hwf.has_min Set.univ
    ⟨⟨start, by simpa using hstart⟩, trivial⟩
  have htopMem : top ∈ members := by simpa using htop
  intro hempty
  refine OrderedSet.eq_empty_iff.1 hempty top
    (OrderedSet.mem_filter.2 ⟨htopMem, ?_⟩)
  simp only [Bool.not_eq_true', List.any_eq_false, Bool.and_eq_true,
    decide_eq_true_eq, not_and]
  intro other hother hdifferent hreach
  have hpath := usablyReaches_path hreach
  rcases Relation.reflTransGen_iff_eq_or_transGen.1 hpath with heq | htrans
  · exact hdifferent heq
  · exact hmax ⟨other, by simpa using hother⟩ trivial htrans

end Maxima

/-- Entries of a map are determined by their keys. -/
theorem OrderedMap.entry_eq {α β : Type} [LinearOrder α] {map : OrderedMap α β}
    {left right : α × β} (hleft : left ∈ map.entries)
    (hright : right ∈ map.entries) (hkey : left.1 = right.1) : left = right := by
  have hleft := OrderedMap.get?_eq_some_iff.2 hleft
  have hright := OrderedMap.get?_eq_some_iff.2 hright
  rw [hkey, hright] at hleft
  exact Prod.ext hkey (Option.some.inj hleft).symm

/-- Contributions whose keys carry one value each and whose support is
projected. -/
structure Sound {K V : Type} [LinearOrder K] (context : ReductionContext)
    (contributions : List (ProjectionContribution K V)) : Prop where
  consistent : Consistent contributions
  projected : ∀ contribution ∈ contributions,
    ∀ id ∈ contribution.directSupport, context.isProjected id = true

namespace Sound

variable {K V : Type} [LinearOrder K] {context : ReductionContext}

theorem append {left right : List (ProjectionContribution K V)}
    (hleft : Sound context left) (hright : Sound context right)
    (hkeys : ∀ first ∈ left, ∀ second ∈ right, first.key ≠ second.key) :
    Sound context (left ++ right) := by
  refine ⟨⟨?_, ?_⟩, ?_⟩
  · intro contribution hmem
    rcases List.mem_append.1 hmem with h | h
    · exact hleft.consistent.supported contribution h
    · exact hright.consistent.supported contribution h
  · intro first hfirst second hsecond hkey
    rcases List.mem_append.1 hfirst with h1 | h1 <;>
      rcases List.mem_append.1 hsecond with h2 | h2
    · exact hleft.consistent.agree first h1 second h2 hkey
    · exact absurd hkey (hkeys first h1 second h2)
    · exact absurd hkey.symm (hkeys second h2 first h1)
    · exact hright.consistent.agree first h1 second h2 hkey
  · intro contribution hmem
    rcases List.mem_append.1 hmem with h | h
    · exact hleft.projected contribution h
    · exact hright.projected contribution h

/-- Lists whose keys have different ranks are sound together. -/
theorem flatMap_of_rank (rank : K → Nat)
    {parts : List (Nat × List (ProjectionContribution K V))}
    (hnodup : (parts.map Prod.fst).Nodup)
    (hparts : ∀ part ∈ parts, Sound context part.2 ∧
      ∀ contribution ∈ part.2, rank contribution.key = part.1) :
    Sound context (parts.flatMap Prod.snd) := by
  induction parts with
  | nil => exact ⟨⟨by simp, by simp⟩, by simp⟩
  | cons head tail ih =>
      rw [List.map_cons, List.nodup_cons] at hnodup
      have htail : ∀ part ∈ tail, Sound context part.2 ∧
          ∀ contribution ∈ part.2, rank contribution.key = part.1 :=
        fun part hpart => hparts part (List.mem_cons_of_mem _ hpart)
      have hhead := hparts head List.mem_cons_self
      rw [List.flatMap_cons]
      refine hhead.1.append (ih hnodup.2 htail) ?_
      intro first hfirst second hsecond hkey
      obtain ⟨part, hpart, hmem⟩ := List.mem_flatMap.1 hsecond
      refine hnodup.1 (List.mem_map.2 ⟨part, hpart, ?_⟩)
      rw [← (htail part hpart).2 second hmem, ← hkey, hhead.2 first hfirst]

/-- Contributions read off a list with one reading for each key are sound. -/
theorem of_filterMap {α : Type} {list : List α}
    {read : α → Option (ProjectionContribution K V)}
    (hsupport : ∀ x ∈ list, ∀ contribution, read x = some contribution →
      contribution.directSupport ≠ ∅ ∧
        ∀ id ∈ contribution.directSupport, context.isProjected id = true)
    (hunique : ∀ x ∈ list, ∀ y ∈ list, ∀ first second,
      read x = some first → read y = some second → first.key = second.key →
        x = y) : Sound context (list.filterMap read) := by
  refine ⟨⟨?_, ?_⟩, ?_⟩
  · intro contribution hmem
    obtain ⟨x, hx, hread⟩ := List.mem_filterMap.1 hmem
    exact (hsupport x hx contribution hread).1
  · intro first hfirst second hsecond hkey
    obtain ⟨x, hx, hreadFirst⟩ := List.mem_filterMap.1 hfirst
    obtain ⟨y, hy, hreadSecond⟩ := List.mem_filterMap.1 hsecond
    obtain rfl := hunique x hx y hy first second hreadFirst hreadSecond hkey
    rw [hreadFirst] at hreadSecond
    cases hreadSecond
    rfl
  · intro contribution hmem
    obtain ⟨x, hx, hread⟩ := List.mem_filterMap.1 hmem
    exact (hsupport x hx contribution hread).2

/-- The same for one contribution each. -/
theorem of_map {α : Type} {list : List α}
    {read : α → ProjectionContribution K V}
    (hsupport : ∀ x ∈ list, (read x).directSupport ≠ ∅ ∧
      ∀ id ∈ (read x).directSupport, context.isProjected id = true)
    (hunique : ∀ x ∈ list, ∀ y ∈ list, (read x).key = (read y).key → x = y) :
    Sound context (list.map read) := by
  rw [← List.filterMap_eq_map]
  refine of_filterMap (fun x hx contribution hread => ?_)
    fun x hx y hy first second hfirst hsecond hkey => ?_
  · cases hread
    exact hsupport x hx
  · cases hfirst
    cases hsecond
    exact hunique x hx y hy hkey

/-- One contribution for each group of projected facts, under its key. -/
theorem of_groups {κ : Type} [LinearOrder κ] {keyOf : Fact → Option κ}
    {read : κ × OrderedSet FactId → ProjectionContribution K V}
    (hkey : ∀ left right, (read left).key = (read right).key → left.1 = right.1)
    (hsupport : ∀ entry, entry ∈
      (groupFacts keyOf context.projectedFacts).entries → entry.2 ≠ ∅ →
      (∀ id ∈ entry.2, context.isProjected id = true) →
      (read entry).directSupport ≠ ∅ ∧
        ∀ id ∈ (read entry).directSupport, context.isProjected id = true) :
    Sound context
      ((groupFacts keyOf context.projectedFacts).entries.map read) := by
  refine of_map (fun entry hentry => ?_) fun left hleft right hright hsame =>
    OrderedMap.entry_eq hleft hright (hkey left right hsame)
  obtain ⟨hne, hmembers⟩ := groupFacts_entry hentry
  refine hsupport entry hentry hne fun id hid => ?_
  obtain ⟨fact, hfact, -, rfl⟩ := (hmembers id).1 hid
  exact (mem_projectedFacts.1 hfact).2

/-- At most one contribution for each group, under a key of its own and with
the group as its support. -/
theorem of_group_filterMap {κ : Type} [LinearOrder κ] {keyOf : Fact → Option κ}
    {read : κ × OrderedSet FactId → Option (ProjectionContribution K V)}
    (key : κ → K) (hkey : Function.Injective key)
    (hread : ∀ entry contribution, read entry = some contribution →
      contribution.key = key entry.1 ∧ contribution.directSupport = entry.2) :
    Sound context
      ((groupFacts keyOf context.projectedFacts).entries.filterMap read) := by
  refine of_filterMap (fun entry hentry contribution hcontribution => ?_)
    fun left hleft right hright first second hfirst hsecond hsame => ?_
  · obtain ⟨hne, hmembers⟩ := groupFacts_entry hentry
    rw [(hread entry contribution hcontribution).2]
    refine ⟨hne, fun id hid => ?_⟩
    obtain ⟨fact, hfact, -, rfl⟩ := (hmembers id).1 hid
    exact (mem_projectedFacts.1 hfact).2
  · rw [(hread left first hfirst).1, (hread right second hsecond).1] at hsame
    exact OrderedMap.entry_eq hleft hright (hkey hsame)

end Sound

/-- A contribution stands in the list of its rank. -/
theorem mem_part_of_rank {K V : Type} (rank : K → Nat)
    {parts : List (Nat × List (ProjectionContribution K V))}
    (hnodup : (parts.map Prod.fst).Nodup)
    (hrank : ∀ part ∈ parts, ∀ contribution ∈ part.2,
      rank contribution.key = part.1)
    {part : Nat × List (ProjectionContribution K V)} (hpart : part ∈ parts)
    {contribution : ProjectionContribution K V}
    (hmem : contribution ∈ parts.flatMap Prod.snd)
    (hkey : rank contribution.key = part.1) : contribution ∈ part.2 := by
  obtain ⟨other, hother, hin⟩ := List.mem_flatMap.1 hmem
  have hsame : other.1 = part.1 :=
    (hrank other hother contribution hin).symm.trans hkey
  have heq := List.inj_on_of_nodup_map hnodup hother hpart hsame
  rw [heq] at hin
  exact hin

end Hq
