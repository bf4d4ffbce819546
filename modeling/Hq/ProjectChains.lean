/-
Home-linear history: the admitted facts of a project form one chain of
previous states below its creation, and the final states replay all of it.
-/
import Hq.AuthorityReduction
import Hq.ProjectViews

namespace Hq

section Transition

variable {state next : InternalProjectState} {fact : Fact}
  {context : ReductionContext}

@[simp] theorem transition_eq_ok {guard : Bool} {reason : ProjectReason}
    {target : InternalProjectState} :
    transition guard reason target = .ok next ↔
      guard = true ∧ target = next := by
  simp [transition]

@[simp] theorem humanTransition_eq_ok {guard : Bool} {reason : ProjectReason}
    {target : InternalProjectState} :
    humanTransition fact context guard reason target = .ok next ↔
      validActiveHuman fact context = true ∧ guard = true ∧ target = next := by
  simp [humanTransition, requireActiveHuman]

/-- What every transition of a project leaves alone. -/
structure SameProject (state next : InternalProjectState) : Prop where
  projectId : next.projectId = state.projectId
  root : next.root = state.root
  home : next.home = state.home
  accountId : next.accountId = state.accountId
  mailboxId : next.mailboxId = state.mailboxId
  predecessor : next.predecessor = state.predecessor

theorem applyFamily_sameProject
    (h : applyFamily state fact context = .ok next) :
    SameProject state next := by
  have hself : SameProject state state := ⟨rfl, rfl, rfl, rfl, rfl, rfl⟩
  unfold applyFamily at h
  split at h
  case h_11 =>
    split at h
    · cases h
    · cases h
      exact ⟨rfl, rfl, rfl, rfl, rfl, rfl⟩
  case h_12 =>
    simp only [requireActiveHuman, require_bind_eq_ok, transition_eq_ok] at h
    obtain ⟨-, -, -, rfl⟩ := h
    exact ⟨rfl, rfl, rfl, rfl, rfl, rfl⟩
  case h_13 | h_14 =>
    split at h
    · cases h
    · obtain ⟨-, rfl⟩ := transition_eq_ok.1 h
      exact ⟨rfl, rfl, rfl, rfl, rfl, rfl⟩
  case h_15 =>
    simp only [require_bind_eq_ok, transition_eq_ok] at h
    obtain ⟨-, -, rfl⟩ := h
    exact ⟨rfl, rfl, rfl, rfl, rfl, rfl⟩
  case h_16 =>
    obtain ⟨-, rfl⟩ := transition_eq_ok.1 h
    exact ⟨rfl, rfl, rfl, rfl, rfl, rfl⟩
  case h_17 =>
    split at h
    · cases h
    · obtain ⟨-, rfl⟩ := transition_eq_ok.1 h
      exact hself
  case h_18 =>
    obtain ⟨-, rfl⟩ := transition_eq_ok.1 h
    exact hself
  case h_19 =>
    cases h
    exact hself
  -- The families that an active human authorises.
  all_goals
    obtain ⟨-, -, rfl⟩ := humanTransition_eq_ok.1 h
    exact ⟨rfl, rfl, rfl, rfl, rfl, rfl⟩

theorem applyPayload_eq_ok :
    applyPayload state fact context = .ok next ↔
      ∃ moved, applyFamily state fact context = .ok moved ∧
        next = { moved with head := fact.id } := by
  unfold applyPayload
  rw [bind_eq_ok]
  simp only [Except.ok.injEq, eq_comm]

theorem applyPayload_sameProject
    (h : applyPayload state fact context = .ok next) :
    SameProject state next ∧ next.head = fact.id := by
  obtain ⟨moved, hmoved, rfl⟩ := applyPayload_eq_ok.1 h
  obtain ⟨h1, h2, h3, h4, h5, h6⟩ := applyFamily_sameProject hmoved
  exact ⟨⟨h1, h2, h3, h4, h5, h6⟩, rfl⟩

/-- What an admitted creation starts from. -/
theorem creationState_eq_some (h : creationState fact = some state) :
    createsProject state.projectId fact = true ∧ state.root = fact.id ∧
      state.head = fact.id ∧ fact.scope = .accountAddressed state.accountId := by
  unfold creationState at h
  split at h
  next hpayload hscope =>
    cases h
    simp [createsProject, hpayload, hscope]
  next => cases h

end Transition

/-! Replaying a project along its previous states. -/

/-- The state that a projected fact of a project leads to. -/
inductive StateOf (context : ReductionContext) :
    FactId → InternalProjectState → Prop
  | root {fact : Fact} {state : InternalProjectState}
      (retained : context.facts.get? fact.id = some fact)
      (projected : context.isProjected fact.id = true)
      (creation : isCreation fact.payload = true)
      (starts : creationState fact = some state) :
      StateOf context fact.id state
  | step {fact : Fact} {previous : FactId} {state next : InternalProjectState}
      (retained : context.facts.get? fact.id = some fact)
      (projected : context.isProjected fact.id = true)
      (transition : isCreation fact.payload = false)
      (home : isHomeFact fact.payload = true)
      (cites : fact.causal.authority .previousState = some previous)
      (before : StateOf context previous state)
      (applies : applyPayload state fact context = .ok next) :
      StateOf context fact.id next

section Replay

variable {facts : FactSet} {statuses : OrderedMap FactId DecisionStatus}
  {id : FactId} {state : InternalProjectState}

theorem stateOf_of_stateAtWithin {context : ReductionContext} {fuel : Nat}
    (h : stateAtWithin context fuel id = some state) :
    StateOf context id state := by
  induction fuel generalizing id state with
  | zero => cases h
  | succ fuel ih =>
      unfold stateAtWithin at h
      split at h
      · cases h
      next fact hget =>
        obtain rfl := FactSet.id_of_get? hget
        split at h
        · cases h
        next hprojected =>
          rw [Bool.not_eq_true, Bool.not_eq_false'] at hprojected
          split at h
          next hcreation => exact .root hget hprojected hcreation h
          next hcreation =>
            rw [Bool.not_eq_true] at hcreation
            split at h
            next hhome =>
              split at h
              · cases h
              next previous hcites =>
                split at h
                · cases h
                next before hbefore =>
                  refine .step hget hprojected hcreation hhome hcites
                    (ih hbefore) ?_
                  cases happly : applyPayload before fact context with
                  | error => simp [happly, Except.toOption] at h
                  | ok next =>
                      simp only [happly, Except.toOption,
                        Option.some.injEq] at h
                      rw [h]
            next => cases h

open Classical in
/-- The number of known identities that reach an identity. -/
noncomputable def pastSize (facts : FactSet) (id : FactId) : Nat :=
  (facts.ids.toList.toFinset.filter fun z =>
    Relation.ReflTransGen facts.graph.Child z id).card

theorem pastSize_le (facts : FactSet) (id : FactId) :
    pastSize facts id ≤ facts.entries.size := by
  classical
  refine (Finset.card_filter_le _ _).trans ((List.toFinset_card_le _).trans_eq ?_)
  simp [FactSet.ids, OrderedMap.keys, OrderedMap.size]

theorem pastSize_pos (hid : id ∈ facts.ids) : 0 < pastSize facts id := by
  classical
  refine Finset.card_pos.2 ⟨id, Finset.mem_filter.2 ⟨?_, .refl⟩⟩
  simpa using hid

theorem pastSize_lt {parent : FactId} (hedge : facts.graph.Child parent id)
    (hid : id ∈ facts.ids)
    (hacyclic : ¬ Relation.TransGen facts.graph.Child id id) :
    pastSize facts parent < pastSize facts id := by
  classical
  refine Finset.card_lt_card (Finset.ssubset_iff_of_subset ?_ |>.2 ⟨id, ?_, ?_⟩)
  · intro z hz
    rw [Finset.mem_filter] at hz ⊢
    exact ⟨hz.1, hz.2.tail hedge⟩
  · exact Finset.mem_filter.2 ⟨by simpa using hid, .refl⟩
  · intro hback
    exact hacyclic (.tail' (Finset.mem_filter.1 hback).2 hedge)

theorem stateAtWithin_of_stateOf
    (hacyclic : ∀ id, (snapshot facts statuses).isProjected id = true →
      ¬ Relation.TransGen facts.graph.Child id id)
    (h : StateOf (snapshot facts statuses) id state) :
    ∀ fuel, pastSize facts id ≤ fuel →
      stateAtWithin (snapshot facts statuses) fuel id = some state := by
  induction h with
  | @root fact state hget hprojected hcreation hstarts =>
      intro fuel hfuel
      have hpos : 0 < pastSize facts fact.id :=
        pastSize_pos (FactSet.mem_ids_of_get? hget)
      obtain ⟨fuel, rfl⟩ : ∃ n, fuel = n + 1 := ⟨fuel - 1, by omega⟩
      simp only [stateAtWithin, hget, hprojected, hcreation, hstarts]
      rfl
  | @step fact previous state next hget hprojected htransition hhome hcites
      _ happly ih =>
      intro fuel hfuel
      have hid : fact.id ∈ facts.ids := FactSet.mem_ids_of_get? hget
      have hpos := pastSize_pos hid
      obtain ⟨fuel, rfl⟩ : ∃ n, fuel = n + 1 := ⟨fuel - 1, by omega⟩
      have hlt : pastSize facts previous < pastSize facts fact.id :=
        pastSize_lt ((child_iff_of_get? hget).2
          (Fact.mem_parents_of_authority hcites)) hid (hacyclic _ hprojected)
      have hbefore := ih fuel (by omega)
      simp only [stateAtWithin, hget, hprojected, htransition, hhome, hcites,
        hbefore, happly]
      rfl

/-- Replay finds exactly the state of a fact. -/
theorem stateAt_eq_some
    (hacyclic : ∀ id, (snapshot facts statuses).isProjected id = true →
      ¬ Relation.TransGen facts.graph.Child id id) :
    stateAt (snapshot facts statuses) id = some state ↔
      StateOf (snapshot facts statuses) id state :=
  ⟨stateOf_of_stateAtWithin,
    fun h => stateAtWithin_of_stateOf hacyclic h _ (pastSize_le facts id)⟩

end Replay

section StateOf

variable {context : ReductionContext} {id : FactId}
  {state : InternalProjectState}

theorem StateOf.retained (h : StateOf context id state) :
    ∃ fact, context.facts.get? id = some fact ∧ fact.id = id ∧
      context.isProjected id = true := by
  cases h with
  | root hget hprojected => exact ⟨_, hget, rfl, hprojected⟩
  | step hget hprojected => exact ⟨_, hget, rfl, hprojected⟩

theorem StateOf.head (h : StateOf context id state) : state.head = id := by
  cases h with
  | root _ _ _ hstarts => exact (creationState_eq_some hstarts).2.2.1
  | step _ _ _ _ _ _ happly => exact (applyPayload_sameProject happly).2

theorem StateOf.unique {other : InternalProjectState}
    (h : StateOf context id state) (hother : StateOf context id other) :
    state = other := by
  induction h generalizing other with
  | @root fact state hget _ hcreation hstarts =>
      generalize hid : fact.id = id at hother
      cases hother with
      | root hget' _ _ hstarts' =>
          rw [hid] at hget
          obtain rfl := Option.some.inj (hget.symm.trans hget')
          exact Option.some.inj (hstarts.symm.trans hstarts')
      | step hget' _ htransition =>
          rw [hid] at hget
          obtain rfl := Option.some.inj (hget.symm.trans hget')
          simp [hcreation] at htransition
  | @step fact previous state next hget _ htransition _ hcites _ happly ih =>
      generalize hid : fact.id = id at hother
      cases hother with
      | root hget' _ hcreation =>
          rw [hid] at hget
          obtain rfl := Option.some.inj (hget.symm.trans hget')
          simp [hcreation] at htransition
      | step hget' _ _ _ hcites' hbefore' happly' =>
          rw [hid] at hget
          obtain rfl := Option.some.inj (hget.symm.trans hget')
          obtain rfl := Option.some.inj (hcites.symm.trans hcites')
          obtain rfl := ih hbefore'
          exact Except.ok.inj (happly.symm.trans happly')

/-- The creation a state was replayed from. -/
theorem StateOf.creation (h : StateOf context id state) :
    ∃ root start, context.facts.get? root.id = some root ∧
      context.isProjected root.id = true ∧
      isCreation root.payload = true ∧ creationState root = some start ∧
      SameProject start state ∧ state.root = root.id := by
  induction h with
  | root hget hprojected hcreation hstarts =>
      exact ⟨_, _, hget, hprojected, hcreation, hstarts,
        ⟨rfl, rfl, rfl, rfl, rfl, rfl⟩, (creationState_eq_some hstarts).2.1⟩
  | step _ _ _ _ _ _ happly ih =>
      obtain ⟨root, start, hget, hprojected, hcreation, hstarts, hsame, hroot⟩ :=
        ih
      obtain ⟨hnext, -⟩ := applyPayload_sameProject happly
      refine ⟨root, start, hget, hprojected, hcreation, hstarts, ?_,
        hnext.root.trans hroot⟩
      exact ⟨hnext.projectId.trans hsame.projectId, hnext.root.trans hsame.root,
        hnext.home.trans hsame.home, hnext.accountId.trans hsame.accountId,
        hnext.mailboxId.trans hsame.mailboxId,
        hnext.predecessor.trans hsame.predecessor⟩

end StateOf

/-! What the project rules demand of an admitted fact. -/

section Rules

variable {conflicts : ResourceLocator → ResourceLocator → Bool} {fact : Fact}
  {project : ProjectId} {context : ReductionContext}

/-- The checks of a transition that come before its fork test. -/
structure CitesHead (fact : Fact) (project : ProjectId)
    (context : ReductionContext) (previous : FactId)
    (state : InternalProjectState) : Prop where
  cites : fact.causal.authority .previousState = some previous
  usable : context.isProjected previous = true
  replays : stateAt context previous = some state
  sameProject : state.projectId = project
  byHome : fact.authorId = state.home
  homeCited : validProjectHome fact state.home context = true
  identity : stableIdentityConflict fact context = none

theorem validateHomeTransition_eq_ok :
    validateHomeTransition conflicts fact project context = .ok () ↔
      ∃ previous state next, CitesHead fact project context previous state ∧
        (siblingParticipants fact project previous context).size ≤ 1 ∧
        applyPayload state fact context = .ok next ∧
        (isOpening fact.payload = true →
          (claimConflictParticipants conflicts next fact.id
            context).isEmpty = true) := by
  constructor
  · intro h
    unfold validateHomeTransition at h
    split at h
    · cases h
    next previous hcites =>
      obtain ⟨hprevious, h⟩ := require_bind_eq_ok.1 h
      simp only [Bool.and_eq_true, decide_eq_true_eq] at hprevious
      split at h
      · cases h
      next state hstate =>
        obtain ⟨hstate, hproject⟩ := Option.filter_eq_some_iff.1 hstate
        obtain ⟨hauthor, h⟩ := require_bind_eq_ok.1 h
        simp only [Bool.and_eq_true, decide_eq_true_eq] at hauthor
        split at h
        · cases h
        next hidentity =>
          obtain ⟨hsiblings, h⟩ := require_bind_eq_ok.1 h
          obtain ⟨next, happly, h⟩ := bind_eq_ok.1 h
          refine ⟨previous, state, next, ⟨hcites, hprevious.2, hstate,
            by simpa using hproject, hauthor.1, hauthor.2, hidentity⟩,
            by simpa using hsiblings, happly, fun hopening => ?_⟩
          simpa [hopening] using h
  · rintro ⟨previous, state, next, hhead, hsiblings, happly, hclaims⟩
    have hparent := Fact.mem_parents_of_authority hhead.cites
    have hfilter : ((stateAt context previous).filter fun state =>
        decide (state.projectId = project)) = some state := by
      simp [hhead.replays, hhead.sameProject]
    unfold validateHomeTransition
    simp only [hhead.cites]
    refine require_bind_eq_ok.2 ⟨by simp [hparent, hhead.usable], ?_⟩
    simp only [hfilter]
    refine require_bind_eq_ok.2 ⟨by simp [hhead.byHome, hhead.homeCited], ?_⟩
    simp only [hhead.identity]
    refine require_bind_eq_ok.2 ⟨by simpa using hsiblings,
      bind_eq_ok.2 ⟨next, happly, require_eq_ok.2 ?_⟩⟩
    split
    next hopening => exact hclaims hopening
    next => rfl

end Rules

end Hq
