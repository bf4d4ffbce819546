/-
Which activity is shown: the latest snapshot of every activity, and of the
progress of a session only the last two hundred.  The winners, the views shown
and the retention view of a session are derived separately and agree.
-/
import Hq.ConversationViews
import Hq.PresentationOrder
import Hq.AuthorityChains

namespace Hq

namespace ActivityRetention

/-! Keys. -/

def sessionOf (key : ActivityKey) : ActivitySessionKey :=
  ⟨key.source, key.correlation.provider, key.correlation.session⟩

variable {key : ActivityKey} {context : ReductionContext}
  {session : ActivitySessionKey} {fact other : Fact}

theorem isActivityOfKind_eq
    (h : activityKey fact = some key) (kind : ActivityKind) :
    isActivityOfKind kind fact = decide (key.kind = kind) := by
  unfold activityKey at h
  split at h
  next hpayload =>
    cases h
    simp [isActivityOfKind, hpayload]
  next => cases h

theorem activitySessionKey_eq (h : activityKey fact = some key) :
    activitySessionKey fact = some (sessionOf key) := by
  unfold activityKey at h
  split at h
  next hpayload =>
    cases h
    simp [activitySessionKey, hpayload, sessionOf]
  next => cases h

theorem activitySequence_of_key (h : activityKey fact = some key) :
    ∃ sequence, activitySequence fact = some sequence := by
  unfold activityKey at h
  split at h
  next hpayload =>
    rw [activitySequence, hpayload]
    exact ⟨_, rfl⟩
  next => cases h

theorem presentationEntry_activity (h : activityKey fact = some key) :
    ∃ entry, presentationEntry fact = some entry ∧ entry.factId = fact.id := by
  unfold activityKey at h
  split at h
  next hpayload =>
    simp only [presentationEntry, messageContent, hpayload]
    exact ⟨_, rfl, rfl⟩
  next => cases h

/-! The latest snapshot of an activity. -/

/-- The source sequence an activity competes with. -/
def rank (fact : Fact) : Nat :=
  ((activitySequence fact).map NonZeroU64.value).getD 1

theorem latestActivity_cons (best : Fact) (facts : List Fact) :
    ∃ winner, latestActivity (best :: facts) = some winner ∧
      winner ∈ best :: facts ∧
      ∀ fact ∈ best :: facts, rank fact ≤ rank winner := by
  induction facts generalizing best with
  | nil => exact ⟨best, rfl, by simp, by simp⟩
  | cons head tail ih =>
      have hstep : latestActivity (best :: head :: tail) =
          latestActivity ((if rank best ≤ rank head then head else best) ::
            tail) := by
        simp only [latestActivity, List.foldl_cons]
        split
        next hle => rw [rank, rank, if_pos hle]
        next hgt => rw [rank, rank, if_neg hgt]
      obtain ⟨winner, hwinner, hmem, hle⟩ :=
        ih (if rank best ≤ rank head then head else best)
      refine ⟨winner, hstep.trans hwinner, ?_, ?_⟩
      · rcases List.mem_cons.1 hmem with rfl | hmem
        · split <;> simp
        · simp [hmem]
      · have hfirst := hle _ List.mem_cons_self
        intro fact hfact
        rcases List.mem_cons.1 hfact with rfl | hfact
        · split at hfirst <;> omega
        · rcases List.mem_cons.1 hfact with rfl | hfact
          · split at hfirst <;> omega
          · exact hle fact (List.mem_cons_of_mem _ hfact)

section Winners

variable {context : ReductionContext}

theorem get?_of_projected (h : fact ∈ context.projectedFacts) :
    context.facts.get? fact.id = some fact :=
  FactSet.mem_facts.1 (mem_projectedFacts.1 h).1

/-- The winners among the snapshots, one for each key. -/
def snapshotWinners (context : ReductionContext) :
    List (ActivityKey × FactId) :=
  (groupFacts activityKey (context.projectedFacts.filter fun fact =>
    !isActivityOfKind .completedItem fact)).entries.filterMap fun entry =>
      (latestActivity (entry.2.toList.filterMap context.facts.get?)).map
        fun winner => (entry.1, winner.id)

def completedItems (context : ReductionContext) :
    List (ActivityKey × FactId) :=
  (context.projectedFacts.filter (isActivityOfKind .completedItem)).filterMap
    fun fact => (activityKey fact).map fun key => (key, fact.id)

theorem activityWinners_eq : activityWinners context =
    snapshotWinners context ++ completedItems context := rfl

/-- The facts a group of snapshots competes with. -/
theorem mem_group {entry : ActivityKey × OrderedSet FactId}
    (hentry : entry ∈ (groupFacts activityKey
      (context.projectedFacts.filter fun fact =>
        !isActivityOfKind .completedItem fact)).entries) :
    fact ∈ entry.2.toList.filterMap context.facts.get? ↔
      fact ∈ context.projectedFacts ∧ activityKey fact = some entry.1 ∧
        entry.1.kind ≠ .completedItem := by
  have hmem := (groupFacts_entry hentry).2
  constructor
  · intro hfact
    obtain ⟨id, hid, hget⟩ := List.mem_filterMap.1 hfact
    obtain ⟨other, hother, hkey, rfl⟩ := (hmem id).1 hid
    obtain ⟨hother, hkind⟩ := List.mem_filter.1 hother
    obtain rfl := Option.some.inj ((get?_of_projected hother).symm.trans hget)
    rw [isActivityOfKind_eq hkey] at hkind
    exact ⟨hother, hkey, by simpa using hkind⟩
  · rintro ⟨hfact, hkey, hkind⟩
    refine List.mem_filterMap.2 ⟨fact.id, (hmem fact.id).2
      ⟨fact, List.mem_filter.2 ⟨hfact, ?_⟩, hkey, rfl⟩, get?_of_projected hfact⟩
    rw [isActivityOfKind_eq hkey]
    simpa using hkind

theorem mem_snapshotWinners {id : FactId}
    (h : (key, id) ∈ snapshotWinners context) :
    key.kind ≠ .completedItem ∧ ∃ fact ∈ context.projectedFacts,
      fact.id = id ∧ activityKey fact = some key ∧
        ∀ other ∈ context.projectedFacts, activityKey other = some key →
          rank other ≤ rank fact := by
  obtain ⟨entry, hentry, hread⟩ := List.mem_filterMap.1 h
  obtain ⟨winner, hwinner, heq⟩ := Option.map_eq_some_iff.1 hread
  obtain ⟨rfl, rfl⟩ := Prod.mk.inj heq
  cases hgroup : entry.2.toList.filterMap context.facts.get? with
  | nil =>
      rw [hgroup] at hwinner
      cases hwinner
  | cons best rest =>
      obtain ⟨found, hfound, hin, hle⟩ := latestActivity_cons best rest
      rw [hgroup] at hwinner
      obtain rfl := Option.some.inj (hfound.symm.trans hwinner)
      rw [← hgroup] at hin hle
      obtain ⟨hprojected, hkey, hkind⟩ := (mem_group hentry).1 hin
      exact ⟨hkind, found, hprojected, rfl, hkey, fun other hother hsame =>
        hle other ((mem_group hentry).2 ⟨hother, hsame, hkind⟩)⟩

theorem exists_snapshotWinner
    (hkind : key.kind ≠ .completedItem) (hfact : fact ∈ context.projectedFacts)
    (hkey : activityKey fact = some key) :
    ∃ id, (key, id) ∈ snapshotWinners context := by
  have hsnapshot : fact ∈ context.projectedFacts.filter fun fact =>
      !isActivityOfKind .completedItem fact := by
    refine List.mem_filter.2 ⟨hfact, ?_⟩
    rw [isActivityOfKind_eq hkey]
    simpa using hkind
  obtain ⟨set, hset⟩ := Option.isSome_iff_exists.1
    (groupFacts_isSome.2 ⟨fact, hsnapshot, hkey⟩)
  have hentry := OrderedMap.get?_eq_some_iff.1 hset
  have hmem := (mem_group hentry).2 ⟨hfact, hkey, hkind⟩
  cases hgroup : set.toList.filterMap context.facts.get? with
  | nil =>
      rw [hgroup] at hmem
      cases hmem
  | cons best rest =>
      obtain ⟨winner, hwinner, -⟩ := latestActivity_cons best rest
      refine ⟨winner.id, List.mem_filterMap.2 ⟨(key, set), hentry, ?_⟩⟩
      rw [hgroup, hwinner]
      rfl

theorem mem_completedItems {id : FactId}
    (h : (key, id) ∈ completedItems context) :
    key.kind = .completedItem ∧ ∃ fact ∈ context.projectedFacts,
      fact.id = id ∧ activityKey fact = some key := by
  obtain ⟨fact, hfact, hread⟩ := List.mem_filterMap.1 h
  obtain ⟨found, hkey, heq⟩ := Option.map_eq_some_iff.1 hread
  obtain ⟨rfl, rfl⟩ := Prod.mk.inj heq
  obtain ⟨hfact, hkind⟩ := List.mem_filter.1 hfact
  rw [isActivityOfKind_eq hkey] at hkind
  exact ⟨by simpa using hkind, fact, hfact, rfl, hkey⟩

theorem mem_winners {id : FactId}
    (h : (key, id) ∈ activityWinners context) :
    ∃ fact ∈ context.projectedFacts, fact.id = id ∧
      activityKey fact = some key := by
  rcases List.mem_append.1 h with hsnapshot | hcompleted
  · obtain ⟨-, fact, hfact, hid, hkey, -⟩ := mem_snapshotWinners hsnapshot
    exact ⟨fact, hfact, hid, hkey⟩
  · exact (mem_completedItems hcompleted).2

/-- An identity wins for the one key of its fact. -/
theorem winner_key {first second : ActivityKey} {id : FactId}
    (hfirst : (first, id) ∈ activityWinners context)
    (hsecond : (second, id) ∈ activityWinners context) : first = second := by
  obtain ⟨left, hleft, hleftId, hleftKey⟩ := mem_winners hfirst
  obtain ⟨right, hright, hrightId, hrightKey⟩ := mem_winners hsecond
  obtain rfl := FactSet.eq_of_mem_facts_of_id_eq (mem_projectedFacts.1 hleft).1
    (mem_projectedFacts.1 hright).1 (hleftId.trans hrightId.symm)
  exact Option.some.inj (hleftKey.symm.trans hrightKey)

theorem snapshotWinners_keys :
    ((snapshotWinners context).map Prod.fst).Nodup := by
  have hkeys : ((snapshotWinners context).map Prod.fst).Sublist
      ((groupFacts activityKey (context.projectedFacts.filter fun fact =>
        !isActivityOfKind .completedItem fact)).entries.map Prod.fst) := by
    unfold snapshotWinners
    generalize (groupFacts activityKey _).entries = entries
    induction entries with
    | nil => exact .slnil
    | cons entry entries ih =>
        cases hread : (latestActivity
            (entry.2.toList.filterMap context.facts.get?)) with
        | none => simpa [hread] using ih.cons entry.1
        | some winner => simpa [hread] using ih.cons_cons entry.1
  exact hkeys.nodup ((groupFacts activityKey _).keys.sorted.imp
    fun hlt => hlt.ne)

/-! The progress of a session. -/

theorem progressSession_eq {id : FactId}
    (h : (key, id) ∈ activityWinners context) :
    progressSession context id =
      if key.kind = .progress then some (sessionOf key) else none := by
  obtain ⟨fact, hfact, rfl, hkey⟩ := mem_winners h
  simp only [progressSession, get?_of_projected hfact, Option.bind_some,
    isActivityOfKind_eq hkey, activitySessionKey_eq hkey, decide_eq_true_eq]

/-- The progress winners of a session with their keys. -/
def progressWinners (context : ReductionContext)
    (session : ActivitySessionKey) : List (ActivityKey × FactId) :=
  (activityWinners context).filter fun winner =>
    progressSession context winner.2 = some session

theorem sessionProgress_eq (session : ActivitySessionKey) :
    sessionProgress context (activityWinners context) session =
      (progressWinners context session).map Prod.snd :=
  List.filter_map

theorem mem_progressWinners
    {id : FactId} : (key, id) ∈ progressWinners context session ↔
      (key, id) ∈ activityWinners context ∧ key.kind = .progress ∧
        sessionOf key = session := by
  rw [progressWinners, List.mem_filter]
  refine and_congr_right fun h => ?_
  rw [decide_eq_true_eq, progressSession_eq h]
  split
  next hkind => simp [hkind]
  next hkind => simp [hkind]

/-- Progress winners have distinct keys and distinct identities. -/
theorem progressWinners_distinct (session : ActivitySessionKey) :
    ((progressWinners context session).map Prod.fst).Nodup ∧
      ((progressWinners context session).map Prod.snd).Nodup := by
  have hnone : (completedItems context).filter (fun winner =>
      progressSession context winner.2 = some session) = [] := by
    refine List.filter_eq_nil_iff.2 ?_
    rintro ⟨key, id⟩ hmem hsession
    have hwinner : (key, id) ∈ progressWinners context session :=
      List.mem_filter.2 ⟨List.mem_append_right _ hmem, hsession⟩
    have hkind := (mem_completedItems hmem).1
    rw [(mem_progressWinners.1 hwinner).2.1] at hkind
    cases hkind
  have hkeys : ((progressWinners context session).map Prod.fst).Nodup := by
    rw [progressWinners, activityWinners_eq, List.filter_append, hnone,
      List.append_nil]
    exact (List.filter_sublist.map _).nodup snapshotWinners_keys
  refine ⟨hkeys, List.Nodup.map_on ?_ (List.Nodup.of_map _ hkeys)⟩
  rintro ⟨first, id⟩ hfirst ⟨second, _⟩ hsecond rfl
  rw [winner_key (mem_progressWinners.1 hfirst).1
    (mem_progressWinners.1 hsecond).1]

/-- The progress keys of a session that have a projected fact. -/
def progressKeys (context : ReductionContext) (session : ActivitySessionKey) :
    Set ActivityKey :=
  {key | key.kind = .progress ∧ sessionOf key = session ∧
    ∃ fact ∈ context.projectedFacts, activityKey fact = some key}

theorem progressKeys_ncard (session : ActivitySessionKey) :
    (progressKeys context session).ncard =
      (sessionProgress context (activityWinners context) session).length := by
  have hset : progressKeys context session =
      ((progressWinners context session).map Prod.fst).toFinset := by
    ext key
    simp only [List.coe_toFinset, progressKeys, Set.mem_ofPred_eq,
      List.mem_map, Prod.exists, exists_and_right, exists_eq_right]
    constructor
    · rintro ⟨hkind, hsession, fact, hfact, hkey⟩
      obtain ⟨id, hid⟩ := exists_snapshotWinner (by rw [hkind]; decide) hfact hkey
      exact ⟨id, mem_progressWinners.2
        ⟨List.mem_append_left _ hid, hkind, hsession⟩⟩
    · rintro ⟨id, hid⟩
      obtain ⟨hwinner, hkind, hsession⟩ := mem_progressWinners.1 hid
      obtain ⟨fact, hfact, -, hkey⟩ := mem_winners hwinner
      exact ⟨hkind, hsession, fact, hfact, hkey⟩
  rw [hset, Set.ncard_coe_finset,
    List.toFinset_card_of_nodup (progressWinners_distinct session).1,
    sessionProgress_eq, List.length_map, List.length_map]

end Winners

/-! The order of presentation. -/

section Order

variable {facts : FactSet} {statuses : OrderedMap FactId DecisionStatus}

theorem entries_ids {ids : List FactId}
    (h : ∀ id ∈ ids, ∃ key, (key, id) ∈ activityWinners context) :
    ((ids.filterMap context.facts.get?).filterMap presentationEntry).map
      PresentationEntry.factId = ids := by
  induction ids with
  | nil => rfl
  | cons id ids ih =>
      obtain ⟨key, hwinner⟩ := h id List.mem_cons_self
      obtain ⟨fact, hfact, rfl, hkey⟩ := mem_winners hwinner
      obtain ⟨entry, hentry, hid⟩ := presentationEntry_activity hkey
      rw [List.filterMap_cons_some (get?_of_projected hfact),
        List.filterMap_cons_some hentry, List.map_cons, hid,
        ih fun other hother => h other (List.mem_cons_of_mem _ hother)]

/-- The progress of a session has an order, and it lists every winner. -/
theorem sessionProgress_ordered (hclosed : UsablyClosed facts statuses)
    (session : ActivitySessionKey) {winners : List FactId}
    (hwinners : winners = sessionProgress (snapshot facts statuses)
      (activityWinners (snapshot facts statuses)) session) :
    ∃ ordered, canonicalPresentationOrder facts.graph
        ((winners.filterMap facts.get?).filterMap presentationEntry) =
          .ok ordered ∧
      presentedOrder (snapshot facts statuses) winners = ordered ∧
      ordered.Perm winners := by
  rw [sessionProgress_eq] at hwinners
  have hkeys : ∀ id ∈ winners,
      ∃ key, (key, id) ∈ activityWinners (snapshot facts statuses) := by
    intro id hid
    rw [hwinners] at hid
    obtain ⟨⟨key, _⟩, hmem, rfl⟩ := List.mem_map.1 hid
    exact ⟨key, (mem_progressWinners.1 hmem).1⟩
  have hids : ((winners.filterMap facts.get?).filterMap presentationEntry).map
      PresentationEntry.factId = winners := entries_ids hkeys
  have hprojected : ∀ entry ∈ (winners.filterMap facts.get?).filterMap
      presentationEntry,
      (snapshot facts statuses).isProjected entry.factId = true := by
    intro entry hentry
    obtain ⟨key, hwinner⟩ := hkeys entry.factId
      (hids ▸ List.mem_map_of_mem hentry)
    obtain ⟨fact, hfact, hid, -⟩ := mem_winners hwinner
    exact hid ▸ (mem_projectedFacts.1 hfact).2
  have hnodup : winners.Nodup :=
    hwinners ▸ (progressWinners_distinct session).2
  obtain ⟨ordered, hordered, -⟩ := canonicalPresentationOrder_ok
    (fun entry hentry => hclosed.mem_ids (hprojected entry hentry))
    (hids.symm ▸ hnodup)
    (fun entry hentry => hclosed.acyclic (hprojected entry hentry))
  refine ⟨ordered, hordered, ?_, ?_⟩
  · unfold presentedOrder
    rw [show canonicalPresentationOrder (snapshot facts statuses).graph
      ((winners.filterMap (snapshot facts statuses).facts.get?).filterMap
        presentationEntry) = .ok ordered from hordered]
  · obtain ⟨hpresentable, entries, rfl, hgreedy⟩ :=
      canonicalPresentationOrder_iff.1 hordered
    have hperm := (hgreedy.perm_entries hpresentable).map
      PresentationEntry.factId
    rwa [hids] at hperm

/-- Of the progress winners exactly the retained ones are selected. -/
theorem mem_selectedActivity (hclosed : UsablyClosed facts statuses)
    {id : FactId} :
    (key, id) ∈ selectedActivity (snapshot facts statuses) ↔
      (key, id) ∈ activityWinners (snapshot facts statuses) ∧
        (key.kind = .progress → id ∈ retainedProgress (snapshot facts statuses)
          (activityWinners (snapshot facts statuses)) (sessionOf key)) := by
  simp only [selectedActivity, List.mem_filter]
  refine and_congr_right fun hwinner => ?_
  rw [progressSession_eq hwinner]
  by_cases hkind : key.kind = .progress
  · rw [if_pos hkind, imp_iff_right hkind]
    simp only [Bool.or_eq_true, decide_eq_true_eq]
    refine or_iff_right_of_imp fun hshort => ?_
    -- A short list is retained as a whole.
    obtain ⟨ordered, -, hpresented, hperm⟩ :=
      sessionProgress_ordered hclosed (sessionOf key) rfl
    rw [retainedProgress, hpresented, hperm.length_eq,
      Nat.sub_eq_zero_of_le hshort, List.drop_zero, hperm.mem_iff,
      sessionProgress_eq]
    exact List.mem_map.2 ⟨(key, id), mem_progressWinners.2
      ⟨hwinner, hkind, rfl⟩, rfl⟩
  · simp [hkind]

end Order

/-! Views. -/

def viewSession (view : ActivityView) : ActivitySessionKey :=
  ⟨view.source, view.correlation.provider, view.correlation.session⟩

theorem activityProjection_eq (context : ReductionContext)
    {winner : Fact} (h : activityKey winner = some key) :
    ∃ view support, activityProjection context key winner =
        some ⟨if key.kind = .completedItem then .activityRecord winner.id
          else .activity key, .activity view, support⟩ ∧
      view.factId = winner.id ∧ view.kind = key.kind ∧
      viewSession view = sessionOf key := by
  unfold activityKey at h
  split at h
  next hpayload =>
    cases h
    simp only [activityProjection, hpayload]
    split
    · exact ⟨_, _, rfl, rfl, rfl, rfl⟩
    · exact ⟨_, _, rfl, rfl, rfl, rfl⟩
  next => cases h

theorem winner_contribution
    {id : FactId} (h : (key, id) ∈ activityWinners context) :
    ∃ view support, (context.facts.get? id).bind
        (activityProjection context key) =
        some ⟨if key.kind = .completedItem then .activityRecord id
          else .activity key, .activity view, support⟩ ∧
      view.factId = id ∧ view.kind = key.kind ∧
      viewSession view = sessionOf key := by
  obtain ⟨fact, hfact, rfl, hkey⟩ := mem_winners h
  rw [get?_of_projected hfact, Option.bind_some]
  exact activityProjection_eq context hkey

theorem winner_of_selected
    {id : FactId} (h : (key, id) ∈ selectedActivity context) :
    (key, id) ∈ activityWinners context :=
  (List.mem_filter.1 h).1

theorem mem_activityProjections
    {contribution : ProjectionContribution ConversationProjectionKey
      ConversationProjection}
    (hmem : contribution ∈ deriveConversationProjections context)
    (hkey : (∃ key, contribution.key = .activity key) ∨
      ∃ session, contribution.key = .activityRetention session) :
    contribution ∈ activityProjections context := by
  simp only [deriveConversationProjections, List.mem_append] at hmem
  rcases hmem with (((hthread | hmessage) | harchive) | hgroup) | hactivity
  · obtain ⟨root, -, hread⟩ := List.mem_filterMap.1 hthread
    obtain ⟨message, -, rfl⟩ := Option.map_eq_some_iff.1 hread
    simp [threadProjection] at hkey
  · obtain ⟨fact, -, hread⟩ := List.mem_filterMap.1 hmessage
    split at hread
    · split at hread
      · cases hread
        simp [messageProjection] at hkey
      · cases hread
    · cases hread
  · obtain ⟨entry, -, rfl⟩ := List.mem_map.1 harchive
    simp at hkey
  · obtain ⟨entry, -, rfl⟩ := List.mem_map.1 hgroup
    simp [actionGroupProjection] at hkey
  · exact hactivity

theorem mem_sessions :
    session ∈ ((activityWinners context).map Prod.snd).filterMap
        (progressSession context) ↔
      (progressKeys context session).Nonempty := by
  constructor
  · intro hmem
    obtain ⟨id, hid, hsession⟩ := List.mem_filterMap.1 hmem
    obtain ⟨⟨key, _⟩, hwinner, rfl⟩ := List.mem_map.1 hid
    obtain ⟨-, hkind, hsame⟩ := mem_progressWinners.1
      (List.mem_filter.2 ⟨hwinner, decide_eq_true hsession⟩)
    obtain ⟨fact, hfact, -, hkey⟩ := mem_winners hwinner
    exact ⟨key, hkind, hsame, fact, hfact, hkey⟩
  · rintro ⟨key, hkind, rfl, fact, hfact, hkey⟩
    obtain ⟨id, hid⟩ := exists_snapshotWinner (by rw [hkind]; decide) hfact hkey
    have hwinner : (key, id) ∈ activityWinners context :=
      List.mem_append_left _ hid
    refine List.mem_filterMap.2 ⟨id, List.mem_map.2 ⟨_, hwinner, rfl⟩, ?_⟩
    rw [progressSession_eq hwinner, if_pos hkind]

/-! Facts of one key that share a sequence. -/

theorem mem_participants (hfact : fact ∈ context.facts.facts)
    (hother : other ∈ context.facts.facts) (hkey : activityKey fact = some key)
    (hsame : activityKey other = some key)
    (hsequence : activitySequence fact = activitySequence other)
    (hpayload : fact.payload ≠ other.payload) :
    fact.id ∈ activitySequenceParticipants fact context ∧
      other.id ∈ activitySequenceParticipants fact context := by
  obtain ⟨sequence, hfound⟩ := activitySequence_of_key hkey
  have hmem : ∀ candidate ∈ [fact, other], candidate ∈
      context.facts.facts.filter fun candidate =>
        activityKey candidate = some key &&
          activitySequence candidate = some sequence := by
    simp [hfact, hother, hkey, hsame, hfound, hsequence ▸ hfound]
  rw [activitySequenceParticipants, hkey, FactSet.mem_facts.1 hfact,
    Option.bind_some, hfound]
  simp only
  rw [if_pos (List.any_eq_true.2 ⟨other, hmem other (by simp), by
    simpa using hpayload.symm⟩)]
  exact ⟨OrderedSet.mem_ofList.2 (List.mem_map_of_mem (hmem fact (by simp))),
    OrderedSet.mem_ofList.2 (List.mem_map_of_mem (hmem other (by simp)))⟩

theorem validateProjectActivity_error
    {project : Option ProjectActivityAttribution} {source : MailboxAddress}
    {correlation : OperationCorrelation}
    {reason : ConversationReason}
    (h : validateOptional project (fun project =>
      validateProjectActivity fact project source correlation context) =
        .error reason) : reason = .activitySourceMismatch := by
  cases project with
  | none => cases h
  | some project =>
      rcases bind_eq_error.1 h with hbinding | ⟨-, -, hparent⟩
      · exact (require_eq_error.1 hbinding).2.symm
      · exact (require_eq_error.1 hparent).2.symm

/-- The source rules of an activity, which come before the sequence rule. -/
def sourceRules (fact : Fact) (context : ReductionContext) :
    Except ConversationReason Unit :=
  match fact.payload with
  | .harnessActivityRecorded project source correlation
      _ _ _ _ _ _ _ _ _ _ => do
      validateActivitySource fact source context
      validateOptional project fun project =>
        validateProjectActivity fact project source correlation context
  | _ => .ok ()

theorem validateConversation_activity {policy : AuthorityPolicy}
    (hkey : activityKey fact = some key) :
    validateConversation policy fact context = (do
      sourceRules fact context
      validateActivitySequence fact context) := by
  unfold activityKey at hkey
  split at hkey
  next hshape =>
    rw [validateConversation, sourceRules, hshape]
    exact (bind_assoc _ _ _).symm
  next => cases hkey

theorem sourceRules_error {reason : ConversationReason}
    (h : sourceRules fact context = .error reason) :
    reason = .activitySourceMismatch := by
  unfold sourceRules at h
  split at h
  · rcases bind_eq_error.1 h with hsource | ⟨-, -, hproject⟩
    · exact (require_eq_error.1 hsource).2.symm
    · exact validateProjectActivity_error hproject
  · cases h

section Unequal

variable {policy : AuthorityPolicy} {context : ReductionContext}
  {fact other : Fact} {key : ActivityKey}

/-- An activity of an unknown source is invalid. -/
theorem unsourced_invalid (hkey : activityKey fact = some key)
    (hauthority : classifyFact policy fact context = .projected)
    (hsource : sourceRules fact context ≠ .ok ()) :
    classifyConversationFact policy fact context =
      .invalid .activitySourceMismatch := by
  rw [classifyConversationFact, hauthority, classifyConversation,
    validateConversation_activity hkey]
  cases hrules : sourceRules fact context with
  | ok => exact absurd hrules hsource
  | error reason =>
      obtain rfl := sourceRules_error hrules
      rfl

/-- Unequal facts of one key and sequence that pass the earlier rules are
conflicted with each other. -/
theorem sequence_conflict (hfact : fact ∈ context.facts.facts)
    (hother : other ∈ context.facts.facts) (hkey : activityKey fact = some key)
    (hsame : activityKey other = some key)
    (hsequence : activitySequence fact = activitySequence other)
    (hpayload : fact.payload ≠ other.payload)
    (hauthority : classifyFact policy fact context = .projected)
    (hsource : sourceRules fact context = .ok ()) :
    ∃ participants, fact.id ∈ participants ∧ other.id ∈ participants ∧
      classifyConversationFact policy fact context =
        .conflicted .activitySequenceConflict participants := by
  obtain ⟨hself, hpartner⟩ :=
    mem_participants hfact hother hkey hsame hsequence hpayload
  refine ⟨_, hself, hpartner, ?_⟩
  -- Two participants are one too many.
  have hrefused : validateActivitySequence fact context =
      .error .activitySequenceConflict := by
    refine require_eq_error.2 ⟨decide_eq_false fun hsize => hpayload ?_, rfl⟩
    have hid := OrderedSet.eq_of_size_le_one hsize hself hpartner
    rw [FactSet.eq_of_mem_facts_of_id_eq hfact hother hid]
  have hconversation : validateConversation policy fact context =
      .error .activitySequenceConflict := by
    rw [validateConversation_activity hkey, hsource]
    exact hrefused
  rw [classifyConversationFact, hauthority, classifyConversation, hconversation]

end Unequal

section Report

variable {policy : AuthorityPolicy} {facts : FactSet}
  {report : ReductionReport ConversationAggregateKey ConversationProjectionKey
    ConversationProjection ConversationReason}

/-- The context that the views of a report are derived from. -/
abbrev settled (facts : FactSet) (report : ReductionReport
    ConversationAggregateKey ConversationProjectionKey ConversationProjection
    ConversationReason) : ReductionContext :=
  snapshot facts (statusesIn report.decisions)

/-- A view of progress is shown for a session. -/
def Shown (report : ReductionReport ConversationAggregateKey
    ConversationProjectionKey ConversationProjection ConversationReason)
    (session : ActivitySessionKey) (id : FactId) : Prop :=
  ∃ key view, report.projections.get? (.activity key) =
      some (.activity view) ∧
    view.kind = .progress ∧ viewSession view = session ∧ view.factId = id

/-- Activity views of a report are derived as activity. -/
theorem value_activity (h : Reduced (conversationReducer policy) facts report)
    {key : ConversationProjectionKey} {value : ConversationProjection}
    (hkey : (∃ activity, key = .activity activity) ∨
      ∃ session, key = .activityRetention session) :
    report.projections.get? key = some value ↔
      ∃ contribution ∈ activityProjections (settled facts report),
        contribution.key = key ∧ contribution.value = value := by
  rw [h.value]
  refine exists_congr fun contribution => and_congr_left ?_
  rintro ⟨rfl, -⟩
  exact ⟨fun hmem => mem_activityProjections hmem hkey,
    List.mem_append_right _⟩

/-- The views shown are those of the selected winners. -/
theorem shown_iff (h : Reduced (conversationReducer policy) facts report)
    {id : FactId} :
    Shown report session id ↔ ∃ key,
      (key, id) ∈ selectedActivity (settled facts report) ∧
        key.kind = .progress ∧ sessionOf key = session := by
  constructor
  · rintro ⟨key, view, hget, hkind, hsession, rfl⟩
    obtain ⟨contribution, hmem, hkey, hvalue⟩ :=
      (value_activity h (.inl ⟨key, rfl⟩)).1 hget
    rcases List.mem_append.1 hmem with hactivity | hretention
    · obtain ⟨⟨found, id⟩, hselected, hread⟩ := List.mem_filterMap.1 hactivity
      obtain ⟨shown, support, hprojection, hid, hshownKind, hshownSession⟩ :=
        winner_contribution (winner_of_selected hselected)
      obtain rfl := Option.some.inj (hprojection.symm.trans hread)
      obtain rfl := ConversationProjection.activity.inj hvalue
      exact ⟨found, hid ▸ hselected, hshownKind ▸ hkind,
        hshownSession ▸ hsession⟩
    · obtain ⟨found, -, rfl⟩ := List.mem_map.1 hretention
      cases hkey
  · rintro ⟨key, hselected, hkind, rfl⟩
    obtain ⟨view, support, hprojection, hid, hviewKind, hsession⟩ :=
      winner_contribution (winner_of_selected hselected)
    rw [if_neg (by rw [hkind]; decide)] at hprojection
    exact ⟨key, view, (value_activity h (.inl ⟨key, rfl⟩)).2
      ⟨_, List.mem_append_left _
        (List.mem_filterMap.2 ⟨_, hselected, hprojection⟩), rfl, rfl⟩,
      hviewKind.trans hkind, hsession, hid⟩

/-- A session has a retention view as soon as some progress of it is
projected. -/
theorem retention_iff (h : Reduced (conversationReducer policy) facts report)
    {view : ActivityRetentionView} :
    report.projections.get? (.activityRetention session) =
        some (.activityRetention view) ↔
      (progressKeys (settled facts report) session).Nonempty ∧
        view = ⟨retainedProgress (settled facts report)
          (activityWinners (settled facts report)) session,
          (presentedOrder (settled facts report) (sessionProgress
            (settled facts report) (activityWinners (settled facts report))
            session)).length⟩ := by
  rw [value_activity h (.inr ⟨session, rfl⟩), ← mem_sessions]
  constructor
  · rintro ⟨contribution, hmem, hkey, hvalue⟩
    rcases List.mem_append.1 hmem with hactivity | hretention
    · obtain ⟨⟨found, id⟩, hselected, hread⟩ := List.mem_filterMap.1 hactivity
      obtain ⟨shown, support, hprojection, -⟩ :=
        winner_contribution (winner_of_selected hselected)
      obtain rfl := Option.some.inj (hprojection.symm.trans hread)
      simp only at hvalue
      cases hvalue
    · obtain ⟨found, hfound, rfl⟩ := List.mem_map.1 hretention
      obtain rfl := ConversationProjectionKey.activityRetention.inj hkey
      exact ⟨OrderedSet.mem_ofList.1 hfound,
        (ConversationProjection.activityRetention.inj hvalue).symm⟩
  · rintro ⟨hmem, rfl⟩
    exact ⟨_, List.mem_append_right _ (List.mem_map.2
      ⟨session, OrderedSet.mem_ofList.2 hmem, rfl⟩), rfl, rfl⟩

/-- What a report decides about a fact that shares its key and its sequence
with an unequal one.  Each rule speaks once those before it are passed. -/
structure DecidesUnequal (policy : AuthorityPolicy) (facts : FactSet)
    (report : ReductionReport ConversationAggregateKey
      ConversationProjectionKey ConversationProjection ConversationReason)
    (fact other : Fact) (decision : FactDecision ConversationReason) :
    Prop where
  decided : report.decisions.get? fact.id = some decision
  unprojected : decision.status ≠ .projected
  cyclic : fact.id ∈ facts.graph.cycleMembers →
    decision.status = .invalid ∧ decision.reason = some .causalCycle
  waiting : fact.id ∉ facts.graph.cycleMembers →
    (∃ parent ∈ fact.causal.parents,
      ¬ (settled facts report).isProjected parent = true) →
    decision.status = .unresolved
  refused : fact.id ∉ facts.graph.cycleMembers →
    (∀ parent ∈ fact.causal.parents,
      (settled facts report).isProjected parent = true) →
    classifyFact policy fact (settled facts report) ≠ .projected →
    decision = domainDecision (mapAuthorityDecision .authority
      (classifyFact policy fact (settled facts report)))
      (facts.graph.children fact.id)
  unsourced : fact.id ∉ facts.graph.cycleMembers →
    (∀ parent ∈ fact.causal.parents,
      (settled facts report).isProjected parent = true) →
    classifyFact policy fact (settled facts report) = .projected →
    sourceRules fact (settled facts report) ≠ .ok () →
    decision.status = .invalid ∧
      decision.reason = some (.domain .activitySourceMismatch)
  conflicted : fact.id ∉ facts.graph.cycleMembers →
    (∀ parent ∈ fact.causal.parents,
      (settled facts report).isProjected parent = true) →
    classifyFact policy fact (settled facts report) = .projected →
    sourceRules fact (settled facts report) = .ok () →
    decision.status = .conflicted ∧
      decision.reason = some (.domain .activitySequenceConflict) ∧
      fact.id ∈ decision.conflictParticipants ∧
      other.id ∈ decision.conflictParticipants

theorem not_projected_of_unequal
    (h : Reduced (conversationReducer policy) facts report)
    (hfact : fact ∈ facts.facts)
    (hother : other ∈ facts.facts) (hkey : activityKey fact = some key)
    (hsame : activityKey other = some key)
    (hsequence : activitySequence fact = activitySequence other)
    (hpayload : fact.payload ≠ other.payload) :
    ¬ (settled facts report).isProjected fact.id = true := by
  intro hprojected
  obtain ⟨found, hready, hid, -, hclassify⟩ :=
    (stable_projected h.fixed).1 hprojected
  obtain rfl := FactSet.eq_of_mem_facts_of_id_eq
    (FactSet.mem_facts_of_get? hready.retained) hfact hid
  have hclassify : classifyConversationFact policy found
      (settled facts report) = .projected := hclassify
  have hlayers := hclassify
  rw [classifyConversationFact_eq, layeredDecision_projected,
    ← classifyFact_projected] at hlayers
  by_cases hsource : sourceRules found (settled facts report) = .ok ()
  · have hretained : found ∈ (settled facts report).facts.facts := hfact
    obtain ⟨participants, -, -, hconflict⟩ := sequence_conflict hretained hother
      hkey hsame hsequence hpayload hlayers.1 hsource
    rw [hconflict] at hclassify
    cases hclassify
  · rw [unsourced_invalid hkey hlayers.1 hsource] at hclassify
    cases hclassify

theorem decides_unequal (h : Reduced (conversationReducer policy) facts report)
    (hfact : fact ∈ facts.facts)
    (hother : other ∈ facts.facts) (hkey : activityKey fact = some key)
    (hsame : activityKey other = some key)
    (hsequence : activitySequence fact = activitySequence other)
    (hpayload : fact.payload ≠ other.payload) :
    ∃ decision, DecidesUnequal policy facts report fact other decision := by
  have hget := FactSet.mem_facts.1 hfact
  have hdecided := stable_get? h.fixed (FactSet.mem_ids_of_get? hget)
  have hjudged : fact.id ∉ facts.graph.cycleMembers →
      (∀ parent ∈ fact.causal.parents,
        (settled facts report).isProjected parent = true) →
      nextDecision (conversationReducer policy) (settled facts report) fact.id =
        domainDecision (classifyConversationFact policy fact
          (settled facts report)) (facts.graph.children fact.id) := by
    intro hcycle hparents
    exact Option.some.inj (hdecided.symm.trans
      (next_judged h.fixed (stable_covers h.fixed)
        (stable_ready h.fixed hget hcycle hparents) hparents))
  refine ⟨_, ⟨hdecided, ?_, ?_, ?_, ?_, ?_, ?_⟩⟩
  · intro hstatus
    refine not_projected_of_unequal h hfact hother hkey hsame hsequence
      hpayload ?_
    rw [settled, ← contextOf_eq, contextOf_isProjected]
    exact ⟨_, hdecided, hstatus⟩
  · intro hcycle
    have hcyclic := next_cyclic h.fixed hget hcycle
    rw [hdecided, Option.some.injEq] at hcyclic
    rw [hcyclic]
    exact ⟨rfl, rfl⟩
  · intro hcycle hparent
    obtain ⟨parent, hcited, hunusable⟩ := hparent
    obtain ⟨decision, hfound, hstatus⟩ :=
      next_waiting h.fixed (stable_covers h.fixed) hget hcycle
        fun hready => hunusable (hready.2 parent hcited)
    rw [hdecided, Option.some.injEq] at hfound
    rw [hfound, hstatus]
  · intro hcycle hparents hauthority
    rw [hjudged hcycle hparents, classifyConversationFact]
    split
    next haccepted => exact absurd haccepted hauthority
    next => rfl
  · intro hcycle hparents hauthority hsource
    rw [hjudged hcycle hparents, unsourced_invalid hkey hauthority hsource]
    exact ⟨rfl, rfl⟩
  · intro hcycle hparents hauthority hsource
    obtain ⟨participants, hself, hpartner, hconflict⟩ := sequence_conflict
      hfact hother hkey hsame hsequence hpayload hauthority hsource
    rw [hjudged hcycle hparents, hconflict]
    exact ⟨rfl, rfl, hself, hpartner⟩

/-- Every activity has one winner, of the greatest sequence. -/
theorem exists_winner (h : Reduced (conversationReducer policy) facts report)
    (hkind : key.kind ≠ .completedItem)
    (hfact : fact ∈ (settled facts report).projectedFacts)
    (hkey : activityKey fact = some key) :
    ∃ winner ∈ (settled facts report).projectedFacts,
      activityKey winner = some key ∧
      (∀ id, (key, id) ∈ activityWinners (settled facts report) ↔
        id = winner.id) ∧
      ∀ other ∈ (settled facts report).projectedFacts,
        activityKey other = some key → rank other < rank winner ∨
          rank other = rank winner ∧ other.payload = winner.payload := by
  obtain ⟨id, hid⟩ := exists_snapshotWinner hkind hfact hkey
  obtain ⟨-, winner, hwinner, rfl, hwinnerKey, hgreatest⟩ :=
    mem_snapshotWinners hid
  refine ⟨winner, hwinner, hwinnerKey, fun other => ⟨fun hother => ?_, ?_⟩,
    fun other hother hotherKey => ?_⟩
  · rcases List.mem_append.1 hother with hsnapshot | hcompleted
    · exact congrArg Prod.snd
        (List.inj_on_of_nodup_map snapshotWinners_keys hsnapshot hid rfl)
    · exact absurd (mem_completedItems hcompleted).1 hkind
  · rintro rfl
    exact List.mem_append_left _ hid
  · refine (hgreatest other hother hotherKey).lt_or_eq.imp_right fun hrank =>
      ⟨hrank, ?_⟩
    by_contra hpayload
    obtain ⟨first, hfirst⟩ := activitySequence_of_key hotherKey
    obtain ⟨second, hsecond⟩ := activitySequence_of_key hwinnerKey
    simp only [rank, hfirst, hsecond, Option.map_some, Option.getD_some] at hrank
    exact not_projected_of_unequal h (mem_projectedFacts.1 hother).1
      (mem_projectedFacts.1 hwinner).1 hotherKey hwinnerKey
      (by rw [hfirst, hsecond, NonZeroU64.ext hrank]) hpayload
      (mem_projectedFacts.1 hother).2

theorem shown_iff_retained
    (h : Reduced (conversationReducer policy) facts report)
    {id : FactId} :
    Shown report session id ↔ id ∈ retainedProgress (settled facts report)
      (activityWinners (settled facts report)) session := by
  have hclosed := usablyClosed_of_fixed h.fixed
  rw [shown_iff h]
  constructor
  · rintro ⟨key, hselected, hkind, rfl⟩
    exact ((mem_selectedActivity hclosed).1 hselected).2 hkind
  · intro hid
    obtain ⟨ordered, -, hpresented, hperm⟩ :=
      sessionProgress_ordered hclosed session rfl
    have hordered : id ∈ ordered := by
      rw [retainedProgress, hpresented] at hid
      exact List.mem_of_mem_drop hid
    rw [hperm.mem_iff, sessionProgress_eq] at hordered
    obtain ⟨⟨key, _⟩, hmem, rfl⟩ := List.mem_map.1 hordered
    obtain ⟨hwinner, hkind, rfl⟩ := mem_progressWinners.1 hmem
    exact ⟨key, (mem_selectedActivity hclosed).2 ⟨hwinner, fun _ => hid⟩, hkind,
      rfl⟩

/-- What is shown of the activity of a fact set. -/
theorem activity_selection_agrees (policy : AuthorityPolicy) (facts : FactSet)
    (report : ReductionReport ConversationAggregateKey
      ConversationProjectionKey ConversationProjection ConversationReason)
    (h : reduceSet (conversationReducer policy) facts = .ok report) :
    (∀ fact ∈ facts.facts, ∀ other ∈ facts.facts, ∀ key,
      activityKey fact = some key → activityKey other = some key →
      activitySequence fact = activitySequence other →
      fact.payload ≠ other.payload →
        ∃ decision,
          DecidesUnequal policy facts report fact other decision) ∧
    (∀ key, key.kind ≠ .completedItem →
      (∃ fact ∈ (settled facts report).projectedFacts,
        activityKey fact = some key) →
      ∃ winner ∈ (settled facts report).projectedFacts,
        activityKey winner = some key ∧
        (∀ id, (key, id) ∈ activityWinners (settled facts report) ↔
          id = winner.id) ∧
        ∀ other ∈ (settled facts report).projectedFacts,
          activityKey other = some key → rank other < rank winner ∨
            rank other = rank winner ∧ other.payload = winner.payload) ∧
    ∀ session,
      ((progressKeys (settled facts report) session).Nonempty →
        ∃ ordered, canonicalPresentationOrder facts.graph (((sessionProgress
            (settled facts report) (activityWinners (settled facts report))
            session).filterMap facts.get?).filterMap presentationEntry) =
              .ok ordered ∧
          ordered.Perm (sessionProgress (settled facts report)
            (activityWinners (settled facts report)) session) ∧
          ordered.length =
            (progressKeys (settled facts report) session).ncard ∧
          report.projections.get? (.activityRetention session) =
            some (.activityRetention
              ⟨ordered.drop (ordered.length - 200), ordered.length⟩) ∧
          ∀ id, Shown report session id ↔
            id ∈ ordered.drop (ordered.length - 200)) ∧
      (¬ (progressKeys (settled facts report) session).Nonempty →
        (∀ view, report.projections.get? (.activityRetention session) ≠
          some (.activityRetention view)) ∧
        ∀ id, ¬ Shown report session id) := by
  have hreduced := reduced_of_reduceSet h
  have hclosed := usablyClosed_of_fixed hreduced.fixed
  refine ⟨?_, ?_, fun session => ⟨fun hkeys => ?_, fun hkeys => ⟨?_, ?_⟩⟩⟩
  · intro fact hfact other hother key hkey hsame hsequence hpayload
    exact decides_unequal hreduced hfact hother hkey hsame hsequence hpayload
  · rintro key hkind ⟨fact, hfact, hkey⟩
    exact exists_winner hreduced hkind hfact hkey
  · obtain ⟨ordered, hordered, hpresented, hperm⟩ :=
      sessionProgress_ordered hclosed session rfl
    have hretained : retainedProgress (settled facts report)
        (activityWinners (settled facts report)) session =
        ordered.drop (ordered.length - 200) := by
      rw [retainedProgress, hpresented]
    refine ⟨ordered, hordered, hperm, ?_, ?_, fun id => ?_⟩
    · rw [progressKeys_ncard]
      exact hperm.length_eq
    · rw [retention_iff hreduced, hretained, hpresented]
      exact ⟨hkeys, rfl⟩
    · rw [← hretained]
      exact shown_iff_retained hreduced
  · exact fun view hview => hkeys ((retention_iff hreduced).1 hview).1
  · intro id hshown
    obtain ⟨key, hselected, hkind, hsession⟩ := (shown_iff hreduced).1 hshown
    obtain ⟨fact, hfact, -, hkey⟩ :=
      mem_winners (winner_of_selected hselected)
    exact hkeys ⟨key, hkind, hsession, fact, hfact, hkey⟩

end Report

/-- A progress report under one key and sequence. -/
def progressAt (id : Nat) (occurredAt : Int) : Fact :=
  privateFact 1 1 id [] (.harnessActivityRecorded none ⟨.ofNat 1, .ofNat 20⟩
    ⟨.ofChar 'p', .ofChar 's', .ofNat 5⟩ none .progress (.ofChar 'k')
    (.ofChar 'r') .one ⟨occurredAt⟩ .running (.ofChar 'c') false none) rfl rfl

/-- Two unequal progress reports of one sequence, from a mailbox that is not
there. -/
def unequalProgress : List Fact :=
  [declaration 1 1, progressAt 2 0, progressAt 3 7]

/-- Reports that the source rule refuses are invalid and not conflicted. -/
theorem unequal_not_conflicted :
    (activityKey (progressAt 2 0) = activityKey (progressAt 3 7) ∧
      activitySequence (progressAt 2 0) = activitySequence (progressAt 3 7) ∧
      (progressAt 2 0).payload ≠ (progressAt 3 7).payload) ∧
    (reduceComplete (conversationReducer samplePolicy)
      unequalProgress).toOption.map (fun report =>
        (statusesIn report.decisions).entries.map Prod.snd) =
      some [.projected, .invalid, .invalid] := by
  decide +kernel

/-- The report decides about the second report, and does not project it. -/
theorem activity_selection_agrees_unequal :
    ∃ report decision, reduceSet (conversationReducer samplePolicy)
        (FactSet.fromFacts unequalProgress) = .ok report ∧
      DecidesUnequal samplePolicy (FactSet.fromFacts unequalProgress) report
        (progressAt 2 0) (progressAt 3 7) decision := by
  have hok : (reduceSet (conversationReducer samplePolicy)
      (FactSet.fromFacts unequalProgress)).toOption.isSome = true := by
    decide +kernel
  cases hreport : reduceSet (conversationReducer samplePolicy)
      (FactSet.fromFacts unequalProgress) with
  | error error =>
      rw [hreport] at hok
      cases hok
  | ok report =>
      have hmem : progressAt 2 0 ∈ (FactSet.fromFacts unequalProgress).facts ∧
          progressAt 3 7 ∈ (FactSet.fromFacts unequalProgress).facts := by
        decide +kernel
      obtain ⟨decision, hdecides⟩ := (activity_selection_agrees samplePolicy _
        report hreport).1 _ hmem.1 _ hmem.2 _ rfl rfl rfl (by decide +kernel)
      exact ⟨report, decision, rfl, hdecides⟩

end ActivityRetention

end Hq
