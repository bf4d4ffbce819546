/-
When an agent is runnable: what its view says about all projected claims,
retirements, bindings and selections, and which session it runs.
-/
import Hq.AgentReduction
import Hq.RemoveWins

namespace Hq

section Values

variable {α : Type} [DecidableEq α] {values : List α}

theorem dedup_length_eq_one :
    values.dedup.length = 1 ↔ ∃ value ∈ values, ∀ x ∈ values, x = value := by
  rw [List.length_eq_one_iff]
  constructor
  · rintro ⟨value, hdedup⟩
    have hmem : ∀ x, x ∈ values ↔ x = value := by
      intro x
      rw [← List.mem_dedup, hdedup, List.mem_singleton]
    exact ⟨value, (hmem value).2 rfl, fun x => (hmem x).1⟩
  · rintro ⟨value, hvalue, honly⟩
    refine ⟨value, List.perm_singleton.1 ?_⟩
    rw [List.perm_ext_iff_of_nodup (List.nodup_dedup values)
      (List.nodup_singleton value)]
    intro x
    rw [List.mem_dedup, List.mem_singleton]
    exact ⟨honly x, fun hx => hx ▸ hvalue⟩

theorem onlyValue_eq_some {value : α} :
    onlyValue values = some value ↔ value ∈ values ∧ ∀ x ∈ values, x = value := by
  have hmem : ∀ x, x ∈ values.dedup ↔ x ∈ values := fun x => List.mem_dedup
  unfold onlyValue
  constructor
  · intro h
    split at h
    next only hdedup =>
      cases h
      rw [hdedup] at hmem
      simp only [List.mem_singleton] at hmem
      exact ⟨(hmem value).1 rfl, fun x hx => (hmem x).2 hx⟩
    next => cases h
  · rintro ⟨hvalue, honly⟩
    obtain ⟨only, honlyDedup⟩ := List.length_eq_one_iff.1
      (dedup_length_eq_one.2 ⟨value, hvalue, honly⟩)
    have honlyMem : only ∈ values := by
      rw [← hmem, honlyDedup]
      exact List.mem_singleton_self only
    rw [honlyDedup, honly only honlyMem]

theorem severalValues_iff :
    severalValues values = true ↔
      ∃ left ∈ values, ∃ right ∈ values, left ≠ right := by
  rw [severalValues, decide_eq_true_eq]
  constructor
  · intro hseveral
    match hdedup : values.dedup with
    | [] | [_] => simp [hdedup] at hseveral
    | left :: right :: rest =>
        have hnodup := List.nodup_dedup values
        rw [hdedup] at hnodup
        have hmem : ∀ x ∈ left :: right :: rest, x ∈ values := by
          intro x hx
          rw [← hdedup] at hx
          exact List.mem_dedup.1 hx
        refine ⟨left, hmem _ (by simp), right, hmem _ (by simp), ?_⟩
        rintro rfl
        simp at hnodup
  · rintro ⟨left, hleft, right, hright, hne⟩
    by_contra hfew
    have hpos : 0 < values.dedup.length :=
      List.length_pos_of_mem (List.mem_dedup.2 hleft)
    obtain ⟨value, -, honly⟩ := dedup_length_eq_one.1
      (by omega : values.dedup.length = 1)
    exact hne ((honly left hleft).trans (honly right hright).symm)

end Values

/-- A projected selection of the agent that is below no other. -/
structure LastSelection (context : ReductionContext) (agent : AgentId)
    (fact : Fact) (candidate : SelectionCandidate) : Prop where
  projected : fact ∈ context.projectedFacts
  selects : selectedSession fact = some (agent, candidate)
  last : ∀ other ∈ context.projectedFacts, ∀ rival,
    selectedSession other = some (agent, rival) →
      ¬ StrictlyReaches context fact.id other.id

/-- Every projected claim that shares its agent, its mailbox or its name with
a claim of the agent has the same subject. -/
def ClaimsAgree (context : ReductionContext) (agent : AgentId) : Prop :=
  ∀ claim ∈ context.projectedFacts, ∀ subject,
    claimSubject claim = some subject → subject.1 = agent →
    ∀ other ∈ context.projectedFacts, ∀ rival, claimSubject other = some rival →
      rival.1 = subject.1 ∨ rival.2.1 = subject.2.1 ∨
        rival.2.2 = subject.2.2 → rival = subject

/-- The projected bindings of the session name one mailbox. -/
def BoundOnce (context : ReductionContext) (session : SessionIdentity) : Prop :=
  ∃ mailbox, (∃ binding ∈ context.projectedFacts,
      boundSession binding = some (mailbox, session)) ∧
    ∀ binding ∈ context.projectedFacts, ∀ other,
      boundSession binding = some (other, session) → other = mailbox

/-- The agent is claimed without conflict, not retired, and its last
selections choose the session, which one mailbox is bound to. -/
structure RunsSession (context : ReductionContext) (agent : AgentId)
    (session : SessionIdentity) : Prop where
  claims : ClaimsAgree context agent
  unretired : ∀ fact ∈ context.projectedFacts, retiresAgent agent fact = false
  selected : ∃ fact candidate, LastSelection context agent fact candidate
  agreed : ∀ fact candidate, LastSelection context agent fact candidate →
    candidate.session = session
  bound : BoundOnce context session

/-- The agent is claimed without conflict, not retired, and its last
selections agree on a session and a context. -/
structure AgreesOn (context : ReductionContext) (agent : AgentId)
    (candidate : SelectionCandidate) : Prop where
  claims : ClaimsAgree context agent
  unretired : ∀ fact ∈ context.projectedFacts, retiresAgent agent fact = false
  selected : ∃ fact, LastSelection context agent fact candidate
  agreed : ∀ fact selected, LastSelection context agent fact selected →
    selected = candidate

/-- A view is runnable exactly when the last selections agree, and shows the
session that they choose. -/
structure RunsAgreed (context : ReductionContext) (agent : AgentId)
    (view : AgentView) : Prop where
  runnable : view.runnable = true ↔
    ∃ candidate, AgreesOn context agent candidate
  shown : view.runnable = true → ∀ fact candidate,
    LastSelection context agent fact candidate →
      view.selectedSession = some candidate.session

/-- Last selections that let an agent run a session choose one context, and a
session that they agree on has one mailbox. -/
structure SelectsOnce (context : ReductionContext) (agent : AgentId) :
    Prop where
  context_eq : ∀ session, RunsSession context agent session →
    ∀ left right first second, LastSelection context agent left first →
      LastSelection context agent right second → first.context = second.context
  bound : ∀ candidate, AgreesOn context agent candidate →
    BoundOnce context candidate.session

variable {context : ReductionContext}
  {subject : AgentId × MailboxAddress × ShortText} {session : SessionIdentity}
  {view : AgentView}

theorem runsAgreed_iff {agent : AgentId}
    (hrunnable : view.runnable = true ↔
      ∃ session, RunsSession context agent session)
    (hshown : ∀ session, view.selectedSession = some session ↔
      RunsSession context agent session) :
    RunsAgreed context agent view ↔ SelectsOnce context agent := by
  constructor
  · refine fun hlaw => ⟨?_, ?_⟩
    · intro session hruns left right first second hleft hright
      obtain ⟨candidate, hagrees⟩ :=
        hlaw.runnable.1 (hrunnable.2 ⟨session, hruns⟩)
      rw [hagrees.agreed left first hleft, hagrees.agreed right second hright]
    · intro candidate hagrees
      obtain ⟨session, hruns⟩ :=
        hrunnable.1 (hlaw.runnable.2 ⟨candidate, hagrees⟩)
      obtain ⟨fact, hlast⟩ := hagrees.selected
      rw [hruns.agreed fact candidate hlast]
      exact hruns.bound
  · refine fun honce => ⟨⟨?_, ?_⟩, ?_⟩
    · intro hview
      obtain ⟨session, hruns⟩ := hrunnable.1 hview
      obtain ⟨fact, candidate, hlast⟩ := hruns.selected
      refine ⟨candidate, hruns.claims, hruns.unretired, ⟨fact, hlast⟩, ?_⟩
      intro other selected hother
      have hsession : selected.session = candidate.session :=
        (hruns.agreed other selected hother).trans
          (hruns.agreed fact candidate hlast).symm
      have hcontext :=
        honce.context_eq session hruns other fact selected candidate hother hlast
      cases selected
      cases candidate
      simp_all
    · rintro ⟨candidate, hagrees⟩
      obtain ⟨fact, hlast⟩ := hagrees.selected
      refine hrunnable.2 ⟨candidate.session, hagrees.claims, hagrees.unretired,
        ⟨fact, candidate, hlast⟩, fun other selected hother => ?_,
        honce.bound candidate hagrees⟩
      rw [hagrees.agreed other selected hother]
    · intro hview fact candidate hlast
      obtain ⟨session, hruns⟩ := hrunnable.1 hview
      rw [hruns.agreed fact candidate hlast]
      exact (hshown session).2 hruns

section Selection

variable {facts : FactSet} {statuses : OrderedMap FactId DecisionStatus}
  {agent : AgentId}

theorem mem_readMembers {α : Type} {read : Fact → Option α}
    {members : OrderedSet FactId} {id : FactId} {value : α}
    (hmembers : ∀ id ∈ members, ∃ fact ∈
      (snapshot facts statuses).projectedFacts, fact.id = id) :
    (id, value) ∈ readMembers (snapshot facts statuses) read members ↔
      ∃ fact ∈ (snapshot facts statuses).projectedFacts, fact.id = id ∧
        id ∈ members ∧ read fact = some value := by
  rw [readMembers, List.mem_filterMap]
  constructor
  · rintro ⟨other, hother, hread⟩
    rw [OrderedSet.mem_toList] at hother
    obtain ⟨found, hfound, heq⟩ := Option.map_eq_some_iff.1 hread
    cases heq
    obtain ⟨fact, hfact, rfl⟩ := hmembers _ hother
    have hget : (snapshot facts statuses).facts.get? fact.id = some fact :=
      FactSet.mem_facts.1 (mem_projectedFacts.1 hfact).1
    rw [hget, Option.bind_some] at hfound
    exact ⟨fact, hfact, rfl, hother, hfound⟩
  · rintro ⟨fact, hfact, rfl, hmem, hread⟩
    have hget : (snapshot facts statuses).facts.get? fact.id = some fact :=
      FactSet.mem_facts.1 (mem_projectedFacts.1 hfact).1
    exact ⟨fact.id, OrderedSet.mem_toList.2 hmem, by simp [hget, hread]⟩

theorem mem_selectionMembers {id : FactId} :
    id ∈ selectionMembers agent context ↔ ∃ fact ∈ context.projectedFacts,
      (∃ candidate, selectedSession fact = some (agent, candidate)) ∧
        fact.id = id := by
  rw [selectionMembers, mem_projectedIds]
  refine exists_congr fun fact => and_congr_right fun _ =>
    and_congr_left fun _ => ?_
  constructor
  · intro htest
    obtain ⟨⟨found, candidate⟩, hread, hagent⟩ := (Option.any_eq_true _ _).1 htest
    obtain rfl : found = agent := by simpa using hagent
    exact ⟨candidate, hread⟩
  · rintro ⟨candidate, hread⟩
    simp [hread]

theorem mem_selectionFrontier {id : FactId} :
    id ∈ maximalMembers (snapshot facts statuses)
        (selectionMembers agent (snapshot facts statuses)) ↔
      ∃ fact candidate, LastSelection (snapshot facts statuses) agent fact
        candidate ∧ fact.id = id := by
  rw [mem_maximalMembers_iff]
  constructor
  · rintro ⟨hmem, hlast⟩
    obtain ⟨fact, hfact, ⟨candidate, hselects⟩, rfl⟩ :=
      mem_selectionMembers.1 hmem
    refine ⟨fact, candidate, ⟨hfact, hselects, ?_⟩, rfl⟩
    intro other hother rival hrival
    exact hlast other.id (mem_selectionMembers.2
      ⟨other, hother, ⟨rival, hrival⟩, rfl⟩)
  · rintro ⟨fact, candidate, hlast, rfl⟩
    refine ⟨mem_selectionMembers.2
      ⟨fact, hlast.projected, ⟨candidate, hlast.selects⟩, rfl⟩, ?_⟩
    intro id hid
    obtain ⟨other, hother, ⟨rival, hrival⟩, rfl⟩ := mem_selectionMembers.1 hid
    exact hlast.last other hother rival hrival

/-- The selections an agent's register is read from. -/
theorem mem_lastSelections {id : FactId}
    {selected : AgentId × SelectionCandidate} :
    (id, selected) ∈ readMembers (snapshot facts statuses) selectedSession
        (maximalMembers (snapshot facts statuses)
          (selectionMembers agent (snapshot facts statuses))) ↔
      ∃ fact, LastSelection (snapshot facts statuses) agent fact selected.2 ∧
        fact.id = id ∧ selected.1 = agent := by
  have hmembers : ∀ id ∈ maximalMembers (snapshot facts statuses)
      (selectionMembers agent (snapshot facts statuses)),
      ∃ fact ∈ (snapshot facts statuses).projectedFacts, fact.id = id := by
    intro id hid
    obtain ⟨fact, candidate, hlast, hsame⟩ := mem_selectionFrontier.1 hid
    exact ⟨fact, hlast.projected, hsame⟩
  rw [mem_readMembers hmembers]
  constructor
  · rintro ⟨fact, hfact, rfl, hmem, hselected⟩
    obtain ⟨other, candidate, hlast, hsame⟩ := mem_selectionFrontier.1 hmem
    obtain rfl := FactSet.eq_of_mem_facts_of_id_eq
      (mem_projectedFacts.1 hlast.projected).1 (mem_projectedFacts.1 hfact).1
      hsame
    have hselects := hlast.selects
    rw [hselected] at hselects
    cases hselects
    exact ⟨other, hlast, rfl, rfl⟩
  · rintro ⟨fact, hlast, rfl, rfl⟩
    exact ⟨fact, hlast.projected, rfl,
      mem_selectionFrontier.2 ⟨fact, selected.2, hlast, rfl⟩, hlast.selects⟩

theorem mem_selectionValues :
    session ∈ (readMembers (snapshot facts statuses) selectedSession
        (maximalMembers (snapshot facts statuses)
          (selectionMembers agent (snapshot facts statuses)))).map
            (fun selected => selected.2.2.session) ↔
      ∃ fact candidate, LastSelection (snapshot facts statuses) agent fact
        candidate ∧ candidate.session = session := by
  rw [List.mem_map]
  constructor
  · rintro ⟨⟨id, selected⟩, hread, rfl⟩
    obtain ⟨fact, hlast, -, -⟩ := mem_lastSelections.1 hread
    exact ⟨fact, selected.2, hlast, rfl⟩
  · rintro ⟨fact, candidate, hlast, rfl⟩
    exact ⟨(fact.id, (agent, candidate)),
      mem_lastSelections.2 ⟨fact, hlast, rfl, rfl⟩, rfl⟩

/-- A map made from the facts read keeps the value of each. -/
theorem mem_values_readMembers {α β : Type}
    {read : Fact → Option α} {members : OrderedSet FactId} (part : α → β)
    {value : β} :
    value ∈ (OrderedMap.ofList ((readMembers context read members).map
        fun entry => (entry.1, part entry.2))).values ↔
      ∃ entry ∈ readMembers context read members, part entry.2 = value := by
  rw [OrderedMap.mem_values]
  constructor
  · rintro ⟨id, hget⟩
    obtain ⟨entry, hentry, hsame⟩ :=
      List.mem_map.1 (OrderedMap.mem_of_get?_ofList hget)
    cases hsame
    exact ⟨entry, hentry, rfl⟩
  · rintro ⟨entry, hentry, rfl⟩
    refine ⟨entry.1, OrderedMap.get?_ofList_of_unique
      (List.mem_map_of_mem hentry) ?_⟩
    intro other hother
    obtain ⟨rival, hrival, hsame⟩ := List.mem_map.1 hother
    obtain ⟨id, -, hread⟩ := List.mem_filterMap.1 hentry
    obtain ⟨id', -, hread'⟩ := List.mem_filterMap.1 hrival
    obtain ⟨found, hfound, rfl⟩ := Option.map_eq_some_iff.1 hread
    obtain ⟨found', hfound', rfl⟩ := Option.map_eq_some_iff.1 hread'
    cases hsame
    rw [hfound] at hfound'
    cases hfound'
    rfl

theorem mem_sessionBindings {mailbox : MailboxAddress} :
    mailbox ∈ (sessionBindings session (snapshot facts statuses)).values ↔
      ∃ binding ∈ (snapshot facts statuses).projectedFacts,
        boundSession binding = some (mailbox, session) := by
  obtain ⟨read, hbindings, hread⟩ :
      ∃ read : Fact → Option (FactId × MailboxAddress),
        sessionBindings session (snapshot facts statuses) =
          .ofList ((snapshot facts statuses).projectedFacts.filterMap read) ∧
        ∀ fact entry, read fact = some entry ↔
          entry.1 = fact.id ∧ boundSession fact = some (entry.2, session) := by
    refine ⟨_, rfl, ?_⟩
    rintro fact ⟨id, found⟩
    cases boundSession fact with
    | none => simp
    | some bound =>
        simp only [Option.ite_none_right_eq_some, Option.some.injEq,
          Prod.ext_iff]
        tauto
  rw [OrderedMap.mem_values, hbindings]
  constructor
  · rintro ⟨id, hget⟩
    obtain ⟨fact, hfact, hentry⟩ :=
      List.mem_filterMap.1 (OrderedMap.mem_of_get?_ofList hget)
    exact ⟨fact, hfact, ((hread fact _).1 hentry).2⟩
  · rintro ⟨fact, hfact, hbound⟩
    refine ⟨fact.id, OrderedMap.get?_ofList_of_unique
      (List.mem_filterMap.2 ⟨fact, hfact, (hread fact _).2 ⟨rfl, hbound⟩⟩) ?_⟩
    intro other hother
    obtain ⟨rival, hrival, hentry⟩ := List.mem_filterMap.1 hother
    obtain ⟨hsame, hread⟩ := (hread rival _).1 hentry
    obtain rfl := FactSet.eq_of_mem_facts_of_id_eq
      (mem_projectedFacts.1 hfact).1 (mem_projectedFacts.1 hrival).1 hsame
    rw [hbound] at hread
    cases hread
    rfl

theorem sessionUnconflicted_iff :
    sessionUnconflicted session (snapshot facts statuses) = true ↔
      BoundOnce (snapshot facts statuses) session := by
  rw [sessionUnconflicted, decide_eq_true_eq, dedup_length_eq_one, BoundOnce]
  simp only [mem_sessionBindings]
  refine exists_congr fun mailbox => and_congr_right fun _ => ?_
  constructor
  · exact fun h binding hbinding other hbound =>
      h other ⟨binding, hbinding, hbound⟩
  · rintro h other ⟨binding, hbinding, hbound⟩
    exact h binding hbinding other hbound

theorem selectionValue_eq_some :
    selectionValue agent (snapshot facts statuses) = some session ↔
      (∃ fact candidate, LastSelection (snapshot facts statuses) agent fact
        candidate) ∧
      (∀ fact candidate, LastSelection (snapshot facts statuses) agent fact
        candidate → candidate.session = session) ∧
      BoundOnce (snapshot facts statuses) session := by
  simp only [selectionValue]
  rw [Option.filter_eq_some_iff, onlyValue_eq_some, sessionUnconflicted_iff]
  simp only [mem_selectionValues]
  constructor
  · rintro ⟨⟨⟨fact, candidate, hlast, -⟩, honly⟩, hbound⟩
    exact ⟨⟨fact, candidate, hlast⟩, fun other rival hrival =>
      honly _ ⟨other, rival, hrival, rfl⟩, hbound⟩
  · rintro ⟨⟨fact, candidate, hlast⟩, hagreed, hbound⟩
    refine ⟨⟨⟨fact, candidate, hlast, hagreed fact candidate hlast⟩, ?_⟩, hbound⟩
    rintro _ ⟨other, rival, hrival, rfl⟩
    exact hagreed other rival hrival

theorem agentRetired_eq_false :
    agentRetired agent context = false ↔
      ∀ fact ∈ context.projectedFacts, retiresAgent agent fact = false := by
  rw [agentRetired, List.any_eq_false]
  simp only [Bool.not_eq_true]

end Selection

section Lifecycle

variable {facts : FactSet} {statuses : OrderedMap FactId DecisionStatus}
  {agent : AgentId} {claims : OrderedSet FactId}

theorem claimConflicted_iff {claim : Fact}
    (hclaim : claimSubject claim = some subject) :
    claimConflicted claim context = true ↔
      ∃ other ∈ context.projectedFacts, ∃ rival,
        claimSubject other = some rival ∧
        (rival.1 = subject.1 ∨ rival.2.1 = subject.2.1 ∨
          rival.2.2 = subject.2.2) ∧ rival ≠ subject := by
  simp only [claimConflicted, hclaim, List.any_eq_true]
  refine exists_congr fun other => and_congr_right fun _ => ?_
  cases claimSubject other with
  | none => simp
  | some rival => simp [or_assoc]

/-- The claims of an agent are the projected facts that claim it. -/
def IsClaimSet (context : ReductionContext) (agent : AgentId)
    (claims : OrderedSet FactId) : Prop :=
  claims ≠ ∅ ∧ ∀ id, id ∈ claims ↔ ∃ fact ∈ context.projectedFacts,
    (claimSubject fact).map Prod.fst = some agent ∧ fact.id = id

theorem IsClaimSet.mem_subjects
    (hclaims : IsClaimSet (snapshot facts statuses) agent claims) :
    subject ∈ (readMembers (snapshot facts statuses) claimSubject claims).map
        Prod.snd ↔
      subject.1 = agent ∧ ∃ fact ∈ (snapshot facts statuses).projectedFacts,
        claimSubject fact = some subject := by
  have hmembers : ∀ id ∈ claims, ∃ fact ∈
      (snapshot facts statuses).projectedFacts, fact.id = id := by
    intro id hid
    obtain ⟨fact, hfact, -, hsame⟩ := (hclaims.2 id).1 hid
    exact ⟨fact, hfact, hsame⟩
  rw [List.mem_map]
  constructor
  · rintro ⟨⟨id, found⟩, hread, rfl⟩
    obtain ⟨fact, hfact, rfl, hmem, hfound⟩ := (mem_readMembers hmembers).1 hread
    obtain ⟨other, hother, hagent, hsame⟩ := (hclaims.2 _).1 hmem
    obtain rfl := FactSet.eq_of_mem_facts_of_id_eq
      (mem_projectedFacts.1 hother).1 (mem_projectedFacts.1 hfact).1 hsame
    rw [hfound, Option.map_some, Option.some.injEq] at hagent
    exact ⟨hagent, other, hother, hfound⟩
  · rintro ⟨rfl, fact, hfact, hsubject⟩
    refine ⟨(fact.id, subject), (mem_readMembers hmembers).2
      ⟨fact, hfact, rfl, (hclaims.2 _).2 ⟨fact, hfact, ?_, rfl⟩, hsubject⟩, rfl⟩
    rw [hsubject, Option.map_some]

theorem IsClaimSet.exists_subject
    (hclaims : IsClaimSet (snapshot facts statuses) agent claims) :
    ∃ fact ∈ (snapshot facts statuses).projectedFacts, ∃ subject,
      claimSubject fact = some subject ∧ subject.1 = agent := by
  by_contra hnone
  refine hclaims.1 (OrderedSet.eq_empty_iff.2 fun id hid => hnone ?_)
  obtain ⟨fact, hfact, hagent, -⟩ := (hclaims.2 id).1 hid
  obtain ⟨subject, hsubject, hsame⟩ := Option.map_eq_some_iff.1 hagent
  exact ⟨fact, hfact, subject, hsubject, hsame⟩

theorem IsClaimSet.claimsAgree_iff
    (hclaims : IsClaimSet (snapshot facts statuses) agent claims) :
    ClaimsAgree (snapshot facts statuses) agent ↔
      ((claims.toList.filterMap (snapshot facts statuses).facts.get?).any
        fun claim => claimConflicted claim (snapshot facts statuses)) =
          false := by
  rw [List.any_eq_false]
  constructor
  · intro hagree claim hclaim hconflict
    obtain ⟨id, hid, hget⟩ := List.mem_filterMap.1 hclaim
    obtain ⟨fact, hfact, hagent, rfl⟩ :=
      (hclaims.2 id).1 (OrderedSet.mem_toList.1 hid)
    rw [FactSet.mem_facts.1 (mem_projectedFacts.1 hfact).1] at hget
    cases hget
    obtain ⟨subject, hsubject, hsame⟩ := Option.map_eq_some_iff.1 hagent
    obtain ⟨other, hother, rival, hrival, hshare, hne⟩ :=
      (claimConflicted_iff hsubject).1 hconflict
    exact hne (hagree claim hfact subject hsubject hsame other hother rival
      hrival hshare)
  · intro hnone claim hclaim subject hsubject hsame other hother rival hrival
      hshare
    by_contra hne
    refine hnone claim ?_ ((claimConflicted_iff hsubject).2
      ⟨other, hother, rival, hrival, hshare, hne⟩)
    refine List.mem_filterMap.2 ⟨claim.id, OrderedSet.mem_toList.2 ?_,
      FactSet.mem_facts.1 (mem_projectedFacts.1 hclaim).1⟩
    refine (hclaims.2 _).2 ⟨claim, hclaim, ?_, rfl⟩
    rw [hsubject, Option.map_some, hsame]

/-- Agreeing claims of one agent have one value for every part. -/
theorem IsClaimSet.size_eq_one {α : Type} [LinearOrder α]
    (hclaims : IsClaimSet (snapshot facts statuses) agent claims)
    (hagree : ClaimsAgree (snapshot facts statuses) agent)
    (part : AgentId × MailboxAddress × ShortText → α) :
    (OrderedSet.ofList (((readMembers (snapshot facts statuses) claimSubject
      claims).map Prod.snd).map part)).size = 1 := by
  obtain ⟨fact, hfact, subject, hsubject, hsame⟩ := hclaims.exists_subject
  refine OrderedSet.size_eq_one_iff.2 ⟨part subject, ?_, ?_⟩
  · refine OrderedSet.mem_ofList.2 (List.mem_map.2 ⟨subject, ?_, rfl⟩)
    exact hclaims.mem_subjects.2 ⟨hsame, fact, hfact, hsubject⟩
  · intro value hvalue
    obtain ⟨rival, hrival, rfl⟩ :=
      List.mem_map.1 (OrderedSet.mem_ofList.1 hvalue)
    obtain ⟨hagent, other, hother, hread⟩ := hclaims.mem_subjects.1 hrival
    rw [hagree fact hfact subject hsubject hsame other hother rival hread
      (Or.inl (hagent.trans hsame.symm))]

theorem retirements_isEmpty :
    (projectedIds context (retiresAgent agent)).isEmpty = true ↔
      ∀ fact ∈ context.projectedFacts, retiresAgent agent fact = false := by
  rw [OrderedSet.isEmpty_iff, OrderedSet.eq_empty_iff]
  simp only [mem_projectedIds]
  constructor
  · intro hnone fact hfact
    by_contra hretires
    exact hnone fact.id ⟨fact, hfact, by simpa using hretires, rfl⟩
  · rintro hnone id ⟨fact, hfact, hretires, -⟩
    exact absurd hretires (by simp [hnone fact hfact])

/-- The two sizes the lifecycle checks follow from the agreement. -/
theorem IsClaimSet.active_iff
    (hclaims : IsClaimSet (snapshot facts statuses) agent claims)
    (hview : (agentProjection (snapshot facts statuses) agent claims).value =
      .agent view) :
    view.lifecycle = .active ↔ ClaimsAgree (snapshot facts statuses) agent ∧
      ∀ fact ∈ (snapshot facts statuses).projectedFacts,
        retiresAgent agent fact = false := by
  cases hview
  simp only
  rw [← retirements_isEmpty]
  cases hretired : (projectedIds (snapshot facts statuses)
      (retiresAgent agent)).isEmpty with
  | false => simp
  | true =>
      simp only [Bool.not_true, Bool.false_eq_true, if_false, and_true]
      constructor
      · intro hactive
        split at hactive
        next hparts =>
          simp only [Bool.and_eq_true, Bool.not_eq_true'] at hparts
          exact hclaims.claimsAgree_iff.2 hparts.2
        next => cases hactive
      · intro hagree
        rw [if_pos]
        simp only [Bool.and_eq_true, decide_eq_true_eq, Bool.not_eq_true']
        exact ⟨⟨hclaims.size_eq_one hagree _, hclaims.size_eq_one hagree _⟩,
          hclaims.claimsAgree_iff.1 hagree⟩

theorem IsClaimSet.runs_iff
    (hclaims : IsClaimSet (snapshot facts statuses) agent claims)
    (hview : (agentProjection (snapshot facts statuses) agent claims).value =
      .agent view) (session : SessionIdentity) :
    view.selectedSession = some session ↔
      RunsSession (snapshot facts statuses) agent session := by
  have hactive := hclaims.active_iff hview
  have hselected : view.selectedSession = some session ↔
      view.lifecycle = .active ∧
        selectionValue agent (snapshot facts statuses) = some session := by
    cases hview
    simp only [Option.ite_none_right_eq_some, Bool.and_eq_true,
      decide_eq_true_eq]
    constructor
    · exact fun h => ⟨h.1.1, h.2⟩
    · exact fun h => ⟨⟨h.1, by rw [h.2]; rfl⟩, h.2⟩
  rw [hselected, hactive, selectionValue_eq_some]
  constructor
  · rintro ⟨⟨hagree, hunretired⟩, hsome, hagreed, hbound⟩
    exact ⟨hagree, hunretired, hsome, hagreed, hbound⟩
  · intro hruns
    exact ⟨⟨hruns.claims, hruns.unretired⟩, hruns.selected, hruns.agreed,
      hruns.bound⟩

theorem runnable_iff_selectedSession
    (hview : (agentProjection (snapshot facts statuses) agent claims).value =
      .agent view) :
    view.runnable = true ↔ ∃ session, view.selectedSession = some session := by
  cases hview
  simp only [Option.ite_none_right_eq_some, exists_and_left]
  refine (and_iff_left_of_imp fun h => ?_).symm
  exact Option.isSome_iff_exists.1 (Bool.and_eq_true _ _ ▸ h).2

end Lifecycle

section Views

variable {facts : FactSet} {statuses : OrderedMap FactId DecisionStatus}
  {agent : AgentId}

theorem agent_contribution
    {contribution : ProjectionContribution AgentProjectionKey AgentProjection}
    (hmem : contribution ∈ deriveAgentProjections context)
    (hkey : contribution.key = .agent agent) :
    ∃ claims, IsClaimSet context agent claims ∧
      contribution = agentProjection context agent claims := by
  have hpart : contribution ∈ agentProjections context :=
    mem_agentPart 5 (by simp [agentParts]) hmem (by rw [hkey]; rfl)
  obtain ⟨entry, hentry, rfl⟩ := List.mem_map.1 hpart
  obtain rfl := AgentProjectionKey.agent.inj hkey
  exact ⟨entry.2, groupFacts_entry hentry, rfl⟩

theorem exists_agent_contribution {claim : Fact}
    (hclaim : claim ∈ context.projectedFacts)
    (hsubject : claimSubject claim = some subject) :
    ∃ claims, agentProjection context subject.1 claims ∈
      deriveAgentProjections context := by
  have hfiled : (claimSubject claim).map Prod.fst = some subject.1 := by
    rw [hsubject, Option.map_some]
  have hsome : ((groupFacts (fun fact => (claimSubject fact).map Prod.fst)
      context.projectedFacts).get? subject.1).isSome = true :=
    groupFacts_isSome.2 ⟨claim, hclaim, hfiled⟩
  obtain ⟨claims, hget⟩ := Option.isSome_iff_exists.1 hsome
  refine ⟨claims, ?_⟩
  rw [deriveAgentProjections_eq]
  refine List.mem_flatMap.2 ⟨(5, agentProjections context),
    by simp [agentParts], List.mem_map.2 ⟨(subject.1, claims), ?_, rfl⟩⟩
  exact OrderedMap.get?_eq_some_iff.1 hget

/-- What the selection view of an agent shows. -/
structure ShowsSelection (context : ReductionContext) (agent : AgentId)
    (view : SelectionView) : Prop where
  frontier : ∀ id, id ∈ view.frontier ↔
    ∃ fact candidate, LastSelection context agent fact candidate ∧ fact.id = id
  conflicted : view.conflicted = true ↔ ∃ left right first second,
    LastSelection context agent left first ∧
      LastSelection context agent right second ∧ first ≠ second
  active : ∀ candidate, view.active = some candidate ↔
    (∀ fact ∈ context.projectedFacts, retiresAgent agent fact = false) ∧
    (∃ fact, LastSelection context agent fact candidate) ∧
    (∀ fact selected, LastSelection context agent fact selected →
      selected = candidate) ∧ BoundOnce context candidate.session

theorem selection_contribution
    {contribution : ProjectionContribution AgentProjectionKey AgentProjection}
    (hmem : contribution ∈ deriveAgentProjections (snapshot facts statuses))
    (hkey : contribution.key = .selection agent) {view : SelectionView}
    (hview : contribution.value = .selection view) :
    ShowsSelection (snapshot facts statuses) agent view := by
  have hpart : contribution ∈ agentSelectionProjections
      (snapshot facts statuses) :=
    mem_agentPart 3 (by simp [agentParts]) hmem (by rw [hkey]; rfl)
  obtain ⟨⟨found, members⟩, hentry, rfl⟩ := List.mem_map.1 hpart
  obtain rfl : found = agent := AgentProjectionKey.selection.inj hkey
  obtain ⟨hne, hmembers⟩ := groupFacts_entry hentry
  obtain rfl : members = selectionMembers found (snapshot facts statuses) := by
    refine OrderedSet.ext fun id => ?_
    rw [hmembers, mem_selectionMembers]
    simp
  cases hview
  have hvalues : ∀ candidate, candidate ∈ (OrderedMap.ofList
      ((readMembers (snapshot facts statuses) selectedSession
        (maximalMembers (snapshot facts statuses)
          (selectionMembers found (snapshot facts statuses)))).map
            fun selected => (selected.1, selected.2.2))).values ↔
      ∃ fact, LastSelection (snapshot facts statuses) found fact candidate := by
    intro candidate
    rw [mem_values_readMembers Prod.snd]
    constructor
    · rintro ⟨⟨id, selected⟩, hentry, rfl⟩
      obtain ⟨fact, hlast, -, -⟩ := mem_lastSelections.1 hentry
      exact ⟨fact, hlast⟩
    · rintro ⟨fact, hlast⟩
      exact ⟨(fact.id, (found, candidate)),
        mem_lastSelections.2 ⟨fact, hlast, rfl, rfl⟩, rfl⟩
  refine ⟨fun id => mem_selectionFrontier, ?_, ?_⟩
  · rw [severalValues_iff]
    simp only [hvalues]
    constructor
    · rintro ⟨first, ⟨left, hleft⟩, second, ⟨right, hright⟩, hne⟩
      exact ⟨left, right, first, second, hleft, hright, hne⟩
    · rintro ⟨left, right, first, second, hleft, hright, hne⟩
      exact ⟨first, ⟨left, hleft⟩, second, ⟨right, hright⟩, hne⟩
  · intro candidate
    simp only [Option.ite_none_left_eq_some, Bool.not_eq_true]
    rw [agentRetired_eq_false, Option.filter_eq_some_iff, onlyValue_eq_some,
      sessionUnconflicted_iff]
    simp only [hvalues, and_assoc]
    refine and_congr_right fun _ => and_congr_right fun _ =>
      and_congr_left fun _ => ?_
    constructor
    · exact fun honly fact selected hlast => honly selected ⟨fact, hlast⟩
    · rintro honly selected ⟨fact, hlast⟩
      exact honly fact selected hlast

end Views

/-- What the views of an agent show of the projected facts: it runs a session
exactly when its claims agree, it is not retired, its last selections agree on
that session, whatever their contexts, and one mailbox is bound to it.  The
selection view alone compares the contexts too, so the agent view runs what the
last selections agree on exactly when no two of them differ in the context
alone, and the session has one mailbox. -/
theorem agentView_runs (policy : AuthorityPolicy) (facts : FactSet) :
    ∃ report, reduceSet (agentReducer policy) facts = .ok report ∧
      ∀ agent,
        ((∃ view, report.projections.get? (.agent agent) =
            some (.agent view)) ↔
          ∃ claim ∈ (contextOf facts facts.graph
            report.decisions).projectedFacts, ∃ subject,
            claimSubject claim = some subject ∧ subject.1 = agent) ∧
        (∀ view, report.projections.get? (.agent agent) =
            some (.agent view) →
          (view.runnable = true ↔ ∃ session, RunsSession
            (contextOf facts facts.graph report.decisions) agent session) ∧
          (∀ session, view.selectedSession = some session ↔ RunsSession
            (contextOf facts facts.graph report.decisions) agent session) ∧
          (RunsAgreed (contextOf facts facts.graph report.decisions) agent
            view ↔ SelectsOnce (contextOf facts facts.graph report.decisions)
              agent)) ∧
        ∀ view, report.projections.get? (.selection agent) =
            some (.selection view) →
          ShowsSelection (contextOf facts facts.graph report.decisions) agent
            view := by
  obtain ⟨decisions, report, hreport, -⟩ := agent_reduceSet policy facts
  have hreduced := reduced_of_reduceSet hreport
  refine ⟨report, hreport, fun agent => ?_⟩
  rw [contextOf_eq]
  refine ⟨⟨?_, ?_⟩, ?_, ?_⟩
  · rintro ⟨view, hview⟩
    obtain ⟨contribution, hmem, hkey, -⟩ := (hreduced.value _ _).1 hview
    obtain ⟨claims, hclaims, -⟩ := agent_contribution hmem hkey
    exact hclaims.exists_subject
  · rintro ⟨claim, hclaim, subject, hsubject, rfl⟩
    obtain ⟨claims, hmem⟩ := exists_agent_contribution hclaim hsubject
    exact ⟨_, (hreduced.value _ _).2 ⟨_, hmem, rfl, rfl⟩⟩
  · intro view hview
    obtain ⟨contribution, hmem, hkey, hvalue⟩ := (hreduced.value _ _).1 hview
    obtain ⟨claims, hclaims, rfl⟩ := agent_contribution hmem hkey
    have hruns := hclaims.runs_iff hvalue
    have hrunnable := (runnable_iff_selectedSession hvalue).trans
      (exists_congr hruns)
    exact ⟨hrunnable, hruns, runsAgreed_iff hrunnable hruns⟩
  · intro view hview
    obtain ⟨contribution, hmem, hkey, hvalue⟩ := (hreduced.value _ _).1 hview
    exact selection_contribution hmem hkey hvalue

def sampleSession : SessionIdentity :=
  ⟨.ofChar 'p', .ofChar 's'⟩

def checkout (branch : Char) : RepositoryContext :=
  ⟨⟨.workingTree, .ofChar '/'⟩, none, none, some (.ofChar branch)⟩

/-- A mailbox, the claim of an agent and a bound session. -/
def claimedAgent : List Fact :=
  [declaration 1 1,
    privateFact 1 1 2 [] (.mailboxCreated (.ofNat 20) .agent none) rfl rfl,
    privateFact 1 1 3 [2] (.agentNameClaimed (.ofNat 30) (.ofNat 20)
      (.ofChar 'a')) rfl rfl,
    privateFact 1 1 4 [2] (.mailboxSessionBound (.ofNat 20)
      sampleSession.provider sampleSession.session) rfl rfl,
    privateFact 1 1 5 [2] (.mailboxContextRecorded (.ofNat 20)
      (checkout 'a')) rfl rfl,
    privateFact 1 1 6 [3, 4, 5] (.providerSessionSelected (.ofNat 30)
      (.ofNat 20) sampleSession.provider sampleSession.session
      (checkout 'a')) rfl rfl]

/-- A concurrent selection of the same session in another context. -/
def otherContext : List Fact :=
  [privateFact 1 1 7 [2] (.mailboxContextRecorded (.ofNat 20)
      (checkout 'b')) rfl rfl,
    privateFact 1 1 8 [3, 4, 7] (.providerSessionSelected (.ofNat 30)
      (.ofNat 20) sampleSession.provider sampleSession.session
      (checkout 'b')) rfl rfl]

/-- A second mailbox bound to the selected session. -/
def otherBinding : List Fact :=
  [privateFact 1 1 9 [] (.mailboxCreated (.ofNat 21) .agent none) rfl rfl,
    privateFact 1 1 10 [9] (.mailboxSessionBound (.ofNat 21)
      sampleSession.provider sampleSession.session) rfl rfl]

/-- What the agent view and the selection view say of an agent. -/
structure AgentReading where
  lifecycle : AgentLifecycle
  runs : Option SessionIdentity
  runnable : Bool
  candidates : List SelectionCandidate
  active : Option SelectionCandidate
  conflicted : Bool
deriving DecidableEq

def agentReading (facts : List Fact) (agent : AgentId) : Option AgentReading :=
  (reduceComplete (agentReducer samplePolicy) facts).toOption.bind
    fun report =>
      match report.projections.get? (.agent agent),
        report.projections.get? (.selection agent) with
      | some (.agent view), some (.selection selection) =>
          some ⟨view.lifecycle, view.selectedSession, view.runnable,
            selection.candidates.values, selection.active,
            selection.conflicted⟩
      | _, _ => none

/-- Two last selections in different contexts leave the agent running, and one
agreed selection of a session bound twice does not let it run. -/
theorem runnable_ignores_context :
    agentReading claimedAgent (.ofNat 30) = some ⟨.active, some sampleSession,
      true, [⟨sampleSession, checkout 'a'⟩],
      some ⟨sampleSession, checkout 'a'⟩, false⟩ ∧
    agentReading (claimedAgent ++ otherContext) (.ofNat 30) =
      some ⟨.active, some sampleSession, true,
        [⟨sampleSession, checkout 'a'⟩, ⟨sampleSession, checkout 'b'⟩], none,
        true⟩ ∧
    agentReading (claimedAgent ++ otherBinding) (.ofNat 30) =
      some ⟨.active, none, false, [⟨sampleSession, checkout 'a'⟩], none,
        false⟩ := by
  decide +kernel

/-- The session that a projection shows as selected. -/
def shownSession : AgentProjection → Option SessionIdentity
  | .agent view => view.selectedSession
  | _ => none

/-- The claimed agent runs the session it selected. -/
theorem agentView_runs_claimedAgent :
    ∃ report, reduceSet (agentReducer samplePolicy)
        (FactSet.fromFacts claimedAgent) = .ok report ∧
      RunsSession (contextOf (FactSet.fromFacts claimedAgent)
        (FactSet.fromFacts claimedAgent).graph report.decisions) (.ofNat 30)
        sampleSession := by
  obtain ⟨report, hreport, hviews⟩ := agentView_runs samplePolicy
    (FactSet.fromFacts claimedAgent)
  have hread : (reduceSet (agentReducer samplePolicy)
      (FactSet.fromFacts claimedAgent)).toOption.bind (fun report =>
        (report.projections.get? (.agent (.ofNat 30))).bind shownSession) =
      some sampleSession := by
    decide +kernel
  rw [hreport, Except.toOption, Option.bind_some] at hread
  obtain ⟨projection, hget, hselected⟩ := Option.bind_eq_some_iff.1 hread
  cases projection with
  | agent view =>
      exact ⟨report, hreport,
        (((hviews _).2.1 view hget).2.1 sampleSession).1 hselected⟩
  | _ => cases hselected

theorem findParent_readIf {fact : Fact}
    {test : Fact → Bool}
    (h : (findParent fact context fun candidate =>
      readIf (test candidate) candidate).isSome = true) :
    ∃ parent ∈ context.projectedFacts, test parent = true := by
  obtain ⟨parent, hmem, hread⟩ := List.findSome?_isSome_iff.1 h
  by_cases hprojected : context.isProjected parent.id = true
  · refine ⟨parent, mem_projectedFacts.2 ⟨hmem, hprojected⟩, ?_⟩
    by_contra htest
    simp [readIf, htest] at hread
  · simp [hprojected] at hread

/-- The claim and the binding that a running session rests on. -/
theorem RunsSession.claimed {policy : AuthorityPolicy} {facts : FactSet}
    {decisions : Decisions AgentReason} {agent : AgentId}
    (hfix : nextDecisions (agentReducer policy) facts facts.graph decisions =
      decisions)
    (h : RunsSession (snapshot facts (statusesIn decisions)) agent session) :
    let standing := (snapshot facts (statusesIn decisions)).projectedFacts
    ∃ claim ∈ standing, ∃ binding ∈ standing, ∃ mailbox name,
      claimSubject claim = some (agent, ⟨claim.authorId, mailbox⟩, name) ∧
      boundSession binding = some (⟨binding.authorId, mailbox⟩, session) := by
  obtain ⟨fact, candidate, hlast⟩ := h.selected
  obtain ⟨hmem, hprojected⟩ := mem_projectedFacts.1 hlast.projected
  obtain ⟨other, hready, hid, -, hclassify⟩ :=
    (stable_projected hfix).1 hprojected
  obtain rfl : other = fact := FactSet.eq_of_mem_facts_of_id_eq
    (FactSet.mem_facts_of_get? hready.retained) hmem hid
  obtain rfl := h.agreed _ _ hlast
  have hselects := hlast.selects
  unfold selectedSession at hselects
  split at hselects <;> cases hselects
  next mailbox provider session selected hpayload =>
    have hvalid := (layeredDecision_projected.1
      ((classifyAgentFact_eq policy other _).symm.trans hclassify)).2
    simp only [agentLayer, validateAgentFact, hpayload] at hvalid
    split at hvalid <;> try cases hvalid
    next hok =>
    simp only [requireClaimParent, requireBindingParent,
      require_bind_eq_ok] at hok
    obtain ⟨claim, hclaim, hclaims⟩ := findParent_readIf hok.1
    obtain ⟨binding, hbinding, hbinds⟩ := findParent_readIf hok.2.1
    refine ⟨claim, hclaim, binding, hbinding, mailbox, ?_⟩
    unfold claimedMailbox at hclaims
    unfold bindsSession at hbinds
    unfold claimSubject boundSession
    cases hname : claim.payload <;> simp [hname] at hclaims ⊢
    cases hbound : binding.payload <;> simp [hbound] at hbinds ⊢
    simp [hclaims, hbinds]

/-- One provider session runs for one agent, unless different installations
claim agents for mailboxes of one identity: a selection is not asked who wrote
the claim and the binding it cites. -/
theorem session_runs_once (policy : AuthorityPolicy) (facts : FactSet) :
    ∃ report, reduceSet (agentReducer policy) facts = .ok report ∧
      let standing := (contextOf facts facts.graph
        report.decisions).projectedFacts
      let shows := fun agent session =>
        (report.projections.get? (.agent agent)).bind shownSession =
          some session
      ∀ left right session, shows left session → shows right session →
        left = right ∨ ∃ mine ∈ standing, ∃ theirs ∈ standing,
          mine.authorId ≠ theirs.authorId ∧ ∃ mailbox name other,
            claimSubject mine = some (left, ⟨mine.authorId, mailbox⟩, name) ∧
            claimSubject theirs =
              some (right, ⟨theirs.authorId, mailbox⟩, other) := by
  obtain ⟨decisions, report, hreport, -⟩ := agent_reduceSet policy facts
  have hreduced := reduced_of_reduceSet hreport
  refine ⟨report, hreport, ?_⟩
  intro standing shows left right session hleft hright
  have hruns : ∀ agent, shows agent session → RunsSession
      (snapshot facts (statusesIn report.decisions)) agent session := by
    intro agent hshown
    obtain ⟨projection, hget, hsession⟩ := Option.bind_eq_some_iff.1 hshown
    obtain ⟨contribution, hmem, hkey, rfl⟩ := (hreduced.value _ _).1 hget
    obtain ⟨claims, hclaims, rfl⟩ := agent_contribution hmem hkey
    exact (hclaims.runs_iff rfl session).1 hsession
  obtain ⟨mine, hmine, binding, hbinding, mailbox, name, hclaim, hbound⟩ :=
    (hruns left hleft).claimed hreduced.fixed
  obtain ⟨theirs, htheirs, other, hother, second, label, hsecond, hbinds⟩ :=
    (hruns right hright).claimed hreduced.fixed
  -- the session is bound to one mailbox, so both claims name its identity
  obtain ⟨address, -, honly⟩ := (hruns left hleft).bound
  obtain rfl : mailbox = second := congrArg MailboxAddress.mailboxId
    ((honly _ hbinding _ hbound).trans (honly _ hother _ hbinds).symm)
  by_cases hauthor : mine.authorId = theirs.authorId
  · have hsame := (hruns left hleft).claims _ hmine _ hclaim rfl _ htheirs _
      hsecond (.inr (.inl (congrArg (MailboxAddress.mk · mailbox) hauthor.symm)))
    exact .inl (congrArg Prod.fst hsame).symm
  · exact .inr ⟨mine, hmine, theirs, htheirs, hauthor, mailbox, name, label,
      hclaim, hsecond⟩

end Hq
