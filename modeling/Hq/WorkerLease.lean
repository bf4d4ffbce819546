/-
Worker leases.  Any number of supervisors claim, renew and release one lease
row per agent in a shared store, each with its own clock readings, and write
deliveries, ready sessions and checkpoints under their tokens.
-/
import Hq.Values
import Hq.Fallible

namespace Hq.WorkerLease

/-! The store. -/

structure Lease where
  ownerToken : Nat
  expiresAtMillis : Nat
deriving DecidableEq

abbrev Leases := AgentId → Option Lease

inductive StoreError where
  | invalid | conflict
deriving DecidableEq

inductive LeaseOutcome where
  | acquired | held | released
deriving DecidableEq

def ensureOwner (leases : Leases) (agent : AgentId) (token : Nat) :
    Except StoreError Unit :=
  match leases agent with
  | none => .error .conflict
  | some lease =>
      if lease.ownerToken = token then .ok () else .error .conflict

def claimLease (leases : Leases) (agent : AgentId) (token now expires : Nat) :
    Except StoreError (LeaseOutcome × Leases) :=
  if token = 0 ∨ expires ≤ now then .error .invalid
  else
    let written := Function.update leases agent (some ⟨token, expires⟩)
    match leases agent with
    | none => .ok (.acquired, written)
    | some stored =>
        if stored.ownerToken ≠ token ∧ now < stored.expiresAtMillis then
          .ok (.held, leases)
        else if stored.ownerToken = token ∧ expires < stored.expiresAtMillis
        then .error .conflict
        else .ok (.acquired, written)

def releaseLease (leases : Leases) (agent : AgentId) (token : Nat) :
    Except StoreError (LeaseOutcome × Leases) :=
  if token = 0 then .error .invalid
  else if (leases agent).any fun lease => decide (lease.ownerToken = token)
  then .ok (.released, Function.update leases agent none)
  else .ok (.held, leases)

inductive DeliveryState where
  | pending | uncertain | accepted | rejected
deriving DecidableEq

def deliveryRank : DeliveryState → Nat
  | .pending => 1
  | .uncertain => 2
  | .accepted | .rejected => 3

/-- A delivery by what a second queueing compares, and its state. -/
structure Delivery where
  identity : Nat
  state : DeliveryState
deriving DecidableEq

structure Checkpoint where
  digest : Nat
  outputCommitted : Bool
  activityCommitted : Bool
deriving DecidableEq

/-- The rows of one agent beside its lease. -/
structure Rows where
  readySession : Option Nat
  deliveries : Nat → Option Delivery
  checkpoints : Nat → Option Checkpoint

inductive Write where
  | setReadySession (agent : AgentId) (token session : Nat)
  | queueDelivery (agent : AgentId) (submission : Nat) (delivery : Delivery)
  | setDeliveryState (agent : AgentId) (token submission : Nat)
      (state : DeliveryState)
  | checkpointEvent (agent : AgentId) (token event : Nat)
      (checkpoint : Checkpoint)

def Write.agent : Write → AgentId
  | .setReadySession agent .. | .queueDelivery agent ..
  | .setDeliveryState agent .. | .checkpointEvent agent .. => agent

/-- The token that a write carries; queueing carries none. -/
def Write.token : Write → Option Nat
  | .setReadySession _ token _ | .setDeliveryState _ token ..
  | .checkpointEvent _ token .. => some token
  | .queueDelivery .. => none

def queueDelivery (rows : Rows) (submission : Nat) (delivery : Delivery) :
    Except StoreError Rows :=
  if delivery.state ≠ .pending then .error .invalid
  else
    match rows.deliveries submission with
    | some stored =>
        if stored.identity = delivery.identity then .ok rows
        else .error .conflict
    | none =>
        .ok { rows with
          deliveries := Function.update rows.deliveries submission
            (some delivery) }

def setDeliveryState (rows : Rows) (submission : Nat) (state : DeliveryState) :
    Except StoreError Rows :=
  match rows.deliveries submission with
  | none => .error .conflict
  | some stored =>
      if stored.state ∈ [.accepted, .rejected] ∧ state ≠ stored.state then
        .error .conflict
      else if deliveryRank state < deliveryRank stored.state then
        .error .conflict
      else
        .ok { rows with
          deliveries := Function.update rows.deliveries submission
            (some { stored with state }) }

def checkpointEvent (rows : Rows) (event : Nat) (checkpoint : Checkpoint) :
    Except StoreError Rows :=
  let written := { rows with
    checkpoints := Function.update rows.checkpoints event (some checkpoint) }
  match rows.checkpoints event with
  | none => .ok written
  | some stored =>
      if stored.digest ≠ checkpoint.digest ∨
          stored.outputCommitted ∧ !checkpoint.outputCommitted ∨
          stored.activityCommitted ∧ !checkpoint.activityCommitted then
        .error .conflict
      else .ok written

/-- One write in its own transaction. -/
def applyWrite (leases : Leases) (rows : AgentId → Rows) (write : Write) :
    Except StoreError (AgentId → Rows) := do
  match write with
  | .setReadySession agent token session =>
      ensureOwner leases agent token
      return Function.update rows agent
        { rows agent with readySession := some session }
  | .queueDelivery agent submission delivery =>
      let written ← queueDelivery (rows agent) submission delivery
      return Function.update rows agent written
  | .setDeliveryState agent token submission state =>
      ensureOwner leases agent token
      let written ← setDeliveryState (rows agent) submission state
      return Function.update rows agent written
  | .checkpointEvent agent token event checkpoint =>
      ensureOwner leases agent token
      let written ← checkpointEvent (rows agent) event checkpoint
      return Function.update rows agent written

/-! A supervisor. -/

inductive HarnessError where
  | invalidInput | ownershipConflict
  | store (error : StoreError)
deriving DecidableEq

structure Supervisor where
  /-- The launch in progress, which keeps the other calls out. -/
  launching : Option (AgentId × Nat)
  workers : AgentId → Option Nat

def leaseDeadline (now duration : Nat) : Except HarnessError Nat :=
  if now + duration < 2 ^ 64 then .ok (now + duration)
  else .error .invalidInput

/-- Claim or renew the lease of a token at a clock reading. -/
def claimAt (leases : Leases) (duration : Nat) (agent : AgentId)
    (token now : Nat) : Except HarnessError Leases := do
  let expires ← leaseDeadline now duration
  match claimLease leases agent token now expires with
  | .error error => .error (.store error)
  | .ok (.acquired, leases) => .ok leases
  | .ok (.held, _) | .ok (.released, _) => .error .ownershipConflict

/-- Release, whatever comes of it. -/
def releaseQuietly (leases : Leases) (agent : AgentId) (token : Nat) :
    Leases :=
  match releaseLease leases agent token with
  | .ok (_, leases) => leases
  | .error _ => leases

/-! All supervisors. -/

structure System where
  leases : Leases
  rows : AgentId → Rows
  supervisors : Nat → Supervisor
  nextToken : Nat
  /-- The accepted writes, and the calls of workers that failed. -/
  writes : List Write
  failures : List (Nat × AgentId × HarnessError)

inductive Event where
  /-- A launch up to its claim. -/
  | claim (supervisor : Nat) (agent : AgentId) (now : Nat)
  /-- The session of the launch is open: it becomes the ready session. -/
  | opened (supervisor session : Nat)
  /-- The launch fails, with or without a release. -/
  | abandon (supervisor : Nat) (releases : Bool)
  /-- A delivery, wake, persist, flush, answer, cancel or resume renews first;
  its writes come later. -/
  | call (supervisor : Nat) (agent : AgentId) (now : Nat)
  | pump (supervisor : Nat) (agent : AgentId) (now : Nat)
  | stop (supervisor : Nat) (agent : AgentId)
  | crash (supervisor : Nat)
  /-- A write that reaches the store, whoever sent it and whenever. -/
  | write (write : Write)

namespace System

def setSupervisor (system : System) (index : Nat) (supervisor : Supervisor) :
    System :=
  { system with
    supervisors := Function.update system.supervisors index supervisor }

/-- Remove a worker and release its lease. -/
def stopWorker (system : System) (index : Nat) (agent : AgentId) : System :=
  match (system.supervisors index).workers agent with
  | none => system
  | some token =>
      { system with leases := releaseQuietly system.leases agent token
        }.setSupervisor index
        { system.supervisors index with
          workers := Function.update (system.supervisors index).workers
            agent none }

/-- A write that the store refuses changes nothing. -/
def record (system : System) (write : Write) : System :=
  match applyWrite system.leases system.rows write with
  | .error _ => system
  | .ok rows => { system with rows, writes := system.writes ++ [write] }

/-- One event; a supervisor has a fixed lease duration in milliseconds. -/
def step (durations : Nat → Nat) (system : System) : Event → System
  | .claim index agent now =>
      let supervisor := system.supervisors index
      if supervisor.launching.isSome ∨ (supervisor.workers agent).isSome then
        system
      else
        let drawn := { system with nextToken := system.nextToken + 1 }
        match claimAt system.leases (durations index) agent system.nextToken
            now with
        | .error _ => drawn
        | .ok leases =>
            { drawn with leases }.setSupervisor index
              { supervisor with launching := some (agent, system.nextToken) }
  | .opened index session =>
      let supervisor := system.supervisors index
      match supervisor.launching with
      | none => system
      | some (agent, token) =>
          let closed := { supervisor with launching := none }
          match ensureOwner system.leases agent token with
          | .error _ => system.setSupervisor index closed
          | .ok () =>
              (system.record (.setReadySession agent token session)).setSupervisor
                index { closed with
                  workers := Function.update closed.workers agent (some token) }
  | .abandon index releases =>
      let supervisor := system.supervisors index
      match supervisor.launching with
      | none => system
      | some (agent, token) =>
          { system with
            leases := if releases then releaseQuietly system.leases agent token
              else system.leases }.setSupervisor index
            { supervisor with launching := none }
  | .call index agent now =>
      match (system.supervisors index).workers agent with
      | none => system
      | some token =>
          match claimAt system.leases (durations index) agent token now with
          | .error error => { system with
              failures := system.failures ++ [(index, agent, error)] }
          | .ok leases => { system with leases }
  | .pump index agent now =>
      match (system.supervisors index).workers agent with
      | none => system
      | some token =>
          match claimAt system.leases (durations index) agent token now with
          | .error _ => system.stopWorker index agent
          | .ok leases => { system with leases }
  | .stop index agent => system.stopWorker index agent
  | .crash index =>
      system.setSupervisor index { system.supervisors index with
        launching := none, workers := fun _ => none }
  | .write write => system.record write

end System

/-- The token that owns an agent's lease. -/
def owner (system : System) (agent : AgentId) : Option Nat :=
  (system.leases agent).map Lease.ownerToken

/-- The token and the reading of a claim or renewal that is accepted. -/
def accepted (durations : Nat → Nat) (system : System) :
    Event → Option (Nat × Nat)
  | .claim index agent now =>
      let supervisor := system.supervisors index
      if supervisor.launching.isSome ∨ (supervisor.workers agent).isSome then
        none
      else match claimAt system.leases (durations index) agent
          system.nextToken now with
        | .error _ => none
        | .ok _ => some (system.nextToken, now)
  | .call index agent now | .pump index agent now =>
      match (system.supervisors index).workers agent with
      | none => none
      | some token =>
          match claimAt system.leases (durations index) agent token now with
          | .error _ => none
          | .ok _ => some (token, now)
  | _ => none

/-- The last accepted reading of each token. -/
abbrev Readings := Nat → Nat

def stepReadings (durations : Nat → Nat) (system : System)
    (readings : Readings) (event : Event) : Readings :=
  match accepted durations system event with
  | none => readings
  | some (token, now) => Function.update readings token now

def start : System where
  leases := fun _ => none
  rows := fun _ => ⟨none, fun _ => none, fun _ => none⟩
  writes := []
  failures := []
  supervisors := fun _ => { launching := none, workers := fun _ => none }
  nextToken := 1

/-- The system and the readings after a run. -/
def run (durations : Nat → Nat) (events : List Event) : System × Readings :=
  events.foldl
    (fun state event => (state.1.step durations event,
      stepReadings durations state.1 state.2 event))
    (start, fun _ => 0)

/-! Claims and releases. -/

section Leases

variable {leases next : Leases} {agent : AgentId} {token now duration : Nat}

/-- A claim is accepted when the row is absent, expired at the reading, or the
token's own with no later expiry. -/
theorem claimAt_eq_ok : claimAt leases duration agent token now = .ok next ↔
    token ≠ 0 ∧ 0 < duration ∧ now + duration < 2 ^ 64 ∧
      (∀ lease, leases agent = some lease →
        if lease.ownerToken = token then
          lease.expiresAtMillis ≤ now + duration
        else lease.expiresAtMillis ≤ now) ∧
      next = Function.update leases agent (some ⟨token, now + duration⟩) := by
  rw [claimAt, leaseDeadline]
  by_cases hfits : now + duration < 2 ^ 64
  · rw [if_pos hfits]
    change (match claimLease leases agent token now (now + duration) with
      | .error error => _
      | .ok (.acquired, leases) => _
      | .ok (.held, _) | .ok (.released, _) => _) = _ ↔ _
    rw [claimLease]
    by_cases hinvalid : token = 0 ∨ now + duration ≤ now
    · rw [if_pos hinvalid]
      constructor
      · intro h
        cases h
      · rintro ⟨hzero, hpos, -⟩
        omega
    · rw [if_neg hinvalid]
      have hvalid : token ≠ 0 ∧ 0 < duration := by omega
      cases hrow : leases agent with
      | none =>
          simp only [Except.ok.injEq, hvalid, hfits, ne_eq, not_false_eq_true,
            true_and, reduceCtorEq, false_imp_iff, implies_true]
          exact eq_comm
      | some stored =>
          simp only [Option.some.injEq, forall_eq', hvalid, hfits, ne_eq,
            not_false_eq_true, true_and]
          by_cases hown : stored.ownerToken = token
          · by_cases hearly : now + duration < stored.expiresAtMillis
            · simp [hown, hearly]
            · simp [hown, hearly, Nat.le_of_not_lt hearly, eq_comm]
          · by_cases hlive : now < stored.expiresAtMillis
            · simp [hown, hlive]
            · simp [hown, hlive, Nat.le_of_not_lt hlive, eq_comm]
  · rw [if_neg hfits]
    constructor
    · intro h
      cases h
    · exact fun h => absurd h.2.2.1 hfits

/-- A release removes the row only if it carries the token. -/
theorem releaseQuietly_eq (leases : Leases) (agent : AgentId) (token : Nat)
    (other : AgentId) :
    releaseQuietly leases agent token other = leases other ∨
      (other = agent ∧ releaseQuietly leases agent token other = none ∧
        (leases agent).map Lease.ownerToken = some token) := by
  rw [releaseQuietly, releaseLease]
  by_cases hzero : token = 0
  · rw [if_pos hzero]
    exact .inl rfl
  · rw [if_neg hzero]
    by_cases hany : (leases agent).any
        fun lease => decide (lease.ownerToken = token)
    · rw [if_pos hany]
      obtain ⟨lease, hlease, htoken⟩ := (Option.any_eq_true _ _).1 hany
      by_cases hsame : other = agent
      · subst hsame
        refine .inr ⟨rfl, Function.update_self .., ?_⟩
        rw [hlease, Option.map_some, of_decide_eq_true htoken]
      · exact .inl (Function.update_of_ne hsame ..)
    · rw [if_neg hany]
      exact .inl rfl

end Leases

/-! What a step can do. -/

/-- The supervisor launches or runs a worker of the agent with the token. -/
def Holds (system : System) (index : Nat) (agent : AgentId) (token : Nat) :
    Prop :=
  (system.supervisors index).launching = some (agent, token) ∨
    (system.supervisors index).workers agent = some token

/-- Rows and holders may go; none comes. -/
structure Drops (system next : System) : Prop where
  leases : ∀ agent, next.leases agent = system.leases agent ∨
    next.leases agent = none ∧ ∃ index token,
      owner system agent = some token ∧ Holds system index agent token
  holds : ∀ index agent token, Holds next index agent token →
    Holds system index agent token
  tokens : system.nextToken ≤ next.nextToken

/-- A step claims for one holder, or it only drops. -/
inductive Effect (durations : Nat → Nat) (system next : System)
    (event : Event) : Prop
  | claims (index : Nat) (agent : AgentId) (token now : Nat) :
      accepted durations system event = some (token, now) →
      claimAt system.leases (durations index) agent token now =
        .ok next.leases →
      (Holds system index agent token ∨
        token = system.nextToken ∧ token < next.nextToken) →
      (∀ other agent' token', Holds next other agent' token' →
        Holds system other agent' token' ∨
          other = index ∧ agent' = agent ∧ token' = token) →
      system.nextToken ≤ next.nextToken → Effect durations system next event
  | drops : accepted durations system event = none → Drops system next →
      Effect durations system next event

variable {durations : Nat → Nat} {system : System} {readings : Readings}
  {index : Nat}

section Steps

variable {system : System}

/-- A supervisor that holds no more than before adds no holder. -/
theorem holds_of_setSupervisor {supervisor : Supervisor}
    (h : ∀ agent token, supervisor.launching = some (agent, token) ∨
      supervisor.workers agent = some token → Holds system index agent token)
    (other : Nat) (agent : AgentId) (token : Nat)
    (hholds : Holds (system.setSupervisor index supervisor) other agent
      token) : Holds system other agent token := by
  by_cases hself : other = index
  · subst hself
    have hsame : (system.setSupervisor other supervisor).supervisors other =
        supervisor := Function.update_self ..
    rw [Holds, hsame] at hholds
    exact h agent token hholds
  · have hsame : (system.setSupervisor index supervisor).supervisors other =
        system.supervisors other := Function.update_of_ne hself ..
    rwa [Holds, hsame] at hholds

theorem releaseQuietly_drops {agent : AgentId} {token : Nat}
    (h : Holds system index agent token) (other : AgentId) :
    releaseQuietly system.leases agent token other = system.leases other ∨
      releaseQuietly system.leases agent token other = none ∧
        ∃ index token, owner system other = some token ∧
          Holds system index other token := by
  rcases releaseQuietly_eq system.leases agent token other with
    hsame | ⟨rfl, hnone, howner⟩
  · exact .inl hsame
  · exact .inr ⟨hnone, index, token, howner, h⟩

theorem Drops.refl (system : System) : Drops system system :=
  ⟨fun _ => .inl rfl, fun _ _ _ => id, Nat.le_refl _⟩

theorem stopWorker_drops (system : System) (index : Nat) (agent : AgentId) :
    Drops system (system.stopWorker index agent) := by
  rw [System.stopWorker]
  split
  · exact .refl system
  · rename_i token hworker
    refine ⟨releaseQuietly_drops (.inr hworker), ?_, Nat.le_refl _⟩
    apply holds_of_setSupervisor
    rintro agent' token' (hlaunch | hwork)
    · exact .inl hlaunch
    · dsimp only at hwork
      by_cases hsame : agent' = agent
      · subst hsame
        rw [Function.update_self] at hwork
        cases hwork
      · rw [Function.update_of_ne hsame] at hwork
        exact .inr hwork

/-- A write touches neither leases nor supervisors. -/
theorem record_same (system : System) (write : Write) :
    (system.record write).leases = system.leases ∧
      (system.record write).supervisors = system.supervisors ∧
      (system.record write).nextToken = system.nextToken := by
  rw [System.record]
  split
  · exact ⟨rfl, rfl, rfl⟩
  · exact ⟨rfl, rfl, rfl⟩

theorem step_effect (durations : Nat → Nat) (system : System)
    (event : Event) :
    Effect durations system (system.step durations event) event := by
  cases event with
  | write write =>
      obtain ⟨hleases, hsupervisors, hnext⟩ := record_same system write
      refine .drops rfl ⟨fun _ => .inl (congrFun hleases _), ?_, hnext.ge⟩
      intro index agent token hholds
      unfold Holds at hholds ⊢
      rwa [← hsupervisors]
  | crash index =>
      refine .drops rfl ⟨fun _ => .inl rfl, ?_, Nat.le_refl _⟩
      apply holds_of_setSupervisor
      rintro agent token (hlaunch | hwork)
      · cases hlaunch
      · cases hwork
  | stop index agent => exact .drops rfl (stopWorker_drops system index agent)
  | abandon index releases =>
      rw [System.step]
      split
      · exact .drops rfl (.refl system)
      · rename_i agent token hlaunch
        refine .drops rfl ⟨?_, ?_, Nat.le_refl _⟩
        · intro other
          cases releases with
          | false => exact .inl rfl
          | true => exact releaseQuietly_drops (.inl hlaunch) other
        · apply holds_of_setSupervisor
          rintro agent' token' (hnone | hwork)
          · cases hnone
          · exact .inr hwork
  | opened index session =>
      rw [System.step]
      split
      · exact .drops rfl (.refl system)
      · rename_i agent token hlaunch
        dsimp only
        split
        · refine .drops rfl ⟨fun _ => .inl rfl, ?_, Nat.le_refl _⟩
          apply holds_of_setSupervisor
          rintro agent' token' (hnone | hwork)
          · cases hnone
          · exact .inr hwork
        · obtain ⟨hleases, hsupervisors, hnext⟩ := record_same system
            (.setReadySession agent token session)
          refine .drops rfl ⟨fun _ => .inl (congrFun hleases _), ?_, hnext.ge⟩
          intro other agent' token' hholds
          have hrecord : Holds (system.record (.setReadySession agent token
              session)) = Holds system := by
            funext index agent token
            unfold Holds
            rw [hsupervisors]
          rw [← hrecord]
          refine holds_of_setSupervisor ?_ other agent' token' hholds
          rw [hrecord]
          rintro agent' token' (hnone | hwork)
          · cases hnone
          · dsimp only at hwork
            by_cases hsame : agent' = agent
            · subst hsame
              rw [Function.update_self] at hwork
              obtain rfl := Option.some.inj hwork
              exact .inl hlaunch
            · rw [Function.update_of_ne hsame] at hwork
              exact .inr hwork
  | call index agent now | pump index agent now =>
      rw [System.step]
      split
      · rename_i hworker
        exact .drops (by simp only [accepted, hworker]) (.refl system)
      · rename_i token hworker
        split
        · rename_i error hclaim
          refine .drops (by simp only [accepted, hworker, hclaim]) ?_
          first
          | exact stopWorker_drops system index agent
          | exact ⟨fun _ => .inl rfl, fun _ _ _ => id, Nat.le_refl _⟩
        · rename_i leases hclaim
          exact .claims index agent token now
            (by simp only [accepted, hworker, hclaim]) hclaim
            (.inl (.inr hworker)) (fun _ _ _ => .inl) (Nat.le_refl _)
  | claim index agent now =>
      rw [System.step]
      split
      · rename_i hbusy
        exact .drops (by simp only [accepted, if_pos hbusy]) (.refl system)
      · rename_i hfree
        dsimp only
        split
        · rename_i error hclaim
          exact .drops (by simp only [accepted, if_neg hfree, hclaim])
            ⟨fun _ => .inl rfl, fun _ _ _ => id, Nat.le_succ _⟩
        · rename_i leases hclaim
          refine .claims index agent system.nextToken now
            (by simp only [accepted, if_neg hfree, hclaim]) hclaim
            (.inr ⟨rfl, Nat.lt_succ_self _⟩) ?_ (Nat.le_succ _)
          intro other agent' token' hholds
          rw [Holds, System.setSupervisor] at hholds
          dsimp only at hholds
          by_cases hself : other = index
          · subst hself
            rw [Function.update_self] at hholds
            rcases hholds with hlaunch | hwork
            · obtain ⟨rfl, rfl⟩ := Prod.mk.inj (Option.some.inj hlaunch)
              exact .inr ⟨rfl, rfl, rfl⟩
            · exact .inl (.inr hwork)
          · rw [Function.update_of_ne hself] at hholds
            exact .inl hholds

end Steps

/-! Whole runs. -/

/-- Tokens are held once, and the row of a held token expires one duration
after the last accepted reading. -/
structure Inv (durations : Nat → Nat) (system : System)
    (readings : Readings) : Prop where
  drawn : ∀ index agent token, Holds system index agent token →
    token < system.nextToken ∧ token ≠ 0
  unique : ∀ index agent index' agent' token,
    Holds system index agent token → Holds system index' agent' token →
      index = index' ∧ agent = agent'
  expiry : ∀ index agent token lease, Holds system index agent token →
    system.leases agent = some lease → lease.ownerToken = token →
      lease.expiresAtMillis = readings token + durations index ∧
        0 < durations index

theorem inv_step (h : Inv durations system readings)
    (event : Event) : Inv durations (system.step durations event)
      (stepReadings durations system readings event) := by
  cases step_effect durations system event with
  | drops hnone hdrops =>
      obtain ⟨hleases, hholds, hnext⟩ := hdrops
      rw [stepReadings, hnone]
      refine ⟨?_, ?_, ?_⟩
      · intro index agent token hold
        obtain ⟨hlt, hzero⟩ := h.drawn index agent token
          (hholds index agent token hold)
        exact ⟨lt_of_lt_of_le hlt hnext, hzero⟩
      · intro index agent index' agent' token hold hold'
        exact h.unique index agent index' agent' token
          (hholds _ _ _ hold) (hholds _ _ _ hold')
      · intro index agent token lease hold hlease htoken
        rcases hleases agent with hsame | ⟨hgone, -⟩
        · rw [hsame] at hlease
          exact h.expiry index agent token lease (hholds _ _ _ hold) hlease
            htoken
        · rw [hgone] at hlease
          cases hlease
  | claims index agent token now haccepted hclaim howns hholds hnext =>
      obtain ⟨hzero, hduration, -, -, hwritten⟩ := claimAt_eq_ok.1 hclaim
      have hfresh : token < (system.step durations event).nextToken := by
        rcases howns with hold | ⟨-, hlt⟩
        · exact lt_of_lt_of_le (h.drawn _ _ _ hold).1 hnext
        · exact hlt
      -- nobody else holds the token
      have halone : ∀ other agent', Holds system other agent' token →
          other = index ∧ agent' = agent := by
        intro other agent' hold
        rcases howns with hown | ⟨hdrawn, -⟩
        · exact h.unique other agent' index agent token hold hown
        · exact absurd (h.drawn _ _ _ hold).1 (by omega)
      rw [stepReadings, haccepted]
      dsimp only
      refine ⟨?_, ?_, ?_⟩
      · intro other agent' token' hold
        rcases hholds other agent' token' hold with hold | ⟨-, -, rfl⟩
        · obtain ⟨hlt, hne⟩ := h.drawn _ _ _ hold
          exact ⟨lt_of_lt_of_le hlt hnext, hne⟩
        · exact ⟨hfresh, hzero⟩
      · intro first agent₁ second agent₂ token' hfirst hsecond
        rcases hholds _ _ _ hfirst with hfirst | ⟨rfl, rfl, rfl⟩
        · rcases hholds _ _ _ hsecond with hsecond | ⟨rfl, rfl, rfl⟩
          · exact h.unique _ _ _ _ _ hfirst hsecond
          · exact halone _ _ hfirst
        · rcases hholds _ _ _ hsecond with hsecond | ⟨rfl, rfl, -⟩
          · obtain ⟨rfl, rfl⟩ := halone _ _ hsecond
            exact ⟨rfl, rfl⟩
          · exact ⟨rfl, rfl⟩
      · intro other agent' token' lease hold hlease htoken
        rw [hwritten] at hlease
        by_cases hsame : agent' = agent
        · subst hsame
          rw [Function.update_self] at hlease
          obtain rfl := Option.some.inj hlease
          obtain rfl : token = token' := htoken
          have hother : other = index := by
            rcases hholds _ _ _ hold with hold | ⟨hother, -⟩
            · exact (halone _ _ hold).1
            · exact hother
          rw [hother, Function.update_self]
          exact ⟨rfl, hduration⟩
        · rw [Function.update_of_ne hsame] at hlease
          rcases hholds _ _ _ hold with hold | ⟨-, hagent, -⟩
          · have hne : token' ≠ token := by
              rintro rfl
              exact hsame (halone _ _ hold).2
            rw [Function.update_of_ne hne]
            exact h.expiry other agent' token' lease hold hlease htoken
          · exact absurd hagent hsame

theorem run_concat (durations : Nat → Nat) (events : List Event)
    (event : Event) : run durations (events ++ [event]) =
      ((run durations events).1.step durations event,
        stepReadings durations (run durations events).1
          (run durations events).2 event) := by
  rw [run, List.foldl_append]
  rfl

theorem inv_run (durations : Nat → Nat) (events : List Event) :
    Inv durations (run durations events).1 (run durations events).2 := by
  induction events using List.reverseRecOn with
  | nil =>
      have hnone : ∀ index agent token, ¬ Holds start index agent token := by
        rintro index agent token (hlaunch | hwork)
        · cases hlaunch
        · cases hwork
      exact ⟨fun _ _ _ hold => absurd hold (hnone _ _ _),
        fun _ _ _ _ _ hold => absurd hold (hnone _ _ _),
        fun _ _ _ _ hold => absurd hold (hnone _ _ _)⟩
  | append_singleton events event ih =>
      rw [run_concat]
      exact inv_step ih event

theorem refused_renewal (h : Inv durations system readings)
    {agent : AgentId} {token : Nat}
    (hworker : (system.supervisors index).workers agent = some token)
    (howner : owner system agent = some token) (now : Nat) :
    (∃ error, claimAt system.leases (durations index) agent token now =
        .error error) ↔
      (now < readings token ∨ 2 ^ 64 ≤ now + durations index) := by
  obtain ⟨lease, hlease, htoken⟩ := Option.map_eq_some_iff.1 howner
  have hholds : Holds system index agent token := .inr hworker
  obtain ⟨hexpiry, hpositive⟩ := h.expiry index agent token lease hholds hlease
    htoken
  have hzero := (h.drawn index agent token hholds).2
  have haccepts : (∃ next, claimAt system.leases (durations index) agent token
      now = .ok next) ↔
      readings token ≤ now ∧ now + durations index < 2 ^ 64 := by
    constructor
    · rintro ⟨next, hclaim⟩
      obtain ⟨-, -, hfits, hrow, -⟩ := claimAt_eq_ok.1 hclaim
      have hle := hrow lease hlease
      rw [if_pos htoken, hexpiry] at hle
      exact ⟨by omega, hfits⟩
    · rintro ⟨hle, hfits⟩
      refine ⟨_, claimAt_eq_ok.2 ⟨hzero, hpositive, hfits, ?_, rfl⟩⟩
      intro found hfound
      obtain rfl := Option.some.inj (hlease.symm.trans hfound)
      rw [if_pos htoken, hexpiry]
      omega
  cases hclaim : claimAt system.leases (durations index) agent token now with
  | ok next =>
      have hfine := haccepts.1 ⟨next, hclaim⟩
      constructor
      · rintro ⟨error, herror⟩
        cases herror
      · omega
  | error error =>
      have hrefused : ¬ (readings token ≤ now ∧
          now + durations index < 2 ^ 64) := by
        intro hfine
        obtain ⟨next, hok⟩ := haccepts.2 hfine
        rw [hclaim] at hok
        cases hok
      constructor
      · omega
      · exact fun _ => ⟨error, rfl⟩

/-- The pump of a worker ends it, or a call of the worker fails. -/
def Suffers (durations : Nat → Nat) (system : System) (index : Nat)
    (agent : AgentId) (event : Event) : Prop :=
  (∃ now, event = .pump index agent now ∧
    ((system.step durations event).supervisors index).workers agent = none) ∨
  ∃ now error, event = .call index agent now ∧
    (system.step durations event).failures =
      system.failures ++ [(index, agent, error)]

/-- A pump or call of the worker reads the clock before the last accepted
reading of its token, or the new expiry does not fit. -/
def SteppedBack (durations : Nat → Nat) (readings : Readings) (index : Nat)
    (agent : AgentId) (token : Nat) (event : Event) : Prop :=
  ∃ now, (event = .pump index agent now ∨ event = .call index agent now) ∧
    (now < readings token ∨ 2 ^ 64 ≤ now + durations index)

theorem stopWorker_worker (system : System) (index : Nat) (agent : AgentId) :
    ((system.stopWorker index agent).supervisors index).workers agent = none := by
  rw [System.stopWorker]
  split
  next hnone => exact hnone
  next => simp [System.setSupervisor]

theorem suffers_iff (h : Inv durations system readings)
    {agent : AgentId} {token : Nat}
    (hworker : (system.supervisors index).workers agent = some token)
    (howner : owner system agent = some token) (event : Event) :
    Suffers durations system index agent event ↔
      SteppedBack durations readings index agent token event := by
  have hrefused := refused_renewal h hworker howner
  constructor
  · rintro (⟨now, rfl, hgone⟩ | ⟨now, error, rfl, hfailed⟩)
    · refine ⟨now, .inl rfl, (hrefused now).1 ?_⟩
      simp only [System.step, hworker] at hgone
      split at hgone
      next error herror => exact ⟨error, herror⟩
      next => exact nomatch hworker.symm.trans hgone
    · refine ⟨now, .inr rfl, (hrefused now).1 ?_⟩
      simp only [System.step, hworker] at hfailed
      split at hfailed
      next error herror => exact ⟨error, herror⟩
      next => exact absurd (congrArg List.length hfailed) (by simp)
  · rintro ⟨now, rfl | rfl, hback⟩
    · obtain ⟨error, herror⟩ := (hrefused now).2 hback
      refine .inl ⟨now, rfl, ?_⟩
      simp only [System.step, hworker, herror]
      exact stopWorker_worker system index agent
    · obtain ⟨error, herror⟩ := (hrefused now).2 hback
      exact .inr ⟨now, error, rfl, by simp only [System.step, hworker, herror]⟩

/-! Who owns the row. -/

theorem ensureOwner_eq_ok {agent : AgentId} {token : Nat} :
    ensureOwner system.leases agent token = .ok () ↔
      owner system agent = some token := by
  rw [ensureOwner, owner]
  cases system.leases agent with
  | none => simp
  | some lease => simp

/-- The row passes to another token by an accepted claim at or after the
stored expiry, and it goes when a holder of its token releases it. -/
theorem owner_step (durations : Nat → Nat) (system : System) (event : Event)
    {agent : AgentId} {token : Nat} (h : owner system agent = some token) :
    (∀ token', owner (system.step durations event) agent = some token' →
      token' ≠ token → ∃ now lease,
        accepted durations system event = some (token', now) ∧
        system.leases agent = some lease ∧ lease.expiresAtMillis ≤ now) ∧
    (owner (system.step durations event) agent = none →
      ∃ index, Holds system index agent token) := by
  obtain ⟨lease, hlease, htoken⟩ := Option.map_eq_some_iff.1 h
  cases step_effect durations system event with
  | drops _ hdrops =>
      rcases hdrops.leases agent with hsame | ⟨hnone, index, held, howner, hholds⟩
      · rw [owner, hsame, ← owner, h]
        exact ⟨fun token' heq hne => absurd (Option.some.inj heq).symm hne,
          nofun⟩
      · rw [owner, hnone]
        refine ⟨nofun, fun _ => ⟨index, ?_⟩⟩
        rwa [Option.some.inj (h.symm.trans howner)]
  | claims index claimed held now haccepted hclaim =>
      obtain ⟨-, -, -, hrow, hwritten⟩ := claimAt_eq_ok.1 hclaim
      by_cases hsame : agent = claimed
      · subst hsame
        rw [owner, hwritten, Function.update_self]
        refine ⟨fun token' heq hne => ?_, nofun⟩
        obtain rfl : held = token' := Option.some.inj heq
        have hexpired := hrow lease hlease
        rw [if_neg (by rw [htoken]; exact hne.symm)] at hexpired
        exact ⟨now, lease, haccepted, hlease, hexpired⟩
      · rw [owner, hwritten, Function.update_of_ne hsame, ← owner, h]
        exact ⟨fun token' heq hne => absurd (Option.some.inj heq).symm hne,
          nofun⟩

/-- No event of a part of a run changes the owner of the row. -/
def SameOwner (durations : Nat → Nat) (before mid : List Event)
    (agent : AgentId) : Prop :=
  ∀ front event rest, mid = front ++ event :: rest →
    owner (run durations (before ++ front ++ [event])).1 agent =
      owner (run durations (before ++ front)).1 agent

theorem SameOwner.of_concat {before mid : List Event}
    {agent : AgentId} {event : Event}
    (h : SameOwner durations before (mid ++ [event]) agent) :
    SameOwner durations before mid agent := by
  rintro front other rest rfl
  exact h front other (rest ++ [event]) (List.append_assoc ..)

theorem SameOwner.eq {before mid : List Event}
    {agent : AgentId} (h : SameOwner durations before mid agent) :
    owner (run durations (before ++ mid)).1 agent =
      owner (run durations before).1 agent := by
  induction mid using List.reverseRecOn with
  | nil => rw [List.append_nil]
  | append_singleton mid event ih =>
      rw [← List.append_assoc, h mid event [] rfl]
      exact ih h.of_concat

/-! Writes. -/

/-- Deliveries may be added; everything that is there stays. -/
structure OnlyQueues (before after : Rows) : Prop where
  readySession : after.readySession = before.readySession
  checkpoints : after.checkpoints = before.checkpoints
  deliveries : ∀ submission delivery,
    before.deliveries submission = some delivery →
      after.deliveries submission = some delivery

theorem queueDelivery_onlyQueues {rows written : Rows} {submission : Nat}
    {delivery : Delivery}
    (h : queueDelivery rows submission delivery = .ok written) :
    OnlyQueues rows written := by
  unfold queueDelivery at h
  split at h
  · cases h
  · split at h
    · split at h
      · cases h
        exact ⟨rfl, rfl, fun _ _ => id⟩
      · cases h
    next hnone =>
      cases h
      refine ⟨rfl, rfl, fun other stored hstored => ?_⟩
      refine (Function.update_of_ne ?_ ..).trans hstored
      rintro rfl
      exact nomatch hnone.symm.trans hstored

/-- An accepted write changes rows of its agent only; it carries the token that
owns the lease, or it queues. -/
theorem applyWrite_eq_ok {write : Write}
    {rows : AgentId → Rows}
    (h : applyWrite system.leases system.rows write = .ok rows) :
    (∀ other, other ≠ write.agent → rows other = system.rows other) ∧
      ((∃ token, write.token = some token ∧
          owner system write.agent = some token) ∨
        write.token = none ∧
          OnlyQueues (system.rows write.agent) (rows write.agent)) := by
  have helse {agent other : AgentId} {written : Rows} (hne : other ≠ agent) :
      Function.update system.rows agent written other = system.rows other :=
    Function.update_of_ne hne ..
  cases write with
  | setReadySession agent token session =>
      obtain ⟨⟨⟩, howner, h⟩ := bind_eq_ok.1 h
      cases h
      exact ⟨fun _ => helse, .inl ⟨token, rfl, ensureOwner_eq_ok.1 howner⟩⟩
  | setDeliveryState agent token submission state =>
      obtain ⟨⟨⟩, howner, h⟩ := bind_eq_ok.1 h
      obtain ⟨written, -, h⟩ := bind_eq_ok.1 h
      cases h
      exact ⟨fun _ => helse, .inl ⟨token, rfl, ensureOwner_eq_ok.1 howner⟩⟩
  | checkpointEvent agent token event checkpoint =>
      obtain ⟨⟨⟩, howner, h⟩ := bind_eq_ok.1 h
      obtain ⟨written, -, h⟩ := bind_eq_ok.1 h
      cases h
      exact ⟨fun _ => helse, .inl ⟨token, rfl, ensureOwner_eq_ok.1 howner⟩⟩
  | queueDelivery agent submission delivery =>
      obtain ⟨written, hwritten, h⟩ := bind_eq_ok.1 h
      cases h
      refine ⟨fun _ => helse, .inr ⟨rfl, ?_⟩⟩
      change OnlyQueues (system.rows agent)
        (Function.update system.rows agent written agent)
      rw [Function.update_self]
      exact queueDelivery_onlyQueues hwritten

/-- A step writes nothing, or one write that the store accepts. -/
inductive Writes (system next : System) : Prop
  | nothing (writes : next.writes = system.writes)
      (rows : next.rows = system.rows)
  | one (write : Write)
      (accepted : applyWrite system.leases system.rows write = .ok next.rows)
      (writes : next.writes = system.writes ++ [write])

theorem record_writes (system : System) (write : Write) :
    Writes system (system.record write) := by
  rw [System.record]
  split
  · exact .nothing rfl rfl
  next rows hrows => exact .one write hrows rfl

theorem stopWorker_writes (system : System) (index : Nat) (agent : AgentId) :
    Writes system (system.stopWorker index agent) := by
  rw [System.stopWorker]
  split
  · exact .nothing rfl rfl
  · exact .nothing rfl rfl

theorem step_writes (durations : Nat → Nat) (system : System)
    (event : Event) : Writes system (system.step durations event) := by
  cases event with
  | write write => exact record_writes system write
  | crash index => exact .nothing rfl rfl
  | stop index agent => exact stopWorker_writes system index agent
  | opened index session =>
      rw [System.step]
      split
      · exact .nothing rfl rfl
      next agent token _ =>
        dsimp only
        split
        · exact .nothing rfl rfl
        · cases record_writes system (.setReadySession agent token session) with
          | nothing writes rows => exact .nothing writes rows
          | one write accepted writes => exact .one write accepted writes
  | abandon index _ | call index agent _ | pump index agent _
  | claim index agent _ =>
      rw [System.step]
      repeat' split
      all_goals first
      | exact .nothing rfl rfl
      | exact stopWorker_writes system index agent

/-- The accepted writes of an agent while the owner of its row does not change
carry the token of that owner. -/
theorem writes_run (durations : Nat → Nat) (before mid : List Event)
    (agent : AgentId) (h : SameOwner durations before mid agent) :
    ∃ accepted, (run durations (before ++ mid)).1.writes =
        (run durations before).1.writes ++ accepted ∧
      ∀ write ∈ accepted, write.agent = agent → ∀ token,
        write.token = some token →
          owner (run durations before).1 agent = some token := by
  induction mid using List.reverseRecOn with
  | nil => exact ⟨[], by simp, by simp⟩
  | append_singleton mid event ih =>
      obtain ⟨accepted, hwrites, htokens⟩ := ih h.of_concat
      rw [← List.append_assoc, run_concat]
      cases step_writes durations (run durations (before ++ mid)).1 event with
      | nothing hsame => exact ⟨accepted, hsame.trans hwrites, htokens⟩
      | one write haccepted hone =>
          refine ⟨accepted ++ [write], ?_, fun other hother => ?_⟩
          · rw [← List.append_assoc, ← hwrites]
            exact hone
          · rcases List.mem_append.1 hother with hother | hother
            · exact htokens other hother
            · obtain rfl := List.mem_singleton.1 hother
              rintro rfl token htoken
              rw [← h.of_concat.eq]
              obtain ⟨found, hfound, howner⟩ | ⟨hnone, -⟩ :=
                (applyWrite_eq_ok haccepted).2
              · rwa [← htoken, hfound]
              · exact nomatch hnone.symm.trans htoken

/-- A worker launched at reading 100. -/
def launched : List Event :=
  [.claim 0 (.ofNat 1) 100, .opened 0 1]

end Hq.WorkerLease
