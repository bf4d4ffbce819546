/-
Agent cancellation jobs.  Callers submit and observe requests, a thread runs
each admitted one and writes its outcome, a shutdown joins the threads it took
and a restart opens the next generation; every critical section is one step.
-/
import Hq.Values

namespace Hq.CancellationJobs

def maxRequests : Nat := 1024
def maxActive : Nat := 8

inductive RuntimeFailureReason where
  | generationChanged | invalidInput | unsupported | providerNotRegistered
  | registrationConflict | unsafeRecovery | sessionIdentityMismatch
  | sessionNotFound | submissionIdentityConflict | interactiveAlreadyAnswered
  | secretInputRejected | intakeClosed | crashed | protocolViolation
  | transportClosed | processFailed | compatibilityMismatch | unavailable
  | cleanupFailed | ownershipConflict | backpressure | persistenceCollision
deriving DecidableEq

inductive AgentCancellationState where
  | queued | requested | alreadyFinished
  | rejected (reason : RuntimeFailureReason)
  | uncertain (reason : RuntimeFailureReason)
deriving DecidableEq

def AgentCancellationState.isUncertain : AgentCancellationState → Bool
  | .uncertain _ => true
  | _ => false

inductive ApplicationError where
  | adapterUnavailable | intakeFull | invalidRequest | commandIdentityConflict
deriving DecidableEq

structure AgentCancellationRequest (T : Type) where
  requestId : OperationId
  target : T
deriving DecidableEq

structure Record (T : Type) where
  request : AgentCancellationRequest T
  state : AgentCancellationState

/-- Where a thread is: in `execute`, after its write, or at its end. -/
inductive Phase where
  | executing
  | published (state : AgentCancellationState)
  | exited (state : AgentCancellationState)
  | panicked
deriving DecidableEq

namespace Phase

def finished : Phase → Bool
  | .exited _ | .panicked => true
  | .executing | .published _ => false

def returned : Phase → Option AgentCancellationState
  | .published state | .exited state => some state
  | .executing | .panicked => none

/-- What a record shows of its thread until the thread is joined. -/
def shown (phase : Phase) : AgentCancellationState :=
  phase.returned.getD .queued

end Phase

/-- A spawned thread.  The generation it was started in and whether a shutdown
joined it are kept for the statements. -/
structure Job (T : Type) where
  request : AgentCancellationRequest T
  phase : Phase
  generation : Nat
  drained : Bool

/-- Who holds a join handle: the map `active`, or the shutdown that runs. -/
inductive Holder where
  | active | shutdown
deriving DecidableEq

structure World (T : Type) where
  closed : Bool
  /-- A shutdown is joining the handles it took. -/
  draining : Bool
  records : OrderedMap OperationId (Record T)
  /-- The join handles; each is the thread it stands for. -/
  handles : Holder → OrderedMap OperationId (Job T)
  /-- A join of the shutdown failed. -/
  failed : Bool
  /-- Threads whose handle was dropped. -/
  detached : List (Job T)
  /-- The joined threads, newest first; no function reads them. -/
  ended : List (Job T)
  generation : Nat

def initial {T : Type} : World T :=
  ⟨false, false, ∅, fun _ => ∅, false, [], [], 0⟩

namespace World

variable {T : Type}

/-- Join every finished thread; the record of one that panicked becomes
uncertain. -/
def reap (world : World T) : World T :=
  { world with
    handles := Function.update world.handles .active
      ((world.handles .active).filter fun _ job => !job.phase.finished)
    records := world.records.mapValues fun id record =>
      if ((world.handles .active).get? id).any fun job =>
          job.phase = .panicked then
        { record with state := .uncertain .unavailable }
      else record
    ended := ((world.handles .active).values.filter fun job =>
      job.phase.finished) ++ world.ended }

/-- Spawn the thread of a request, unless too many are active or the system
refuses one. -/
def start (world : World T) (request : AgentCancellationRequest T)
    (spawns : Bool) :
    Except ApplicationError AgentCancellationState × World T :=
  if maxActive ≤ (world.handles .active).size then (.error .intakeFull, world)
  else if !spawns then (.error .adapterUnavailable, world)
  else (.ok .queued, { world with
    records := world.records.insert request.requestId ⟨request, .queued⟩
    handles := Function.update world.handles .active
      ((world.handles .active).insert request.requestId
        ⟨request, .executing, world.generation, false⟩)
    detached := ((world.handles .active).get? request.requestId).toList ++
      world.detached })

def restart (world : World T) : Except ApplicationError Unit × World T :=
  if (!world.closed && world.records.size != 0) || world.draining ||
      (world.handles .active).size != 0 then
    (.error .adapterUnavailable, world)
  else (.ok (), { world with
    closed := false
    draining := false
    records := ∅
    handles := Function.update world.handles .active ∅
    generation := world.generation + 1 })

/-- The first critical section of a shutdown: close and take the handles. -/
def beginShutdown (world : World T) : Except ApplicationError Unit × World T :=
  if world.draining then (.error .adapterUnavailable, world)
  else (.ok (), { world with
    closed := true
    draining := true
    failed := false
    handles := fun
      | .active => ∅
      | .shutdown => world.handles .active })

/-- The shutdown joins the next thread it took, once that has finished. -/
def join (world : World T) : World T :=
  match (world.handles .shutdown).entries with
  | [] => world
  | (id, job) :: _ =>
      if job.phase.finished then { world with
        handles := Function.update world.handles .shutdown
          ((world.handles .shutdown).erase id)
        failed := world.failed || decide (job.phase = .panicked)
        ended := { job with drained := true } :: world.ended }
      else world

/-- The shutdown returns after its last join. -/
def endShutdown (world : World T) :
    Option (Except ApplicationError Unit) × World T :=
  if world.draining && (world.handles .shutdown).size = 0 then
    (some (if world.failed then .error .adapterUnavailable else .ok ()),
      { world with draining := false })
  else (none, world)

/-- A thread moves to another phase. -/
def advance (world : World T) (holder : Holder) (id : OperationId)
    (phase : Phase) : World T :=
  { world with
    handles := Function.update world.handles holder
      ((world.handles holder).mapValues fun key job =>
        if key = id then { job with phase } else job) }

/-- A thread writes its outcome into the record of its request. -/
def write (world : World T) (id : OperationId)
    (state : AgentCancellationState) : World T :=
  { world with
    records := world.records.mapValues fun key record =>
      if key = id then { record with state } else record }

/-- The threads that have not finished. -/
def running (world : World T) : List (Job T) :=
  ((world.handles .active).values ++ (world.handles .shutdown).values ++
    world.detached).filter fun job => !job.phase.finished

variable [DecidableEq T]

def submit (world : World T) (request : AgentCancellationRequest T)
    (spawns : Bool) :
    Except ApplicationError AgentCancellationState × World T :=
  let world := world.reap
  if world.closed then (.error .adapterUnavailable, world)
  else match world.records.get? request.requestId with
  | some record =>
      if record.request ≠ request then (.error .commandIdentityConflict, world)
      else if (world.handles .active).contains request.requestId ||
          !record.state.isUncertain then (.ok record.state, world)
      else world.start request spawns
  | none =>
      if maxRequests ≤ world.records.size then (.error .intakeFull, world)
      else world.start request spawns

def observe (world : World T) (request : AgentCancellationRequest T) :
    Except ApplicationError AgentCancellationState × World T :=
  let world := world.reap
  match world.records.get? request.requestId with
  | none => (.error .invalidRequest, world)
  | some record =>
      if record.request ≠ request then (.error .commandIdentityConflict, world)
      else (.ok record.state, world)

end World

/-- One critical section, one join, or one move of a thread. -/
inductive Event (T : Type) where
  | submit (request : AgentCancellationRequest T) (spawns : Bool)
  | observe (request : AgentCancellationRequest T)
  | restart | beginShutdown | join | endShutdown
  | publish (holder : Holder) (id : OperationId)
      (state : AgentCancellationState)
  | exit (holder : Holder) (id : OperationId)
  | panic (holder : Holder) (id : OperationId)

def step {T : Type} [DecidableEq T] (world : World T) : Event T → World T
  | .submit request spawns => (world.submit request spawns).2
  | .observe request => (world.observe request).2
  | .restart => world.restart.2
  | .beginShutdown => world.beginShutdown.2
  | .join => world.join
  | .endShutdown => world.endShutdown.2
  | .publish holder id state =>
      match ((world.handles holder).get? id).map Job.phase with
      | some .executing =>
          (world.advance holder id (.published state)).write id state
      | _ => world
  | .exit holder id =>
      match ((world.handles holder).get? id).map Job.phase with
      | some (.published state) => world.advance holder id (.exited state)
      | _ => world
  | .panic holder id =>
      match ((world.handles holder).get? id).map Job.phase with
      | some .executing => world.advance holder id .panicked
      | _ => world

def run {T : Type} [DecidableEq T] (world : World T) (events : List (Event T)) :
    World T :=
  events.foldl step world

section Invariant

variable {T : Type}

/-- The outcome of a joined thread. -/
def Job.final (job : Job T) : AgentCancellationState :=
  if job.phase = .panicked ∧ job.drained = false then .uncertain .unavailable
  else job.phase.shown

/-- The thread of a request that was joined last. -/
def World.latest (world : World T) (id : OperationId) : Option (Job T) :=
  world.ended.find? fun job => job.request.requestId = id

/-- The record of a held handle shows what its thread has done. -/
structure Shows (world : World T) (id : OperationId) (job : Job T) : Prop where
  keyed : job.request.requestId = id
  current : job.generation = world.generation
  fresh : job.drained = false
  record : world.records.get? id = some ⟨job.request, job.phase.shown⟩

/-- What every interleaving keeps. -/
structure Sound (world : World T) : Prop where
  shows : ∀ holder id job, (world.handles holder).get? id = some job →
    Shows world id job
  settled : ∀ id record, world.records.get? id = some record →
    (∀ holder, (world.handles holder).get? id = none) →
    ∃ job, world.latest id = some job ∧ job.request = record.request ∧
      job.generation = world.generation ∧ record.state = job.final
  recorded : ∀ job ∈ world.ended, job.generation = world.generation →
    ∃ state, world.records.get? job.request.requestId =
      some ⟨job.request, state⟩
  past : ∀ job ∈ world.ended,
    job.generation ≤ world.generation ∧ job.phase.finished = true
  detached : world.detached = []
  count : ∀ holder, (world.handles holder).size ≤ maxActive
  closed : world.closed = true → world.handles .active = ∅
  draining : world.draining = true → world.closed = true
  drained : world.draining = false → world.handles .shutdown = ∅

namespace Sound

variable {world : World T} {id : OperationId} {job : Job T} {holder : Holder}

theorem initial_sound : Sound (initial : World T) where
  shows _ _ _ h := nomatch h
  settled _ _ h := nomatch h
  recorded _ h := nomatch h
  past _ h := nomatch h
  detached := rfl
  count _ := Nat.zero_le _
  closed _ := rfl
  draining h := nomatch h
  drained _ := rfl

/-- Handles are held by the jobs or by a shutdown, never by both. -/
theorem active_of_shutdown (h : Sound world)
    (hjob : (world.handles .shutdown).get? id = some job) :
    world.handles .active = ∅ := by
  refine h.closed (h.draining ?_)
  cases hdraining : world.draining with
  | true => rfl
  | false =>
      rw [h.drained hdraining] at hjob
      cases hjob

theorem exclusive (h : Sound world) {other : Holder} {key : OperationId}
    {found : Job T} (hjob : (world.handles holder).get? id = some job)
    (hfound : (world.handles other).get? key = some found) :
    other = holder := by
  cases holder <;> cases other
  · rfl
  · rw [h.active_of_shutdown hfound] at hjob
    cases hjob
  · rw [h.active_of_shutdown hjob] at hfound
    cases hfound
  · rfl

/-- A running thread moves on, and its record shows where it is. -/
theorem move (h : Sound world)
    (hjob : (world.handles holder).get? id = some job) (phase : Phase) :
    Sound ((world.advance holder id phase).write id phase.shown) := by
  have hrecords : ∀ key,
      ((world.advance holder id phase).write id phase.shown).records.get? key =
        (world.records.get? key).map fun record =>
          if key = id then { record with state := phase.shown } else record :=
    fun key => OrderedMap.get?_mapValues _ _ key
  have hhandles : ∀ other key,
      (((world.advance holder id phase).write id phase.shown).handles
        other).get? key = ((world.handles other).get? key).map fun found =>
          if other = holder ∧ key = id then { found with phase }
          else found := by
    intro other key
    by_cases hother : other = holder
    · subst hother
      simp only [World.write, World.advance, Function.update_self,
        OrderedMap.get?_mapValues, true_and]
    · simp only [World.write, World.advance, Function.update_of_ne hother,
        hother, false_and, if_false, Option.map_id']
  refine ⟨?_, ?_, ?_, h.past, h.detached, ?_, ?_, h.draining, ?_⟩
  · intro other key found hfound
    rw [hhandles, Option.map_eq_some_iff] at hfound
    obtain ⟨old, hold, rfl⟩ := hfound
    obtain rfl := h.exclusive hjob hold
    obtain ⟨hkeyed, hcurrent, hfresh, hrecord⟩ := h.shows other key old hold
    by_cases hkey : key = id
    · simp only [hkey, and_self, if_true]
      exact ⟨hkey ▸ hkeyed, hcurrent, hfresh, by
        rw [hrecords, ← hkey, hrecord, Option.map_some, if_pos rfl]⟩
    · simp only [hkey, and_false, if_false]
      exact ⟨hkeyed, hcurrent, hfresh, by
        rw [hrecords, hrecord, Option.map_some, if_neg hkey]⟩
  · intro key record hrecord hfree
    simp only [hhandles, Option.map_eq_none_iff] at hfree
    have hkey : key ≠ id := by
      rintro rfl
      rw [hfree holder] at hjob
      cases hjob
    rw [hrecords, Option.map_eq_some_iff] at hrecord
    obtain ⟨old, hold, rfl⟩ := hrecord
    rw [if_neg hkey]
    exact h.settled key old hold hfree
  · intro found hmem hcurrent
    obtain ⟨state, hstate⟩ := h.recorded found hmem hcurrent
    rw [hrecords, hstate, Option.map_some]
    split
    · exact ⟨phase.shown, rfl⟩
    · exact ⟨state, rfl⟩
  · intro other
    by_cases hother : other = holder
    · subst hother
      refine le_of_eq_of_le ?_ (h.count other)
      simp only [World.write, World.advance, Function.update_self]
      exact List.length_map _
    · simp only [World.write, World.advance, Function.update_of_ne hother]
      exact h.count other
  · intro hclosed
    ext key : 1
    rw [hhandles, h.closed hclosed]
    rfl
  · intro hidle
    ext key : 1
    rw [hhandles, h.drained hidle]
    rfl

/-- A thread that ends without a write is a move that writes nothing new. -/
theorem advance (h : Sound world)
    (hjob : (world.handles holder).get? id = some job) {phase : Phase}
    (hshown : phase.shown = job.phase.shown) :
    Sound (world.advance holder id phase) := by
  have hrecords : (world.records.mapValues fun key record =>
      if key = id then { record with state := phase.shown } else record) =
      world.records := by
    ext key : 1
    rw [OrderedMap.get?_mapValues]
    by_cases hkey : key = id
    · subst hkey
      rw [(h.shows holder key job hjob).record, Option.map_some, if_pos rfl,
        hshown]
    · simp [hkey]
  have hsame : (world.advance holder id phase).write id phase.shown =
      world.advance holder id phase := by
    simp only [World.write, World.advance, hrecords]
  exact hsame ▸ h.move hjob phase

/-- Reaping keeps the request of a record. -/
theorem get?_records_reap {record : Record T}
    (hrecord : world.records.get? id = some record) :
    ∃ state, world.reap.records.get? id = some ⟨record.request, state⟩ := by
  simp only [World.reap, OrderedMap.get?_mapValues, hrecord, Option.map_some]
  split
  · exact ⟨_, rfl⟩
  · exact ⟨record.state, rfl⟩

theorem get?_active_reap : (world.reap.handles .active).get? id = some job ↔
    (world.handles .active).get? id = some job ∧
      job.phase.finished = false := by
  simp only [World.reap, Function.update_self, OrderedMap.get?_filter,
    Bool.not_eq_true']

theorem handles_shutdown_reap :
    world.reap.handles .shutdown = world.handles .shutdown := by
  simp [World.reap]

/-- The thread joined last for a request, after reaping. -/
theorem latest_reap (h : Sound world) : world.reap.latest id =
    (((world.handles .active).get? id).filter fun job =>
      job.phase.finished).or (world.latest id) := by
  rw [World.latest, World.reap, List.find?_append]
  congr 1
  have hkeyed : ∀ found ∈ (world.handles .active).values.filter fun job =>
      job.phase.finished, found.request.requestId = id →
      (world.handles .active).get? id = some found := by
    intro found hfound hid
    obtain ⟨key, hkey⟩ := OrderedMap.mem_values.1 (List.mem_filter.1 hfound).1
    rw [← hid, (h.shows _ key found hkey).keyed]
    exact hkey
  cases hactive : (world.handles .active).get? id with
  | none =>
      refine List.find?_eq_none.2 fun found hfound hid => ?_
      rw [hkeyed found hfound (of_decide_eq_true hid)] at hactive
      cases hactive
  | some job =>
      by_cases hfinished : job.phase.finished = true
      · rw [Option.filter_some, if_pos hfinished]
        have hmem : job ∈ (world.handles .active).values.filter fun job =>
            job.phase.finished :=
          List.mem_filter.2 ⟨OrderedMap.mem_values.2 ⟨id, hactive⟩, hfinished⟩
        cases hfind : List.find? _ _ with
        | none =>
            have hother := List.find?_eq_none.1 hfind job hmem
            rw [(h.shows _ id job hactive).keyed] at hother
            exact absurd (decide_eq_true rfl) hother
        | some found =>
            have hid := List.find?_some hfind
            have hfound := hkeyed found (List.mem_of_find?_eq_some hfind)
              (by simpa using hid)
            rw [hactive] at hfound
            exact hfound.symm
      · rw [Option.filter_some, if_neg hfinished]
        refine List.find?_eq_none.2 fun found hfound hid => ?_
        have hsame := hkeyed found hfound (of_decide_eq_true hid)
        rw [hactive] at hsame
        cases hsame
        exact hfinished (List.mem_filter.1 hfound).2

theorem reap (h : Sound world) : Sound world.reap := by
  refine ⟨?_, ?_, ?_, ?_, h.detached, ?_, ?_, h.draining, ?_⟩
  · intro holder id job hjob
    have hold : (world.handles holder).get? id = some job := by
      cases holder with
      | active => exact (get?_active_reap.1 hjob).1
      | shutdown => rwa [handles_shutdown_reap] at hjob
    obtain ⟨hkeyed, hcurrent, hfresh, hrecord⟩ := h.shows holder id job hold
    refine ⟨hkeyed, hcurrent, hfresh, ?_⟩
    simp only [World.reap, OrderedMap.get?_mapValues, hrecord, Option.map_some]
    rw [if_neg]
    intro hpanicked
    cases holder with
    | active =>
        rw [hold, Option.any_some, decide_eq_true_eq] at hpanicked
        have hrunning := (get?_active_reap.1 hjob).2
        rw [hpanicked] at hrunning
        cases hrunning
    | shutdown =>
        rw [h.active_of_shutdown hold] at hpanicked
        cases hpanicked
  · intro id record hget hfree
    simp only [World.reap, OrderedMap.get?_mapValues, Option.map_eq_some_iff]
      at hget
    obtain ⟨old, hold, rfl⟩ := hget
    rw [h.latest_reap]
    cases hactive : (world.handles .active).get? id with
    | none =>
        refine h.settled id old hold fun holder => ?_
        cases holder with
        | active => exact hactive
        | shutdown => exact handles_shutdown_reap ▸ hfree .shutdown
    | some job =>
        have hfinished : job.phase.finished = true := by
          by_contra hrunning
          have hsome := get?_active_reap.2
            ⟨hactive, Bool.eq_false_iff.2 hrunning⟩
          rw [hfree .active] at hsome
          cases hsome
        obtain ⟨hkeyed, hcurrent, hfresh, hrecord⟩ := h.shows _ id job hactive
        rw [hold] at hrecord
        cases hrecord
        refine ⟨job, by rw [Option.filter_some, if_pos hfinished]; rfl, ?_,
          hcurrent, ?_⟩
        · split <;> rfl
        · simp only [Job.final, Option.any_some, decide_eq_true_eq, hfresh,
            and_true]
          split <;> rfl
  · intro job hmem hcurrent
    rcases List.mem_append.1 hmem with hmem | hmem
    · obtain ⟨id, hjob⟩ := OrderedMap.mem_values.1 (List.mem_filter.1 hmem).1
      obtain ⟨hkeyed, -, -, hrecord⟩ := h.shows _ id job hjob
      exact get?_records_reap (hkeyed ▸ hrecord)
    · obtain ⟨state, hstate⟩ := h.recorded job hmem hcurrent
      exact get?_records_reap hstate
  · intro job hmem
    rcases List.mem_append.1 hmem with hmem | hmem
    · obtain ⟨hvalue, hfinished⟩ := List.mem_filter.1 hmem
      obtain ⟨id, hjob⟩ := OrderedMap.mem_values.1 hvalue
      exact ⟨(h.shows _ id job hjob).current.le, hfinished⟩
    · exact h.past job hmem
  · intro holder
    cases holder with
    | active => exact (List.length_filter_le _ _).trans (h.count .active)
    | shutdown => exact handles_shutdown_reap ▸ h.count .shutdown
  · intro hclosed
    simp only [World.reap, Function.update_self, h.closed hclosed]
    rfl
  · intro hidle
    exact handles_shutdown_reap.trans (h.drained hidle)

theorem start (h : Sound world) {request : AgentCancellationRequest T}
    {spawns : Bool} (hopen : world.closed = false)
    (hidle : (world.handles .active).get? request.requestId = none)
    (hsame : ∀ record, world.records.get? request.requestId = some record →
      record.request = request) : Sound (world.start request spawns).2 := by
  rw [World.start]
  split
  · exact h
  next hroom =>
  split
  · exact h
  have hshutdown : world.handles .shutdown = ∅ := by
    refine h.drained (Bool.eq_false_iff.2 fun hdraining => ?_)
    rw [h.draining hdraining] at hopen
    cases hopen
  have hfree : ∀ holder, (world.handles holder).get? request.requestId =
      none := by
    intro holder
    cases holder with
    | active => exact hidle
    | shutdown => rw [hshutdown]; rfl
  have hhandles : ∀ holder id, (Function.update world.handles .active
      ((world.handles .active).insert request.requestId
        ⟨request, .executing, world.generation, false⟩) holder).get? id =
      if holder = .active ∧ id = request.requestId then
        some ⟨request, .executing, world.generation, false⟩
      else (world.handles holder).get? id := by
    intro holder id
    cases holder <;> simp [OrderedMap.get?_insert]
  refine ⟨?_, ?_, ?_, h.past, ?_, ?_, ?_, h.draining, ?_⟩
  · intro holder id job hjob
    have hjob := (hhandles holder id).symm.trans hjob
    split at hjob
    next hnew =>
      cases hjob
      exact ⟨hnew.2.symm, rfl, rfl, hnew.2 ▸ OrderedMap.get?_insert_self ..⟩
    next =>
      obtain ⟨hkeyed, hcurrent, hfresh, hrecord⟩ := h.shows holder id job hjob
      refine ⟨hkeyed, hcurrent, hfresh,
        (OrderedMap.get?_insert ..).trans ((if_neg ?_).trans hrecord)⟩
      rintro rfl
      rw [hfree holder] at hjob
      cases hjob
  · intro id record hget hnone
    have hid : id ≠ request.requestId := by
      rintro rfl
      have hnone := (hhandles .active _).symm.trans (hnone .active)
      rw [if_pos ⟨rfl, rfl⟩] at hnone
      cases hnone
    refine h.settled id record (((OrderedMap.get?_insert ..).trans
      (if_neg hid)).symm.trans hget) fun holder => ?_
    have hnone := (hhandles holder id).symm.trans (hnone holder)
    rwa [if_neg fun hnew => hid hnew.2] at hnone
  · intro job hmem hcurrent
    obtain ⟨state, hstate⟩ := h.recorded job hmem hcurrent
    change ∃ state, (world.records.insert _ _).get? _ = _
    rw [OrderedMap.get?_insert]
    split
    next hid => exact ⟨.queued, by rw [← hsame _ (hid ▸ hstate)]⟩
    next => exact ⟨state, hstate⟩
  · change Option.toList _ ++ world.detached = []
    rw [hidle, h.detached]
    rfl
  · intro holder
    cases holder with
    | active =>
        refine (OrderedMap.length_insertEntry_le _ _ _).trans ?_
        rw [OrderedMap.size] at hroom
        omega
    | shutdown => exact h.count .shutdown
  · intro hclosed
    change world.closed = true at hclosed
    rw [hopen] at hclosed
    cases hclosed
  · exact fun _ => hshutdown

theorem beginShutdown (h : Sound world) : Sound world.beginShutdown.2 := by
  rw [World.beginShutdown]
  split
  · exact h
  next hidle =>
  have hshutdown := h.drained (Bool.eq_false_iff.2 hidle)
  refine ⟨?_, ?_, h.recorded, h.past, h.detached, ?_, fun _ => rfl,
    fun _ => rfl, fun hdrained => (nomatch hdrained)⟩
  · intro holder id job hjob
    cases holder with
    | active => cases hjob
    | shutdown =>
        obtain ⟨hkeyed, hcurrent, hfresh, hrecord⟩ := h.shows _ id job hjob
        exact ⟨hkeyed, hcurrent, hfresh, hrecord⟩
  · intro id record hget hfree
    refine h.settled id record hget fun holder => ?_
    cases holder with
    | active => exact hfree .shutdown
    | shutdown => rw [hshutdown]; rfl
  · intro holder
    cases holder with
    | active => exact Nat.zero_le _
    | shutdown => exact h.count .active

theorem join (h : Sound world) : Sound world.join := by
  rw [World.join]
  split
  · exact h
  next id job rest hentries =>
  split
  next hfinished =>
    have hjob : (world.handles .shutdown).get? id = some job := by
      rw [OrderedMap.get?_eq_some_iff, hentries]
      exact List.mem_cons_self
    obtain ⟨hkeyed, hcurrent, -, hrecord⟩ := h.shows _ id job hjob
    have hhandles : ∀ holder key found, (Function.update world.handles .shutdown
        ((world.handles .shutdown).erase id) holder).get? key = some found ↔
        (world.handles holder).get? key = some found ∧
          (holder = .shutdown → key ≠ id) := by
      intro holder key found
      cases holder <;> simp [OrderedMap.get?_erase]
    refine ⟨?_, ?_, ?_, ?_, h.detached, ?_, ?_, h.draining, ?_⟩
    · intro holder key found hfound
      obtain ⟨hkeyed, hcurrent, hfresh, hrecord⟩ := h.shows holder key found
        ((hhandles holder key found).1 hfound).1
      exact ⟨hkeyed, hcurrent, hfresh, hrecord⟩
    · intro key record hget hfree
      rw [World.latest, List.find?_cons]
      by_cases hkey : key = id
      · subst hkey
        rw [decide_eq_true hkeyed]
        change world.records.get? key = _ at hget
        rw [hrecord] at hget
        cases hget
        exact ⟨_, rfl, rfl, hcurrent, by simp [Job.final]⟩
      · rw [decide_eq_false fun hid => hkey (hid.symm.trans hkeyed)]
        refine h.settled key record hget fun holder => ?_
        rw [Option.eq_none_iff_forall_not_mem]
        intro found hfound
        have hsome := (hhandles holder key found).2 ⟨hfound, fun _ => hkey⟩
        rw [show _ = none from hfree holder] at hsome
        cases hsome
    · intro found hmem hgeneration
      rcases List.mem_cons.1 hmem with rfl | hmem
      · exact ⟨_, hkeyed ▸ hrecord⟩
      · exact h.recorded found hmem hgeneration
    · intro found hmem
      rcases List.mem_cons.1 hmem with rfl | hmem
      · exact ⟨hcurrent.le, hfinished⟩
      · exact h.past found hmem
    · intro holder
      cases holder with
      | active => exact h.count .active
      | shutdown => exact (List.length_filter_le _ _).trans (h.count .shutdown)
    · exact h.closed
    · intro hidle
      rw [h.drained hidle] at hjob
      cases hjob
  next => exact h

theorem endShutdown (h : Sound world) : Sound world.endShutdown.2 := by
  rw [World.endShutdown]
  split
  next hdone =>
    rw [Bool.and_eq_true, decide_eq_true_eq] at hdone
    refine ⟨fun holder id job hjob => ?_, h.settled, h.recorded, h.past,
      h.detached, h.count, h.closed, fun hdraining => (nomatch hdraining),
      fun _ => ?_⟩
    · obtain ⟨hkeyed, hcurrent, hfresh, hrecord⟩ := h.shows holder id job hjob
      exact ⟨hkeyed, hcurrent, hfresh, hrecord⟩
    · ext key : 1
      change (world.handles .shutdown).get? key = none
      rw [OrderedMap.get?_eq_none_iff, List.length_eq_zero_iff.1 hdone.2]
      exact fun _ hmem => absurd hmem List.not_mem_nil
  next => exact h

/-- A restart finds no thread that is not joined. -/
theorem restart (h : Sound world) : Sound world.restart.2 := by
  rw [World.restart]
  split
  · exact h
  next hidle =>
  simp only [Bool.or_eq_true, not_or, Bool.not_eq_true] at hidle
  have hhandles : ∀ holder, Function.update world.handles .active ∅ holder =
      ∅ := by
    intro holder
    cases holder with
    | active => rfl
    | shutdown => exact h.drained hidle.1.2
  refine ⟨fun holder id job hjob => ?_, fun _ _ hget => (nomatch hget),
    fun job hmem hcurrent => ?_, fun job hmem => ?_, h.detached,
    fun holder => ?_, fun _ => rfl, fun hdraining => (nomatch hdraining),
    fun _ => hhandles .shutdown⟩
  · cases (congrArg (fun map => OrderedMap.get? map id)
      (hhandles holder)).symm.trans hjob
  · exact absurd ((h.past job hmem).1.trans_lt (Nat.lt_succ_self _))
      hcurrent.not_lt
  · exact ⟨(h.past job hmem).1.trans (Nat.le_succ _), (h.past job hmem).2⟩
  · exact (congrArg OrderedMap.size (hhandles holder)).trans_le (Nat.zero_le _)

variable [DecidableEq T]

/-- A submission reaps, and then starts a thread or changes nothing. -/
theorem submit_cases (h : Sound world) (request : AgentCancellationRequest T)
    (spawns : Bool) :
    (world.submit request spawns).2 = world.reap ∨
      (world.submit request spawns).2 = (world.reap.start request spawns).2 ∧
        world.reap.closed = false ∧
        (world.reap.handles .active).get? request.requestId = none ∧
        ∀ record, world.reap.records.get? request.requestId = some record →
          record.request = request ∧ record.state.isUncertain = true := by
  simp only [World.submit]
  split
  · exact Or.inl rfl
  next hopen =>
    split
    next record hrecord =>
      split
      · exact Or.inl rfl
      next hrequest =>
        split
        · exact Or.inl rfl
        next hretry =>
          simp only [Bool.or_eq_true, Bool.not_eq_true', not_or,
            Bool.not_eq_true, Bool.not_eq_false, OrderedMap.contains,
            Option.isSome_eq_false_iff, Option.isNone_iff_eq_none] at hretry
          refine Or.inr ⟨rfl, Bool.eq_false_iff.2 hopen, hretry.1, ?_⟩
          rintro other hother
          cases hrecord.symm.trans hother
          exact ⟨not_not.1 hrequest, hretry.2⟩
    next hnone =>
      split
      · exact Or.inl rfl
      · refine Or.inr ⟨rfl, Bool.eq_false_iff.2 hopen, ?_, ?_⟩
        · rw [Option.eq_none_iff_forall_not_mem]
          intro job hjob
          cases hnone.symm.trans (h.reap.shows _ _ job hjob).record
        · intro record hother
          cases hnone.symm.trans hother

theorem observe_eq_reap (request : AgentCancellationRequest T) :
    (world.observe request).2 = world.reap := by
  simp only [World.observe]
  split
  · rfl
  · split <;> rfl

theorem step (h : Sound world) (event : Event T) :
    Sound (step world event) := by
  have hphase : ∀ {holder id phase}, ((world.handles holder).get? id).map
      Job.phase = some phase → ∃ job, (world.handles holder).get? id =
        some job ∧ job.phase = phase :=
    fun hget => Option.map_eq_some_iff.1 hget
  cases event with
  | submit request spawns =>
      simp only [CancellationJobs.step]
      rcases h.submit_cases request spawns with heq | ⟨heq, hopen, hidle, hsame⟩
      · exact heq ▸ h.reap
      · exact heq ▸ h.reap.start hopen hidle
          fun record hrecord => (hsame record hrecord).1
  | observe request =>
      simp only [CancellationJobs.step, observe_eq_reap]
      exact h.reap
  | restart => exact h.restart
  | beginShutdown => exact h.beginShutdown
  | join => exact h.join
  | endShutdown => exact h.endShutdown
  | publish holder id state =>
      simp only [CancellationJobs.step]
      split
      next hget =>
        obtain ⟨job, hjob, -⟩ := hphase hget
        exact h.move hjob (.published state)
      next => exact h
  | exit holder id =>
      simp only [CancellationJobs.step]
      split
      next state hget =>
        obtain ⟨job, hjob, hpublished⟩ := hphase hget
        exact h.advance hjob (by rw [hpublished]; rfl)
      next => exact h
  | panic holder id =>
      simp only [CancellationJobs.step]
      split
      next hget =>
        obtain ⟨job, hjob, hexecuting⟩ := hphase hget
        exact h.advance hjob (by rw [hexecuting]; rfl)
      next => exact h

theorem run (h : Sound world) (events : List (Event T)) :
    Sound (run world events) := by
  induction events generalizing world with
  | nil => exact h
  | cons event events ih => exact ih (h.step event)

end Sound

end Invariant

section Law

variable {T : Type} {world : World T} {id : OperationId} {record : Record T}

/-- An outcome that no retry may replace. -/
def Settled (state : AgentCancellationState) : Prop :=
  state ≠ .queued ∧ state.isUncertain = false

namespace Sound

/-- The running threads are all held in one place. -/
theorem running_eq (h : Sound world) : ∃ holder, world.running =
    (world.handles holder).values.filter fun job => !job.phase.finished := by
  rw [World.running, h.detached, List.append_nil]
  cases hdraining : world.draining with
  | true =>
      rw [h.closed (h.draining hdraining)]
      exact ⟨.shutdown, rfl⟩
  | false =>
      rw [h.drained hdraining]
      exact ⟨.active, by rw [show (∅ : OrderedMap OperationId (Job T)).values =
        [] from rfl, List.append_nil]⟩

theorem running_bounded (h : Sound world) :
    (world.running.map fun job => job.request.requestId).Nodup ∧
      world.running.length ≤ maxActive ∧
      ∀ job ∈ world.running, job.generation = world.generation := by
  obtain ⟨holder, hrunning⟩ := h.running_eq
  have hkeys : (world.handles holder).values.map (fun job =>
      job.request.requestId) = (world.handles holder).entries.map Prod.fst := by
    rw [OrderedMap.values, List.map_map]
    refine List.map_congr_left fun entry hentry => ?_
    exact (h.shows holder entry.1 entry.2
      (OrderedMap.get?_eq_some_iff.2 hentry)).keyed
  rw [hrunning]
  refine ⟨?_, ?_, fun job hjob => ?_⟩
  · refine (List.filter_sublist.map _).nodup ?_
    rw [hkeys]
    exact List.pairwise_map.2
      ((world.handles holder).sorted.imp fun hlt => hlt.ne)
  · refine (List.length_filter_le _ _).trans ?_
    rw [OrderedMap.values, List.length_map]
    exact h.count holder
  · obtain ⟨id, hget⟩ := OrderedMap.mem_values.1 (List.mem_filter.1 hjob).1
    exact (h.shows holder id job hget).current

/-- The thread of a record, held or joined. -/
theorem exists_job (h : Sound world)
    (hget : world.records.get? id = some record) :
    ∃ job, ((∃ holder, (world.handles holder).get? id = some job) ∧
        record.state = job.phase.shown ∨
        world.latest id = some job ∧ record.state = job.final) ∧
      job.request = record.request ∧ job.generation = world.generation := by
  by_cases hheld : ∃ holder job, (world.handles holder).get? id = some job
  · obtain ⟨holder, job, hjob⟩ := hheld
    obtain ⟨-, hcurrent, -, hrecord⟩ := h.shows holder id job hjob
    cases hget.symm.trans hrecord
    exact ⟨job, Or.inl ⟨⟨holder, hjob⟩, rfl⟩, rfl, hcurrent⟩
  · push Not at hheld
    obtain ⟨job, hjob, hrequest, hcurrent, hstate⟩ := h.settled id record hget
      fun holder => Option.eq_none_iff_forall_not_mem.2 (hheld holder)
    exact ⟨job, Or.inr ⟨hjob, hstate⟩, hrequest, hcurrent⟩

theorem shown_of_settled {job : Job T} (hsettled : Settled job.phase.shown) :
    job.phase.returned = some job.phase.shown := by
  cases hreturned : job.phase.returned with
  | none => exact absurd (by rw [Phase.shown, hreturned]; rfl) hsettled.1
  | some state => rw [Phase.shown, hreturned]; rfl

/-- A settled outcome was returned by a thread of the very request. -/
theorem returned_of_settled (h : Sound world)
    (hget : world.records.get? id = some record)
    (hsettled : Settled record.state) :
    ∃ job, ((∃ holder, (world.handles holder).get? id = some job) ∨
        job ∈ world.ended) ∧ job.request = record.request ∧
      job.generation = world.generation ∧
      job.phase.returned = some record.state := by
  obtain ⟨job, hjob, hrequest, hcurrent⟩ := h.exists_job hget
  rcases hjob with ⟨hheld, hstate⟩ | ⟨hlatest, hstate⟩
  · rw [hstate] at hsettled ⊢
    exact ⟨job, Or.inl hheld, hrequest, hcurrent, shown_of_settled hsettled⟩
  · have hshown : job.final = job.phase.shown := by
      rw [Job.final]
      split
      next hlost =>
        rw [hstate, Job.final, if_pos hlost] at hsettled
        exact absurd hsettled.2 (by decide)
      next => rfl
    rw [hstate, hshown] at hsettled ⊢
    exact ⟨job, Or.inr (List.mem_of_find?_eq_some hlatest), hrequest, hcurrent,
      shown_of_settled hsettled⟩

/-- The record of a thread that has not returned is not settled. -/
theorem not_settled (h : Sound world) {holder : Holder} {job : Job T}
    (hjob : (world.handles holder).get? id = some job)
    (hnone : job.phase.returned = none)
    (hget : world.records.get? id = some record) : ¬ Settled record.state := by
  cases hget.symm.trans (h.shows holder id job hjob).record
  exact fun hsettled => hsettled.1 (by rw [Phase.shown, hnone]; rfl)

theorem settled_reap (h : Sound world)
    (hget : world.records.get? id = some record)
    (hsettled : Settled record.state) :
    world.reap.records.get? id = some record := by
  simp only [World.reap, OrderedMap.get?_mapValues, hget, Option.map_some]
  rw [if_neg]
  intro hpanicked
  cases hjob : (world.handles .active).get? id with
  | none => rw [hjob] at hpanicked; cases hpanicked
  | some job =>
      rw [hjob, Option.any_some, decide_eq_true_eq] at hpanicked
      exact h.not_settled hjob (by rw [hpanicked]; rfl) hget hsettled

variable [DecidableEq T]

theorem settled_step (h : Sound world)
    (hget : world.records.get? id = some record)
    (hsettled : Settled record.state) (event : Event T)
    (hgeneration : (CancellationJobs.step world event).generation =
      world.generation) :
    (CancellationJobs.step world event).records.get? id = some record := by
  cases event with
  | submit request spawns =>
      have hreaped := h.settled_reap hget hsettled
      simp only [CancellationJobs.step]
      rcases h.submit_cases request spawns with heq | ⟨heq, -, -, hsame⟩
      · exact heq ▸ hreaped
      · rw [heq, World.start]
        split
        · exact hreaped
        · split
          · exact hreaped
          · refine (OrderedMap.get?_insert ..).trans
              ((if_neg ?_).trans hreaped)
            rintro rfl
            cases (hsame record hreaped).2.symm.trans hsettled.2
  | observe request =>
      simp only [CancellationJobs.step, observe_eq_reap]
      exact h.settled_reap hget hsettled
  | restart =>
      simp only [CancellationJobs.step, World.restart] at hgeneration ⊢
      split at hgeneration
      next hrefused => rwa [if_pos hrefused]
      next => exact absurd hgeneration (Nat.succ_ne_self _)
  | beginShutdown =>
      simp only [CancellationJobs.step, World.beginShutdown]
      split <;> exact hget
  | join =>
      simp only [CancellationJobs.step, World.join]
      split
      · exact hget
      · split <;> exact hget
  | endShutdown =>
      simp only [CancellationJobs.step, World.endShutdown]
      split <;> exact hget
  | publish holder key state =>
      simp only [CancellationJobs.step]
      split
      next hphase =>
        obtain ⟨job, hjob, hexecuting⟩ := Option.map_eq_some_iff.1 hphase
        simp only [World.write, World.advance, OrderedMap.get?_mapValues, hget,
          Option.map_some]
        rw [if_neg]
        rintro rfl
        exact h.not_settled hjob (by rw [hexecuting]; rfl) hget hsettled
      next => exact hget
  | exit holder key =>
      simp only [CancellationJobs.step]
      split <;> exact hget
  | panic holder key =>
      simp only [CancellationJobs.step]
      split <;> exact hget

/-- After a shutdown returned, a request is observed as queued exactly when the
thread joined last for it panicked under that shutdown, or returned queued. -/
theorem observe_queued (h : Sound world) (hclosed : world.closed = true)
    (hidle : world.draining = false) (request : AgentCancellationRequest T) :
    (world.observe request).1 = .ok .queued ↔
      ∃ job, world.latest request.requestId = some job ∧
        job.request = request ∧ job.generation = world.generation ∧
        (job.phase = .panicked ∧ job.drained = true ∨
          job.phase.returned = some .queued) := by
  have hfree : ∀ holder, world.handles holder = ∅ := by
    intro holder
    cases holder with
    | active => exact h.closed hclosed
    | shutdown => exact h.drained hidle
  have hreap : ∀ id, world.reap.records.get? id = world.records.get? id := by
    intro id
    simp only [World.reap, OrderedMap.get?_mapValues, hfree]
    exact Option.map_id'
  have hfinal : ∀ job ∈ world.ended, job.final = .queued ↔
      job.phase = .panicked ∧ job.drained = true ∨
        job.phase.returned = some .queued := by
    rintro ⟨request, phase, generation, drained⟩ hmem
    have hfinished := (h.past _ hmem).2
    cases phase <;> cases drained <;>
      simp_all [Job.final, Phase.shown, Phase.returned, Phase.finished]
  have hobserve : (world.observe request).1 = .ok .queued ↔
      world.records.get? request.requestId = some ⟨request, .queued⟩ := by
    simp only [World.observe, hreap]
    cases hget : world.records.get? request.requestId with
    | none => simp
    | some record =>
        obtain ⟨found, state⟩ := record
        by_cases hsame : found = request
        · simp [hsame]
        · simp [hsame]
  rw [hobserve]
  constructor
  · intro hget
    obtain ⟨job, hlatest, hrequest, hcurrent, hstate⟩ := h.settled _ _ hget
      fun holder => by rw [hfree]; rfl
    refine ⟨job, hlatest, hrequest, hcurrent, ?_⟩
    exact (hfinal job (List.mem_of_find?_eq_some hlatest)).1 hstate.symm
  · rintro ⟨job, hlatest, rfl, hcurrent, hqueued⟩
    have hmem := List.mem_of_find?_eq_some hlatest
    obtain ⟨state, hget⟩ := h.recorded job hmem hcurrent
    obtain ⟨other, hother, -, -, hstate⟩ := h.settled _ _ hget
      fun holder => by rw [hfree]; rfl
    cases hlatest.symm.trans hother
    rw [hget, show state = .queued from
      hstate.trans ((hfinal job hmem).2 hqueued)]

/-- While no shutdown began and a thread may run, a new request is admitted
exactly when fewer than the limit of requests are recorded. -/
theorem submit_admits (request : AgentCancellationRequest T) (spawns : Bool)
    (hopen : world.closed = false)
    (hnew : world.records.get? request.requestId = none)
    (hroom : world.running.length < maxActive) :
    (world.submit request spawns).1 = .ok .queued ↔
      world.records.size < maxRequests ∧ spawns = true := by
  have hactive : (world.reap.handles .active).size < maxActive := by
    refine lt_of_le_of_lt ?_ hroom
    rw [World.running, List.append_assoc, List.filter_append,
      List.length_append]
    refine le_trans (le_of_eq ?_) (Nat.le_add_right _ _)
    simp only [World.reap, Function.update_self, OrderedMap.size,
      OrderedMap.filter, OrderedMap.values, List.filter_map, List.length_map]
    rfl
  have hsize : world.reap.records.size = world.records.size :=
    List.length_map _
  have hnone : world.reap.records.get? request.requestId = none := by
    simp only [World.reap, OrderedMap.get?_mapValues, hnew, Option.map_none]
  simp only [World.submit, World.start, hnone, hsize,
    show world.reap.closed = false from hopen]
  by_cases hfull : maxRequests ≤ world.records.size
  · simp [hfull, Nat.not_lt.2 hfull]
  · cases spawns <;> simp [hfull, Nat.not_le.2 hactive, Nat.lt_of_not_le hfull]

end Sound

/-- Every interleaving of submissions, observations, restarts, shutdowns and
endings of jobs.  At most one job of a request and at most eight jobs run, all
of the present generation; a settled outcome was returned by a job of the very
request and stays for the generation; after a shutdown returned, a request is
still queued exactly when its last job panicked under a shutdown (or returned
queued); and a new request is admitted while a thread may run exactly when
fewer than 1024 requests are recorded. -/
theorem cancellation_jobs_law {T : Type} [DecidableEq T]
    (events : List (Event T)) :
    let world := run (initial : World T) events
    (world.running.map fun job => job.request.requestId).Nodup ∧
      world.running.length ≤ maxActive ∧
      (∀ job ∈ world.running, job.generation = world.generation) ∧
      (∀ id record, world.records.get? id = some record →
        Settled record.state →
        (∃ job, ((∃ holder, (world.handles holder).get? id = some job) ∨
            job ∈ world.ended) ∧ job.request = record.request ∧
          job.generation = world.generation ∧
          job.phase.returned = some record.state) ∧
        ∀ event, (step world event).generation = world.generation →
          (step world event).records.get? id = some record) ∧
      (world.closed = true → world.draining = false → ∀ request,
        ((world.observe request).1 = .ok .queued ↔
          ∃ job, world.latest request.requestId = some job ∧
            job.request = request ∧ job.generation = world.generation ∧
            (job.phase = .panicked ∧ job.drained = true ∨
              job.phase.returned = some .queued))) ∧
      ∀ request spawns, world.closed = false →
        world.records.get? request.requestId = none →
        world.running.length < maxActive →
        ((world.submit request spawns).1 = .ok .queued ↔
          world.records.size < maxRequests ∧ spawns = true) := by
  have hsound := (Sound.initial_sound : Sound (initial : World T)).run events
  obtain ⟨hnodup, hbound, hcurrent⟩ := hsound.running_bounded
  refine ⟨hnodup, hbound, hcurrent, fun id record hget hsettled => ?_,
    hsound.observe_queued, Sound.submit_admits⟩
  exact ⟨hsound.returned_of_settled hget hsettled,
    hsound.settled_step hget hsettled⟩

/-- A request without a target. -/
def plainRequest (id : Nat) : AgentCancellationRequest Unit := ⟨.ofNat id, ()⟩

/-- One job panics and is taken by a shutdown before anyone reaps it. -/
def lostPanic : List (Event Unit) :=
  [.submit (plainRequest 1) true, .panic .active (.ofNat 1), .beginShutdown,
    .join, .endShutdown]

/-- After the shutdown returned, the request is still observed as queued. -/
theorem lostPanic_queued :
    (run initial lostPanic).draining = false ∧
      (run initial lostPanic).closed = true ∧
      (run initial lostPanic).running.length = 0 ∧
      ((run initial lostPanic).observe (plainRequest 1)).1 = .ok .queued := by
  refine ⟨by decide +kernel, by decide +kernel, by decide +kernel, ?_⟩
  decide +kernel

end Law

end Hq.CancellationJobs
