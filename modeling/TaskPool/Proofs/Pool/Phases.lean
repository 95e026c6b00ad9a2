import TaskPool.Proofs.Pool.Deeds

/-!
The phases of starts and stops: what each of them says about the deeds so far,
and what its step adds to them.
-/

namespace TaskPool.World

open Pool (Call Starting Stopping queueEvents)

/-- What is true of a pool whose starter and stopper are known. -/
structure Flags (pool : Pool) (deeds : Deeds) : Prop where
  running : pool.running = (deeds.starter.isSome && deeds.stopper.isNone)
  stopped : pool.stopped = true → deeds.stopper.isSome = true
  sequence : deeds.stopper.isSome = true → deeds.starter.isSome = true
  unstaffed : deeds.starter = none → pool.workers = []
  untold : deeds.starter = none → deeds.announced = 0
  unclosed : deeds.stopper = none → deeds.closed = 0

/-- Whether the one who stopped a pool has marked it as stopped. -/
def Marked (pool : Pool) (deeds : Deeds) : Prop := deeds.stopper.isSome = true → pool.stopped = true

theorem Marked.of_none {pool : Pool} {deeds : Deeds} (nobody : deeds.stopper = none) :
    Marked pool deeds := by
  intro someone
  rw [nobody] at someone
  cases someone

/--
What the phase of a call that holds the lock on the life of its pool says about the deeds so far.
-/
def Fits (pool : Pool) (deeds : Deeds) (self : Nat × Nat) : Call → Prop
  | .start _ .claiming => deeds.stopper = none
  | .start _ .announcing => deeds.starter = some self ∧ deeds.stopper = none ∧ deeds.announced = 0
  | .start _ .reserving | .start _ (.creating _) | .start _ (.lamenting ..) =>
    deeds.starter = some self ∧ deeds.stopper = none
  | .stop .marking => deeds.stopper = some self ∧ deeds.closed = 0
  | .stop .announcing | .stop .draining | .stop .warning | .stop .closing =>
    deeds.stopper = some self ∧ pool.stopped = true ∧ deeds.closed = 0
  | .stop .waking | .stop .parting | .stop .gathering | .stop (.joining _)
      | .stop (.lamenting ..) =>
    deeds.stopper = some self ∧ pool.stopped = true
  -- A stop that gives up the lock has found the pool idle, or has halted it.
  | .stop .unlocking => Marked pool deeds ∧ pool.running = false
  | _ => Marked pool deeds

/--
What is true of a pool where a call has come to some phase: only the call itself can hold the lock.
-/
def Stands (pool : Pool) (deeds : Deeds) (self : Nat × Nat) (call : Call) : Prop :=
  if call.stage?.isSome then pool.lifecycle = some self.1 ∧ Fits pool deeds self call
  else pool.lifecycle = none ∧ Marked pool deeds

/-- What the turn of a call that has to do with the life of its pool comes to. -/
structure Turned (deeds : Deeds) (moment : Moment) (who : Nat × Nat) (next : Pool)
    (later : Call) : Prop where
  admits : deeds.Admits moment
  flags : Flags next (deeds.after moment)
  stands : Stands next (deeds.after moment) who later

/-- The moment at which a caller goes on. -/
def callerMoment (queue after : Queue Thread Task) (pool next : Pool) (begun : Nat → Nat)
    (caller : Nat) (chance : Pool.Chance) (later : Call) (events : List Pool.Event) : Moment :=
  ⟨⟨⟨queue, pool⟩, begun⟩, .caller caller chance, ⟨after, setCaller next caller later⟩, events⟩

variable {queue after : Queue Thread Task} {pool next : Pool} {begun : Nat → Nat}
  {caller count : Nat} {chance : Pool.Chance} {call later : Call} {events : List Pool.Event}
  {deeds : Deeds}

/-- Whether among some events none is a deed, and nothing becomes of the queue. -/
structure Uneventful (events : List Pool.Event) : Prop where
  announces : ∀ seat count, .logged seat (.starting count) ∉ events
  closes : ∀ thread, .queue (.closed thread) ∉ events
  removes : Queue.removedItems (queueEvents events) = []

theorem Uneventful.nil : Uneventful [] := ⟨fun _ _ => by simp, fun _ => by simp, rfl⟩

/-- A line that does not tell of a start is no deed. -/
theorem Uneventful.kept (pool : Pool) (seat : Seat) {message : Message}
    (other : ∀ count, message ≠ .starting count) :
    Uneventful (pool.kept seat message) := by
  refine ⟨fun who count member => ?_, fun thread member => ?_, by rw [Pool.queueEvents_kept]; rfl⟩
  · -- The only line that may be kept is the message itself.
    unfold Pool.kept at member
    split at member
    · cases List.mem_singleton.mp member
      exact other count rfl
    · cases member
  · unfold Pool.kept at member
    split at member
    · cases List.mem_singleton.mp member
    · cases member

namespace Moment

variable {moment : Moment}

/-- Nothing is announced by uneventful events. -/
theorem announces_of_uneventful (silent : Uneventful moment.events) : moment.announces = false := by
  rw [announces, List.any_eq_false]
  intro event member told
  split at told
  · exact silent.announces _ _ member
  · cases told

/-- Nothing is closed by uneventful events. -/
theorem closes_of_uneventful (silent : Uneventful moment.events) : moment.closes = false := by
  rw [closes, Bool.and_eq_false_iff, List.any_eq_false]
  refine .inr fun event member closed => ?_
  split at closed
  · exact silent.closes _ member
  · cases closed

/-- Uneventful events leave the queue alone. -/
theorem not_spends_of_uneventful (silent : Uneventful moment.events) : ¬ moment.Spends := by
  rintro (⟨thread, member⟩ | removed)
  · exact silent.closes thread member
  · exact removed silent.removes

/-- A start neither closes the queue nor waits for a worker. -/
theorem stops_of_start {count : Nat} {phase : Starting}
    (call : moment.call? = some (.start count phase)) :
    moment.closes = false ∧ moment.stops = moment.halts := by
  simp [stops, closes, joins, call, Call.isStop, Call.isJoining]

end Moment

/--
A turn that changes neither the running flag nor the workers, and tells of nothing
that matters, has no deeds.
-/
theorem Turned.idle {self : Nat × Nat} (found : pool.callers[caller]? = some call)
    (flags : Flags pool deeds) (silent : Uneventful events) (still : call.isJoining = false)
    (running : next.running = pool.running)
    (stopped : next.stopped = true → deeds.stopper.isSome = true)
    (workers : next.workers = pool.workers) (stands : Stands next deeds self later) :
    Turned deeds (callerMoment queue after pool next begun caller chance later events) self
      next later := by
  generalize same : callerMoment queue after pool next begun caller chance later events = moment
  have told : Uneventful moment.events := by rw [← same]; exact silent
  have acted : moment.call? = some call := by rw [← same]; exact found
  -- It neither claims the pool nor staffs it, and none of its events says that it does.
  have starts : moment.starts = false := by
    rw [Moment.starts, Moment.announces_of_uneventful told]
    simp [← same, Moment.claims, Moment.hires, callerMoment, setCaller, running, workers]
  have stops : moment.stops = false := by
    rw [Moment.stops, Moment.closes_of_uneventful told, Moment.joins, acted]
    simp [← same, Moment.halts, callerMoment, setCaller, running, still]
  refine ⟨.idle starts stops fun _ spent =>
    absurd spent (Moment.not_spends_of_uneventful told), ?_, ?_⟩
  · rw [Deeds.after_idle starts stops]
    exact ⟨running.trans flags.running, stopped, flags.sequence,
      fun nobody => workers.trans (flags.unstaffed nobody), flags.untold, flags.unclosed⟩
  · rwa [Deeds.after_idle starts stops]

/-- Telling something else than that the pool starts is no deed, also where the call breaks off. -/
theorem Turned.tells {message : Message} {onward : Call}
    (told : pool.tell caller message onward = (next, later, events))
    (found : pool.callers[caller]? = some call) (other : ∀ count, message ≠ .starting count)
    (flags : Flags pool deeds) (still : call.isJoining = false)
    (held : pool.lifecycle = some caller) (marked : Marked pool deeds)
    (stands : Stands pool deeds (caller, begun caller) onward) :
    Turned deeds (callerMoment queue after pool next begun caller chance later events)
      (caller, begun caller)
      next later := by
  unfold Pool.tell at told
  split at told <;> cases told
  · exact .idle found flags (.kept pool _ other) still rfl flags.stopped rfl ⟨if_pos held, marked⟩
  · exact .idle found flags (.kept pool _ other) still rfl flags.stopped rfl stands

/--
What a start does while nobody has stopped the pool goes with what was done,
as long as it leaves the queue.
-/
theorem admits_start {moment : Moment} {phase : Starting}
    (call : moment.call? = some (.start count phase)) (nobody : deeds.stopper = none)
    (halts : moment.halts = false) (spends : ¬ moment.Spends)
    (claims : moment.claims = true → deeds.starter = none ∧ moment.actor?.isSome = true)
    (starts : moment.claims = true ∨ deeds.starter.isSome = true ∧ moment.actor? = deeds.starter)
    (announces : moment.announces = true → deeds.announced = 0) : deeds.Admits moment := by
  obtain ⟨closes, stops⟩ := Moment.stops_of_start call
  refine ⟨claims, fun _ => ⟨starts, nobody, _, _, call⟩, announces, ?_, ?_, ?_, fun _ spent =>
    absurd spent spends⟩
  · simp [halts]
  · simp [stops, halts]
  · simp [closes]

/-- The step of a start that claims the pool makes its call the starter. -/
theorem Turned.claims (found : pool.callers[caller]? = some (.start count .claiming))
    (flags : Flags pool deeds) (idle : pool.running = false) (unstarted : deeds.starter = none)
    (nobody : deeds.stopper = none) (held : pool.lifecycle = some caller) :
    Turned deeds (callerMoment queue queue pool { pool with running := true } begun caller chance
      (.start count .announcing) []) (caller, begun caller) { pool with running := true }
      (.start count .announcing) := by
  -- Of all deeds, the moment does this one only.
  generalize same : callerMoment queue queue pool { pool with running := true } begun caller chance
    (.start count .announcing) [] = moment
  have actor : moment.actor? = some (caller, begun caller) := by rw [← same]; rfl
  have call : moment.call? = some (.start count .claiming) := by rw [← same]; exact found
  have claims : moment.claims = true := by
    simp [← same, Moment.claims, callerMoment, setCaller, idle]
  have halts : moment.halts = false := by simp [← same, Moment.halts, callerMoment, setCaller]
  have silent : Uneventful moment.events := by rw [← same]; exact .nil
  have announces : moment.announces = false := Moment.announces_of_uneventful silent
  have closes : moment.closes = false := (Moment.stops_of_start call).1
  have later : deeds.after moment = { deeds with starter := some (caller, begun caller) } := by
    simp [Deeds.after, claims, halts, announces, closes, actor]
  refine ⟨admits_start call nobody halts (Moment.not_spends_of_uneventful silent)
    (fun _ => ⟨unstarted, by rw [actor]; rfl⟩) (.inl claims) (by simp [announces]), ?_, ?_⟩
  · rw [later]
    exact ⟨by simp [nobody], flags.stopped, fun _ => rfl, by simp, by simp, flags.unclosed⟩
  · rw [later]
    exact ⟨held, rfl, nobody, flags.untold unstarted⟩

/-- The step of a start that tells so is the only one of its kind, also where it breaks off. -/
theorem Turned.announces
    (told : pool.tell caller (.starting count) (.start count .reserving) = (next, later, events))
    (found : pool.callers[caller]? = some (.start count .announcing)) (flags : Flags pool deeds)
    (mine : deeds.starter = some (caller, begun caller)) (nobody : deeds.stopper = none)
    (untold : deeds.announced = 0) (held : pool.lifecycle = some caller) :
    Turned deeds (callerMoment queue queue pool next begun caller chance later events)
      (caller, begun caller)
      next later := by
  -- Whether or not the call breaks off, the flags stay and the line may have been kept.
  have kept : next.running = pool.running ∧ next.stopped = pool.stopped ∧
      next.workers = pool.workers ∧
      events = pool.kept (.caller caller) (.starting count) ∧
      ∀ deeds : Deeds, deeds.starter = some (caller, begun caller) → deeds.stopper = none →
        Stands next deeds (caller, begun caller) later := by
    unfold Pool.tell at told
    split at told <;> cases told
    · exact ⟨rfl, rfl, rfl, rfl, fun _ _ nobody => ⟨if_pos held, .of_none nobody⟩⟩
    · exact ⟨rfl, rfl, rfl, rfl, fun _ mine nobody => ⟨held, mine, nobody⟩⟩
  obtain ⟨running, stopped, workers, rfl, stands⟩ := kept
  generalize same : callerMoment queue queue pool next begun caller chance later
    (pool.kept (.caller caller) (.starting count)) = moment
  have actor : moment.actor? = deeds.starter := by rw [← same, mine]; rfl
  have call : moment.call? = some (.start count .announcing) := by rw [← same]; exact found
  have claims : moment.claims = false := by
    simp [← same, Moment.claims, callerMoment, setCaller, running]
  have halts : moment.halts = false := by
    simp [← same, Moment.halts, callerMoment, setCaller, running]
  have closes : moment.closes = false := (Moment.stops_of_start call).1
  have later : deeds.after moment = { deeds with announced := moment.announces.toNat } := by
    simp [Deeds.after, claims, halts, closes, untold]
  have spends : ¬ moment.Spends := by
    rw [← same]
    rintro (⟨thread, member⟩ | removed)
    · simp [callerMoment, Pool.kept] at member
    · exact removed (by simp [callerMoment, Pool.queueEvents_kept]; rfl)
  refine ⟨admits_start call nobody halts spends (by simp [claims]) (.inr ⟨by rw [mine]; rfl, actor⟩)
    fun _ => untold, ?_, ?_⟩
  · rw [later]
    exact ⟨running.trans flags.running, fun marked => flags.stopped (stopped ▸ marked),
      flags.sequence,
      fun nobody => workers.trans (flags.unstaffed nobody), by simp [mine], flags.unclosed⟩
  · rw [later]
    exact stands _ mine nobody

/-- The step of a start that creates a worker is one of the starter. -/
theorem Turned.hires {index : Nat} {name : String}
    (found : pool.callers[caller]? = some (.start count (.creating index)))
    (flags : Flags pool deeds) (mine : deeds.starter = some (caller, begun caller))
    (nobody : deeds.stopper = none) (held : pool.lifecycle = some caller) :
    Turned deeds (callerMoment queue queue pool (pool.employ name) begun caller chance
      (.start count (.creating (index + 1))) []) (caller, begun caller) (pool.employ name)
      (.start count (.creating (index + 1))) := by
  generalize same : callerMoment queue queue pool (pool.employ name) begun caller chance
    (.start count (.creating (index + 1))) [] = moment
  have actor : moment.actor? = deeds.starter := by rw [← same, mine]; rfl
  have call : moment.call? = some (.start count (.creating index)) := by rw [← same]; exact found
  have claims : moment.claims = false := by
    simp [← same, Moment.claims, callerMoment, setCaller, Pool.employ, Pool.enlist]
  have halts : moment.halts = false := by
    simp [← same, Moment.halts, callerMoment, setCaller, Pool.employ, Pool.enlist]
  have silent : Uneventful moment.events := by rw [← same]; exact .nil
  have announces : moment.announces = false := Moment.announces_of_uneventful silent
  have closes : moment.closes = false := (Moment.stops_of_start call).1
  have later : deeds.after moment = deeds := by
    simp [Deeds.after, claims, halts, closes, announces]
  refine ⟨admits_start call nobody halts (Moment.not_spends_of_uneventful silent) (by simp [claims])
    (.inr ⟨by rw [mine]; rfl, actor⟩) (by simp [announces]), ?_, ?_⟩
  · rw [later]
    exact ⟨flags.running, flags.stopped, flags.sequence, by simp [mine], flags.untold,
      flags.unclosed⟩
  · rw [later]
    exact ⟨held, mine, nobody⟩

/-- What a start does fits what was done before, and what its phase then says. -/
theorem Starting.step_deeds {phase : Starting} {refusal : Option Trouble}
    (found : pool.callers[caller]? = some (.start count phase))
    (stepped : phase.step pool caller count refusal = some (next, later, events))
    (flags : Flags pool deeds) (free : pool.lifecycle = none → Marked pool deeds)
    (own : (Call.start count phase).stage?.isSome = true →
      pool.lifecycle = some caller ∧ Fits pool deeds (caller, begun caller) (.start count phase)) :
    Turned deeds (callerMoment queue queue pool next begun caller chance later events)
      (caller, begun caller)
      next later := by
  cases phase with
  | locking =>
    simp only [Starting.step, Option.ite_none_right_eq_some] at stepped
    obtain ⟨open_, same⟩ := stepped
    cases same
    exact .idle found flags .nil rfl rfl flags.stopped rfl ⟨rfl, free open_⟩
  | checking =>
    -- Where the pool is not marked as stopped, nobody has stopped it.
    obtain ⟨held, marked⟩ := own rfl
    cases stepped
    refine .idle found flags .nil rfl rfl flags.stopped rfl ?_
    cases stopped : pool.stopped with
    | true => exact ⟨held, marked⟩
    | false =>
      refine ⟨held, ?_⟩
      cases known : deeds.stopper with
      | none => exact known
      | some someone => simp [marked (by rw [known]; rfl)] at stopped
  | refusing =>
    obtain ⟨held, marked⟩ := own rfl
    exact .tells (Option.some.inj stepped) found (fun _ => by simp) flags rfl held marked
      ⟨held, marked⟩
  | claiming =>
    obtain ⟨held, nobody⟩ := own rfl
    simp only [Starting.step] at stepped
    split at stepped <;> cases stepped
    · exact .idle found flags .nil rfl rfl flags.stopped rfl ⟨held, .of_none nobody⟩
    · -- The pool does not run and nobody has stopped it, so nobody has started it.
      rename_i idle
      have unstarted : deeds.starter = none := by
        have running := flags.running
        rw [nobody, Bool.eq_false_iff.mpr idle] at running
        cases known : deeds.starter with
        | none => rfl
        | some someone => simp [known] at running
      exact .claims found flags (by simpa using idle) unstarted nobody held
  | announcing =>
    obtain ⟨held, mine, nobody, untold⟩ := own rfl
    exact .announces (Option.some.inj stepped) found flags mine nobody untold held
  | reserving =>
    obtain ⟨held, mine, nobody⟩ := own rfl
    have marked : Marked pool deeds := .of_none nobody
    simp only [Starting.step, Option.ite_none_right_eq_some] at stepped
    obtain ⟨-, stepped⟩ := stepped
    split at stepped <;> cases stepped
    · exact .idle found flags .nil rfl rfl flags.stopped rfl ⟨if_pos held, marked⟩
    · exact .idle found flags .nil rfl rfl flags.stopped rfl ⟨held, mine, nobody⟩
  | creating index =>
    obtain ⟨held, mine, nobody⟩ := own rfl
    have marked : Marked pool deeds := .of_none nobody
    simp only [Starting.step, Pool.create] at stepped
    split at stepped
    · split at stepped <;> cases stepped
      · exact .idle found flags .nil rfl rfl flags.stopped rfl ⟨if_pos held, marked⟩
      · exact .idle found flags .nil rfl rfl flags.stopped rfl ⟨held, mine, nobody⟩
      · exact .hires found flags mine nobody held
    · cases stepped
      exact .idle found flags .nil rfl rfl flags.stopped rfl ⟨held, marked⟩
  | lamenting index failure =>
    obtain ⟨held, mine, nobody⟩ := own rfl
    have marked : Marked pool deeds := .of_none nobody
    exact .tells (Option.some.inj stepped) found (fun _ => by simp) flags rfl held marked
      ⟨held, mine, nobody⟩
  | unlocking =>
    obtain ⟨held, marked⟩ := own rfl
    cases stepped
    exact .idle found flags .nil rfl rfl flags.stopped rfl ⟨rfl, marked⟩

/--
What a stop does to a pool that somebody has started goes with what was done,
as long as it starts nothing.
-/
theorem admits_stop {moment : Moment} {phase : Stopping} (call : moment.call? = some (.stop phase))
    (started : deeds.starter.isSome = true) (starts : moment.starts = false)
    (halts : moment.halts = true → deeds.stopper = none ∧ moment.actor?.isSome = true)
    (stops : moment.halts = true ∨ deeds.stopper.isSome = true ∧ moment.actor? = deeds.stopper)
    (closes : moment.closes = true → deeds.closed = 0) : deeds.Admits moment := by
  have nothing := starts
  simp only [Moment.starts, Bool.or_eq_false_iff] at nothing
  -- Of the conditions all that speak of a start are empty.
  refine ⟨?_, ?_, ?_, fun done => ⟨(halts done).1, started, (halts done).2⟩, fun _ =>
    ⟨stops, _, call⟩, closes, ?_⟩
  · simp [nothing]
  · simp [starts]
  · simp [nothing]
  · intro nobody
    simp [nobody] at started

/-- The step of a stop that halts the pool makes its call the stopper. -/
theorem Turned.halts (found : pool.callers[caller]? = some (.stop .claiming))
    (flags : Flags pool deeds) (running : pool.running = true)
    (held : pool.lifecycle = some caller) :
    Turned deeds (callerMoment queue queue pool { pool with running := false } begun caller chance
      (.stop .marking) []) (caller, begun caller) { pool with running := false }
        (.stop .marking) := by
  -- A pool that runs was started, and nobody has stopped it.
  have known := flags.running
  rw [running, eq_comm, Bool.and_eq_true, Option.isNone_iff_eq_none] at known
  obtain ⟨started, nobody⟩ := known
  generalize same : callerMoment queue queue pool { pool with running := false } begun caller chance
    (.stop .marking) [] = moment
  have actor : moment.actor? = some (caller, begun caller) := by rw [← same]; rfl
  have call : moment.call? = some (.stop .claiming) := by rw [← same]; exact found
  have silent : Uneventful moment.events := by rw [← same]; exact .nil
  have halts : moment.halts = true := by
    simp [← same, Moment.halts, callerMoment, setCaller, running]
  have closes : moment.closes = false := Moment.closes_of_uneventful silent
  have announces : moment.announces = false := Moment.announces_of_uneventful silent
  have claims : moment.claims = false := by simp [← same, Moment.claims, callerMoment, setCaller]
  have hires : moment.hires = false := by simp [← same, Moment.hires, callerMoment, setCaller]
  have starts : moment.starts = false := by simp [Moment.starts, claims, announces, hires]
  have later : deeds.after moment = { deeds with stopper := some (caller, begun caller) } := by
    simp [Deeds.after, claims, halts, announces, closes, actor]
  refine ⟨admits_stop call started starts (fun _ => ⟨nobody, by rw [actor]; rfl⟩) (.inl halts)
    (by simp [closes]),
    ?_, ?_⟩
  · rw [later]
    exact ⟨by simp, fun _ => rfl, fun _ => started, flags.unstaffed, flags.untold, by simp⟩
  · rw [later]
    exact ⟨held, rfl, flags.unclosed nobody⟩

/-- A later step of the stopper is one of its deeds, and it closes the queue only once. -/
theorem Turned.continues {phase : Stopping} (found : pool.callers[caller]? = some (.stop phase))
    (flags : Flags pool deeds) (mine : deeds.stopper = some (caller, begun caller))
    (announces :
      (callerMoment queue after pool next begun caller chance later events).announces = false)
    (running : next.running = pool.running) (stopped : next.stopped = pool.stopped)
    (workers : next.workers = pool.workers)
    (closes : (callerMoment queue after pool next begun caller chance later events).closes = true →
      deeds.closed = 0)
    (stands : ∀ deeds : Deeds, deeds.stopper = some (caller, begun caller) →
      Stands next deeds (caller, begun caller) later) :
    Turned deeds (callerMoment queue after pool next begun caller chance later events)
      (caller, begun caller)
      next later := by
  generalize same : callerMoment queue after pool next begun caller chance later events =
    moment at announces closes
  have actor : moment.actor? = deeds.stopper := by rw [← same, mine]; rfl
  have call : moment.call? = some (.stop phase) := by rw [← same]; exact found
  -- The flags and the workers are as they were, so all it can do is close the queue.
  have claims : moment.claims = false := by
    simp [← same, Moment.claims, callerMoment, setCaller, running]
  have halts : moment.halts = false := by
    simp [← same, Moment.halts, callerMoment, setCaller, running]
  have hires : moment.hires = false := by
    simp [← same, Moment.hires, callerMoment, setCaller, workers]
  have starts : moment.starts = false := by simp [Moment.starts, claims, announces, hires]
  have started : deeds.starter.isSome = true := flags.sequence (by rw [mine]; rfl)
  have later : deeds.after moment =
      { deeds with closed := deeds.closed + moment.closes.toNat } := by
    simp [Deeds.after, claims, halts, announces]
  refine ⟨admits_stop call started starts (by simp [halts]) (.inr ⟨by rw [mine]; rfl, actor⟩)
    closes, ?_, ?_⟩
  · rw [later]
    exact ⟨running.trans flags.running, fun marked => flags.stopped (stopped ▸ marked),
      flags.sequence,
      fun nobody => workers.trans (flags.unstaffed nobody), flags.untold, by simp [mine]⟩
  · rw [later]
    exact stands _ mine

/-- What a stop does fits what was done before, and what its phase then says. -/
theorem Stopping.step_deeds {phase : Stopping} {timeUp : Bool} {worker : Nat}
    (found : pool.callers[caller]? = some (.stop phase))
    (stepped : phase.step queue pool caller timeUp worker = some (after, next, later, events))
    (flags : Flags pool deeds) (free : pool.lifecycle = none → Marked pool deeds)
    (own : (Call.stop phase).stage?.isSome = true →
      pool.lifecycle = some caller ∧ Fits pool deeds (caller, begun caller) (.stop phase)) :
    Turned deeds (callerMoment queue after pool next begun caller chance later events)
      (caller, begun caller)
      next later := by
  -- Whoever has stopped the pool has halted it.
  have halted (mine : deeds.stopper = some (caller, begun caller)) : pool.running = false := by
    rw [flags.running, mine]
    exact Bool.and_false _
  cases phase with
  | locking =>
    simp only [Stopping.step, Option.ite_none_right_eq_some] at stepped
    obtain ⟨open_, same⟩ := stepped
    cases same
    exact .idle found flags .nil rfl rfl flags.stopped rfl ⟨rfl, free open_⟩
  | claiming =>
    obtain ⟨held, marked⟩ := own rfl
    simp only [Stopping.step] at stepped
    split at stepped <;> cases stepped
    · rename_i running
      exact .halts found flags running held
    · rename_i idle
      exact .idle found flags .nil rfl rfl flags.stopped rfl ⟨held, marked, by simpa using idle⟩
  | marking =>
    obtain ⟨held, mine, unclosed⟩ := own rfl
    cases stepped
    exact .idle found flags .nil rfl rfl (fun _ => by rw [mine]; rfl) rfl ⟨held, mine,
      rfl, unclosed⟩
  | announcing =>
    obtain ⟨held, mine, stopped, unclosed⟩ := own rfl
    simp only [Stopping.step, Pool.besideQueue, Option.some.injEq, Prod.mk.injEq] at stepped
    obtain ⟨rfl, rfl, rfl, rfl⟩ := stepped
    exact .tells rfl found (fun _ => by simp) flags rfl held (fun _ => stopped) ⟨held, mine,
      stopped, unclosed⟩
  | draining =>
    obtain ⟨held, mine, stopped, unclosed⟩ := own rfl
    simp only [Stopping.step] at stepped
    split at stepped
    · cases stepped
      exact .idle found flags .nil rfl rfl flags.stopped rfl ⟨held, mine, stopped, unclosed⟩
    · obtain ⟨-, same⟩ := Option.ite_none_right_eq_some.mp stepped
      cases same
      exact .idle found flags .nil rfl rfl flags.stopped rfl ⟨held, mine, stopped, unclosed⟩
  | warning =>
    obtain ⟨held, mine, stopped, unclosed⟩ := own rfl
    simp only [Stopping.step, Pool.besideQueue, Option.some.injEq, Prod.mk.injEq] at stepped
    obtain ⟨rfl, rfl, rfl, rfl⟩ := stepped
    exact .tells rfl found (fun _ => by simp) flags rfl held (fun _ => stopped) ⟨held, mine,
      stopped, unclosed⟩
  | closing =>
    obtain ⟨held, mine, stopped, unclosed⟩ := own rfl
    cases stepped
    exact .continues found flags mine rfl rfl rfl rfl (fun _ => unclosed) fun _ mine =>
      ⟨held, mine, stopped⟩
  | waking =>
    obtain ⟨held, mine, stopped⟩ := own rfl
    cases stepped
    exact .idle found flags .nil rfl rfl flags.stopped rfl ⟨held, mine, stopped⟩
  | parting =>
    obtain ⟨held, mine, stopped⟩ := own rfl
    simp only [Stopping.step, Pool.besideQueue, Option.some.injEq, Prod.mk.injEq] at stepped
    obtain ⟨rfl, rfl, rfl, rfl⟩ := stepped
    exact .tells rfl found (fun _ => by simp) flags rfl held (fun _ => stopped)
      ⟨held, mine, stopped⟩
  | gathering =>
    obtain ⟨held, mine, stopped⟩ := own rfl
    simp only [Stopping.step, Option.ite_none_right_eq_some] at stepped
    obtain ⟨-, same⟩ := stepped
    cases same
    refine .continues found flags mine rfl rfl rfl rfl (fun closes => ?_) fun _ mine =>
      ⟨held, mine, stopped⟩
    simp [Moment.closes, callerMoment] at closes
  | joining left =>
    obtain ⟨held, mine, stopped⟩ := own rfl
    cases left with
    | nil =>
      -- The one that gives up the lock has halted the pool.
      cases stepped
      exact .idle found flags .nil rfl rfl flags.stopped rfl ⟨held, fun _ => stopped, halted mine⟩
    | cons first rest =>
      obtain ⟨phase, joined, same⟩ := Option.map_eq_some_iff.mp stepped
      cases same
      refine .continues found flags mine rfl rfl rfl rfl (fun closes => ?_) fun _ mine => ?_
      · simp [Moment.closes, callerMoment] at closes
      · -- Whether or not the worker broke off, the stop has the same to say.
        simp only [Pool.join, Option.ite_none_right_eq_some] at joined
        obtain ⟨-, joined⟩ := joined
        split at joined
        · cases joined
          split <;> exact ⟨held, mine, stopped⟩
        · cases joined
  | lamenting left failure =>
    obtain ⟨held, mine, stopped⟩ := own rfl
    simp only [Stopping.step, Pool.besideQueue, Option.some.injEq, Prod.mk.injEq] at stepped
    obtain ⟨rfl, rfl, rfl, rfl⟩ := stepped
    exact .tells rfl found (fun _ => by simp) flags rfl held (fun _ => stopped)
      ⟨held, mine, stopped⟩
  | unlocking =>
    obtain ⟨held, marked, -⟩ := own rfl
    cases stepped
    exact .idle found flags .nil rfl rfl flags.stopped rfl ⟨rfl, marked⟩

end TaskPool.World
