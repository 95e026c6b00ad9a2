import TaskPool.Proofs.Pool.Turn

/-!
The moves of a caller: one relation for each machine, with one constructor for each way
in which a step can come out.

The relations say what the steps say, with what each way needs. What is to hold of all
steps is shown of one move after the other, so only this module looks into the steps,
and a change of a step changes the constructors that tell of it.
-/

namespace TaskPool.Pool

variable {queue after : Queue Thread Task} {pool next : Pool} {events : List Event}
  {caller count : Nat} {later : Call}

/-- What becomes of a caller that tells a message and means to go on with some phase. -/
inductive Telling (pool : Pool) (caller : Nat) (message : Message) (onward : Call) :
    Pool → Call → List Event → Prop where
  /-- The message is told, and the caller goes on. -/
  | told (fine : pool.failsAt message = false) :
    Telling pool caller message onward pool onward (pool.kept (.caller caller) message)
  /-- The sink fails the caller, which gives up whatever it holds. -/
  | failed (fails : pool.failsAt message = true) :
    Telling pool caller message onward (pool.release caller) (.broken Sink.failureText)
      (pool.kept (.caller caller) message)

/-- Telling comes out in these ways. -/
theorem tell_eq_iff {message : Message} {onward : Call} :
    pool.tell caller message onward = (next, later, events) ↔
      Telling pool caller message onward next later events := by
  -- The sink decides which of the two it is.
  constructor
  · intro tells
    unfold tell at tells
    split at tells <;> rename_i fails <;> cases tells
    · exact .failed fails
    · exact .told (Bool.eq_false_iff.mpr fails)
  · rintro (fine | fails)
    · simp [tell, fine]
    · simp [tell, fails]

/-- Where the sink does not fail it, a caller that tells a message goes on and changes nothing. -/
theorem Telling.unfailed {message : Message} {onward : Call}
    (tells : Telling pool caller message onward next later events)
    (fine : pool.failsAt message = false) :
    next = pool ∧ later = onward ∧ events = pool.kept (.caller caller) message := by
  -- The other way needs a sink that fails the caller.
  cases tells with
  | told => exact ⟨rfl, rfl, rfl⟩
  | failed fails => exact absurd (fine.symm.trans fails) Bool.false_ne_true

/-- What a start can do in one step. -/
inductive Starting.Move (pool : Pool) (caller count : Nat) (refusal : Option Trouble) :
    Starting → Pool → Call → List Event → Prop where
  | lock (free : pool.lifecycle = none) :
    Move pool caller count refusal .locking { pool with lifecycle := some caller }
      (.start count .checking) []
  /-- A pool that was stopped is not started. -/
  | bar (stopped : pool.stopped = true) :
    Move pool caller count refusal .checking pool (.start count .refusing) []
  | pass (open_ : pool.stopped = false) :
    Move pool caller count refusal .checking pool (.start count .claiming) []
  | refuse {next : Pool} {later : Call} {events : List Event}
    (tells : Telling pool caller .restartRefused (.start count .unlocking) next later events) :
    Move pool caller count refusal .refusing next later events
  /-- A pool that runs is not started either, and nothing is told about it. -/
  | skip (running : pool.running = true) :
    Move pool caller count refusal .claiming pool (.start count .unlocking) []
  | claim (idle : pool.running = false) :
    Move pool caller count refusal .claiming { pool with running := true }
      (.start count .announcing) []
  | announce {next : Pool} {later : Call} {events : List Event}
    (tells : Telling pool caller (.starting count) (.start count .reserving) next later events) :
    Move pool caller count refusal .announcing next later events
  /-- No roster can hold so many workers. -/
  | overflow (free : pool.rosterLock = none) (many : rosterLimit < count) :
    Move pool caller count refusal .reserving (pool.release caller) (.broken rosterOverflowText) []
  | reserve (free : pool.rosterLock = none) (few : count ≤ rosterLimit) :
    Move pool caller count refusal .reserving { pool with rosterLock := some caller }
      (.start count (.creating 0)) []
  /-- No thread can have the name of the worker. -/
  | misname {number : Nat} {text : String} (more : number < count)
    (unusable : unusableName? (pool.settings.workerName number) = some text) :
    Move pool caller count refusal (.creating number) (pool.release caller) (.broken text) []
  /-- The system refuses the thread. -/
  | miss {number : Nat} {trouble : Trouble} (more : number < count)
    (usable : unusableName? (pool.settings.workerName number) = none) (refused : refusal =
      some trouble) :
    Move pool caller count refusal (.creating number) pool
      (.start count (.lamenting number (.spawn (pool.settings.workerName number) trouble))) []
  | hire {number : Nat} (more : number < count)
    (usable : unusableName? (pool.settings.workerName number) = none) (granted : refusal = none) :
    Move pool caller count refusal (.creating number)
      (pool.employ (pool.settings.workerName number))
      (.start count (.creating (number + 1))) []
  /-- All workers have been asked for. -/
  | finish {number : Nat} (done : count ≤ number) :
    Move pool caller count refusal (.creating number) { pool with rosterLock := none }
      (.start count .unlocking) []
  | lament {number : Nat} {failure : Failure} {next : Pool} {later : Call} {events : List Event}
    (tells : Telling pool caller (.lost failure) (.start count (.creating (number + 1))) next
      later events) :
    Move pool caller count refusal (.lamenting number failure) next later events
  | unlock : Move pool caller count refusal .unlocking { pool with lifecycle := none }
      (.returned .nothing) []

/-- The steps of a start are these moves. -/
theorem Starting.step_eq_some_iff {phase : Starting} {refusal : Option Trouble} :
    phase.step pool caller count refusal = some (next, later, events) ↔
      Move pool caller count refusal phase next later events := by
  constructor
  · -- Each phase has its step, and each branch of the step its move.
    intro stepped
    cases phase with
    | locking =>
      obtain ⟨free, same⟩ := Option.ite_none_right_eq_some.mp stepped
      cases same
      exact .lock free
    | checking =>
      cases stepped
      cases stopped : pool.stopped with
      | true => exact .bar stopped
      | false => exact .pass stopped
    | refusing => exact .refuse (tell_eq_iff.mp (Option.some.inj stepped))
    | claiming =>
      simp only [step] at stepped
      split at stepped <;> rename_i running <;> cases stepped
      · exact .skip running
      · exact .claim (Bool.eq_false_iff.mpr running)
    | announcing => exact .announce (tell_eq_iff.mp (Option.some.inj stepped))
    | reserving =>
      obtain ⟨free, stepped⟩ := Option.ite_none_right_eq_some.mp stepped
      split at stepped <;> rename_i many <;> cases stepped
      · exact .overflow free many
      · exact .reserve free (Nat.le_of_not_lt many)
    | creating number =>
      simp only [step, create] at stepped
      split at stepped
      · -- The name is looked at before the system is asked, so a refusal
        -- shows only for a name of use.
        rename_i more
        split at stepped <;> cases stepped
        · exact .misname more ‹_›
        · exact .miss more ‹_› rfl
        · exact .hire more ‹_› rfl
      · rename_i done
        cases stepped
        exact .finish (Nat.le_of_not_lt done)
    | lamenting number failure => exact .lament (tell_eq_iff.mp (Option.some.inj stepped))
    | unlocking =>
      cases stepped
      exact .unlock
  · -- What a move needs is what the step tests.
    intro move
    cases move with
    | refuse tells | announce tells | lament tells => exact congrArg some (tell_eq_iff.mpr tells)
    | overflow free many => simp [step, free, many]
    | reserve free few => simp [step, free, Nat.not_lt.mpr few]
    | finish done => simp [step, Nat.not_lt.mpr done]
    | _ => simp [step, create, *]

/-- What a stop can do in one step. -/
inductive Stopping.Move (queue : Queue Thread Task) (pool : Pool) (caller : Nat) (timeUp : Bool)
    (worker : Nat) :
    Stopping → Queue Thread Task → Pool → Call → List Event → Prop where
  | lock (free : pool.lifecycle = none) :
    Move queue pool caller timeUp worker .locking queue { pool with lifecycle := some caller }
      (.stop .claiming) []
  | claim (running : pool.running = true) :
    Move queue pool caller timeUp worker .claiming queue { pool with running := false }
      (.stop .marking) []
  /-- A pool that does not run has nothing to stop. -/
  | skip (idle : pool.running = false) :
    Move queue pool caller timeUp worker .claiming queue pool (.stop .unlocking) []
  | mark :
    Move queue pool caller timeUp worker .marking queue { pool with stopped := true }
      (.stop .announcing) []
  | announce {next : Pool} {later : Call} {events : List Event}
    (tells : Telling pool caller .stopRequested (.stop .draining) next later events) :
    Move queue pool caller timeUp worker .announcing queue next later events
  | drained (empty : queue.items = []) :
    Move queue pool caller timeUp worker .draining queue pool (.stop .closing) []
  | tire (waiting : queue.items ≠ []) (late : timeUp = true) :
    Move queue pool caller timeUp worker .draining queue pool (.stop .warning) []
  | warn {next : Pool} {later : Call} {events : List Event}
    (tells : Telling pool caller .drainTimeout (.stop .closing) next later events) :
    Move queue pool caller timeUp worker .warning queue next later events
  | close :
    Move queue pool caller timeUp worker .closing queue.close pool (.stop .waking)
      [.queue (.closed ⟨pool.number, .caller caller⟩)]
  | wake : Move queue pool caller timeUp worker .waking queue.wakeAll pool (.stop .parting) []
  | part {next : Pool} {later : Call} {events : List Event}
    (tells : Telling pool caller .drained (.stop .gathering) next later events) :
    Move queue pool caller timeUp worker .parting queue next later events
  | gather (free : pool.rosterLock = none) :
    Move queue pool caller timeUp worker .gathering queue { pool with roster := [] }
      (.stop (.joining (pool.roster.map (·.2)))) []
  /-- Nobody is waited for any more. -/
  | rest : Move queue pool caller timeUp worker (.joining []) queue pool (.stop .unlocking) []
  | join {left : List Nat} {phase : Stopping} (joined : pool.join left worker = some phase) :
    Move queue pool caller timeUp worker (.joining left) queue pool (.stop phase) []
  | lament {left : List Nat} {failure : Failure} {next : Pool} {later : Call} {events : List Event}
    (tells : Telling pool caller (.lost failure) (.stop (.joining left)) next later events) :
    Move queue pool caller timeUp worker (.lamenting left failure) queue next later events
  | unlock :
    Move queue pool caller timeUp worker .unlocking queue { pool with lifecycle := none }
      (.returned .nothing) []

/-- A step beside the queue is one that leaves the queue alone. -/
theorem besideQueue_eq_iff {step : Pool × Call × List Event} :
    besideQueue queue step = (after, next, later, events) ↔ after = queue ∧
      step = (next, later, events) := by
  obtain ⟨_, _, _⟩ := step
  rw [besideQueue, Prod.mk.injEq, eq_comm]

/-- The steps of a stop are these moves. -/
theorem Stopping.step_eq_some_iff {phase : Stopping} {timeUp : Bool} {worker : Nat} :
    phase.step queue pool caller timeUp worker = some (after, next, later, events) ↔
      Move queue pool caller timeUp worker phase after next later events := by
  constructor
  · -- As for a start; the steps that tell a message hand the queue through.
    intro stepped
    cases phase with
    | locking =>
      obtain ⟨free, same⟩ := Option.ite_none_right_eq_some.mp stepped
      cases same
      exact .lock free
    | claiming =>
      simp only [step] at stepped
      split at stepped <;> rename_i running <;> cases stepped
      · exact .claim running
      · exact .skip (Bool.eq_false_iff.mpr running)
    | marking =>
      cases stepped
      exact .mark
    | announcing =>
      obtain ⟨rfl, tells⟩ := besideQueue_eq_iff.mp (Option.some.inj stepped)
      exact .announce (tell_eq_iff.mp tells)
    | draining =>
      simp only [step] at stepped
      split at stepped <;> rename_i empty
      · cases stepped
        exact .drained (List.isEmpty_iff.mp empty)
      · obtain ⟨late, same⟩ := Option.ite_none_right_eq_some.mp stepped
        cases same
        exact .tire (mt List.isEmpty_iff.mpr empty) late
    | warning =>
      obtain ⟨rfl, tells⟩ := besideQueue_eq_iff.mp (Option.some.inj stepped)
      exact .warn (tell_eq_iff.mp tells)
    | closing =>
      cases stepped
      exact .close
    | waking =>
      cases stepped
      exact .wake
    | parting =>
      obtain ⟨rfl, tells⟩ := besideQueue_eq_iff.mp (Option.some.inj stepped)
      exact .part (tell_eq_iff.mp tells)
    | gathering =>
      obtain ⟨free, same⟩ := Option.ite_none_right_eq_some.mp stepped
      cases same
      exact .gather free
    | joining left =>
      cases left with
      | nil =>
        cases stepped
        exact .rest
      | cons first rest =>
        obtain ⟨phase, joined, same⟩ := Option.map_eq_some_iff.mp stepped
        cases same
        exact .join joined
    | lamenting left failure =>
      obtain ⟨rfl, tells⟩ := besideQueue_eq_iff.mp (Option.some.inj stepped)
      exact .lament (tell_eq_iff.mp tells)
    | unlocking =>
      cases stepped
      exact .unlock
  · intro move
    cases move with
    | announce tells | warn tells | part tells | lament tells =>
      exact congrArg some (besideQueue_eq_iff.mpr ⟨rfl, tell_eq_iff.mpr tells⟩)
    | @join left phase joined =>
      -- Of nobody there is nobody to wait for, so the other step of this phase is not in the way.
      cases left with
      | nil => cases joined
      | cons first rest => simp [step, joined]
    | _ => simp [step, *]

/-- What a caller can do in one step. -/
inductive Call.Move (queue : Queue Thread Task) (pool : Pool) (caller : Nat) (chance : Chance) :
    Call → Queue Thread Task → Pool → Call → List Event → Prop where
  | queue {own onward : Queue.Call Task} {after : Queue Thread Task}
      {told : List (Queue.Event Thread Task)}
    (moved : own.step ⟨pool.number, .caller caller⟩ chance.woken queue =
      some (after, onward, told)) :
    Move queue pool caller chance (.queue own) after pool (.ofQueue onward) (told.map .queue)
  | push {task : Task} :
    Move queue pool caller chance (.submit (.pushing task)) (queue.append task) pool
      (.submit .notifying)
      [.queue (.pushed ⟨pool.number, .caller caller⟩ task), .submitted caller task]
  /-- A push through the pool that has put its task on the queue goes on as a call of the queue. -/
  | hand {own onward : Queue.Call Task} {after : Queue Thread Task}
      {told : List (Queue.Event Thread Task)}
    (put : ∀ task, own ≠ .pushing task)
    (moved : own.step ⟨pool.number, .caller caller⟩ chance.woken queue =
      some (after, onward, told)) :
    Move queue pool caller chance (.submit own) after pool (.submit onward) (told.map .queue)
  | count {task : Option Task} :
    Move queue pool caller chance (.submit (.returned task)) queue
      { pool with submitted := pool.submitted + 1 }
      (.returned .nothing) []
  | start {count : Nat} {phase : Starting} {next : Pool} {later : Call} {events : List Event}
    (move : phase.Move pool caller count chance.refusal next later events) :
    Move queue pool caller chance (.start count phase) queue next later events
  | stop {phase : Stopping} {after : Queue Thread Task} {next : Pool} {later : Call}
      {events : List Event}
    (move : phase.Move queue pool caller chance.timeUp chance.joined after next later events) :
    Move queue pool caller chance (.stop phase) after next later events
  | observe (free : pool.rosterLock = none) :
    Move queue pool caller chance .observe queue pool (.returned (.overview pool.overview)) []

/-- The steps of a caller are these moves. -/
theorem Call.step_eq_some_iff {call : Call} {chance : Chance} :
    call.step queue pool caller chance = some (after, next, later, events) ↔
      Move queue pool caller chance call after next later events := by
  -- A start and a stop have their own moves, and so has the queue its own steps.
  constructor
  · intro stepped
    cases call with
    | queue own =>
      obtain ⟨_, moved, same⟩ := Option.map_eq_some_iff.mp stepped
      cases same
      exact .queue moved
    | submit own =>
      cases own with
      | pushing task =>
        cases stepped
        exact .push
      | returned task =>
        cases stepped
        exact .count
      | _ =>
        simp only [step, Option.map_eq_some_iff, Prod.exists, Prod.mk.injEq] at stepped
        obtain ⟨_, _, _, moved, rfl, rfl, rfl, rfl⟩ := stepped
        exact .hand (by simp) moved
    | start count phase =>
      obtain ⟨_, moved, same⟩ := Option.map_eq_some_iff.mp stepped
      obtain ⟨rfl, rfl⟩ := besideQueue_eq_iff.mp same
      exact .start (Starting.step_eq_some_iff.mp moved)
    | stop phase => exact .stop (Stopping.step_eq_some_iff.mp stepped)
    | observe =>
      obtain ⟨free, same⟩ := Option.ite_none_right_eq_some.mp stepped
      cases same
      exact .observe free
    | returned answer => cases stepped
    | broken text => cases stepped
  · intro move
    cases move with
    | queue moved => simp [step, moved]
    | push | count => rfl
    | @hand own onward after told put moved =>
      -- A call of the queue that has returned takes no step there, so only the push
      -- itself is to be kept apart.
      cases own with
      | pushing task => exact absurd rfl (put task)
      | returned task => cases moved
      | _ => simp [step, moved]
    | start move => simp [step, Starting.step_eq_some_iff.mpr move, besideQueue]
    | stop move => exact Stopping.step_eq_some_iff.mpr move
    | observe free => simp [step, free]

end TaskPool.Pool
