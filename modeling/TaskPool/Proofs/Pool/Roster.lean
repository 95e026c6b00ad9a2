import TaskPool.Proofs.Pool.Locks

/-!
What the roster of a pool says about its workers.

Until a stop clears it, the roster has every worker that was ever created, also those that have
ended since. So it shows the workers that are alive only as long as no worker ends by itself,
which one does once the queue is closed.
-/

namespace TaskPool

namespace Pool

/-- Whether a call is a start. -/
def Call.isStart : Call → Bool
  | .start .. => true
  | _ => false

/-- The workers whose threads have not ended. -/
def live (pool : Pool) : List Worker := pool.workers.filter fun worker => !worker.isGone

/--
Whether the roster of a pool that was not stopped has all its workers, with their
places and in their order.
-/
def RollsAll (pool : Pool) : Prop := pool.stopped = false → pool.roster = pool.staffNames.zipIdx

variable {queue after : Queue Thread Task} {pool next : Pool} {events : List Event}
  {caller count : Nat} {call later : Call}

/--
Nothing changes on the roster where it, the workers and the mark of a stopped pool stay the same.
-/
theorem RollsAll.frame (rolls : pool.RollsAll) (roster : next.roster = pool.roster)
    (names : next.staffNames = pool.staffNames) (stopped : next.stopped = pool.stopped) :
    next.RollsAll := by
  intro open_
  rw [roster, names]
  exact rolls (stopped ▸ open_)

/-- A new worker comes behind all others on the roster, where its name is new. -/
theorem RollsAll.employ {number : Nat} (rolls : pool.RollsAll) (named : pool.NamedBelow number) :
    (pool.employ (pool.settings.workerName number)).RollsAll := by
  intro open_
  rw [named.employ_roster, rolls open_]
  simp [staffNames, Pool.employ, List.zipIdx_append]

/-- Telling a message leaves the roster alone, also where the caller breaks off. -/
theorem Telling.rolls {message : Message} {onward : Call}
    (tells : Telling pool caller message onward next later events) (rolls : pool.RollsAll) :
    next.RollsAll := by
  -- A caller that breaks off gives up locks, which are not on the roster.
  cases tells with
  | told => exact rolls
  | failed => exact rolls.frame rfl rfl rfl

/-- A start puts every worker that it creates on the roster. -/
theorem Starting.Move.rolls {phase : Starting} {refusal : Option Trouble}
    (move : phase.Move pool caller count refusal next later events) (rolls : pool.RollsAll)
    (own : ∀ stage, (Call.start count phase).stage? = some stage → stage.Holds pool) :
    next.RollsAll := by
  cases move with
  | refuse tells | announce tells | lament tells => exact tells.rolls rolls
  | hire =>
    -- While a start creates workers, the names on the roster are those of lower numbers.
    obtain ⟨-, -, -, named⟩ := own _ rfl
    exact rolls.employ named
  | _ => exact rolls.frame rfl rfl rfl

/-- A stop clears the roster only of a pool that is marked as stopped. -/
theorem Stopping.Move.rolls {phase : Stopping} {timeUp : Bool} {worker : Nat}
    (move : phase.Move queue pool caller timeUp worker after next later events)
    (rolls : pool.RollsAll)
    (own : ∀ stage, (Call.stop phase).stage? = some stage → stage.Holds pool) : next.RollsAll := by
  cases move with
  | announce tells | warn tells | part tells | lament tells => exact tells.rolls rolls
  | mark => exact fun open_ => by cases open_
  | gather =>
    -- By the time it clears the roster a stop has marked the pool.
    obtain ⟨-, stopped, -⟩ := own _ rfl
    exact fun open_ => absurd (open_.symm.trans stopped) Bool.false_ne_true
  | _ => exact rolls.frame rfl rfl rfl

/-- Whatever a caller does, the roster of a pool that was not stopped has all its workers. -/
theorem Call.Move.rolls {chance : Chance}
    (move : call.Move queue pool caller chance after next later events) (rolls : pool.RollsAll)
    (own : ∀ stage, call.stage? = some stage → stage.Holds pool) : next.RollsAll := by
  -- Whoever is neither a start nor a stop touches neither the roster nor the workers.
  cases move with
  | start move => exact move.rolls rolls own
  | stop move => exact move.rolls rolls own
  | _ => exact rolls.frame rfl rfl rfl

end Pool

namespace World

open Pool

variable {world next : World} {events : List Pool.Event}

/-- Every turn of a pool whose life is in order keeps all its workers on the roster. -/
theorem step_rolls {turn : Turn} (orderly : world.pool.Orderly) (rolls : world.pool.RollsAll)
    (stepped : world.step turn = some (next, events)) : next.pool.RollsAll := by
  -- A turn of a worker changes what it does, never what it is called.
  cases turn with
  | begin caller request =>
    obtain ⟨-, callers, rfl, -⟩ := step_begin stepped
    exact rolls.frame rfl rfl rfl
  | caller index chance =>
    obtain ⟨call, queue, pool, later, found, moved, rfl⟩ := step_caller.mp stepped
    have own (stage : Stage) (reached : call.stage? = some stage) : stage.Holds world.pool :=
      (orderly.held index call stage found reached).2
    exact ((Call.step_eq_some_iff.mp moved).rolls rolls own).frame rfl rfl rfl
  | worker index chance =>
    obtain ⟨name, duty, queue, pool, later, found, moved, rfl⟩ := step_worker.mp stepped
    rw [(work_progress moved).same]
    exact rolls.frame rfl (staffNames_setWorker found later) rfl
  | openGate index =>
    obtain ⟨-, name, task, left, found, rfl⟩ := step_openGate stepped
    exact rolls.frame rfl (staffNames_setWorker found _) rfl
  | resume index broken =>
    obtain ⟨name, task, request, left, later, found, rfl, -⟩ := step_resume stepped
    exact rolls.frame rfl (staffNames_setWorker found _) rfl
  | refilter filter =>
    cases stepped
    exact rolls.frame rfl rfl rfl

/--
In every run of a pool whose sink fails nobody, the roster has all workers
until the pool is stopped.
-/
theorem run_rolls {number : Nat} {settings : Settings} {sink : Sink} {turns : List Turn}
    (quiet : ∀ message : Message, sink.failsAt message.line = false)
    (ran : runOf step (fresh number settings sink) turns = some (world, events)) :
    world.pool.RollsAll := by
  -- The step needs that the life of the pool is in order, which in turn needs a quiet sink,
  -- so all three are carried.
  have kept := run_invariant
    (fun world (_ : List Pool.Event) => world.pool.Orderly ∧ world.pool.Quiet ∧ world.pool.RollsAll)
    ⟨.fresh number settings sink, quiet, fun _ => rfl⟩
    (fun _ _ _ _ _ ⟨orderly, quiet, rolls⟩ stepped =>
      ⟨(step_orderly orderly quiet stepped).1, step_quiet quiet stepped,
        step_rolls orderly rolls stepped⟩)
    ran
  exact kept.2.2

/-- Where no start and no stop goes on, the life of the pool rests. -/
theorem resting_of_quiescent {number : Nat} {settings : Settings} {sink : Sink} {turns : List Turn}
    (ran : runOf step (fresh number settings sink) turns = some (world, events))
    (orderly : world.pool.Orderly)
    (quiescent : ∀ call ∈ world.pool.callers, call.isStart = false ∧ call.isStop = false) :
    world.pool.Resting := by
  -- A pool rests whenever nobody has the lock on its life.
  refine orderly.idle ?_
  cases held : world.pool.lifecycle with
  | none => rfl
  | some owner =>
    -- Only a start or a stop would have the lock.
    obtain ⟨call, found, staged⟩ := (run_owned ran).life owner held
    obtain ⟨other, another⟩ := quiescent call (List.mem_of_getElem? found)
    cases call with
    | start => cases other
    | stop => cases another
    | _ => cases staged

/-- The living are as many as all workers just if no worker has ended. -/
theorem live_length_eq_iff (pool : Pool) :
    pool.live.length = pool.workers.length ↔ ∀ worker ∈ pool.workers, worker.isGone = false := by
  -- A filter keeps as many as there are just if it keeps all of them.
  rw [live, List.length_filter_eq_length_iff]
  simp

/-- While the queue is open no worker has ended but one that has brought a task to a deadly end. -/
theorem present_of_open {number : Nat} (books : Books number world.queue world.pool.workers events)
    (open_ : world.queue.closed = false) (index : Nat) (worker : Worker)
    (found : world.pool.workers[index]? = some worker) (spared : ¬ Stricken index events) :
    worker.isGone = false := by
  -- A worker that has ended in good order has left a queue that was drained, and so closed.
  have sound := books.unbroken found spared
  have left := books.left worker (List.mem_of_getElem? found)
  obtain ⟨name, duty⟩ := worker
  cases duty with
  | gone broken =>
    cases broken with
    | true => exact absurd rfl sound
    | false => exact absurd (open_.symm.trans (left rfl).1) Bool.false_ne_true
  | _ => rfl

/--
Where no start and no stop goes on, a pool that was stopped shows no worker, and none is alive.
-/
theorem empty_of_stopped {number : Nat} {settings : Settings} {sink : Sink} {turns : List Turn}
    (quiet : ∀ message : Message, sink.failsAt message.line = false)
    (ran : runOf step (fresh number settings sink) turns = some (world, events))
    (quiescent : ∀ call ∈ world.pool.callers, call.isStart = false ∧ call.isStop = false)
    (stopped : world.pool.stopped = true) : world.pool.roster = [] ∧ world.pool.live = [] := by
  -- A stop has waited for all workers, after it had cleared the roster.
  have resting := resting_of_quiescent ran (run_orderly quiet ran).2.1 quiescent
  obtain ⟨watched, moments, kept, rfl, -⟩ := exists_watched ran
  constructor
  · refine ((run_cleared quiet kept).2.2 stopped).resolve_right ?_
    rintro ⟨call, member, keeps⟩
    have stop := (quiescent call member).2
    cases call with
    | stop => cases stop
    | _ => cases keeps
  · refine List.filter_eq_nil_iff.mpr fun worker member => ?_
    obtain ⟨index, found⟩ := List.getElem?_of_mem member
    simp [((resting.gone stopped).2 index worker found).resolve_left List.not_mem_nil]

/--
Any number of threads use a new pool and its queue in any order, its sink fails nobody,
and no start and no stop goes on.

A pool that was not stopped shows all workers that it ever created, and one that was stopped
shows none. So both the number and the names that it shows are those of the workers that have
not ended just if the pool was stopped or no worker has ended. While the queue is open,
no worker has ended but one that has brought a task to a deadly end.
-/
theorem roster_shows_the_living {number : Nat} {settings : Settings} {sink : Sink}
    {turns : List Turn} (quiet : ∀ message : Message, sink.failsAt message.line = false)
    (ran : runOf step (fresh number settings sink) turns = some (world, events))
    (quiescent : ∀ call ∈ world.pool.callers, call.isStart = false ∧ call.isStop = false) :
    world.pool.overview.workers = world.pool.overview.names.length ∧
    world.pool.overview.names = (if world.pool.stopped then []
      else world.pool.staffNames.mergeSort) ∧
    (world.pool.overview.workers = world.pool.live.length ↔
      world.pool.stopped = true ∨ ∀ worker ∈ world.pool.workers, worker.isGone = false) ∧
    (world.pool.overview.names = (world.pool.live.map (·.name)).mergeSort ↔
      world.pool.stopped = true ∨ ∀ worker ∈ world.pool.workers, worker.isGone = false) ∧
    (world.queue.closed = false →
      ∀ (index : Nat) (worker : Worker), world.pool.workers[index]? = some worker →
      ¬ Stricken index events → worker.isGone = false) := by
  have books := (run_orderly quiet ran).1
  have counted : world.pool.overview.workers = world.pool.overview.names.length := by
    simp [overview]
  refine ⟨counted, ?_⟩
  cases stopped : world.pool.stopped with
  | true =>
    obtain ⟨empty, nobody⟩ := empty_of_stopped quiet ran quiescent stopped
    exact ⟨by simp [overview, empty], by simp [overview, empty, nobody], by simp [overview,
      empty, nobody],
      present_of_open books⟩
  | false =>
    -- Nobody was ever taken off the roster, so it shows more than the living as
    -- soon as one worker has ended.
    have rolled := run_rolls quiet ran stopped
    have shown : world.pool.overview.names = world.pool.staffNames.mergeSort := by
      simp [overview, rolled]
    have number : world.pool.overview.workers = world.pool.workers.length := by
      simp [overview, rolled, staffNames]
    refine ⟨by simpa using shown, ?_, ?_, present_of_open books⟩
    · rw [number, eq_comm, live_length_eq_iff]
      simp
    · rw [shown]
      simp only [Bool.false_eq_true, false_or]
      constructor
      · -- Lists of names that are equal are equally long.
        intro same
        have lengths := congrArg List.length same
        simp only [List.length_mergeSort, staffNames, List.length_map] at lengths
        exact (live_length_eq_iff _).mp lengths.symm
      · intro present
        have all : world.pool.live = world.pool.workers :=
          List.filter_eq_self.mpr fun worker member => by simp [present worker member]
        rw [all]
        rfl

/-- Two workers are started, and then the queue is closed without the pool, and both workers end. -/
def desertedPool : List Turn :=
  .begin 0 (.start 2) :: List.replicate 9 (.caller 0 hasty) ++
  .begin 1 (.queue .close) :: List.replicate 2 (.caller 1 hasty) ++
  List.replicate 3 (.worker 0 hasty) ++ List.replicate 3 (.worker 1 hasty)

/-- The pool shows two workers when none is left. -/
theorem deserted_pool_shows_two_workers :
    ∃ world events, runOf step (fresh 0 .default .keepAll) desertedPool = some (world, events) ∧
      (∀ call ∈ world.pool.callers, call.isStart = false ∧ call.isStop = false) ∧
      world.pool.overview.workers = 2 ∧ world.pool.live.length = 0 ∧
      world.pool.overview.names ≠ (world.pool.live.map (·.name)).mergeSort := by
  have run : ((runOf step (fresh 0 .default .keepAll) desertedPool).map fun run =>
      (run.1.pool.callers.all fun call => !call.isStart && !call.isStop,
        run.1.pool.overview.workers, run.1.pool.live.length)) = some (true, 2, 0) := by
    decide +kernel
  simp only [Option.map_eq_some_iff, Prod.exists, Prod.mk.injEq] at run
  obtain ⟨world, events, ran, idle, two, nobody⟩ := run
  refine ⟨world, events, ran, by simpa using idle, two, nobody, fun same => ?_⟩
  -- As many names are shown as workers.
  have lengths := congrArg List.length same
  have shown : world.pool.roster.length = 2 := two
  simp [overview, shown, nobody] at lengths

/-- Before the queue is closed, the pool shows its two workers, and both are alive. -/
theorem manned_pool_shows_the_living :
    ∃ world events, runOf step (fresh 0 .default .keepAll) (desertedPool.take 10) =
      some (world, events) ∧
      world.pool.overview.workers = 2 ∧ world.pool.overview.workers = world.pool.live.length ∧
      world.pool.overview.names = (world.pool.live.map (·.name)).mergeSort := by
  have run : ((runOf step (fresh 0 .default .keepAll) (desertedPool.take 10)).map fun run =>
      (run.1.pool.callers.all fun call => !call.isStart && !call.isStop, run.1.queue.closed,
        run.2.all Event.isMild, run.1.pool.overview.workers)) = some (true, false, true, 2) := by
    decide +kernel
  simp only [Option.map_eq_some_iff, Prod.exists, Prod.mk.injEq] at run
  obtain ⟨world, events, ran, idle, open_, mild, two⟩ := run
  -- The queue is open and no task has come to a deadly end, so nobody has ended yet.
  obtain ⟨-, -, count, names, present⟩ :=
    roster_shows_the_living (fun _ => rfl) ran (by simpa using idle)
  have here : ∀ worker ∈ world.pool.workers, worker.isGone = false := by
    intro worker member
    obtain ⟨index, found⟩ := List.getElem?_of_mem member
    exact present open_ index worker found (Mild.spares (List.all_eq_true.mp mild) index)
  exact ⟨world, events, ran, two, count.mpr (.inr here), names.mpr (.inr here)⟩

end World

end TaskPool
