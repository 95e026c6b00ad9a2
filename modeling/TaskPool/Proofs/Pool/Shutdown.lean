import TaskPool.Proofs.Pool.Frame
import TaskPool.Proofs.Pool.Lifecycle

/-!
A stop that has returned leaves nothing behind: all workers have ended,
and every task that they took was run.
-/

namespace TaskPool.World

open Pool (Books Orderly SameLife Stricken endedBy queueEvents)
open Queue (gotBy pushedItems pushedWhileOpen removedItems)

variable {world next : World} {events more : List Pool.Event}

/-- A turn that leaves the callers as they are and the life of the pool the same keeps the order. -/
theorem keep_orderly {pool later : Pool} (orderly : pool.Orderly) (same : SameLife pool later)
    (callers : later.callers = pool.callers) : later.Orderly ∧ (pool.Retired → later.Retired) :=
  ⟨orderly.frame same fun _ _ _ found _ => callers ▸ found, same.retired⟩

/-- What stands in a list where one place was set stood there before, or is what was set. -/
theorem getElem?_of_set {α : Type} {all : List α} {place other : Nat} {new known : α}
    (found : (all.set place new)[other]? = some known) :
    all[other]? = some known ∨ known = new := by
  -- Only the place that was set can tell.
  rw [List.getElem?_set] at found
  split at found
  · obtain ⟨-, same⟩ := Option.ite_none_right_eq_some.mp found
    exact .inr (Option.some.inj same).symm
  · exact .inl found

/-- Every turn keeps the life of the pool in order, and a pool that has retired stays so. -/
theorem step_orderly {turn : Turn} (orderly : world.pool.Orderly) (quiet : world.pool.Quiet)
    (stepped : world.step turn = some (next, more)) :
    next.pool.Orderly ∧ (world.pool.Retired → next.pool.Retired) := by
  -- Callers act by their calls, and everybody else leaves the callers as they are.
  cases turn with
  | begin caller request =>
    obtain ⟨-, callers, rfl, added⟩ := step_begin stepped
    have same : SameLife world.pool { world.pool with callers := callers } := {}
    refine ⟨orderly.frame same fun other call stage found reached => ?_, same.retired⟩
    -- The new call is at no stage, so the one that is at a stage was there before.
    have old : call ≠ request.call := by
      rintro rfl
      simp [request.stage?_call] at reached
    rcases added with rfl | ⟨before, -, -, rfl⟩
    · rw [List.getElem?_append] at found
      split at found
      · exact found
      · exact absurd (List.mem_singleton.mp (List.mem_of_getElem? found)) old
    · exact (getElem?_of_set found).resolve_right old
  | caller index chance =>
    obtain ⟨call, queue, pool, after, found, moved, rfl⟩ := step_caller.mp stepped
    have own (stage : Pool.Stage) (reached : call.stage? = some stage) :=
      orderly.held index call stage found reached
    have callers := (Pool.Call.step_visit moved).callers
    -- Either the step is beside the life of the pool, or it is one of the call
    -- that holds the lock on it.
    rcases Pool.Call.step_life quiet moved orderly.idle own with
      ⟨same, left⟩ | ⟨alone, standing, retires⟩
    · refine ⟨orderly.frame (same.setCaller index after) fun other before stage known reached => ?_,
        (same.setCaller index after).retired⟩
      -- The call that has gone on is at no stage.
      have old : before ≠ after := by
        rintro rfl
        simp [left] at reached
      exact callers ▸ (getElem?_of_set known).resolve_right old
    · exact ⟨orderly.stand callers alone standing, retires⟩
  | worker index chance =>
    -- A worker that has ended takes no step.
    obtain ⟨name, duty, queue, pool, after, found, moved, rfl⟩ := step_worker.mp stepped
    have present : (⟨name, duty⟩ : Worker).isGone = false := by
      cases duty with
      | gone broken => cases moved
      | _ => rfl
    rw [(Pool.work_toil quiet moved).2]
    exact keep_orderly orderly (.setWorker after _ found present) rfl
  | openGate index =>
    obtain ⟨-, name, task, left, found, rfl⟩ := step_openGate stepped
    exact keep_orderly orderly (.setWorker _ world.pool.tally found rfl) rfl
  | resume index broken =>
    obtain ⟨name, task, request, left, after, found, rfl, -⟩ := step_resume stepped
    exact keep_orderly orderly (.setWorker _ world.pool.tally found rfl) rfl
  | refilter filter =>
    cases stepped
    exact keep_orderly orderly {} rfl

/--
In every run of a pool whose sink fails nobody, the books are right and the
life of the pool is in order.
-/
theorem run_orderly {number : Nat} {settings : Settings} {sink : Sink} {turns : List Turn}
    (quiet : ∀ message : Message, sink.failsAt message.line = false)
    (ran : runOf step (fresh number settings sink) turns = some (world, events)) :
    Books number world.queue world.pool.workers events ∧ world.pool.Orderly ∧ world.pool.Quiet := by
  -- The three invariants lean on each other, so they are carried through the run together.
  have kept := run_invariant
    (fun world events => (Books world.pool.number world.queue world.pool.workers events ∧
      world.pool.number = number) ∧ world.pool.Orderly ∧ world.pool.Quiet)
    ⟨⟨fresh_books number settings sink, rfl⟩, .fresh number settings sink, quiet⟩
    (fun before events turn next new ⟨⟨books, same⟩, orderly, quiet⟩ stepped =>
      have ⟨books, number⟩ := step_books books quiet stepped
      ⟨⟨books, number.trans same⟩, (step_orderly orderly quiet stepped).1,
        step_quiet quiet stepped⟩)
    ran
  obtain ⟨⟨books, rfl⟩, orderly, quiet⟩ := kept
  exact ⟨books, orderly, quiet⟩

/--
In a pool that has retired, a worker that has brought no task to a deadly end has
come to a good end itself.
-/
theorem gone_well_of_retired {number index : Nat} {worker : Worker} (retired : world.pool.Retired)
    (books : Books number world.queue world.pool.workers events)
    (found : world.pool.workers[index]? = some worker) (spared : ¬ Stricken index events) :
    worker.duty = .gone false := by
  -- A worker that has ended did so well or badly, and the books exclude the second.
  have ended : worker.isGone = true := (retired.2 index worker found).resolve_left List.not_mem_nil
  have sound := books.unbroken found spared
  cases duty : worker.duty with
  | gone broken =>
    cases broken with
    | true => exact absurd duty sound
    | false => rfl
  | _ => simp [Worker.isGone, duty] at ended

/-- Where all workers have ended, nothing is in anybody's hand. -/
theorem handOf_gone {workers : List Worker} (gone : ∀ worker ∈ workers, worker.isGone = true)
    (index : Nat) :
    handOf workers index = [] := by
  -- A hand holds something only while its worker works.
  unfold handOf
  cases found : workers[index]? with
  | none => rfl
  | some worker =>
    have ended := gone worker (List.mem_of_getElem? found)
    cases duty : worker.duty with
    | working task left => simp [Worker.isGone, duty] at ended
    | _ => simp [Duty.inHand, duty]

/-- A pool that has retired stays so whatever happens. -/
theorem run_retired {turns : List Turn} (orderly : world.pool.Orderly) (quiet : world.pool.Quiet)
    (retired : world.pool.Retired) (ran : runOf step world turns = some (next, events)) :
    next.pool.Retired :=
  (run_invariant (fun world _ => world.pool.Orderly ∧ world.pool.Quiet ∧ world.pool.Retired)
    ⟨orderly, quiet, retired⟩
    (fun _ _ _ _ _ ⟨orderly, quiet, retired⟩ stepped =>
      have ⟨orderly, retires⟩ := step_orderly orderly quiet stepped
      ⟨orderly, step_quiet quiet stepped, retires retired⟩)
    ran).2.2

/--
Once a stop has returned from a pool that was stopped, all workers have
ended and the books are right.

Those that have brought no task to a deadly end have ended well.
-/
theorem gone_of_return {number caller : Nat} {settings : Settings} {sink : Sink}
    {chance : Pool.Chance} {early late : List Turn} {before : World}
    (quiet : ∀ message : Message, sink.failsAt message.line = false)
    (ran : runOf step (fresh number settings sink) early = some (before, events))
    (returning : before.pool.callers[caller]? = some (.stop .unlocking))
    (stopped : before.pool.stopped = true)
    (went : runOf step before (.caller caller chance :: late) = some (world, more)) :
    Books number world.queue world.pool.workers (events ++ more) ∧
      (∀ worker ∈ world.pool.workers, worker.isGone = true) ∧
      ∀ (index : Nat) (worker : Worker), world.pool.workers[index]? = some worker →
        ¬ Stricken index (events ++ more) → worker.duty = .gone false := by
  -- A stop of a stopped pool that is about to return finds it at rest, and there it stays.
  obtain ⟨-, orderly, still⟩ := run_orderly quiet ran
  have resting : before.pool.Resting := (orderly.held caller _ .resting returning rfl).2
  have retired : world.pool.Retired :=
    run_retired orderly still ⟨stopped, (resting.gone stopped).2⟩ went
  obtain ⟨books, -, -⟩ :=
    run_orderly quiet (runOf_append.mpr ⟨before, events, more, ran, went, rfl⟩)
  refine ⟨books, fun worker member => ?_, fun index worker found spared => ?_⟩
  · obtain ⟨index, found⟩ := List.getElem?_of_mem member
    exact (retired.2 index worker found).resolve_left List.not_mem_nil
  · exact gone_well_of_retired retired books found spared

/--
Any number of threads use a new pool and its queue in any order, its sink fails nobody,
and a stop returns from the pool once it was stopped.

From then on all workers have ended, and those have ended well that brought no task to a deadly end.
What was put on the queue is what has left it and then what it holds, in one order;
what left it for a worker, that worker has run to its end, once; and nobody else has run anything.
If there was a worker that brought no task to a deadly end, then whatever was put on the queue
before it was first closed has left it.
-/
theorem stop_loses_and_repeats_nothing {number caller : Nat} {settings : Settings} {sink : Sink}
    {chance : Pool.Chance} {early late : List Turn} {before : World}
    (quiet : ∀ message : Message, sink.failsAt message.line = false)
    (ran : runOf step (fresh number settings sink) early = some (before, events))
    (returning : before.pool.callers[caller]? = some (.stop .unlocking))
    (stopped : before.pool.stopped = true)
    (went : runOf step before (.caller caller chance :: late) = some (world, more)) :
    (∀ worker ∈ world.pool.workers, worker.isGone = true) ∧
    (∀ (index : Nat) (worker : Worker), world.pool.workers[index]? = some worker →
      ¬ Stricken index (events ++ more) → worker.duty = .gone false) ∧
    pushedItems (queueEvents (events ++ more)) =
      removedItems (queueEvents (events ++ more)) ++ world.queue.items ∧
    (∀ index, endedBy index (events ++ more) =
      gotBy ⟨number, .worker index⟩ (queueEvents (events ++ more))) ∧
    (∀ index, world.pool.workers.length ≤ index → endedBy index (events ++ more) = []) ∧
    ((∃ index < world.pool.workers.length, ¬ Stricken index (events ++ more)) →
      pushedWhileOpen (queueEvents (events ++ more)) <+:
      removedItems (queueEvents (events ++ more))) := by
  obtain ⟨books, gone, well⟩ := gone_of_return quiet ran returning stopped went
  have ledger : pushedItems (queueEvents (events ++ more)) =
      removedItems (queueEvents (events ++ more)) ++ world.queue.items := by
    simpa [Queue.contents] using books.path.ledger
  have idle (index : Nat) : handOf world.pool.workers index = [] := handOf_gone gone index
  refine ⟨gone, well, ledger, fun index => ?_, fun index beyond => ?_, ?_⟩
  · -- Nothing is in the hand of a worker, so it has ended all that it got.
    rw [books.hands index, idle index, List.append_nil]
  · -- A worker that was never created has got nothing, so it has ended nothing.
    have nothing := books.hands index
    rw [books.absent index beyond, idle index, List.append_nil] at nothing
    exact nothing.symm
  · -- A worker that has left saw the queue closed and empty, so as much has left it
    -- as came while it was open.
    rintro ⟨index, within, spared⟩
    have found := List.getElem?_eq_getElem within
    obtain ⟨-, fewer⟩ :=
      books.left _ (List.mem_of_getElem? found) (by rw [well index _ found spared]; rfl)
    exact List.prefix_of_prefix_length_le (Queue.pushedWhileOpen_prefix _)
      (ledger ▸ List.prefix_append ..) fewer

/-- Nothing goes wrong and nobody is woken, but time is always up. -/
def hasty : Pool.Chance := ⟨none, none, true, 0, 0⟩

/-- A task that does nothing and comes to an end. -/
def shortTask (label : Nat) (outcome : Outcome) : Task := .mk (.natural label) [] outcome

/-- Whether a call has returned with nothing. -/
def hasReturned : Pool.Call → Bool
  | .returned .nothing => true
  | _ => false

/-- Whether a call is a stop that is about to give up the lock. -/
def isUnlocking : Pool.Call → Bool
  | .stop .unlocking => true
  | _ => false

/-- There is just one such stop. -/
theorem eq_of_isUnlocking {call : Pool.Call} (unlocking : isUnlocking call = true) :
    call = .stop .unlocking := by
  unfold isUnlocking at unlocking
  split at unlocking
  · rfl
  · cases unlocking

/--
A stop with one worker gives up its wait, the second task breaks off,
and a third one comes too late.
-/
def hurriedStop : List Turn :=
  .begin 0 (.start 1) :: List.replicate 8 (.caller 0 hasty) ++
  [.begin 1 (.submit (shortTask 1 .completed)), .caller 1 hasty, .worker 0 hasty, .worker 0 hasty,
    .begin 2 (.queue (.push (shortTask 2 (.panicked .unreadable)))), .caller 2 hasty,
    .begin 0 .stop] ++
  List.replicate 10 (.caller 0 hasty) ++ List.replicate 11 (.worker 0 hasty) ++
  [.begin 3 (.queue (.push (shortTask 3 .completed))), .caller 3 hasty, .caller 0 hasty,
    .caller 0 hasty]

/--
Both tasks that came in time were run by the worker, and the one that came too late is still there.
-/
theorem hurried_stop_runs_both_tasks :
    ∃ before events world more,
      runOf step (fresh 0 .default .keepAll) hurriedStop = some (before, events) ∧
      before.pool.callers[0]? = some (.stop .unlocking) ∧ before.pool.stopped = true ∧
      runOf step before [.caller 0 hasty] = some (world, more) ∧
      (endedBy 0 (events ++ more)).length = 2 ∧ world.queue.items.length = 1 ∧
      endedBy 0 (events ++ more) = gotBy ⟨0, .worker 0⟩ (queueEvents (events ++ more)) ∧
      pushedWhileOpen (queueEvents (events ++ more)) <+:
        removedItems (queueEvents (events ++ more)) := by
  -- The run is evaluated once, with what is to be known about it, and then taken apart.
  have run : ((runOf step (fresh 0 .default .keepAll) hurriedStop).bind fun (before, events) =>
      (runOf step before [.caller 0 hasty]).map fun (world, more) =>
        ((before.pool.callers[0]?).any isUnlocking, before.pool.stopped,
          (events ++ more).all Pool.Event.isMild,
          [(endedBy 0 (events ++ more)).length, world.queue.items.length,
            world.pool.workers.length])) =
          some (true, true, true, [2, 1, 1]) := by
    decide +kernel
  simp only [Option.bind_eq_some_iff, Option.map_eq_some_iff, Prod.exists, Prod.mk.injEq,
    Option.any_eq_true, List.cons.injEq, and_true] at run
  obtain ⟨before, events, ran, world, more, went, ⟨call, found, same⟩, stopped, mild,
    ended, left, staff⟩ := run
  have returning : before.pool.callers[0]? = some (.stop .unlocking) :=
    eq_of_isUnlocking same ▸ found
  -- The one worker has brought no task to a deadly end.
  have spared : ∃ index < world.pool.workers.length, ¬ Stricken index (events ++ more) :=
    ⟨0, by omega, Pool.Mild.spares (List.all_eq_true.mp mild) 0⟩
  obtain ⟨-, -, -, run, -, whole⟩ :=
    stop_loses_and_repeats_nothing (fun _ => rfl) ran returning stopped went
  exact ⟨before, events, world, more, ran, returning, stopped, went, ended, left, run 0,
    whole spared⟩

/-- A pool with one worker is given two tasks, and a stop returns after some steps of the worker. -/
def bereavedStop (outcome : Outcome) (steps : Nat) : List Turn :=
  .begin 0 (.start 1) :: List.replicate 8 (.caller 0 hasty) ++
  .begin 1 (.submit (shortTask 1 outcome)) :: List.replicate 3 (.caller 1 hasty) ++
  .begin 1 (.submit (shortTask 2 .completed)) :: List.replicate 3 (.caller 1 hasty) ++
  List.replicate steps (.worker 0 hasty) ++ .begin 0 .stop :: List.replicate 14 (.caller 0 hasty)

/-- A sink that fails whoever tells of a task that broke off. -/
def touchySink : Sink := { Sink.keepAll with failsOn := some "Exception" }

/--
Whether a stop has returned, but of two tasks that came in time to a pool with one
worker one was never run.
-/
def strandsOne (world : World) (events : List Pool.Event) : Bool :=
  (world.pool.callers[0]?).any hasReturned && world.pool.stopped && world.pool.workers.length = 1 &&
    (pushedWhileOpen (queueEvents events)).length = 2 && (endedBy 0 events).length = 1 &&
    world.queue.items.length = 1

/-- Where one task was never run, those that came in time are more than one. -/
theorem not_prefix_of_strandsOne {run : List Task} (strands : strandsOne world events = true)
    (one : run.length = 1) :
    ¬ pushedWhileOpen (queueEvents events) <+: run := by
  intro fits
  have few := fits.length_le
  simp only [strandsOne, Bool.and_eq_true, decide_eq_true_eq] at strands
  omega

/--
A worker that breaks off leaves behind what came in time.

It breaks off where the first task leaves something behind that cannot be thrown away,
and where the sink fails it while it tells of that task.
-/
theorem broken_worker_strands_a_task :
    (∃ world events,
      runOf step (fresh 0 .default .keepAll) (bereavedStop (.panicked .volatile) 4) =
      some (world, events) ∧
      strandsOne world events = true ∧
      ¬ pushedWhileOpen (queueEvents events) <+: removedItems (queueEvents events)) ∧
    ∃ world events,
      runOf step (fresh 0 .default touchySink) (bereavedStop (.panicked (.message "no")) 5) =
      some (world, events) ∧
      strandsOne world events = true ∧
      ¬ pushedWhileOpen (queueEvents events) <+: removedItems (queueEvents events) := by
  -- Of the two tasks only one has left the queue.
  have stranded {sink : Sink} {turns : List Turn}
      (run : (runOf step (fresh 0 .default sink) turns).map (fun run =>
        (strandsOne run.1 run.2, (removedItems (queueEvents run.2)).length)) = some (true, 1)) :
      ∃ world events, runOf step (fresh 0 .default sink) turns = some (world, events) ∧
        strandsOne world events = true ∧
        ¬ pushedWhileOpen (queueEvents events) <+: removedItems (queueEvents events) := by
    simp only [Option.map_eq_some_iff, Prod.exists, Prod.mk.injEq] at run
    obtain ⟨world, events, ran, strands, one⟩ := run
    exact ⟨world, events, ran, strands, not_prefix_of_strandsOne strands one⟩
  exact ⟨stranded (by decide +kernel), stranded (by decide +kernel)⟩

end TaskPool.World
