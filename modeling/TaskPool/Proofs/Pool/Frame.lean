import TaskPool.Proofs.Pool.Balance

/-!
What no turn changes: the settings of a pool, what its sink fails on, and that its queue is closed.
-/

namespace TaskPool.World

open Queue (Contents)
open Pool (queueEvents)

variable {world next : World} {events : List Pool.Event} {number : Nat} {settings : Settings}
  {sink : Sink}

/-- The filter in force after a turn. -/
def Turn.filterAfter (filter : Filter) : Turn → Filter
  | .refilter other => other
  | _ => filter

/-- What a turn leaves of a world as it is. -/
structure Frame (world next : World) (turn : Turn) (events : List Pool.Event) : Prop where
  path : Contents.Path world.queue.contents (queueEvents events) next.queue.contents
  settings : next.pool.settings = world.pool.settings
  sink : next.pool.sink = { world.pool.sink with filter := turn.filterAfter world.pool.sink.filter }

/--
No turn changes the settings, nor more of the sink than what is to be kept,
and the queue goes on from where it was.
-/
theorem step_frame {turn : Turn} (stepped : world.step turn = some (next, events)) :
    world.Frame next turn events := by
  -- Only callers and workers could change anything, and both say what they keep.
  cases turn with
  | begin caller request =>
    obtain ⟨rfl, callers, rfl, -⟩ := step_begin stepped
    exact ⟨.done, rfl, rfl⟩
  | caller index chance =>
    obtain ⟨call, queue, pool, later, -, moved, rfl⟩ := step_caller.mp stepped
    have visit := Pool.Call.step_visit moved
    exact ⟨visit.path, visit.settings, visit.sink⟩
  | worker index chance =>
    obtain ⟨name, duty, queue, pool, later, -, moved, rfl⟩ := step_worker.mp stepped
    have progress := Pool.work_progress moved
    rw [progress.same]
    exact ⟨progress.path, rfl, rfl⟩
  | openGate index =>
    obtain ⟨rfl, name, task, left, -, rfl⟩ := step_openGate stepped
    exact ⟨.done, rfl, rfl⟩
  | resume index broken =>
    obtain ⟨name, task, request, left, later, -, rfl, moved⟩ := step_resume stepped
    -- Whether the task goes on or breaks off with its call, nothing happens at the queue.
    rcases moved with ⟨-, rfl⟩ | ⟨text, -, rfl⟩ <;> exact ⟨.done, rfl, rfl⟩
  | refilter filter =>
    -- What the sink keeps is the one thing that such a turn is there to change.
    cases stepped
    exact ⟨.done, rfl, rfl⟩

/-- A queue that is closed stays closed. -/
theorem step_closed {turn : Turn} (closed : world.queue.closed = true)
    (stepped : world.step turn = some (next, events)) : next.queue.closed = true :=
  (step_frame stepped).path.closed_iff.mpr (.inl closed)

/-- A sink that fails nobody goes on failing nobody. -/
theorem step_quiet {turn : Turn} (quiet : world.pool.Quiet)
    (stepped : world.step turn = some (next, events)) :
    next.pool.Quiet := by
  -- What a sink fails on does not depend on what it keeps.
  intro message
  rw [Pool.failsAt, (step_frame stepped).sink]
  exact quiet message

/-- In every run from a new pool, the settings are those of the new pool. -/
theorem run_settings {turns : List Turn}
    (ran : runOf step (fresh number settings sink) turns = some (world, events)) :
    world.pool.settings = settings :=
  run_invariant (fun world _ => world.pool.settings = settings) rfl
    (fun _ _ _ _ _ same stepped => (step_frame stepped).settings.trans same) ran

end TaskPool.World
