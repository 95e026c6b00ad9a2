import TaskPool.Pool

/-!
The steps of a worker: it takes tasks from the queue, runs them, counts how they end,
and tells of the bad ends.

A task that breaks off does not take its worker with it. What it has left behind may do so,
if the end is a deadly one.
-/

namespace TaskPool

namespace Outcome

/-- What is added to the counters for a task that ended in this way. -/
def tick : Outcome → Tick
  | .completed => .completed
  | .failed _ | .unspeakable => .failed
  | .panicked _ => .panicked

/--
The failure that a worker reports for a task that ended in this way, if it comes to report one.
-/
def trouble? (worker : String) : Outcome → Option Failure
  | .completed | .unspeakable | .panicked .volatile => none
  | .failed failure => some (.taskFailed worker failure.display)
  | .panicked payload => some (.taskPanicked worker payload.text)

end Outcome

namespace Pool

/-- A worker tells a message and goes on with its next duty, or breaks off. -/
def utter (pool : Pool) (index : Nat) (message : Message) (next : Duty) : Duty × List Event :=
  (if pool.failsAt message then .gone true else next, pool.kept (.worker index) message)

/--
The next step of a worker, if it can go on.

A worker that sleeps cannot, and neither can one whose task waits for somebody else.
-/
def work (queue : Queue Thread Task) (pool : Pool) (index : Nat) (name : String) (micros : UInt64) :
    Duty → Option (Queue Thread Task × Pool × Duty × List Event)
  | .opening => some (queue, pool, pool.utter index (.started name) .fetching)
  | .fetching =>
    let self : Thread := ⟨pool.number, .worker index⟩
    if self ∈ queue.asleep then none
    else
      match queue.take self with
      | (.item task, rest) =>
        some (rest, pool, .working task task.actions, [.queue (.popped self (some task))])
      | (.ended, rest) => some (rest, pool, .closing, [.queue (.popped self none)])
      | (.nothing, rest) => some (rest, pool, .fetching, [])
  | .working task [] =>
    some (queue, pool, .counting task task.outcome, [.ended index task task.outcome])
  | .working task (.note value :: left) => some (queue, pool, .working task left, [.noted value])
  | .working task (.noteThread label :: left) =>
    some (queue, pool, .working task left, [.noted (.list [label, .text name])])
  -- Somebody else opens the gate, or brings back what the call came to.
  | .working _ (.await :: _) => none
  | .working _ (.ask _ :: _) => none
  -- A task is counted before anything is told about it, and before what it has
  -- left behind is thrown away.
  | .counting _ outcome =>
    some (queue, { pool with tally := pool.tally.add outcome.tick },
      if outcome.isDeadly then .gone true else .reporting (outcome.trouble? name), [])
  | .reporting none => some (queue, pool, .timing, [])
  | .reporting (some failure) =>
    some (queue, pool, pool.utter index (.troubled name failure) .timing)
  | .timing => some (queue, { pool with tally := pool.tally.add (.micros micros) }, .fetching, [])
  | .closing => some (queue, pool, pool.utter index (.finished name) (.gone false))
  | .gone _ => none

end Pool

end TaskPool
