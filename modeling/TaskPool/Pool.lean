import TaskPool.Log.Sinks
import TaskPool.Pool.Call
import TaskPool.Pool.Message
import TaskPool.Settings
import TaskPool.Tally

/-! A pool: its settings, its workers, the calls made on it, and the counters they all share. -/

namespace TaskPool

/-- What a worker is doing. -/
inductive Duty where
  /-- About to tell that it begins. -/
  | opening
  /-- Looks for a task, or sleeps until there is one. -/
  | fetching
  /-- Runs a task, with this much of it left to do. -/
  | working (task : Task) (left : List Action)
  /-- About to count a task that has ended. -/
  | counting (task : Task) (outcome : Outcome)
  /-- About to tell that a task came to a bad end, if it did. -/
  | reporting (failure : Option Failure)
  /-- About to add the time that a task took. -/
  | timing
  /-- About to tell that it ends. -/
  | closing
  /-- Its thread has ended, or has broken off. -/
  | gone (broken : Bool)

/-- A worker and what it is doing. -/
structure Worker where
  name : String
  duty : Duty

/-- Whether the thread of a worker has ended, in one way or the other. -/
def Worker.isGone (worker : Worker) : Bool :=
  match worker.duty with
  | .gone _ => true
  | _ => false

/-- A pool of workers. -/
structure Pool where
  /-- The number by which the threads of the pool are told from those of other pools. -/
  number : Nat
  settings : Settings
  sink : Sink
  /-- Whether the pool was started and not stopped since. -/
  running : Bool
  /-- Whether the pool was stopped, which is for good. -/
  stopped : Bool
  /--
  The caller that holds the lock on the pool's life, so that only one start
  or stop goes on at a time.
  -/
  lifecycle : Option Nat
  /-- The caller that holds the lock on the roster. -/
  rosterLock : Option Nat
  /-- The names of the workers that were created and not taken off since, with their places. -/
  roster : List (String × Nat)
  /-- All workers that were ever created, in this order. -/
  workers : List Worker
  /-- All callers that ever came, each with its present or last call. -/
  callers : List Pool.Call
  tally : Tally
  /-- How many tasks were submitted through the pool. -/
  submitted : UInt64

/-- What happens at a pool and its queue. -/
inductive Pool.Event where
  | queue (event : Queue.Event Thread Task)
  /-- A task was put on the queue through the pool. -/
  | submitted (caller : Nat) (task : Task)
  /-- A line was kept. -/
  | logged (seat : Seat) (message : Message)
  /-- A task left a note. -/
  | noted (value : Json.Value)
  /-- A worker has come to the end of a task. -/
  | ended (worker : Nat) (task : Task) (outcome : Outcome)

namespace Pool

/-- A new pool. -/
def fresh (number : Nat) (settings : Settings) (sink : Sink) : Pool where
  number := number
  settings := settings
  sink := sink
  running := false
  stopped := false
  lifecycle := none
  rosterLock := none
  roster := []
  workers := []
  callers := []
  tally := .zero
  submitted := 0

/-- A new pool, unless its settings make no sense; then the first rule that they break. -/
def ofSettings (number : Nat) (settings : Settings) (sink : Sink) : Except Failure Pool :=
  settings.validate.map (fresh number · sink)

/-- What is kept of a message. -/
def kept (pool : Pool) (seat : Seat) (message : Message) : List Event :=
  if pool.sink.filter.admits message.severity then [.logged seat message] else []

/-- Whether the one that tells a message breaks off. -/
def failsAt (pool : Pool) (message : Message) : Bool := pool.sink.failsAt message.line

/-- The roster with one more name, which takes the place of an equal one. -/
def enlist (pool : Pool) (name : String) (index : Nat) : Pool :=
  { pool with roster := pool.roster.filter (·.1 ≠ name) ++ [(name, index)] }

/-- The pool once a caller has given up whatever it holds. -/
def release (pool : Pool) (caller : Nat) : Pool :=
  { pool with
    lifecycle := if pool.lifecycle = some caller then none else pool.lifecycle
    rosterLock := if pool.rosterLock = some caller then none else pool.rosterLock }

/-- What a pool shows of itself. -/
def overview (pool : Pool) : Overview where
  running := pool.running
  workers := pool.roster.length
  names := (pool.roster.map (·.1)).mergeSort
  submitted := pool.submitted

/-- The outline of a pool with its queue. -/
def outline (pool : Pool) (queue : Queue Thread Task) : Text.Outline :=
  .record "WorkerPool"
    [("config", pool.settings.outline), ("queue", queue.outline), ("running", .truth pool.running),
      ("stopped", .truth pool.stopped), ("total_tasks_submitted", .number pool.submitted.toNat)]

end Pool

end TaskPool
