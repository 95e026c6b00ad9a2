import TaskPool.Pool.Starting

/-!
The steps of a stop: a bounded wait for the queue to become empty, closing it,
and the wait for the workers.
-/

namespace TaskPool.Pool

/-- A step of a stop that leaves the queue alone. -/
def besideQueue (queue : Queue Thread Task) :
    Pool × Call × List Event → Queue Thread Task × Pool × Call × List Event
  | (pool, call, events) => (queue, pool, call, events)

/-- The step of a stop that waits for the thread of a worker, if that has ended. -/
def join (pool : Pool) (left : List Nat) (worker : Nat) : Option Stopping :=
  if worker ∈ left then
    match pool.workers[worker]? with
    | some ⟨name, .gone broken⟩ =>
      some (if broken then .lamenting (left.erase worker) (.join name)
        else .joining (left.erase worker))
    | _ => none
  else none

/--
The next step of a stop, if it can go on.

The wait for the queue is told whether time is up, and the wait for the workers
is told which one to wait for.
-/
def Stopping.step (queue : Queue Thread Task) (pool : Pool) (caller : Nat) (timeUp : Bool)
    (worker : Nat) :
    Stopping → Option (Queue Thread Task × Pool × Call × List Event)
  | .locking =>
    if pool.lifecycle = none then some (queue, { pool with lifecycle := some caller },
      .stop .claiming, [])
    else none
  | .claiming =>
    -- A pool that does not run has nothing to stop.
    if pool.running then some (queue, { pool with running := false }, .stop .marking, [])
    else some (queue, pool, .stop .unlocking, [])
  | .marking => some (queue, { pool with stopped := true }, .stop .announcing, [])
  | .announcing => some (besideQueue queue (pool.tell caller .stopRequested (.stop .draining)))
  | .draining =>
    -- An empty queue is enough, even if tasks are still being run.
    if queue.items.isEmpty then some (queue, pool, .stop .closing, [])
    else if timeUp then some (queue, pool, .stop .warning, [])
    else none
  | .warning => some (besideQueue queue (pool.tell caller .drainTimeout (.stop .closing)))
  | .closing =>
    some (queue.close, pool, .stop .waking, [.queue (.closed ⟨pool.number, .caller caller⟩)])
  | .waking => some (queue.wakeAll, pool, .stop .parting, [])
  | .parting => some (besideQueue queue (pool.tell caller .drained (.stop .gathering)))
  | .gathering =>
    -- The workers are off the roster before they are waited for, so that the
    -- roster is free meanwhile.
    if pool.rosterLock = none then
      some (queue, { pool with roster := [] }, .stop (.joining (pool.roster.map (·.2))), [])
    else none
  | .joining [] => some (queue, pool, .stop .unlocking, [])
  | .joining left => (pool.join left worker).map fun phase => (queue, pool, .stop phase, [])
  | .lamenting left failure =>
    some (besideQueue queue (pool.tell caller (.lost failure) (.stop (.joining left))))
  | .unlocking => some (queue, { pool with lifecycle := none }, .returned .nothing, [])

end TaskPool.Pool
