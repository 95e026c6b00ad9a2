import TaskPool.Pool.Starting
import TaskPool.Pool.Stopping
import TaskPool.Pool.Working

/-! A pool and its queue as a machine: what may happen next, and what then becomes of them. -/

namespace TaskPool

namespace Pool

/--
What is decided elsewhere, by the system or by the clock; a step looks at the part that concerns it.
-/
structure Chance where
  /-- The thread that is woken, where one of those that sleep is to be woken. -/
  woken : Option Thread
  /-- Why the system does not create a thread, if it does not. -/
  refusal : Option Trouble
  /-- Whether the time for a wait is up. -/
  timeUp : Bool
  /-- The worker whose thread is waited for. -/
  joined : Nat
  /-- How long a task took, in microseconds. -/
  micros : UInt64

/-- How a caller goes on after a step of its call of the queue. -/
def Call.ofQueue : Queue.Call Task → Call
  | .returned task => .returned (.task task)
  | call => .queue call

/-- The next step of a call, if it can go on. -/
def Call.step (queue : Queue Thread Task) (pool : Pool) (caller : Nat) (chance : Chance) :
    Call → Option (Queue Thread Task × Pool × Call × List Event)
  | .queue call =>
    (call.step ⟨pool.number, .caller caller⟩ chance.woken queue).map fun (queue, call, events) =>
      (queue, pool, .ofQueue call, events.map .queue)
  | .submit (.pushing task) =>
    some (queue.append task, pool, .submit .notifying,
      [.queue (.pushed ⟨pool.number, .caller caller⟩ task), .submitted caller task])
  -- The task may already have been run by the time it is counted as submitted.
  | .submit (.returned _) =>
    some (queue, { pool with submitted := pool.submitted + 1 }, .returned .nothing, [])
  | .submit call =>
    (call.step ⟨pool.number, .caller caller⟩ chance.woken queue).map fun (queue, call, events) =>
      (queue, pool, .submit call, events.map .queue)
  | .start count phase => (phase.step pool caller count chance.refusal).map (besideQueue queue)
  | .stop phase => phase.step queue pool caller chance.timeUp chance.joined
  | .observe =>
    -- The names can be read only while nobody changes the roster.
    if pool.rosterLock = none then
      some (queue, pool, .returned (.overview pool.overview), [])
    else none
  | .returned _ => none
  | .broken _ => none

end Pool

/-- A pool and the queue that it takes its tasks from. -/
structure World where
  queue : Queue Thread Task
  pool : Pool

namespace World

/-- What may happen next. -/
inductive Turn where
  /-- A caller, or the next new one, begins a call. -/
  | begin (caller : Nat) (request : Pool.Request)
  /-- A caller goes on with its call. -/
  | caller (index : Nat) (chance : Pool.Chance)
  /-- A worker goes on with its duty. -/
  | worker (index : Nat) (chance : Pool.Chance)
  /-- Somebody opens the gate at which the task of a worker waits. -/
  | openGate (worker : Nat)
  /--
  The call that the task of a worker made has come to its end, and may have broken off with a text.

  The call itself is begun and goes on like any other, beside the worker that waits for it.
  -/
  | resume (worker : Nat) (broken : Option String)
  /-- Somebody changes what the pool's sink keeps. -/
  | refilter (filter : Filter)

/-- A pool with what a caller has come to. -/
def setCaller (pool : Pool) (index : Nat) (call : Pool.Call) : Pool :=
  { pool with callers := pool.callers.set index call }

/-- A pool with what a worker has come to. -/
def setWorker (pool : Pool) (index : Nat) (worker : Worker) : Pool :=
  { pool with workers := pool.workers.set index worker }

/-- How a worker goes on whose task has made a call that has come to its end. -/
def resumed (index : Nat) (broken : Option String) : Duty → Option (Duty × List Pool.Event)
  | .working task (.ask _ :: left) =>
    match broken with
    | none => some (.working task left, [])
    | some text =>
      let outcome := .panicked (.message text)
      some (.counting task outcome, [.ended index task outcome])
  | _ => none

/-- The world after a turn, with what happened; nothing, if the turn is not possible. -/
def step (world : World) : Turn → Option (World × List Pool.Event)
  | .begin caller request =>
    let pool := world.pool
    -- The place behind the last caller is that of a new one.
    if caller = pool.callers.length then
      some ({ world with pool := { pool with callers := pool.callers ++ [request.call] } }, [])
    else
      match pool.callers[caller]? with
      | some call =>
        if call.hasEnded then
          some ({ world with pool := setCaller pool caller request.call }, [])
        else none
      | none => none
  | .caller index chance =>
    match world.pool.callers[index]? with
    | some call =>
      (call.step world.queue world.pool index chance).map fun (queue, pool, call, events) =>
        (⟨queue, setCaller pool index call⟩, events)
    | none => none
  | .worker index chance =>
    match world.pool.workers[index]? with
    | some ⟨name, duty⟩ =>
      (Pool.work world.queue world.pool index name chance.micros duty).map fun (queue, pool,
        duty, events) =>
        (⟨queue, setWorker pool index ⟨name, duty⟩⟩, events)
    | none => none
  | .openGate index =>
    match world.pool.workers[index]? with
    | some ⟨name, .working task (.await :: left)⟩ =>
      some ({ world with pool := setWorker world.pool index ⟨name, .working task left⟩ }, [])
    | _ => none
  | .resume index broken =>
    match world.pool.workers[index]? with
    | some ⟨name, duty⟩ =>
      (resumed index broken duty).map fun (duty, events) =>
        ({ world with pool := setWorker world.pool index ⟨name, duty⟩ }, events)
    | none => none
  | .refilter filter =>
    some ({ world with pool :=
      { world.pool with sink := { world.pool.sink with filter := filter } } }, [])

end World

end TaskPool
