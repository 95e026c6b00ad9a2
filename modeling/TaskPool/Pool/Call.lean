import TaskPool.Queue.Call
import TaskPool.Task

/-! The calls of a pool, cut into the steps between which other threads may run. -/

namespace TaskPool

/-- The place of a thread at a pool. -/
inductive Seat where
  /-- One of the threads that the pool created, in the order of their creation. -/
  | worker (index : Nat)
  /-- One of the threads that use the pool from outside. -/
  | caller (index : Nat)
deriving DecidableEq, Repr

/-- A thread, known by its pool and its place there. -/
structure Thread where
  pool : Nat
  seat : Seat
deriving DecidableEq, Repr

/-- What a pool shows of itself. -/
structure Overview where
  running : Bool
  /-- How many workers are on the roster. -/
  workers : Nat
  /-- The names on the roster, in the order of their text. -/
  names : List String
  /-- How many tasks were submitted through the pool. -/
  submitted : UInt64
deriving DecidableEq, Repr

namespace Pool

/-- What a caller may want from a pool and its queue. -/
inductive Request where
  /-- Uses the queue without the pool. -/
  | queue (request : Queue.Request Task)
  /-- Puts a task on the queue and counts it. -/
  | submit (task : Task)
  /-- Creates some workers. -/
  | start (count : Nat)
  /-- Waits for the queue to become empty, closes it, and waits for the workers. -/
  | stop
  /-- Asks what the pool shows of itself. -/
  | observe

/-- How far a start has come. -/
inductive Starting where
  /-- About to take the lock on the pool's life. -/
  | locking
  /-- About to see whether the pool was stopped. -/
  | checking
  /-- About to tell that the pool will not start again. -/
  | refusing
  /-- About to become the one that starts the pool, if it does not run. -/
  | claiming
  | announcing
  /-- About to lock the roster and make room on it. -/
  | reserving
  /-- About to create the worker with a number, and all after it. -/
  | creating (index : Nat)
  /-- About to tell that the worker with a number could not be created. -/
  | lamenting (index : Nat) (failure : Failure)
  /-- About to give up the lock on the pool's life. -/
  | unlocking

/-- How far a stop has come. -/
inductive Stopping where
  /-- About to take the lock on the pool's life. -/
  | locking
  /-- About to become the one that stops the pool, if it runs. -/
  | claiming
  /-- About to mark the pool as stopped for good. -/
  | marking
  | announcing
  /-- Waits until the queue is empty or time is up. -/
  | draining
  /-- About to tell that time is up. -/
  | warning
  | closing
  /-- About to wake every consumer of the queue that was closed. -/
  | waking
  /-- About to tell that the queue is closed. -/
  | parting
  /-- About to take all workers off the roster. -/
  | gathering
  /-- Waits for the threads of workers that were on the roster. -/
  | joining (left : List Nat)
  /-- About to tell that a worker did not come to its end. -/
  | lamenting (left : List Nat) (failure : Failure)
  /-- About to give up the lock on the pool's life. -/
  | unlocking

/-- What a call brings back. -/
inductive Answer where
  | nothing
  /-- A task from the queue, if there was one to take. -/
  | task (task : Option Task)
  | overview (overview : Overview)

/-- How far a caller has come with its present or last call. -/
inductive Call where
  /-- Uses the queue without the pool. -/
  | queue (call : Queue.Call Task)
  /-- Puts a task on the queue; once it is there and one worker was told, it is counted. -/
  | submit (call : Queue.Call Task)
  | start (count : Nat) (phase : Starting)
  | stop (phase : Stopping)
  | observe
  | returned (answer : Answer)
  /-- The call has broken off with a message. -/
  | broken (text : String)

/-- The start of a call. -/
def Request.call : Request → Call
  | .queue request => .queue request.call
  | .submit task => .submit (.pushing task)
  | .start count => .start count .locking
  | .stop => .stop .locking
  | .observe => .observe

/-- Whether a call has come to its end, good or bad. -/
def Call.hasEnded : Call → Bool
  | .returned _ | .broken _ => true
  | _ => false

end Pool

end TaskPool
