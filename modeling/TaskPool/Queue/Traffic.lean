import TaskPool.Queue.Call

/-! The traffic at one queue: any number of threads, each with one call after the other. -/

namespace TaskPool.Queue

/-- A queue and the threads that use it, each with its present or last call. -/
structure Traffic (α : Type) where
  queue : Queue Nat α
  /-- The calls of the threads, which are known by their places. -/
  calls : List (Call α)
deriving Repr

/-- What may happen next. -/
inductive Turn (α : Type) where
  /-- A thread, or the next new one, begins a call. -/
  | begin (thread : Nat) (request : Request α)
  /-- A thread goes on with its call, and wakes the chosen thread if its step is to wake one. -/
  | advance (thread : Nat) (chosen : Option Nat)
deriving Repr

/-- Whether a call has come to its end. -/
def Call.hasReturned {α : Type} : Call α → Bool
  | .returned _ => true
  | _ => false

namespace Traffic

variable {α : Type}

/-- A new queue that no thread uses yet. -/
def empty : Traffic α := ⟨Queue.empty, []⟩

/--
The traffic after a turn, with what happened at the queue; nothing, if the turn is not possible.
-/
def step (traffic : Traffic α) : Turn α → Option (Traffic α × List (Event Nat α))
  | .begin thread request =>
    -- The place behind the last thread is that of a new one.
    if thread = traffic.calls.length then
      some ({ traffic with calls := traffic.calls ++ [request.call] }, [])
    else
      match traffic.calls[thread]? with
      | some call =>
        if call.hasReturned then some
          ({ traffic with calls := traffic.calls.set thread request.call }, [])
        else none
      | none => none
  | .advance thread chosen =>
    match traffic.calls[thread]? with
    | some call =>
      (call.step thread chosen traffic.queue).map fun (queue, call, events) =>
        (⟨queue, traffic.calls.set thread call⟩, events)
    | none => none

/--
The next turn of the first thread that can go on; of sleeping threads the one
that sleeps longest is woken.
-/
def nextTurn (traffic : Traffic α) : Option (Traffic α × List (Event Nat α)) :=
  (List.range traffic.calls.length).findSome? fun thread =>
    traffic.step (.advance thread traffic.queue.asleep.head?)

/-- Lets the threads go on until none can, for at most so many turns. -/
def settleFor : Nat → Traffic α → Traffic α × List (Event Nat α)
  | 0, traffic => (traffic, [])
  | turns + 1, traffic =>
    match traffic.nextTurn with
    | none => (traffic, [])
    | some (next, events) =>
      let (last, more) := settleFor turns next
      (last, events ++ more)

/--
Lets the threads go on until none can; each needs at most a few turns to end
its call or to fall asleep.
-/
def settle (traffic : Traffic α) : Traffic α × List (Event Nat α) :=
  settleFor (4 * traffic.calls.length + 4) traffic

end Traffic

end TaskPool.Queue
