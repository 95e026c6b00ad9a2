import TaskPool.Queue

/-! Calls of a queue, cut into the steps between which other threads may run. -/

namespace TaskPool.Queue

/-- What a thread may want from a queue. -/
inductive Request (α : Type) where
  /-- Puts an item on the queue. -/
  | push (item : α)
  /-- Waits for an item and takes it. -/
  | pop
  /-- Takes an item if there is one. -/
  | tryPop
  | clear
  | close
deriving Repr

/-- How far a thread has come with its call. -/
inductive Call (α : Type) where
  /-- About to put an item on the queue. -/
  | pushing (item : α)
  /-- The item is on the queue, and nobody was told. -/
  | notifying
  /-- About to look for an item, for the first time or after somebody woke the thread. -/
  | popping
  /-- About to take an item if there is one. -/
  | trying
  | clearing
  | closing
  /-- The queue is closed, and nobody was told. -/
  | notifyingAll
  /-- The call has returned, with an item if it was a call for one and got one. -/
  | returned (item : Option α)
deriving Repr

/-- What happens at a queue. -/
inductive Event (κ α : Type) where
  /-- A thread put an item on the queue. -/
  | pushed (thread : κ) (item : α)
  /-- A thread that waited for an item got one, or learned that there is nothing left. -/
  | popped (thread : κ) (item : Option α)
  /-- A thread that did not want to wait got an item or nothing. -/
  | tried (thread : κ) (item : Option α)
  /-- A thread discarded the items that were on the queue. -/
  | cleared (thread : κ) (items : List α)
  | closed (thread : κ)
deriving Repr

/-- The start of a call. -/
def Request.call {α : Type} : Request α → Call α
  | .push item => .pushing item
  | .pop => .popping
  | .tryPop => .trying
  | .clear => .clearing
  | .close => .closing

namespace Call

variable {κ α : Type} [DecidableEq κ]

/--
The next step of the call of a thread, if it can go on.

The step that tells one sleeping thread is told which one; it can only be told one
that sleeps, or none if nobody does.
-/
def step (self : κ) (chosen : Option κ) (queue : Queue κ α) :
    Call α → Option (Queue κ α × Call α × List (Event κ α))
  | .pushing item => some (queue.append item, .notifying, [.pushed self item])
  | .notifying =>
    -- Nobody is woken only if nobody sleeps.
    match chosen with
    | none => if queue.asleep = [] then some (queue, .returned none, []) else none
    | some consumer =>
      if consumer ∈ queue.asleep then some (queue.wake consumer, .returned none, []) else none
  | .popping =>
    -- A thread that sleeps goes on only once somebody has woken it.
    if self ∈ queue.asleep then none
    else
      match queue.take self with
      | (.item item, rest) => some (rest, .returned (some item), [.popped self (some item)])
      | (.ended, rest) => some (rest, .returned none, [.popped self none])
      -- The thread is asleep now, and will look again when it is woken.
      | (.nothing, rest) => some (rest, .popping, [])
  | .trying =>
    let (item, rest) := queue.tryTake
    some (rest, .returned item, [.tried self item])
  | .clearing => some (queue.clear, .returned none, [.cleared self queue.items])
  | .closing => some (queue.close, .notifyingAll, [.closed self])
  | .notifyingAll => some (queue.wakeAll, .returned none, [])
  | .returned _ => none

end Call

end TaskPool.Queue
