import TaskPool.Text.Outline

/-!
A first-in first-out queue that can be closed, with the consumers that sleep until something comes.
-/

namespace TaskPool

/-- A queue of items, shared by consumers that are known by a name. -/
structure Queue (κ α : Type) where
  /-- The items, with the next one to be taken in front. -/
  items : List α
  /-- Whether the queue was closed, which is for good. -/
  closed : Bool
  /-- The consumers that sleep until somebody wakes them, in the order in which they fell asleep. -/
  asleep : List κ
  /-- The consumers that somebody woke and that have not looked at the queue since. -/
  woken : List κ
deriving Repr

namespace Queue

variable {κ α : Type}

/-- A queue that nobody has used. -/
def empty : Queue κ α := ⟨[], false, [], []⟩

/-- Puts an item behind all others. -/
def append (queue : Queue κ α) (item : α) :
    Queue κ α := { queue with items := queue.items ++ [item] }

/-- Takes every item off the queue, and nobody gets them. -/
def clear (queue : Queue κ α) : Queue κ α := { queue with items := [] }

/-- Closes the queue, which wakes nobody yet. -/
def close (queue : Queue κ α) : Queue κ α := { queue with closed := true }

/-- Wakes every sleeping consumer. -/
def wakeAll (queue : Queue κ α) : Queue κ α :=
  { queue with asleep := [], woken := queue.woken ++ queue.asleep }

/-- The first item without waiting for one, and none from a closed queue, which is left as it is. -/
def tryTake (queue : Queue κ α) : Option α × Queue κ α :=
  -- What is left on a closed queue is only for those who would wait for it.
  if queue.closed then (none, queue)
  else
    match queue.items with
    | [] => (none, queue)
    | item :: rest => (some item, { queue with items := rest })

/-- The outline of a queue, which shows how long it is and not what it holds. -/
def outline (queue : Queue κ α) : Text.Outline :=
  .record "SyncQueue" [("len", .number queue.items.length), ("closed", .truth queue.closed)]

/-- What a consumer meets when it looks at the queue. -/
inductive Met (α : Type) where
  /-- It gets the first item. -/
  | item (item : α)
  /-- There is nothing left, and nothing will be waited for. -/
  | ended
  /-- There is nothing yet, and the consumer falls asleep. -/
  | nothing
deriving Repr

variable [DecidableEq κ]

/-- Wakes one sleeping consumer. -/
def wake (queue : Queue κ α) (consumer : κ) : Queue κ α :=
  { queue with asleep := queue.asleep.erase consumer, woken := queue.woken ++ [consumer] }

/-- A consumer looks at the queue: for the first time, or after somebody woke it. -/
def take (queue : Queue κ α) (consumer : κ) : Met α × Queue κ α :=
  let seen := { queue with woken := queue.woken.erase consumer }
  -- Items come first, so that what was left when the queue was closed is still taken.
  match queue.items with
  | item :: rest => (.item item, { seen with items := rest })
  | [] => if queue.closed then (.ended, seen)
      else (.nothing, { seen with asleep := queue.asleep ++ [consumer] })

end Queue

end TaskPool
