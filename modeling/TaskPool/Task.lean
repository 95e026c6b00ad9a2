import TaskPool.Failure
import TaskPool.Json.Value

/-!
Tasks: what they do while a worker runs them, and how they come to an end.

A task acts only while it runs. Throwing away a task that was never run has no effect,
and throwing away what a task has left behind has none either, but where the end of the
task says that it has one.
-/

namespace TaskPool

/-- What a task that breaks off leaves behind. -/
inductive Payload where
  | message (text : String)
  /-- Something that nobody can read. -/
  | unreadable
  /-- Something that nobody can read, and that breaks off whoever throws it away. -/
  | volatile
deriving DecidableEq, Repr

namespace Payload

/-- What is told about a payload that nobody can read. -/
def unknownText : String := "Unknown panic"

/-- The text that a payload is told by. -/
def text : Payload → String
  | .message text => text
  | .unreadable | .volatile => unknownText

end Payload

/-- How a task ends. -/
inductive Outcome where
  | completed
  | failed (failure : Failure)
  /-- The task returns a failure that breaks off whoever asks for its text or throws it away. -/
  | unspeakable
  | panicked (payload : Payload)

/--
Whether the end of a task is the end of its worker as well.

A worker asks for the text of a failure, and throws away what a task has left behind,
where nothing holds it back from breaking off.
-/
def Outcome.isDeadly : Outcome → Bool
  | .unspeakable | .panicked .volatile => true
  | _ => false

mutual

/-- A unit of work: what it does, in order, and how it ends once that is done. -/
inductive Task where
  /-- A task whose label identifies it in what is told about it. -/
  | mk (label : Json.Value) (actions : List Action) (outcome : Outcome)

/-- One thing that a task does. -/
inductive Action where
  /-- Leaves a note. -/
  | note (value : Json.Value)
  /-- Leaves a note of a label and of the name of the thread that runs the task. -/
  | noteThread (label : Json.Value)
  /-- Waits until somebody opens the gate. -/
  | await
  /-- Calls a pool or the queue, and waits until the call returns. -/
  | ask (request : Request)

/-- A call that a task makes, where pools are numbered. -/
inductive Request where
  /-- Submits a task to a pool. -/
  | submit (pool : Nat) (task : Task)
  /-- Puts a task on the queue without any pool. -/
  | push (task : Task)
  /-- Starts a pool. -/
  | start (pool : Nat) (count : Nat)
  /-- Closes the queue. -/
  | close
  /-- Leaves a note of a label and of what a pool shows of itself. -/
  | observe (pool : Nat) (label : Json.Value)

end

namespace Task

/-- What identifies a task. -/
def label : Task → Json.Value
  | .mk label _ _ => label

/-- What a task does, in order. -/
def actions : Task → List Action
  | .mk _ actions _ => actions

/-- How a task ends once it has done everything. -/
def outcome : Task → Outcome
  | .mk _ _ outcome => outcome

/-- The same work with another end. -/
def withOutcome (outcome : Outcome) : Task → Task
  | .mk label actions _ => .mk label actions outcome

end Task

/-- A failure that nobody asks for is a good end; anything else stays as it is. -/
def Outcome.unheeded : Outcome → Outcome
  | .failed _ | .unspeakable => .completed
  | outcome => outcome

/-- A task whose failures nobody asks for. -/
def Task.unheeded (task : Task) : Task := task.withOutcome task.outcome.unheeded

/-- The notes that a task leaves by itself when it runs on a thread with the given name. -/
def Task.notes (thread : String) (task : Task) : List Json.Value :=
  task.actions.filterMap fun
    | .note value => some value
    | .noteThread label => some (.list [label, .text thread])
    | _ => none

end TaskPool
