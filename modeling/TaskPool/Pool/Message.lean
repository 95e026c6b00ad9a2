import TaskPool.Failure
import TaskPool.Log

/-! What a pool and its workers tell about themselves, and how grave it is. -/

namespace TaskPool

/-- Something that a pool or a worker tells. -/
inductive Message where
  /-- The pool begins to create its workers. -/
  | starting (count : Nat)
  /-- The pool was stopped, and will not start again. -/
  | restartRefused
  /-- The pool begins to stop. -/
  | stopRequested
  /-- The queue did not become empty in time. -/
  | drainTimeout
  /-- The queue is closed, and the pool waits for its workers. -/
  | drained
  /-- A worker could not be created, or did not come to its end. -/
  | lost (failure : Failure)
  /-- A worker begins. -/
  | started (worker : String)
  /-- A task of a worker came to a bad end. -/
  | troubled (worker : String) (failure : Failure)
  /-- A worker ends. -/
  | finished (worker : String)

namespace Message

/-- How grave a message is. -/
def severity : Message → Severity
  | .starting _ | .stopRequested | .drained => .info
  | .restartRefused | .drainTimeout => .warn
  | .lost _ | .troubled .. => .error
  | .started _ | .finished _ => .debug

/-- What every message begins with. -/
def heading : String := "[Worker Pool]"

/-- The beginning of a worker's message. -/
def workerHeading (worker : String) : String := heading ++ "[" ++ worker ++ "] "

/-- The text of a message. -/
def text : Message → String
  | .starting count => heading ++ " Starting " ++ toString count ++ " workers"
  | .restartRefused => heading ++ " Restart after stop is not supported, ignoring start"
  | .stopRequested => heading ++ " Stop requested, waiting for remaining tasks..."
  | .drainTimeout => heading ++ " Timeout waiting for queue to drain."
  | .drained => heading ++ " Task queue drained, closing..."
  | .lost failure => heading ++ " " ++ failure.display
  | .started worker => workerHeading worker ++ "Started"
  | .troubled worker failure => workerHeading worker ++ failure.display
  | .finished worker => workerHeading worker ++ "Finished"

/-- The line of a message. -/
def line (message : Message) : Line := ⟨message.severity, message.text⟩

/-- Whether a worker tells the message, and not a caller. -/
def fromWorker : Message → Bool
  | .started _ | .troubled .. | .finished _ => true
  | _ => false

/--
The same message, where it does not matter which worker tells it; the first message
of a worker stays as it is.
-/
def anonymous : Message → Message
  | .troubled _ failure => .troubled "*" failure
  | .finished _ => .finished "*"
  | message => message

end Message

end TaskPool
