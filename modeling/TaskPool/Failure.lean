import TaskPool.Failure.SystemCode
import TaskPool.Text.Outline

/-! What can go wrong with a pool and its tasks, and the texts that tell about it. -/

namespace TaskPool

mutual

/-- A failure of a pool, of one of its workers, or of a task. -/
inductive Failure where
  /-- A task returned a failure of its own, which is told by its message. -/
  | taskFailed (worker message : String)
  /-- A task broke off with a message. -/
  | taskPanicked (worker message : String)
  /-- The thread of a worker could not be created. -/
  | spawn (worker : String) (trouble : Trouble)
  /-- The thread of a worker did not come to its end. -/
  | join (worker : String)
  /-- A setting has a value that makes no sense. -/
  | setting (parameter message : String)
  /-- Anything else. -/
  | other (message : String)

/-- Trouble that the operating system reports, or that somebody reports in its name. -/
inductive Trouble where
  /-- Trouble known by its number. -/
  | coded (code : Int)
  /-- Trouble of which only the sort is known. -/
  | bare (kind : TroubleKind)
  /-- Trouble of a sort with words about it. -/
  | told (kind : TroubleKind) (message : String)
  /-- Trouble of a sort that a failure stands behind. -/
  | caused (kind : TroubleKind) (inner : Failure)

end

mutual

/-- The text of a failure for its reader. -/
def Failure.display : Failure → String
  | .taskFailed _ message => "Task failed: " ++ message
  | .taskPanicked _ message => "Exception: " ++ message
  | .spawn worker trouble => "Failed to spawn worker '" ++ worker ++ "': " ++ trouble.display
  | .join worker => "Failed to join worker '" ++ worker ++ "'"
  | .setting parameter message => "Invalid configuration for '" ++ parameter ++ "': " ++ message
  | .other message => message

/-- The text of trouble for its reader. -/
def Trouble.display : Trouble → String
  | .coded code => codeMessage code ++ " (os error " ++ toString code ++ ")"
  | .bare kind => kind.describe
  | .told _ message => message
  | .caused _ inner => inner.display

end

/-- The name of the sort of a failure. -/
def Failure.label : Failure → String
  | .taskFailed .. => "TaskFailed"
  | .taskPanicked .. => "TaskPanicked"
  | .spawn .. => "SpawnError"
  | .join .. => "JoinError"
  | .setting .. => "InvalidConfig"
  | .other .. => "Other"

mutual

/-- The outline of a failure, which shows every part of it. -/
def Failure.outline : Failure → Text.Outline
  | .taskFailed worker message =>
    .record "TaskFailed" [("worker", .text worker), ("message", .text message)]
  | .taskPanicked worker message =>
    .record "TaskPanicked" [("worker", .text worker), ("message", .text message)]
  | .spawn worker trouble =>
    .record "SpawnError" [("worker", .text worker), ("source", trouble.outline)]
  | .join worker => .record "JoinError" [("worker", .text worker)]
  | .setting parameter message =>
    .record "InvalidConfig" [("parameter", .text parameter), ("message", .text message)]
  | .other message => .apply "Other" [.text message]

/-- The outline of trouble, which shows every part of it. -/
def Trouble.outline : Trouble → Text.Outline
  | .coded code =>
    .record "Os"
      [("code", .atom (toString code)), ("kind", .atom (TroubleKind.ofCode code).label),
        ("message", .text (codeMessage code))]
  | .bare kind => .apply "Kind" [.atom kind.label]
  | .told kind message => .record "Custom" [("kind", .atom kind.label), ("error", .text message)]
  | .caused kind inner => .record "Custom" [("kind", .atom kind.label), ("error", inner.outline)]

end

mutual

/-- The texts of the trouble behind a failure, from the outside; only a failed creation has any. -/
def Failure.sources : Failure → List String
  | .spawn _ trouble => trouble.display :: trouble.sources
  | _ => []

/--
The texts of what lies behind trouble: a failure that stands behind it is passed
over for its own sources.
-/
def Trouble.sources : Trouble → List String
  | .caused _ inner => inner.sources
  | _ => []

end

end TaskPool
