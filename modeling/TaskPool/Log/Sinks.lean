import TaskPool.Log
import TaskPool.Text.Outline

/-! Where lines can go: to a console of its own, or to the logger that the whole process shares. -/

namespace TaskPool

/-- A console, which writes what its filter admits. -/
structure Console where
  /-- The filter, which may be changed at any time. -/
  filter : Filter
deriving DecidableEq, Repr

namespace Console

/-- A console that nobody has changed. -/
def default : Console := ⟨.upTo .info⟩

/-- The entry for a line, which begins with the time and the severity. -/
def entry (stamp : String) (line : Line) : String :=
  "[" ++ stamp ++ "] [" ++ line.severity.label ++ "] " ++ line.text

/-- What is written for a line: its entry, or nothing. -/
def log (console : Console) (stamp : String) (line : Line) : List String :=
  if console.filter.admits line.severity then [entry stamp line] else []

/-- The form of a time in brackets, where a zero stands for any digit. -/
def timeForm : String := "[0000-00-00 00:00:00]"

/-- What follows the part of a text that has a form, if the text begins with one. -/
def afterForm? : List Char → List Char → Option (List Char)
  | [], text => some text
  | _ :: _, [] => none
  | wanted :: form, c :: text =>
    if (if wanted = '0' then c.isDigit else c = wanted) then afterForm? form text else none

/-- A row with the stamp in place of any time at its front. -/
def restamp (stamp row : String) : String :=
  match afterForm? timeForm.toList row.toList with
  | some rest => "[" ++ stamp ++ "]" ++ String.ofList rest
  | none => row

/--
What a reader of the console sees of a line, row by row, who cannot tell a time
in the line from its stamp.
-/
def rows (console : Console) (stamp : String) (line : Line) : List String :=
  (console.log stamp line).flatMap fun entry => (entry.splitOn "\n").map (restamp stamp)

/--
What a reader sees, in the order of its text, when several writers log some numbered lines each.
-/
def crowd (console : Console) (stamp : String) (severity : Severity)
    (writers each : Nat) : List String :=
  let texts := (List.range writers).flatMap fun writer => (List.range each).map fun number =>
    "t" ++ toString writer ++ " m" ++ toString number
  (texts.flatMap fun text => console.rows stamp ⟨severity, text⟩).mergeSort

/-- The outline of a console. -/
def outline (console : Console) : Text.Outline :=
  .record "ConsoleLogger"
    [("min_level", .record "RwLock" [("data", .atom console.filter.outlineLabel)]),
      ("output", .record "Mutex" [("data", .atom "()")])]

end Console

/-- A record that reaches the logger of the process. -/
structure Record where
  severity : Severity
  /-- Who wrote it. -/
  target : String
  text : String
deriving DecidableEq, Repr

/-- The way to the logger of the process, which passes what the process admits. -/
structure Facade where
  /-- The filter of the whole process, which may be changed at any time. -/
  filter : Filter
deriving DecidableEq, Repr

namespace Facade

/-- The name under which pools write to the logger of the process. -/
def target : String := "rust_worker_pool"

/-- What reaches the logger for a line: one record, or nothing. -/
def log (facade : Facade) (line : Line) : List Record :=
  if facade.filter.admits line.severity then [⟨line.severity, target, line.text⟩] else []

/-- The outline of the way to the logger. -/
def outline : Text.Outline := .atom "LogFacade"

/-- The outline of any place where lines can go, when nothing more is known about it. -/
def sinkOutline : Text.Outline := .atom "LogSink"

end Facade

/-- Whether one text stands somewhere in another. -/
def occursIn (part : List Char) : List Char → Bool
  | [] => part.isEmpty
  | c :: rest => part.isPrefixOf (c :: rest) || occursIn part rest

/-- A place for lines as those who write to it see it: what it keeps, and what it cannot bear. -/
structure Sink where
  /-- What is kept; the filter may be changed at any time. -/
  filter : Filter
  /-- Whoever writes a line with this text breaks off, after the line was kept. -/
  failsOn : Option String
deriving DecidableEq, Repr

namespace Sink

/-- A sink that keeps everything and never fails. -/
def keepAll : Sink := ⟨.upTo .trace, none⟩

/-- Whether the one who writes a line breaks off. -/
def failsAt (sink : Sink) (line : Line) : Bool :=
  match sink.failsOn with
  | none => false
  | some part => occursIn part.toList line.text.toList

/-- What those who break off leave behind. -/
def failureText : String := "sink panic"

end Sink

end TaskPool
