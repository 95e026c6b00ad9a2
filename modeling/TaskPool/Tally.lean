import TaskPool.Json.Value
import TaskPool.Number.Binary64
import TaskPool.Text.Outline

/-! Counters of what became of tasks, each in a machine word that wraps around. -/

namespace TaskPool

/-- The counters that the workers of a pool share. -/
structure Tally where
  /-- Tasks that came to a good end. -/
  completed : UInt64
  /-- Tasks that returned a failure. -/
  failed : UInt64
  /-- Tasks that broke off. -/
  panicked : UInt64
  /-- The time spent on tasks, in microseconds. -/
  micros : UInt64
deriving DecidableEq, Repr

/-- One thing that is added to a counter. -/
inductive Tick where
  | completed
  | failed
  | panicked
  | micros (spent : UInt64)
deriving DecidableEq, Repr

namespace Tally

/-- Counters that nothing was added to. -/
def zero : Tally := ⟨0, 0, 0, 0⟩

/-- Counters after one more thing. -/
def add (tally : Tally) : Tick → Tally
  | .completed => { tally with completed := tally.completed + 1 }
  | .failed => { tally with failed := tally.failed + 1 }
  | .panicked => { tally with panicked := tally.panicked + 1 }
  | .micros spent => { tally with micros := tally.micros + spent }

/-- A sum of two words, unless it leaves the word. -/
def checkedSum (a b : UInt64) : Option UInt64 :=
  if a.toNat + b.toNat < UInt64.size then some (a + b) else none

/-- How many tasks ran, whatever became of them, unless the sum leaves its word. -/
def executed? (tally : Tally) : Option UInt64 :=
  (checkedSum tally.completed tally.failed).bind (checkedSum · tally.panicked)

/-- What breaks off with this text when the number of tasks leaves its word. -/
def overflowText : String := "attempt to add with overflow"

/-- The average time of a task in microseconds, which is zero before any ran. -/
def average? (tally : Tally) : Option Float :=
  tally.executed?.map fun count => if 0 < count then tally.micros.toFloat / count.toFloat else 0

/-- The average time to the nearest whole microsecond, where a half goes to the even neighbour. -/
def wholeAverage? (tally : Tally) : Option Nat :=
  tally.average?.map fun average => (Number.Binary64.ofFloat average).nearestWhole

/-- The counters by name. -/
def counters (tally : Tally) : List (String × UInt64) :=
  [("tasks_completed", tally.completed), ("tasks_failed", tally.failed),
    ("tasks_panicked", tally.panicked), ("total_processing_time_us", tally.micros)]

/-- The counters as an object. -/
def document (tally : Tally) : Json.Value :=
  .object (tally.counters.map fun (name, count) => (name, .natural count.toNat))

/-- The outline of counters under a label. -/
def outline (label : String) (tally : Tally) : Text.Outline :=
  .record label (tally.counters.map fun (name, count) => (name, .number count.toNat))

/-- The label of counters at one moment. -/
def snapshotLabel : String := "StatsSnapshot"

/-- The label of counters that are still in use. -/
def sharedLabel : String := "TaskStats"

end Tally

end TaskPool
