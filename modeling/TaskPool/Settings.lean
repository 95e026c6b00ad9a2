import TaskPool.Failure
import TaskPool.Json.Value
import TaskPool.Span

/-!
The settings of a pool: their defaults, the changes that build them,
and the check that they make sense.
-/

namespace TaskPool

/-- The settings of a pool. -/
structure Settings where
  /-- The text in front of the number in each worker's name. -/
  nameStem : String
  /-- How long a stop waits at most for the queue to become empty. -/
  drainTimeout : Span
  /-- How often a stop looks whether the queue has become empty. -/
  pollInterval : Span
  /-- The size of a worker's stack in bytes, where it is not left to the platform. -/
  stackSize : Option UInt64
deriving DecidableEq, Repr

namespace Settings

/-- The settings of a pool that nobody has changed: one second, asked every five milliseconds. -/
def default : Settings := ⟨"Worker ", ⟨1, ⟨0, by decide⟩⟩, ⟨0, ⟨5000000, by decide⟩⟩, none⟩

/-- The name of the worker with a number. -/
def workerName (settings : Settings) (index : Nat) : String := settings.nameStem ++ toString index

/-- The settings, unless they make no sense; then the first rule that they break. -/
def validate (settings : Settings) : Except Failure Settings :=
  if settings.nameStem = "" then
    .error (.setting "worker_name_prefix" "Worker name prefix must not be empty")
  else if settings.pollInterval.isZero then
    .error (.setting "drain_poll_interval" "Drain poll interval must be non-zero")
  else if settings.drainTimeout.isBelow settings.pollInterval then
    .error (.setting "drain_poll_interval" "Drain poll interval must not exceed the drain timeout")
  else if settings.stackSize = some 0 then
    .error (.setting "stack_size" "Stack size must be greater than 0")
  else .ok settings

/-- The outline of settings. -/
def outline (settings : Settings) : Text.Outline :=
  .record "WorkerPoolConfig"
    [("worker_name_prefix", .text settings.nameStem),
      ("drain_timeout", settings.drainTimeout.outline),
      ("drain_poll_interval", settings.pollInterval.outline),
      ("stack_size", .optional (fun size : UInt64 => .number size.toNat) settings.stackSize)]

end Settings

/-- A change to one setting, where a span is given by seconds and any number of nanoseconds. -/
inductive Change where
  | nameStem (stem : String)
  | drainTimeout (seconds : UInt64) (nanos : UInt32)
  | pollInterval (seconds : UInt64) (nanos : UInt32)
  | stackSize (bytes : UInt64)
deriving DecidableEq, Repr

namespace Change

/-- Settings after a change, unless it asks for a span that is too long. -/
def perform? (settings : Settings) : Change → Option Settings
  | .nameStem stem => some { settings with nameStem := stem }
  | .drainTimeout seconds nanos =>
    (Span.ofParts? seconds.toNat nanos.toNat).map fun span => { settings with drainTimeout := span }
  | .pollInterval seconds nanos =>
    (Span.ofParts? seconds.toNat nanos.toNat).map fun span => { settings with pollInterval := span }
  | .stackSize bytes => some { settings with stackSize := some bytes }

/-- What breaks off with this text when a span is too long. -/
def overflowText : String := "overflow in Duration::new"

end Change

/--
Settings after one change after the other, where a change that asks for too long a span is left out.
-/
def Settings.change (settings : Settings) (changes : List Change) : Settings :=
  changes.foldl (fun settings change => (change.perform? settings).getD settings) settings

end TaskPool
