import TaskPool.Settings

/-! Settings as a JSON document. -/

namespace TaskPool

/-- A span as an object of its two parts. -/
def Span.document (span : Span) : Json.Value :=
  .object [("secs", .natural span.seconds.toNat), ("nanos", .natural span.nanos.val)]

namespace Settings

/-- Settings as an object that names all four of them. -/
def document (settings : Settings) : Json.Value :=
  .object
    [("worker_name_prefix", .text settings.nameStem),
      ("drain_timeout", settings.drainTimeout.document),
      ("drain_poll_interval", settings.pollInterval.document),
      ("stack_size", (settings.stackSize.map fun size => Json.Value.natural size.toNat).getD .null)]

/-- The document of settings on one line. -/
def toJson (settings : Settings) : String := settings.document.compact

/-- The document of settings with each part on a line of its own. -/
def toPrettyJson (settings : Settings) : String := settings.document.pretty

end Settings

end TaskPool
