import TaskPool.Proofs.Settings.Described

/-!
Settings make sense just if they keep four rules, of which two compare exact lengths of time.

The first rule that they break is the one that is told.
-/

namespace TaskPool

namespace Span

/--
Whether a span is in its normal form: the seconds fit their word,
and the nanoseconds make up no second.
-/
def IsNormal (span : Span) : Prop :=
  span.seconds.toNat < 18446744073709551616 ∧ span.nanos.val < 1000000000

/-- No span can be in any other form. -/
theorem isNormal (span : Span) : span.IsNormal := ⟨span.seconds.toNat_lt_size, span.nanos.isLt⟩

/--
Where the span of two parts is put to use, it is exactly as long as they are,
and nothing else is different.
-/
theorem map_ofParts?_eq_some {α : Type} (get : α → Span) {put : Span → α}
    (found : ∀ span, get (put span) = span) {seconds nanos : Nat} {after : α} :
    (ofParts? seconds nanos).map put = some after ↔
      (get after).toNanos = seconds * 1000000000 + nanos ∧ after = put (get after) := by
  rw [Option.map_eq_some_iff]
  constructor
  · rintro ⟨span, made, rfl⟩
    rw [found]
    exact ⟨Json.ofParts?_eq_some.mp made, rfl⟩
  · rintro ⟨long, same⟩
    exact ⟨get after, Json.ofParts?_eq_some.mpr long, same.symm⟩

end Span

namespace Settings

/-- What settings have to keep to make sense, in the order in which it is looked at. -/
inductive Rule where
  /-- Names of workers do not begin with nothing. -/
  | named
  /-- A stop that waits for the queue rests between two looks at it. -/
  | paused
  /-- It rests no longer than it waits at most. -/
  | inTime
  /-- The stack of a worker is not empty. -/
  | stacked
deriving DecidableEq

namespace Rule

/-- All rules, from the first one that is looked at. -/
def all : List Rule := [.named, .paused, .inTime, .stacked]

/-- Whether settings keep a rule, where lengths of time are natural numbers of nanoseconds. -/
def Kept (settings : Settings) : Rule → Prop
  | .named => settings.nameStem ≠ ""
  | .paused => 0 < settings.pollInterval.toNanos
  | .inTime => settings.pollInterval.toNanos ≤ settings.drainTimeout.toNanos
  | .stacked => settings.stackSize ≠ some 0

/-- What is told about settings that break a rule. -/
def failure : Rule → Failure
  | .named => .setting "worker_name_prefix" "Worker name prefix must not be empty"
  | .paused => .setting "drain_poll_interval" "Drain poll interval must be non-zero"
  | .inTime =>
    .setting "drain_poll_interval" "Drain poll interval must not exceed the drain timeout"
  | .stacked => .setting "stack_size" "Stack size must be greater than 0"

/-- No two rules are told about in the same words. -/
theorem failure_injective : Function.Injective failure := by
  intro rule other same
  cases rule <;> cases other <;> first | rfl | (simp [failure] at same)

/-- It can be looked up whether settings keep a rule. -/
instance decidableKept (settings : Settings) : DecidablePred (Kept settings)
  | .named => inferInstanceAs (Decidable (settings.nameStem ≠ ""))
  | .paused => inferInstanceAs (Decidable (0 < settings.pollInterval.toNanos))
  | .inTime =>
    inferInstanceAs (Decidable (settings.pollInterval.toNanos ≤ settings.drainTimeout.toNanos))
  | .stacked => inferInstanceAs (Decidable (settings.stackSize ≠ some 0))

/-- The first rule that settings break, if they break any. -/
def firstBroken? (settings : Settings) : Option Rule := all.find? fun rule => ¬rule.Kept settings

/-- Whether settings break a rule, and none of those that are looked at before it. -/
def FirstBroken (settings : Settings) (rule : Rule) : Prop :=
  ¬rule.Kept settings ∧ ∃ before after, all = before ++ rule :: after ∧
    ∀ earlier ∈ before, earlier.Kept settings

variable {settings : Settings} {rule : Rule}

/-- The first broken rule is the one in front of which all are kept. -/
theorem firstBroken?_eq_some : firstBroken? settings = some rule ↔ rule.FirstBroken settings := by
  simp only [firstBroken?, List.find?_eq_some_iff_append, FirstBroken, decide_eq_true_eq,
    Bool.not_eq_true',
    decide_eq_false_iff_not, not_not]

/-- There is no first broken rule just if all are kept. -/
theorem firstBroken?_eq_none :
    firstBroken? settings = none ↔ ∀ rule : Rule, rule.Kept settings := by
  have every (rule : Rule) : rule ∈ all := by cases rule <;> decide
  simp [firstBroken?, List.find?_eq_none, every]

end Rule

variable {settings : Settings} {rule : Rule}

/-- The check looks at one rule after the other and tells about the first one that is broken. -/
theorem validate_eq (settings : Settings) :
    settings.validate = match Rule.firstBroken? settings with
      | none => .ok settings
      | some rule => .error rule.failure := by
  -- The check has one case for each rule, in this order.
  unfold validate
  split_ifs with unnamed unpaused late unstacked <;>
    simp_all [Rule.firstBroken?, Rule.all, Rule.Kept, Rule.failure, Nat.pos_iff_ne_zero]

/-- Settings pass just if they keep all rules. -/
theorem validate_eq_ok : settings.validate = .ok settings ↔ ∀ rule : Rule, rule.Kept settings := by
  rw [validate_eq, ← Rule.firstBroken?_eq_none]
  split <;> rename_i found <;> simp [found]

/-- It is told about a rule just if this is the first one that is broken. -/
theorem validate_eq_error :
    settings.validate = .error rule.failure ↔ rule.FirstBroken settings := by
  rw [validate_eq, ← Rule.firstBroken?_eq_some]
  split <;> rename_i found <;> simp [found, Rule.failure_injective.eq_iff]

/--
The check of settings decides by exact lengths of time, though it looks at
seconds and nanoseconds apart.

A change sets a span just if the span is exactly as long as the seconds and nanoseconds that are
asked for, so it is impossible only where no span is that long, and it leaves everything else as
it is. A document is read in the same way. All settings have both their spans in the normal form.
They pass just if there is a name, the rest between two looks is some time but no longer
than the wait, and the stack is not empty; otherwise it is told which of these rules,
in this order, is broken first.
-/
theorem validation_decides_exact_time :
    (∀ (settings after : Settings) (seconds : UInt64) (nanos : UInt32),
      ((Change.drainTimeout seconds nanos).perform? settings = some after ↔
        after.drainTimeout.toNanos = seconds.toNat * 1000000000 + nanos.toNat ∧
          after = { settings with drainTimeout := after.drainTimeout }) ∧
      ((Change.pollInterval seconds nanos).perform? settings = some after ↔
        after.pollInterval.toNanos = seconds.toNat * 1000000000 + nanos.toNat ∧
          after = { settings with pollInterval := after.pollInterval })) ∧
    (∀ place seconds nanos span,
      Json.spanOf place seconds nanos = .ok span ↔ span.toNanos = seconds * 1000000000 + nanos) ∧
    ∀ settings : Settings,
      settings.drainTimeout.IsNormal ∧ settings.pollInterval.IsNormal ∧
      (settings.validate = .ok settings ↔
        settings.nameStem ≠ "" ∧ 0 < settings.pollInterval.toNanos ∧
          settings.pollInterval.toNanos ≤ settings.drainTimeout.toNanos ∧
          settings.stackSize ≠ some 0) ∧
      (∀ rule, settings.validate = .error (Rule.failure rule) ↔ rule.FirstBroken settings) ∧
      (settings.validate = .ok settings ∨
        ∃ rule, settings.validate = .error (Rule.failure rule)) := by
  refine ⟨fun settings after seconds nanos => ⟨?_, ?_⟩, fun place seconds nanos span =>
    Json.spanOf_eq_ok,
    fun settings => ⟨settings.drainTimeout.isNormal, settings.pollInterval.isNormal, ?_,
      fun rule => validate_eq_error, ?_⟩⟩
  · exact Span.map_ofParts?_eq_some drainTimeout fun _ => rfl
  · exact Span.map_ofParts?_eq_some pollInterval fun _ => rfl
  · rw [validate_eq_ok]
    constructor
    · exact fun kept => ⟨kept .named, kept .paused, kept .inTime, kept .stacked⟩
    · rintro ⟨named, paused, inTime, stacked⟩ rule
      cases rule with
      | named => exact named
      | paused => exact paused
      | inTime => exact inTime
      | stacked => exact stacked
  · -- Either no rule is broken, or there is a first one.
    rw [validate_eq]
    split
    · exact .inl rfl
    · exact .inr ⟨_, rfl⟩

end Settings

end TaskPool
