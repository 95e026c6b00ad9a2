import TaskPool.Failure
import TaskPool.Proofs.Text.Outlines
import TaskPool.Proofs.Text.Spans
import TaskPool.Settings

/-!
The outlines of settings and of failures identify them.

No two of them have the same text, neither on one line nor with one part a line.
-/

namespace TaskPool

open Text

/-! Parts of outlines that are finished texts, and parts that may be missing. -/

namespace Text.Outline

/-- Quoted texts are the same outline just if they are the same text. -/
@[simp] theorem text_inj {s t : String} : text s = text t ↔ s = t := by
  simp [text]

/-- A quoted text is plain. -/
@[simp] theorem isPlain_text (s : String) : (text s).IsPlain := .inr ⟨s, rfl⟩

/-- Numbers are the same outline just if they are the same. -/
@[simp] theorem number_inj {n m : Nat} : number n = number m ↔ n = m := by
  simp only [number, atom.injEq]
  exact ⟨natural_injective, congrArg toString⟩

/-- A number is plain. -/
@[simp] theorem isPlain_number (n : Nat) : (number n).IsPlain := .inl (isWord_natural n)

/-- A missing value is no value that is there. -/
theorem optional_injective {α : Type} {shape : α → Outline}
    (injective : ∀ {a b : α}, shape a = shape b → a = b) {a b : Option α}
    (same : optional shape a = optional shape b) : a = b := by
  -- What is there is labelled, and what is missing is not.
  cases a <;> cases b <;>
    simp only [optional, reduceCtorEq, apply.injEq, List.cons.injEq, and_true, true_and] at same
  · rfl
  · rw [injective same]

/-- An optional value is plain if the value is. -/
theorem isPlain_optional {α : Type} {shape : α → Outline} (plain : ∀ a, (shape a).IsPlain)
    (a : Option α) :
    (optional shape a).IsPlain := by
  cases a with
  | none => exact .inl (by decide)
  | some a => exact ⟨by decide, plain a, trivial⟩

end Text.Outline

/-! Settings. -/

namespace Settings

/-- The outline of settings is plain. -/
theorem isPlain_outline (settings : Settings) : settings.outline.IsPlain :=
  ⟨by decide,
    by decide, Outline.isPlain_text _,
    by decide, .inl (Span.isWord_display _),
    by decide, .inl (Span.isWord_display _),
    by decide, Outline.isPlain_optional (fun _ => Outline.isPlain_number _) _,
    trivial⟩

/-- Settings have the same outline just if they are the same. -/
theorem outline_injective {settings other : Settings} (same : settings.outline = other.outline) :
    settings = other := by
  obtain ⟨stem, drain, poll, stack⟩ := settings
  obtain ⟨stem', drain', poll', stack'⟩ := other
  simp only [outline, Span.outline, Outline.record.injEq, List.cons.injEq, Prod.mk.injEq,
    true_and, and_true, Outline.text_inj, Outline.atom.injEq] at same
  -- Field by field, what is shown tells which value it shows.
  obtain ⟨rfl, drains, polls, sizes⟩ := same
  rw [Span.display_injective drains, Span.display_injective polls,
    Outline.optional_injective (fun same => UInt64.toNat_inj.mp (Outline.number_inj.mp same)) sizes]

end Settings

/-! Failures: what stands behind one is part of its outline, to any depth. -/

namespace TroubleKind

/-- A sort is found by its name. -/
theorem ofLabel?_label (kind : TroubleKind) : ofLabel? kind.label = some kind := by
  cases kind <;> decide

/-- No two sorts have the same name. -/
@[simp] theorem label_inj {kind second : TroubleKind} :
    kind.label = second.label ↔ kind = second := by
  refine ⟨fun same => ?_, congrArg label⟩
  exact Option.some.inj ((ofLabel?_label kind).symm.trans (same ▸ ofLabel?_label second))

/-- The name of a sort is a word. -/
theorem isWord_label (kind : TroubleKind) : IsWord kind.label := by
  cases kind <;> decide

end TroubleKind

mutual

/-- The outline of a failure is plain. -/
theorem Failure.isPlain_outline : ∀ failure : Failure, failure.outline.IsPlain
  | .taskFailed _ _ | .taskPanicked _ _ | .setting _ _ =>
    ⟨by decide, by decide, Outline.isPlain_text _, by decide, Outline.isPlain_text _, trivial⟩
  | .spawn _ trouble => ⟨by decide, by decide, Outline.isPlain_text _, by decide,
      trouble.isPlain_outline, trivial⟩
  | .join _ => ⟨by decide, by decide, Outline.isPlain_text _, trivial⟩
  | .other _ => ⟨by decide, Outline.isPlain_text _, trivial⟩

/-- The outline of trouble is plain. -/
theorem Trouble.isPlain_outline : ∀ trouble : Trouble, trouble.outline.IsPlain
  | .coded code =>
    ⟨by decide, by decide, .inl (isWord_integer code), by decide,
      .inl (TroubleKind.isWord_label _), by decide, Outline.isPlain_text _, trivial⟩
  | .bare kind => ⟨by decide, .inl kind.isWord_label, trivial⟩
  | .told kind _ => ⟨by decide, by decide, .inl kind.isWord_label, by decide,
      Outline.isPlain_text _, trivial⟩
  | .caused kind inner => ⟨by decide, by decide, .inl kind.isWord_label, by decide,
      inner.isPlain_outline, trivial⟩

end

namespace Trouble

/-- What is told with trouble is no failure behind it, since a quoted text is no record. -/
theorem text_ne_outline (message : String) (inner : Failure) :
    Outline.text message ≠ inner.outline := by
  cases inner <;> simp [Outline.text, Failure.outline]

end Trouble

mutual

/-- Failures have the same outline just if they are the same. -/
theorem Failure.outline_injective :
    ∀ {failure second : Failure}, failure.outline = second.outline → failure = second
  | .spawn _ _, .spawn _ _, same => by
    simp only [Failure.outline, Outline.record.injEq, List.cons.injEq, Prod.mk.injEq,
      true_and, and_true, Outline.text_inj] at same
    rw [same.1, Trouble.outline_injective same.2]
  | .taskFailed _ _, second, same | .taskPanicked _ _, second, same | .join _, second, same
  | .setting _ _, second, same | .other _, second, same => by
    cases second <;> simp_all [Failure.outline]
  -- Failures of other sorts have other labels.
  | .spawn _ _, .taskFailed _ _, same | .spawn _ _, .taskPanicked _ _, same
      | .spawn _ _, .join _, same
  | .spawn _ _, .setting _ _, same | .spawn _ _, .other _, same => by
    simp [Failure.outline] at same

/-- Trouble has the same outline just if it is the same. -/
theorem Trouble.outline_injective :
    ∀ {trouble second : Trouble}, trouble.outline = second.outline → trouble = second
  | .coded _, .coded _, same => by
    simp only [Trouble.outline, Outline.record.injEq, List.cons.injEq, Prod.mk.injEq,
      true_and, and_true, Outline.atom.injEq] at same
    rw [integer_injective same.1]
  | .bare _, .bare _, same => by
    simpa [Trouble.outline] using same
  | .told _ _, .told _ _, same => by
    simpa [Trouble.outline] using same
  | .caused _ _, .caused _ _, same => by
    simp only [Trouble.outline, Outline.record.injEq, List.cons.injEq, Prod.mk.injEq,
      true_and, and_true, Outline.atom.injEq, TroubleKind.label_inj] at same
    rw [same.1, Failure.outline_injective same.2]
  -- Words and a failure stand in the same place of the same record.
  | .told _ message, .caused _ inner, same => by
    simp [Trouble.outline, Trouble.text_ne_outline] at same
  | .caused _ inner, .told _ message, same => by
    simp [Trouble.outline, (Trouble.text_ne_outline message inner).symm] at same
  -- Trouble that is known in other ways has other labels.
  | .coded _, .bare _, same | .coded _, .told _ _, same | .coded _, .caused _ _, same
  | .bare _, .coded _, same | .bare _, .told _ _, same | .bare _, .caused _ _, same
  | .told _ _, .coded _, same | .told _ _, .bare _, same
  | .caused _ _, .coded _, same | .caused _ _, .bare _, same => by
    simp [Trouble.outline] at same

end

/--
The text of an outline identifies what it shows.

Settings are the same just if their outlines are the same on one line, and just if they are
the same on several lines. So are failures, whatever stands behind them and however deep.
Texts in them may have any characters, also those that quoted texts and outlines are made of.
-/
theorem outlines_identify_values :
    (∀ settings second : Settings,
      (settings = second ↔ settings.outline.compact = second.outline.compact) ∧
        (settings = second ↔ settings.outline.pretty = second.outline.pretty)) ∧
    (∀ failure second : Failure,
      (failure = second ↔ failure.outline.compact = second.outline.compact) ∧
        (failure = second ↔ failure.outline.pretty = second.outline.pretty)) := by
  refine ⟨fun settings second => ?_, fun failure second => ?_⟩
  · -- It is enough that the outlines tell the values apart, since both
    -- texts tell the outlines apart.
    have shown : settings.outline = second.outline ↔ settings = second :=
      ⟨Settings.outline_injective, congrArg Settings.outline⟩
    rw [Outline.compact_inj settings.isPlain_outline second.isPlain_outline,
      Outline.pretty_inj settings.isPlain_outline second.isPlain_outline, shown]
    exact ⟨Iff.rfl, Iff.rfl⟩
  · have shown : failure.outline = second.outline ↔ failure = second :=
      ⟨Failure.outline_injective, congrArg Failure.outline⟩
    rw [Outline.compact_inj failure.isPlain_outline second.isPlain_outline,
      Outline.pretty_inj failure.isPlain_outline second.isPlain_outline, shown]
    exact ⟨Iff.rfl, Iff.rfl⟩

end TaskPool
