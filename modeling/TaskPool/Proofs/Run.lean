import Mathlib.Data.List.Induction

/-!
Runs of a machine: one possible turn after the other, with everything that happened on the way.
-/

namespace TaskPool

variable {σ τ ε : Type}

/--
What a machine comes to in some turns, with all that happened; nothing,
if one of them is not possible.
-/
def runOf (step : σ → τ → Option (σ × List ε)) (start : σ) (turns : List τ) : Option (σ × List ε) :=
  turns.foldl
    (fun reached turn =>
      reached.bind fun (state, events) =>
        (step state turn).map fun (next, new) => (next, events ++ new))
    (some (start, []))

variable {step : σ → τ → Option (σ × List ε)} {start : σ}

/-- A run with one more turn is a run, and then that turn. -/
theorem runOf_concat {turns : List τ} {turn : τ} {last : σ} {all : List ε} :
    runOf step start (turns ++ [turn]) = some (last, all) ↔
      ∃ state events new, runOf step start turns = some (state, events) ∧
        step state turn = some (last, new) ∧ all = events ++ new := by
  -- The fold takes the last turn behind all others.
  simp only [runOf, List.foldl_append, List.foldl_cons, List.foldl_nil, Option.bind_eq_some_iff,
    Option.map_eq_some_iff, Prod.exists, Prod.mk.injEq]
  constructor
  · rintro ⟨state, events, ran, next, new, stepped, rfl, rfl⟩
    exact ⟨state, events, new, ran, stepped, rfl⟩
  · rintro ⟨state, events, new, ran, stepped, rfl⟩
    exact ⟨state, events, ran, last, new, stepped, rfl, rfl⟩

/--
What holds at the start and is kept by every turn of some kind holds at the end
of every run of such turns.
-/
theorem run_invariant_among (allowed : τ → Prop) (holds : σ → List ε → Prop) (base : holds start [])
    (keeps : ∀ state events turn next new, allowed turn → holds state events →
      step state turn = some (next, new) → holds next (events ++ new))
    {turns : List τ} (all : ∀ turn ∈ turns, allowed turn) {state : σ} {events : List ε}
    (ran : runOf step start turns = some (state, events)) : holds state events := by
  -- The induction takes the last turn off a run.
  induction turns using List.reverseRecOn generalizing state events with
  | nil =>
    obtain ⟨rfl, rfl⟩ : start = state ∧ [] = events := by simpa [runOf] using ran
    exact base
  | append_singleton turns turn ih =>
    obtain ⟨before, earlier, new, reached, stepped, rfl⟩ := runOf_concat.mp ran
    have held := ih (fun other member => all other (List.mem_append_left _ member)) reached
    exact keeps before earlier turn state new (all turn (by simp)) held stepped

/-- What holds at the start and is kept by every turn holds at the end of every run. -/
theorem run_invariant (holds : σ → List ε → Prop) (base : holds start [])
    (keeps : ∀ state events turn next new, holds state events → step state turn = some (next, new) →
      holds next (events ++ new))
    {turns : List τ} {state : σ} {events : List ε}
    (ran : runOf step start turns = some (state, events)) : holds state events :=
  run_invariant_among (fun _ => True) holds base
    (fun state events turn next new _ held stepped => keeps state events turn next new held stepped)
    (fun _ _ => trivial) ran

/-- A run can be cut anywhere into a run and another one that goes on from there. -/
theorem runOf_append {early late : List τ} {last : σ} {all : List ε} :
    runOf step start (early ++ late) = some (last, all) ↔
      ∃ middle events more, runOf step start early = some (middle, events) ∧
        runOf step middle late = some (last, more) ∧ all = events ++ more := by
  -- The induction takes the last turn off the later part, where it is the
  -- last turn of the whole run.
  induction late using List.reverseRecOn generalizing last all with
  | nil =>
    rw [List.append_nil]
    constructor
    · intro ran
      exact ⟨last, all, [], ran, rfl, by simp⟩
    · rintro ⟨middle, events, more, ran, went, rfl⟩
      obtain ⟨rfl, rfl⟩ : middle = last ∧ [] = more := by simpa [runOf] using went
      simpa using ran
  | append_singleton late turn ih =>
    rw [← List.append_assoc, runOf_concat]
    constructor
    · rintro ⟨before, earlier, new, reached, stepped, rfl⟩
      obtain ⟨middle, events, more, first, second, rfl⟩ := ih.mp reached
      exact ⟨middle, events, more ++ new, first, runOf_concat.mpr ⟨before, more, new, second,
        stepped, rfl⟩,
        List.append_assoc ..⟩
    · rintro ⟨middle, events, more, first, second, rfl⟩
      obtain ⟨before, earlier, new, reached, stepped, rfl⟩ := runOf_concat.mp second
      exact ⟨before, events ++ earlier, new, ih.mpr ⟨middle, events, earlier, first, reached,
        rfl⟩, stepped,
        (List.append_assoc ..).symm⟩

/-- A run that begins with a turn is that turn, and then a run that goes on from there. -/
theorem runOf_cons {turn : τ} {turns : List τ} {last : σ} {all : List ε} :
    runOf step start (turn :: turns) = some (last, all) ↔
      ∃ next new more, step start turn = some (next, new) ∧
        runOf step next turns = some (last, more) ∧
        all = new ++ more := by
  -- The one turn is a run that is cut off at the front.
  have first {next : σ} {new : List ε} :
      runOf step start [turn] = some (next, new) ↔ step start turn = some (next, new) := by
    simp [runOf]
  rw [← List.singleton_append, runOf_append]
  simp only [first]

/--
Two machines go side by side: what holds of both at the start, and is kept by each pair
of turns, holds at the end.

For each turn that the first machine can take the second one can take its partner,
so the second run exists as well.
-/
theorem run_together {σ' τ' ε' : Type} {step' : σ' → τ' → Option (σ' × List ε')} {start' : σ'}
    (partners : τ → τ' → Prop) (holds : σ → List ε → σ' → List ε' → Prop) {past : List ε}
    {past' : List ε'} (base : holds start past start' past')
    (keeps : ∀ state events state' events' turn turn' next new, holds state events state' events' →
      partners turn turn' → step state turn = some (next, new) →
      ∃ next' new', step' state' turn' = some (next', new') ∧
        holds next (events ++ new) next' (events' ++ new'))
    {turns : List τ} {turns' : List τ'} (paired : List.Forall₂ partners turns turns') {state : σ}
    {events : List ε} (ran : runOf step start turns = some (state, events)) :
    ∃ state' events', runOf step' start' turns' = some (state', events') ∧
      holds state (past ++ events) state' (past' ++ events') := by
  -- The induction takes the first pair of turns off, after which both machines
  -- go on from where they are.
  induction paired generalizing start start' past past' events with
  | nil =>
    obtain ⟨rfl, rfl⟩ : start = state ∧ [] = events := by simpa [runOf] using ran
    exact ⟨start', [], rfl, by simpa using base⟩
  | cons partner paired ih =>
    obtain ⟨next, new, more, stepped, went, rfl⟩ := runOf_cons.mp ran
    obtain ⟨next', new', stepped', held⟩ := keeps _ _ _ _ _ _ _ _ base partner stepped
    obtain ⟨state', more', went', last⟩ := ih held went
    refine ⟨state', new' ++ more', runOf_cons.mpr ⟨next', new', more', stepped', went', rfl⟩, ?_⟩
    simpa only [List.append_assoc] using last

end TaskPool
