import TaskPool.Queue.Traffic

/-! What one turn at a queue can do to its threads. -/

namespace TaskPool.Queue.Traffic

variable {α : Type} {traffic next : Traffic α} {events : List (Event Nat α)}

/--
A call begins at a new place or where the last call has returned, and nothing happens at the queue.
-/
theorem step_begin {thread : Nat} {request : Request α}
    (stepped : traffic.step (.begin thread request) = some (next, events)) :
    events = [] ∧ next.queue = traffic.queue ∧
      (next.calls = traffic.calls ++ [request.call] ∨
        ∃ item, traffic.calls[thread]? = some (.returned item) ∧
          next.calls = traffic.calls.set thread request.call) := by
  -- A call begins at a place that nobody has, or at one whose last call has returned.
  simp only [step] at stepped
  split at stepped
  · obtain ⟨rfl, rfl⟩ : _ ∧ _ := by simpa using stepped
    exact ⟨rfl, rfl, .inl rfl⟩
  · cases found : traffic.calls[thread]? with
    | none => simp [found] at stepped
    | some call =>
      cases call with
      | returned item =>
        obtain ⟨rfl, rfl⟩ : _ ∧ _ := by simpa [found, Call.hasReturned] using stepped
        exact ⟨rfl, rfl, .inr ⟨item, rfl, rfl⟩⟩
      | _ => simp [found, Call.hasReturned] at stepped

/--
A thread that goes on takes one step of its call, and the calls of all others stay as they are.
-/
theorem step_advance {thread : Nat} {chosen : Option Nat} :
    traffic.step (.advance thread chosen) = some (next, events) ↔
      ∃ before queue after, traffic.calls[thread]? = some before ∧
        before.step thread chosen traffic.queue = some (queue, after, events) ∧
        next = ⟨queue, traffic.calls.set thread after⟩ := by
  -- The turn is possible where there is such a thread and its call can go on.
  simp only [step]
  cases found : traffic.calls[thread]? with
  | none => simp
  | some before =>
    simp only [Option.map_eq_some_iff, Prod.exists, Prod.mk.injEq, Option.some.injEq]
    constructor
    · rintro ⟨queue, after, new, stepped, same, rfl⟩
      exact ⟨before, queue, after, rfl, stepped, same.symm⟩
    · rintro ⟨_, queue, after, rfl, stepped, same⟩
      exact ⟨queue, after, events, stepped, same.symm, rfl⟩

end TaskPool.Queue.Traffic
