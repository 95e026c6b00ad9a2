import TaskPool.Proofs.Queue.Ledger
import TaskPool.Proofs.Queue.Turn
import TaskPool.Proofs.Run

/-!
Every item that is put on a queue leaves it once, in the order of arrival,
whoever comes and in whatever order.
-/

namespace TaskPool.Queue

variable {κ α : Type}

/--
A call for an item that would wait for it brings back nothing only from a queue
that is closed and empty.
-/
theorem Call.popping_none [DecidableEq κ] {self : κ} {chosen : Option κ} {queue after : Queue κ α}
    {events : List (Event κ α)}
    (stepped : Call.popping.step self chosen queue = some (after, .returned none, events)) :
    queue.closed = true ∧ queue.items = [] := by
  have path := Call.step_path stepped
  rw [Call.step_told stepped] at path
  -- Among the changes of the contents only a dismissal tells this.
  cases path with
  | step change _ =>
    generalize held : queue.contents = contents at change
    cases change
    exact ⟨congrArg Contents.closed held, congrArg Contents.items held⟩

/--
A try brings back nothing exactly from a queue that is closed or empty,
and then leaves it as it was.
-/
theorem tryTake_none (queue : Queue κ α) :
    (queue.tryTake.1 = none ↔ queue.closed = true ∨ queue.items = []) ∧
      (queue.tryTake.1 = none → queue.tryTake.2 = queue) := by
  -- A queue is open or closed, and empty or not.
  obtain ⟨items, closed, asleep, woken⟩ := queue
  cases closed <;> cases items <;> simp [tryTake]

/-- A turn keeps the books of the queue. -/
theorem Traffic.step_path {traffic next : Traffic α} {turn : Turn α} {events : List (Event Nat α)}
    (stepped : traffic.step turn = some (next, events)) :
    Contents.Path traffic.queue.contents events next.queue.contents := by
  -- A new call touches nothing, and a step of a call keeps the books by itself.
  cases turn with
  | begin thread request =>
    obtain ⟨rfl, same, -⟩ := step_begin stepped
    exact same ▸ .done
  | advance thread chosen =>
    obtain ⟨before, queue, after, -, moved, rfl⟩ := step_advance.mp stepped
    exact Call.step_path moved

/-- A run keeps the books of the queue. -/
theorem Traffic.run_path {start traffic : Traffic α} {turns : List (Turn α)}
    {events : List (Event Nat α)} (ran : runOf step start turns = some (traffic, events)) :
    Contents.Path start.queue.contents events traffic.queue.contents :=
  run_invariant (fun traffic events => Contents.Path start.queue.contents events
    traffic.queue.contents)
    .done (fun _ _ _ _ _ path stepped => path.append (step_path stepped)) ran

/--
Any number of threads use a new queue, in any order.

Then the books of the queue are right from its beginning: what was put on it is what has left it,
each item with one call that brought it back or discarded it, and then what it holds,
all in one order. From there on a closed queue stays closed, an item is stored whether or not
the queue is closed, a call that would wait is dismissed only from a queue that is closed and empty,
and a try fails exactly on one that is closed or empty and then changes nothing.
-/
theorem delivery_in_order_exactly_once {turns : List (Turn α)} {traffic : Traffic α}
    {events : List (Event Nat α)} (ran : runOf Traffic.step .empty turns = some (traffic, events)) :
    Contents.Path ⟨[], false⟩ events traffic.queue.contents ∧
    pushedItems events = removedItems events ++ traffic.queue.items ∧
    (∀ more later new, runOf Traffic.step traffic more = some (later, new) →
      traffic.queue.closed = true → later.queue.closed = true) ∧
    ∀ thread chosen next new, traffic.step (.advance thread chosen) = some (next, new) →
      ∃ before after, traffic.calls[thread]? = some before ∧ next.calls[thread]? = some after ∧
        new = before.told thread traffic.queue.items after ∧
        (∀ item, before = .pushing item → next.queue.items = traffic.queue.items ++ [item]) ∧
        (before = .popping → after = .returned none →
          traffic.queue.closed = true ∧ traffic.queue.items = []) ∧
        (before = .trying →
          (after = .returned none ↔ traffic.queue.closed = true ∨ traffic.queue.items = []) ∧
          (after = .returned none → next.queue = traffic.queue)) := by
  -- The order follows from the whole path, and the answers from the step that gives them.
  have path := Traffic.run_path ran
  refine ⟨path, ?_, ?_, ?_⟩
  · simpa [Traffic.empty, empty, contents] using path.ledger
  · intro more later new went closed
    exact (Traffic.run_path went).closed_iff.mpr (.inl closed)
  · -- A turn that goes on with a call is a step of that call, and each answer is read off the step.
    intro thread chosen next new stepped
    obtain ⟨before, queue, after, found, moved, rfl⟩ := Traffic.step_advance.mp stepped
    have within : thread < traffic.calls.length := (List.getElem?_eq_some_iff.mp found).1
    refine ⟨before, after, found, by simp [within], Call.step_told moved, ?_, ?_, ?_⟩
    · rintro item rfl
      obtain ⟨rfl, -, -⟩ : _ ∧ _ ∧ _ := by simpa [Call.step] using moved
      rfl
    · rintro rfl rfl
      exact Call.popping_none moved
    · rintro rfl
      obtain ⟨rfl, rfl, -⟩ : _ ∧ _ ∧ _ := by simpa [Call.step] using moved
      simpa using traffic.queue.tryTake_none

/--
A sleeper loses its item to a try, the queue is closed, and what comes after that is discarded.
-/
def lateItems : List (Turn Nat) :=
  [.begin 0 .pop, .advance 0 none, .begin 1 (.push 7), .advance 1 none, .advance 1 (some 0),
    .begin 1 (.push 8), .advance 1 none, .begin 2 .tryPop, .advance 2 none, .begin 3 .close,
    .advance 3 none, .advance 0 none, .advance 3 none, .advance 1 none, .begin 1 (.push 9),
    .advance 1 none, .begin 2 .clear, .advance 2 none, .begin 0 .pop, .advance 0 none]

/--
Each of three items is booked where it went: to a try, to the consumer that slept, and to nobody.
-/
theorem delivery_of_late_items :
    ∃ traffic events, runOf Traffic.step (Traffic.empty : Traffic Nat) lateItems =
      some (traffic, events) ∧
      removals events = [(some 2, 7), (some 0, 8), (none, 9)] ∧
      pushedItems events = removedItems events ++ traffic.queue.items :=
  ⟨_, _, rfl, rfl, (@delivery_in_order_exactly_once Nat lateItems _ _ rfl).2.1⟩

end TaskPool.Queue
