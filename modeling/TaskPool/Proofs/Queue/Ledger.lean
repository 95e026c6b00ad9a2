import TaskPool.Queue.Call

/-!
The books of a queue: what went on it, what left it and to whom, and which answers
are right at each moment.

A call touches what the queue holds in one step only, so the books can be kept as if all
threads came one at a time.
-/

namespace TaskPool.Queue

variable {κ α : Type}

/-- What a queue holds and whether it is closed, without the consumers that wait at it. -/
structure Contents (α : Type) where
  items : List α
  closed : Bool

/-- The contents of a queue. -/
def contents (queue : Queue κ α) : Contents α := ⟨queue.items, queue.closed⟩

/-- What each event makes of the contents of a queue, and where it may happen at all. -/
inductive Contents.Change : Contents α → Event κ α → Contents α → Prop where
  /-- An item goes behind all others, and it does not matter whether the queue is closed. -/
  | pushed {items : List α} {closed : Bool} {thread : κ} {item : α} :
    Change ⟨items, closed⟩ (.pushed thread item) ⟨items ++ [item], closed⟩
  /-- A thread that would wait for an item gets the first one, from a closed queue as well. -/
  | popped {item : α} {items : List α} {closed : Bool} {thread : κ} :
    Change ⟨item :: items, closed⟩ (.popped thread (some item)) ⟨items, closed⟩
  /-- A thread that would wait gets nothing only where nothing is left and the queue is closed. -/
  | dismissed {thread : κ} : Change ⟨[], true⟩ (.popped thread none) ⟨[], true⟩
  /-- A thread that would not wait gets the first item of an open queue. -/
  | tried {item : α} {items : List α} {thread : κ} :
    Change ⟨item :: items, false⟩ (.tried thread (some item)) ⟨items, false⟩
  /-- A thread that would not wait gets nothing where the queue is closed or empty. -/
  | refused {items : List α} {closed : Bool} {thread : κ} (vain : closed = true ∨ items = []) :
    Change ⟨items, closed⟩ (.tried thread none) ⟨items, closed⟩
  /-- Everything that is there is discarded, and the queue stays open or closed. -/
  | cleared {items : List α} {closed : Bool} {thread : κ} :
    Change ⟨items, closed⟩ (.cleared thread items) ⟨[], closed⟩
  /-- The queue is closed, and what it holds stays there. -/
  | closed {items : List α} {closed : Bool} {thread : κ} :
    Change ⟨items, closed⟩ (.closed thread) ⟨items, true⟩

/-- What one event after the other makes of the contents of a queue. -/
inductive Contents.Path : Contents α → List (Event κ α) → Contents α → Prop where
  | done {contents : Contents α} : Path contents [] contents
  | step {before middle after : Contents α} {event : Event κ α} {events : List (Event κ α)}
    (change : Contents.Change before event middle) (path : Path middle events after) :
    Path before (event :: events) after

/-- The items that were put on the queue, in their order. -/
def pushedItems (events : List (Event κ α)) : List α :=
  events.filterMap fun
    | .pushed _ item => some item
    | _ => none

/--
What leaves the queue at an event, with the thread that gets it,
or with nobody where it is discarded.
-/
def Event.removals : Event κ α → List (Option κ × α)
  | .popped thread item | .tried thread item => item.toList.map (some thread, ·)
  | .cleared _ items => items.map (none, ·)
  | .pushed .. | .closed _ => []

/-- What has left the queue, in this order. -/
def removals (events : List (Event κ α)) : List (Option κ × α) := events.flatMap Event.removals

/-- The items that have left the queue, in this order. -/
def removedItems (events : List (Event κ α)) : List α := (removals events).map (·.2)

/-- Whether the queue is closed at an event, for the first time or again. -/
def Event.closes : Event κ α → Bool
  | .closed _ => true
  | _ => false

/-- The items that were put on the queue before it was closed for the first time. -/
def pushedWhileOpen (events : List (Event κ α)) : List α :=
  pushedItems (events.takeWhile fun event => !event.closes)

/-- The items that a thread got, in this order. -/
def gotBy [DecidableEq κ] (thread : κ) (events : List (Event κ α)) : List α :=
  (removals events).filterMap fun (taker, item) => if taker = some thread then some item else none

/--
The items that were put on the queue were put there at the earlier events,
and then at the later ones.
-/
theorem pushedItems_append (events more : List (Event κ α)) :
    pushedItems (events ++ more) = pushedItems events ++ pushedItems more := List.filterMap_append

/--
What has left the queue at all events left it at the earlier ones, and then at the later ones.
-/
theorem removals_append (events more : List (Event κ α)) :
    removals (events ++ more) = removals events ++ removals more := List.flatMap_append

/-- The items that have left the queue left it at the earlier events, and then at the later ones. -/
theorem removedItems_append (events more : List (Event κ α)) :
    removedItems (events ++ more) = removedItems events ++ removedItems more := by
  -- The items are those of the removals, which come in the same order.
  simp [removedItems, removals_append]

/-- A thread got what it got at the earlier events, and then what it got at the later ones. -/
theorem gotBy_append [DecidableEq κ] (thread : κ) (events more : List (Event κ α)) :
    gotBy thread (events ++ more) = gotBy thread events ++ gotBy thread more := by
  -- What one thread got is picked out of the removals, which come in the same order.
  simp [gotBy, removals_append]

namespace Contents.Path

variable {before middle after : Contents α} {events more : List (Event κ α)}

/-- Events that follow each other make one path. -/
theorem append (first : Path before events middle) (second : Path middle more after) :
    Path before (events ++ more) after := by
  -- The first path is walked to its end, where the second one begins.
  induction first with
  | done => exact second
  | step change _ ih => exact .step change (ih second)

/-- One event is a path of its own. -/
theorem single {event : Event κ α} (change : Change before event after) :
    Path before [event] after :=
  .step change .done

/-- What was there and what was put there is what left and what is there now, in the same order. -/
theorem ledger (path : Path before events after) :
    before.items ++ pushedItems events = removedItems events ++ after.items := by
  -- Each event moves one boundary in a list that stays the same.
  induction path with
  | done => simp [pushedItems, removedItems, removals]
  | step change _ ih =>
    -- A push adds at the far end of the list, and a removal moves the near end of what is left.
    cases change <;>
      simp_all [pushedItems, removedItems, removals, Event.removals, Function.comp_def]

/-- A queue is closed if it was, or if it has been closed on the way. -/
theorem closed_iff (path : Path before events after) :
    after.closed = true ↔ before.closed = true ∨ events.any Event.closes = true := by
  -- One kind of change closes a queue, and none opens it again.
  induction path with
  | done => simp
  | step change _ ih => cases change <;> simp_all [Event.closes]

end Contents.Path

/-- The items put on an open queue are the first of all items that were ever put on it. -/
theorem pushedWhileOpen_prefix (events : List (Event κ α)) :
    pushedWhileOpen events <+: pushedItems events :=
  (List.takeWhile_prefix _).filterMap _

/-- Once a queue is closed, nothing more is put on an open queue. -/
theorem pushedWhileOpen_append {events : List (Event κ α)} (closed : events.any Event.closes = true)
    (more : List (Event κ α)) : pushedWhileOpen (events ++ more) = pushedWhileOpen events := by
  -- The first closing event ends the front part, and it is among the earlier events.
  unfold pushedWhileOpen
  congr 1
  induction events with
  | nil => simp at closed
  | cons event events ih =>
    cases first : event.closes with
    | true => simp [first]
    | false =>
      -- This event does not close the queue, so a later one does.
      have later : events.any Event.closes = true := by simpa [first] using closed
      simpa [first] using ih later

/-- What a consumer meets is booked as the answer of its call, unless it falls asleep. -/
def Met.events (thread : κ) : Met α → List (Event κ α)
  | .item first => [.popped thread (some first)]
  | .ended => [.popped thread none]
  | .nothing => []

/-- A consumer that looks at the queue takes the first item, or leaves the contents as they are. -/
theorem take_path [DecidableEq κ] (queue : Queue κ α) (thread : κ) :
    Contents.Path queue.contents ((queue.take thread).1.events thread)
      (queue.take thread).2.contents := by
  -- A consumer looks for an item first, and only then whether the queue is closed.
  obtain ⟨items, closed, asleep, woken⟩ := queue
  cases items with
  | cons item rest => exact .single .popped
  | nil =>
    cases closed with
    | true => exact .single .dismissed
    -- The consumer falls asleep, which the books do not show.
    | false => exact .done

/-- A try takes the first item of an open queue, or leaves the contents as they are. -/
theorem tryTake_change (queue : Queue κ α) (thread : κ) :
    Contents.Change queue.contents (.tried thread queue.tryTake.1) queue.tryTake.2.contents := by
  -- A closed queue refuses a try before anybody looks at its items.
  obtain ⟨items, closed, asleep, woken⟩ := queue
  cases closed with
  | true => exact .refused (.inl rfl)
  | false =>
    cases items with
    | cons item rest => exact .tried
    | nil => exact .refused (.inr rfl)

/--
Every step of a call keeps the books: its events are what it does to the contents of the queue.
-/
theorem Call.step_path [DecidableEq κ] {self : κ} {chosen : Option κ} {queue after : Queue κ α}
    {call next : Call α} {events : List (Event κ α)}
    (stepped : call.step self chosen queue = some (after, next, events)) :
    Contents.Path queue.contents events after.contents := by
  -- Each kind of call has at most one step that touches the contents, and that step has one event.
  cases call with
  | pushing item =>
    obtain ⟨rfl, rfl, rfl⟩ : _ ∧ _ ∧ _ := by simpa [Call.step] using stepped
    exact .single .pushed
  | notifying =>
    -- Waking somebody is nothing that the books show.
    cases chosen <;> simp only [Call.step, Option.ite_none_right_eq_some, Option.some.injEq,
      Prod.mk.injEq] at stepped <;> obtain ⟨-, rfl, -, rfl⟩ := stepped <;> exact .done
  | popping =>
    have looked := queue.take_path self
    simp only [Call.step] at stepped
    split at stepped
    · -- A thread that is asleep takes no step.
      cases stepped
    · -- In each of the three cases the path is the one of the look at the queue.
      split at stepped <;> rename_i met <;> rw [met] at looked <;>
        obtain ⟨rfl, rfl, rfl⟩ : _ ∧ _ ∧ _ := by simpa using stepped
      all_goals exact looked
  | trying =>
    obtain ⟨rfl, rfl, rfl⟩ : _ ∧ _ ∧ _ := by simpa [Call.step] using stepped
    exact .single (queue.tryTake_change self)
  | clearing =>
    obtain ⟨rfl, rfl, rfl⟩ : _ ∧ _ ∧ _ := by simpa [Call.step] using stepped
    exact .single .cleared
  | closing =>
    obtain ⟨rfl, rfl, rfl⟩ : _ ∧ _ ∧ _ := by simpa [Call.step] using stepped
    exact .single .closed
  | notifyingAll =>
    -- Waking everybody touches only who waits.
    obtain ⟨rfl, rfl, rfl⟩ : _ ∧ _ ∧ _ := by simpa [Call.step] using stepped
    exact .done
  | returned item => cases stepped

/-- The events that belong to a step of a call, where the queue held some items before it. -/
def Call.told (self : κ) (items : List α) : Call α → Call α → List (Event κ α)
  | .pushing item, _ => [.pushed self item]
  -- A consumer that falls asleep has got no answer yet.
  | .popping, .returned item => [.popped self item]
  | .trying, .returned item => [.tried self item]
  | .clearing, _ => [.cleared self items]
  | .closing, _ => [.closed self]
  | _, _ => []

/--
The events of a step are those of its call: what a call brings back is booked once,
and so is what it discards.
-/
theorem Call.step_told [DecidableEq κ] {self : κ} {chosen : Option κ} {queue after : Queue κ α}
    {call next : Call α} {events : List (Event κ α)}
    (stepped : call.step self chosen queue = some (after, next, events)) :
    events = call.told self queue.items next := by
  -- What a step tells depends on the call before it and, where it brings something
  -- back, on the call after it.
  cases call with
  | notifying =>
    -- Whether or not somebody is woken, nothing is told.
    cases chosen <;> simp only [step, Option.ite_none_right_eq_some, Option.some.injEq,
      Prod.mk.injEq] at stepped <;> obtain ⟨-, -, rfl, rfl⟩ := stepped <;> rfl
  | popping =>
    -- A consumer that falls asleep tells nothing, and otherwise its answer is what it tells.
    simp only [step] at stepped
    split at stepped
    · cases stepped
    · split at stepped <;> obtain ⟨-, rfl, rfl⟩ : _ ∧ _ ∧ _ := by simpa using stepped
      all_goals rfl
  | returned item => cases stepped
  | _ =>
    obtain ⟨-, rfl, rfl⟩ : _ ∧ _ ∧ _ := by simpa [step] using stepped
    rfl

/-- A step of a call hands no item to any other thread. -/
theorem Call.step_gotBy [DecidableEq κ] {self other : κ} {chosen : Option κ}
    {queue after : Queue κ α} {call next : Call α} {events : List (Event κ α)}
    (stepped : call.step self chosen queue = some (after, next, events)) (apart : self ≠ other) :
    gotBy other events = [] := by
  -- Every event of a step names its own thread, or nobody.
  rw [Call.step_told stepped]
  cases call <;> cases next <;> simp [told, gotBy, removals, Event.removals, apart]

end TaskPool.Queue
