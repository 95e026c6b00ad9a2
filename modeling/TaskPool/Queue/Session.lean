import TaskPool.Json.Value
import TaskPool.Queue.Traffic

/-!
Sessions at a queue of JSON values: one command after the other, each followed
until nothing moves any more.
-/

namespace TaskPool.Queue

open Json (Value)

/-- What a session can be asked to do. -/
inductive Command where
  /-- Puts items on the queue, one after the other. -/
  | push (items : List Value)
  /-- Takes an item, and leaves a sleeping consumer behind if there is none yet. -/
  | pop
  /-- Takes some items, and leaves nobody behind. -/
  | popTimes (count : Nat)
  | tryPop
  | tryPopTimes (count : Nat)
  | close
  | clear
  /-- Tells how many items there are. -/
  | size
  /-- Closes the queue and takes everything that is left. -/
  | drain
  /-- Goes on with a new queue. -/
  | replace
  /-- Shows the outline of the queue. -/
  | outline
  /--
  Lets several producers put items on the queue and several consumers take them,
  closes it, and empties it.
  -/
  | crowd (producers : List (List Value)) (consumers : Nat)

/-- What one try to take an item came to, where the wait for one would have no end. -/
inductive Attempt where
  | item (item : Option Value)
  | blocked

/-- What a session answers. -/
inductive Reply where
  | nothing
  | size (count : Nat)
  /-- What all the consumers together got. -/
  | items (items : List Value)
  | attempt (attempt : Attempt)
  | attempts (attempts : List Attempt)
  | tries (items : List (Option Value))
  /-- How many consumers learned that nothing will come. -/
  | dismissed (count : Nat)
  /-- How many consumers learned that nothing will come, and what was left. -/
  | drained (dismissed : Nat) (items : List Value)
  | outline (outline : Text.Outline)

/-- The items that threads got. -/
def itemsOf {κ α : Type} (events : List (Event κ α)) : List α :=
  events.filterMap fun
    | .popped _ item | .tried _ item => item
    | _ => none

/-- How many threads learned that nothing will come. -/
def dismissedBy {κ α : Type} (events : List (Event κ α)) : Nat :=
  events.countP fun
    | .popped _ none => true
    | _ => false

/-- Items in the order of their written form. -/
def byText (items : List Value) : List Value := items.mergeSort fun a b => a.compact ≤ b.compact

/-- The natural number that a value is, if it is one; no floating number counts as natural. -/
def natural? : Value → Option Nat
  | .integer n => if 0 ≤ n then some n.toNat else none
  | _ => none

/--
Items in an order of their own: first what is no natural number, by its text,
and then the natural numbers.
-/
def byWorth (items : List Value) : List Value :=
  byText (items.filter fun item => (natural? item).isNone)
    ++ ((items.filterMap natural?).mergeSort (· ≤ ·)).map .natural

/--
A session: the traffic at its present queue, and the consumers that still sleep at an earlier one.
-/
structure Session where
  traffic : Traffic Value
  stranded : Nat

namespace Session

/-- A session at a new queue. -/
def start : Session := ⟨.empty, 0⟩

/-- How many consumers are asleep. -/
def sleepers (session : Session) : Nat := session.stranded + session.traffic.queue.asleep.length

/-- The first thread that is not in the middle of a call, which may be a new one. -/
def freeThread (session : Session) : Nat :=
  session.traffic.calls.findIdx Call.hasReturned

/-- Lets a thread make a call, and everybody go on until nothing moves. -/
def call (session : Session) (request : Request Value) : Session × List (Event Nat Value) :=
  match session.traffic.step (.begin session.freeThread request) with
  | none => (session, [])
  | some (begun, _) =>
    let (settled, events) := begun.settle
    ({ session with traffic := settled }, events)

/-- Lets a thread make one call after the other. -/
def callEach (session : Session) (requests : List (Request Value)) :
    Session × List (Event Nat Value) :=
  requests.foldl
    (fun (session, events) request =>
      let (next, more) := session.call request
      (next, events ++ more))
    (session, [])

/-- Takes an item, or leaves everything as it is if the wait for one would have no end. -/
def attempt (session : Session) : Attempt × Session :=
  let (next, events) := session.call .pop
  match events with
  | .popped _ item :: _ => (.item item, next)
  | _ => (.blocked, session)

/-- Takes items without waiting. -/
def tries (session : Session) (count : Nat) : List (Option Value) × Session :=
  let (next, events) := session.callEach (List.replicate count .tryPop)
  (events.filterMap fun
    | .tried _ item => some item
    | _ => none, next)

/-- Takes some items, one after the other. -/
def attempts : Nat → Session → List Attempt × Session
  | 0, session => ([], session)
  | count + 1, session =>
    let (first, next) := session.attempt
    let (more, last) := attempts count next
    (first :: more, last)

/-- Takes everything that is left on a closed queue. -/
def takeAll (session : Session) : List Value × Session :=
  let (next, events) := session.callEach (List.replicate session.traffic.queue.items.length .pop)
  (itemsOf events, next)

/-- Answers a command. -/
def perform (session : Session) : Command → Session × Reply
  | .push items =>
    let (next, events) := session.callEach (items.map .push)
    (next, .items (byText (itemsOf events)))
  | .pop =>
    -- Here the consumer that would wait stays and sleeps, and gets what comes later.
    match session.attempt with
    | (.blocked, _) => ((session.call .pop).1, .attempt .blocked)
    | (attempt, next) => (next, .attempt attempt)
  | .popTimes count =>
    let (attempts, next) := session.attempts count
    (next, .attempts attempts)
  | .tryPop =>
    let (items, next) := session.tries 1
    (next, .attempt (.item items.head?.join))
  | .tryPopTimes count =>
    let (items, next) := session.tries count
    (next, .tries items)
  | .close =>
    let (next, events) := session.call .close
    (next, .dismissed (dismissedBy events))
  | .clear => ((session.call .clear).1, .nothing)
  | .size => (session, .size session.traffic.queue.items.length)
  | .drain =>
    -- The consumers that slept learn that nothing will come before the rest is taken.
    let (shut, events) := session.call .close
    let (items, next) := shut.takeAll
    (next, .drained (dismissedBy events) items)
  -- Whoever sleeps at the old queue will never be woken.
  | .replace => (⟨.empty, session.sleepers⟩, .nothing)
  | .outline => (session, .outline session.traffic.queue.outline)
  | .crowd producers consumers =>
    let (filled, early) := session.callEach (producers.flatten.map .push)
    let (items, next) := (filled.call .close).1.takeAll
    let all := itemsOf early ++ items
    -- Only one consumer sees the order of the queue, and only one producer fixes it.
    (next, .items (if producers.length ≤ 1 && consumers = 1 then all else byWorth all))

end Session

end TaskPool.Queue
