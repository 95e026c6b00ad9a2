import TaskPool.Json.Value
import TaskPool.Pool.Platform
import TaskPool.Session.Effort

/-!
Sessions with several pools that share one queue.

One of all possible runs is followed: callers go on as far as they can, then workers do, then time
passes. What is shown of a session once nothing moves any more does not depend on this choice.
-/

namespace TaskPool

/--
When the gates are opened for good at the latest: always once the queue
is closed, and sometimes before.
-/
inductive Opening where
  | onClose
  /-- When a stop begins. -/
  | onStop
  /-- When a stop has waited long enough. -/
  | onTimeout
deriving DecidableEq, Repr

/-- Whether a message is the one at which the gates are opened for good. -/
def Opening.isDue : Opening → Message → Bool
  | _, .drained => true
  | .onStop, .stopRequested => true
  | .onTimeout, .drainTimeout => true
  | _, _ => false

namespace Session

/-- A pool in a session. -/
structure Member where
  pool : Pool
  /-- Whether somebody still has the pool in hand. -/
  inHand : Bool
  /-- The console that gets every line too, if there is one. -/
  console : Option Console
  /-- What was told since the last report. -/
  heard : List Message

/-- A call that the task of a worker made and waits for. -/
structure Errand where
  /-- The pool of the worker. -/
  pool : Nat
  worker : Nat
  /-- The pool that is called. -/
  target : Nat
  caller : Nat

end Session

/-- Several pools that share one queue, and what is to be told about them. -/
structure Session where
  queue : Queue Thread Task
  members : List Session.Member
  /-- The notes that tasks have left since the last report. -/
  notes : List Json.Value
  opening : Opening
  /-- Whether the gates were opened for good. -/
  gatesOpen : Bool
  errands : List Session.Errand

namespace Overview

/-- What a pool shows of itself, as an object. -/
def document (overview : Overview) : Json.Value :=
  .object
    [("names", .list (overview.names.map .text)), ("running", .truth overview.running),
      ("submitted", .natural overview.submitted.toNat), ("workers", .natural overview.workers)]

end Overview

namespace Session

/--
A pool that somebody has in hand, with the caller that leads the session as
the first of its callers.
-/
def Member.ofPool (pool : Pool) (console : Option Console) : Member where
  pool := { pool with callers := [.returned .nothing] }
  inHand := true
  console := console
  heard := []

/-- A session with new pools. -/
def start (members : List Member) : Session where
  queue := .empty
  members := members
  notes := []
  opening := .onClose
  gatesOpen := false
  errands := []

/-- The pool with a number, if somebody has it in hand. -/
def inHand? (session : Session) (number : Nat) : Option Pool :=
  match session.members[number]? with
  | some member => if member.inHand then some member.pool else none
  | none => none

/-- Adds a note. -/
def note (session : Session) (value : Json.Value) : Session :=
  { session with notes := session.notes ++ [value] }

/-- Takes in what happened at a pool. -/
def hear (number : Nat) (session : Session) : Pool.Event → Session
  | .noted value => session.note value
  | .logged _ message =>
    { session with
      members := session.members.modify number fun member =>
        { member with heard := member.heard ++ [message] }
      gatesOpen := session.gatesOpen || session.opening.isDue message }
  | _ => session

/-- A turn of one of the pools, if it is possible. -/
def turn (session : Session) (number : Nat) (turn : World.Turn) : Option Session :=
  match session.members[number]? with
  | none => none
  | some member =>
    (World.step ⟨session.queue, member.pool⟩ turn).map fun (world, events) =>
      events.foldl (hear number)
        { session with
          queue := world.queue
          members := session.members.set number { member with pool := world.pool } }

/--
What is decided for a pool: the one that sleeps longest is woken, and workers are
waited for in their order.
-/
def chance (session : Session) (pool : Pool) (call : Pool.Call) (timeUp : Bool) : Pool.Chance where
  woken := session.queue.asleep.head?
  refusal := Pool.stackTrouble? pool.settings.stackSize
  timeUp := timeUp
  joined :=
    match call with
    | .stop (.joining (worker :: _)) => worker
    | _ => 0
  micros := 0

/-- A turn of a caller, if it can go on. -/
def callerTurn (session : Session) (number caller : Nat) (timeUp : Bool) : Option Session :=
  match session.members[number]? with
  | none => none
  | some member =>
    match member.pool.callers[caller]? with
    | none => none
    | some call => session.turn number (.caller caller (session.chance member.pool call timeUp))

/-- The first turn that is possible, of all those of a kind in all pools. -/
def firstTurn (session : Session) (size : Pool → Nat) (attempt : Nat → Nat → Option Session) :
    Option Session :=
  (List.range session.members.length).findSome? fun number =>
    match session.members[number]? with
    | none => none
    | some member => (List.range (size member.pool)).findSome? (attempt number)

/-- A turn of the first caller that can go on. -/
def callersTurn (session : Session) (timeUp : Bool) : Option Session :=
  session.firstTurn (·.callers.length) fun number caller => session.callerTurn number caller timeUp

/--
The call that a task wants to be made: by which pool, and for what; nothing,
if that pool is in nobody's hand.
-/
def commission (session : Session) (number : Nat) : Request → Option (Nat × Pool.Request)
  | .submit target task => (session.inHand? target).map fun _ => (target, .submit task)
  | .push task => some (number, .queue (.push task))
  | .start target count => (session.inHand? target).map fun _ => (target, .start count)
  | .close => some (number, .queue .close)
  | .observe target _ => (session.inHand? target).map fun _ => (target, .observe)

/-- What is noted when a call was in vain, because the pool is in nobody's hand. -/
def noteVain (session : Session) : Request → Session
  | .submit _ task => session.note (.list [task.label, .text "not sent"])
  | .observe _ label => session.note (.list [label, .null])
  | _ => session

/-- What is noted when a call has returned. -/
def noteAnswer (session : Session) : Request → Pool.Answer → Session
  | .observe _ label, .overview overview => session.note (.list [label, overview.document])
  | _, _ => session

/--
A turn of a worker whose task makes a call: to begin it, to go on with it, or to come back from it.
-/
def errandTurn (session : Session) (number worker : Nat) (request : Request) : Option Session :=
  match session.errands.find? fun errand => errand.pool = number && errand.worker = worker with
  | none =>
    match session.commission number request with
    | none => (session.noteVain request).turn number (.resume worker none)
    | some (target, wanted) =>
      match session.members[target]? with
      | none => none
      | some member =>
        -- The first caller of a pool is the one that leads the session; tasks always get a new one.
        let caller := member.pool.callers.length
        (session.turn target (.begin caller wanted)).map fun session =>
          { session with errands := ⟨number, worker, target, caller⟩ :: session.errands }
  | some errand =>
    -- Once the call has ended, nobody needs to remember it.
    let done := { session with errands := session.errands.filter fun other =>
      !(other.pool = number && other.worker = worker) }
    match (session.members[errand.target]?).bind fun member =>
      member.pool.callers[errand.caller]? with
    | some (.returned answer) => (done.noteAnswer request answer).turn number (.resume worker none)
    | some (.broken text) => done.turn number (.resume worker (some text))
    | _ => session.callerTurn errand.target errand.caller false

/-- A turn of a worker, if it can go on. -/
def workerTurn (session : Session) (number worker : Nat) : Option Session :=
  match session.members[number]? with
  | none => none
  | some member =>
    match member.pool.workers[worker]? with
    | some ⟨_, .working _ (.await :: _)⟩ =>
      if session.gatesOpen then session.turn number (.openGate worker) else none
    | some ⟨_, .working _ (.ask request :: _)⟩ => session.errandTurn number worker request
    | _ => session.turn number (.worker worker (session.chance member.pool .observe false))

/-- A turn of the first worker that can go on. -/
def workersTurn (session : Session) : Option Session :=
  session.firstTurn (·.workers.length) session.workerTurn

/-- Makes one turn after the other until none is possible, for at most so many turns. -/
def exhaust (next : Session → Option Session) : Nat → Session → Session
  | 0, session => session
  | turns + 1, session =>
    match next session with
    | none => session
    | some session => exhaust next turns session

/-- A bound for the turns until nothing moves any more. -/
def effort (session : Session) : Nat :=
  16 + total Task.effort session.queue.items + total (fun member => member.pool.effort)
    session.members

/--
One round: all callers go on as far as they can, and then all workers do;
time passes if neither can.

A stop that waits for the queue to become empty looks at it once a round,
and not while workers are at work.
-/
def round (session : Session) : Option Session :=
  -- Time only passes when nothing else can happen.
  if (session.callersTurn false).isSome || session.workersTurn.isSome then
    let called := exhaust (·.callersTurn false) session.effort session
    some (exhaust workersTurn called.effort called)
  else session.callersTurn true

/-- Goes on until nothing moves any more. -/
def settle (session : Session) : Session := exhaust round session.effort session

end Session

end TaskPool
