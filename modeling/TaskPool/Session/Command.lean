import TaskPool.Session

/-! What a session can be asked to do, and what it answers once nothing moves any more. -/

namespace TaskPool.Session

/-- A command, which is for one of the pools. -/
inductive Command where
  | start (count : Nat)
  /-- Several threads start the pool at once. -/
  | startTogether (callers count : Nat)
  | submit (tasks : List Task)
  /-- Puts tasks on the queue without the pool. -/
  | push (tasks : List Task)
  /-- Several threads submit some tasks each, which come to a good end. -/
  | submitTogether (callers each : Nat)
  | stop (opening : Opening)
  /-- Several threads stop the pool at once. -/
  | stopTogether (callers : Nat) (opening : Opening)
  /-- Lets go of the pool, which stops it. -/
  | drop (opening : Opening)
  /-- Opens the gates at which tasks wait now. -/
  | release
  | close
  | clear
  /-- Takes a task, if there is one, and runs it at once. -/
  | tryPop
  /-- Takes a task, unless the wait for it would have no end, and runs it at once. -/
  | pop
  | observe
  | outline
  | settings
  | queue
  /-- Asks for the average time of a task, if all of them had taken none. -/
  | average

/-- What a command brings back. -/
inductive Reply where
  | nothing
  /-- The names on the roster. -/
  | names (names : List String)
  | count (count : Nat)
  /-- A task was run at once and ended like this. -/
  | ran (outcome : Outcome)
  | wouldBlock
  | overview (overview : Overview)
  | outline (outline : Text.Outline)
  | settings (settings : Settings)
  | queue (outline : Text.Outline)
  | average (tally : Tally)
  /-- The call has broken off with a message. -/
  | broken (text : String)

/-- What a pool shows of itself in a report. -/
structure Standing where
  overview : Overview
  tally : Tally

/-- What is told after a command. -/
structure Report where
  reply : Reply
  /-- The notes that tasks have left. -/
  notes : List Json.Value
  /-- The lines of the callers. -/
  log : List Line
  /-- The lines of the workers. -/
  workerLog : List Line
  /-- What the console shows, if there is one. -/
  console : Option (List String)
  /-- How many items the queue holds. -/
  size : Nat
  closed : Bool
  /-- Nothing, if nobody has the pool in hand. -/
  standing : Option Standing

/-- The caller that leads the session. -/
def leader : Nat := 0

/-- The last call of a caller. -/
def lastCall (session : Session) (number caller : Nat) : Option Pool.Call :=
  (session.members[number]?).bind fun member => member.pool.callers[caller]?

/-- Lets the leader make a call, which goes on as far as it can while everybody else rests. -/
def callAlone (session : Session) (number : Nat) (request : Pool.Request) : Session :=
  match session.turn number (.begin leader request) with
  | none => session
  | some session => exhaust (·.callerTurn number leader false) session.effort session

/-- Lets some callers begin the same call, and everybody go on until nothing moves any more. -/
def callTogether (session : Session) (number callers : Nat) (request : Pool.Request) : Session :=
  let begun := (List.range callers).foldl
    (fun session caller => (session.turn number (.begin caller request)).getD session) session
  begun.settle

/-- The text with which one of the first callers of a pool has broken off, if any has. -/
def breakage? (session : Session) (number callers : Nat) : Option String :=
  (List.range callers).findSome? fun caller =>
    match session.lastCall number caller with
    | some (.broken text) => some text
    | _ => none

/--
The answer to a call that some callers have made: another one, unless one of them has broken off.
-/
def replyTo (session : Session) (number callers : Nat) (reply : Reply) : Reply :=
  match session.breakage? number callers with
  | some text => .broken text
  | none => reply

/-- Runs a task at once, on the thread that leads the session; gates do not wait there. -/
def runHere (number : Nat) (task : Task) : List Action → Session → Session × Outcome
  | [], session => (session, task.outcome)
  | .note value :: left, session => runHere number task left (session.note value)
  | .noteThread label :: left, session =>
    runHere number task left (session.note (.list [label, .text "main"]))
  | .await :: left, session => runHere number task left session
  | .ask request :: left, session =>
    match session.commission number request with
    | none => runHere number task left (session.noteVain request)
    | some (target, wanted) =>
      let called := session.callAlone target wanted
      match called.lastCall target leader with
      | some (.broken text) => (called, .panicked (.message text))
      | some (.returned answer) => runHere number task left (called.noteAnswer request answer)
      | _ => runHere number task left called

/-- Takes a task by a call of the queue, and runs it at once. -/
def takeAndRun (session : Session) (number : Nat) (request : Queue.Request Task) :
    Session × Reply :=
  let called := session.callAlone number (.queue request)
  match called.lastCall number leader with
  | some (.returned (.task (some task))) =>
    let (ran, outcome) := runHere number task task.actions called
    (ran.settle, .ran outcome)
  | _ => (called.settle, .nothing)

/-- A task with a label that says which of the callers submitted it, and in which place. -/
def crowdTask (caller place : Nat) : Task :=
  let label := .text (toString caller ++ "." ++ toString place)
  .mk label [.note label] .completed

/-- The workers of a pool whose tasks wait at a gate. -/
def waitingWorkers (pool : Pool) : List Nat :=
  (List.range pool.workers.length).filter fun worker =>
    match pool.workers[worker]? with
    | some ⟨_, .working _ (.await :: _)⟩ => true
    | _ => false

/-- Opens the gates at which tasks wait now, and counts them. -/
def openGates (session : Session) : Session × Nat :=
  let gates := (List.range session.members.length).flatMap fun number =>
    match session.members[number]? with
    | some member => (waitingWorkers member.pool).map fun worker => (number, worker)
    | none => []
  (gates.foldl (fun session (number, worker) => (session.turn number (.openGate worker)).getD
    session) session,
    gates.length)

/-- Hands tasks over one after the other, while everybody else rests. -/
def handOver (session : Session) (number : Nat) (wanted : Task → Pool.Request)
    (tasks : List Task) : Session :=
  tasks.foldl (fun session task => session.callAlone number (wanted task)) session

/-- Submits tasks to a pool; if nobody has it in hand, notes of each that it was not sent. -/
def submitAll (session : Session) (number : Nat) (tasks : List Task) : Session :=
  match session.inHand? number with
  | some _ => session.handOver number .submit tasks
  | none => tasks.foldl (fun session task => session.noteVain (.submit number task)) session

/-- Stops a pool by so many callers at once. -/
def stopWith (session : Session) (number callers : Nat) (opening : Opening) : Session × Reply :=
  let stopped := { session with opening := opening }.callTogether number callers .stop
  ({ stopped with opening := .onClose }, stopped.replyTo number callers .nothing)

/-- Lets go of a pool. -/
def letGo (session : Session) (number : Nat) : Session :=
  { session with members := session.members.modify number fun member =>
    { member with inHand := false } }

/-- The names on the roster of a pool. -/
def namesReply (session : Session) (number callers : Nat) : Reply :=
  session.replyTo number callers
    (match session.inHand? number with
    | some pool => .names pool.overview.names
    | none => .nothing)

/-- Carries out what is wanted of a pool that somebody has in hand; nothing, if nobody has. -/
def withPool (session : Session) (number : Nat) (action : Pool → Session × Reply) :
    Session × Reply :=
  match session.inHand? number with
  | some pool => action pool
  | none => (session.settle, .nothing)

/-- Carries out a command, until nothing moves any more. -/
def carryOut (session : Session) (number : Nat) : Command → Session × Reply
  | .start count => session.withPool number fun _ =>
    let started := session.callTogether number 1 (.start count)
    (started, started.namesReply number 1)
  | .startTogether callers count => session.withPool number fun _ =>
    let started := session.callTogether number callers (.start count)
    (started, started.namesReply number callers)
  | .submit tasks => ((session.submitAll number tasks).settle, .nothing)
  | .push tasks =>
    ((session.handOver number (fun task => .queue (.push task)) tasks).settle, .nothing)
  | .submitTogether callers each =>
    let tasks := (List.range callers).flatMap fun caller => (List.range each).map (crowdTask caller)
    ((session.submitAll number tasks).settle, .nothing)
  | .stop opening => session.withPool number fun _ => session.stopWith number 1 opening
  | .stopTogether callers opening => session.withPool number fun _ =>
    session.stopWith number callers opening
  -- A pool is out of hand before its stop begins, so no task reaches it any more.
  | .drop opening => session.withPool number fun _ =>
    (session.letGo number).stopWith number 1 opening
  | .release =>
    let (opened, count) := session.openGates
    (opened.settle, .count count)
  | .close => ((session.callAlone number (.queue .close)).settle, .nothing)
  | .clear => ((session.callAlone number (.queue .clear)).settle, .nothing)
  | .tryPop => session.takeAndRun number .tryPop
  | .pop =>
    -- The leader of the session never falls asleep.
    if session.queue.items.isEmpty && !session.queue.closed then (session.settle, .wouldBlock)
    else session.takeAndRun number .pop
  | .observe => session.withPool number fun pool => (session.settle, .overview pool.overview)
  | .outline => session.withPool number fun pool =>
    (session.settle, .outline (pool.outline session.queue))
  | .settings => session.withPool number fun pool => (session.settle, .settings pool.settings)
  | .queue => session.withPool number fun _ => (session.settle, .queue session.queue.outline)
  | .average => session.withPool number fun pool =>
    (session.settle, .average { pool.tally with micros := 0 })

/--
Hands tasks over and waits for nothing: how many a pool that is in hand had
been given to submit by then.
-/
def handOverOnly (session : Session) (number : Nat) (command : Command) : Session × Option Nat :=
  let handed :=
    match command with
    | .submit tasks => session.submitAll number tasks
    | .push tasks => session.handOver number (fun task => .queue (.push task)) tasks
    | _ => session
  (handed, (handed.inHand? number).map fun pool => pool.submitted.toNat)

end TaskPool.Session
