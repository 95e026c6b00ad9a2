import TaskPool.Session.Command

/-! Reports on a session, in which nothing is shown that depends on which thread was faster. -/

namespace TaskPool.Session

/-- How many workers all pools together have ever had. -/
def workersEver (session : Session) : Nat :=
  total (fun member => member.pool.workers.length) session.members

/--
Whether a command has several threads hand over tasks at once, so that the order
of their notes means nothing.
-/
def Command.mixesNotes : Command → Bool
  | .submitTogether .. => true
  | _ => false

/--
The notes of tasks, in the order of their text if they are mixed, or if there
were ever several workers.
-/
def shownNotes (session : Session) (mixed : Bool) : List Json.Value :=
  if mixed || 1 < session.workersEver then
    session.notes.mergeSort fun a b => a.compact ≤ b.compact
  else session.notes

/-- Whether a message is that a worker did not come to its end. -/
def isLoss : Message → Bool
  | .lost (.join _) => true
  | _ => false

/--
The lines of the callers, in which the workers that did not come to their end are told
in the order of the text.
-/
def callerLines (heard : List Message) : List Line :=
  let told := heard.filter fun message => !message.fromWorker
  (told.takeWhile fun message => !isLoss message).map Message.line
    ++ ((told.dropWhile fun message => !isLoss message).map Message.line).mergeSort Line.sortsBefore

/--
The lines of the workers; where there are several, it is not told which one wrote a line, nor when.
-/
def workerLines (workers : Nat) (heard : List Message) : List Line :=
  let told := heard.filter Message.fromWorker
  if 1 < workers then (told.map fun message => message.anonymous.line).mergeSort Line.sortsBefore
  else told.map Message.line

/-- What a console shows, in the order of the text. -/
def consoleRows (stamp : String) (console : Console) (heard : List Message) : List String :=
  (heard.flatMap fun message => console.rows stamp message.line).mergeSort

/--
The report after a command, which may have mixed the notes, and the session
without what has been told.
-/
def report (session : Session) (stamp : String) (number : Nat) (mixed : Bool) (reply : Reply) :
    Session × Option Report :=
  ({ session with
      notes := []
      members := session.members.modify number fun member => { member with heard := [] } },
    (session.members[number]?).map fun member =>
      { reply := reply
        notes := session.shownNotes mixed
        log := callerLines member.heard
        workerLog := workerLines member.pool.workers.length member.heard
        console := member.console.map fun console => consoleRows stamp console member.heard
        size := session.queue.items.length
        closed := session.queue.closed
        standing :=
          if member.inHand then some ⟨member.pool.overview, member.pool.tally⟩ else none })

/-- Carries out a command and reports on it. -/
def perform (session : Session) (stamp : String) (number : Nat) (command : Command) :
    Session × Option Report :=
  let (next, reply) := session.carryOut number command
  next.report stamp number command.mixesNotes reply

/-- Lets go of every pool that is still in hand, one after the other, and reports on each. -/
def finish (session : Session) (stamp : String) : Session × List Report :=
  (List.range session.members.length).foldl
    (fun (session, reports) number =>
      match session.inHand? number with
      | none => (session, reports)
      | some _ =>
        let (next, report) := session.perform stamp number (.drop .onClose)
        (next, reports ++ report.toList))
    (session, [])

/-- Whether a thread of a worker is still there. -/
def hasLivingWorker (session : Session) : Bool :=
  session.members.any fun member => member.pool.workers.any fun worker => !worker.isGone

end TaskPool.Session
