import TaskPool.Pool

/-!
The steps of a start: becoming the one that starts the pool, and creating its
workers one after the other.
-/

namespace TaskPool.Pool

/--
The most workers that a roster can be laid out for.

A roster has eight places for seven names, their number is a power of two, and each takes
seventy-three bytes; the largest that fits into half the word has two to the fifty-sixth places.
-/
def rosterLimit : Nat := 7 * 9007199254740992

/-- What a start breaks off with when it wants more workers than a roster can hold. -/
def rosterOverflowText : String := "Hash table capacity overflow"

/--
What a start breaks off with when the system cannot take the name of a thread,
which must have no null byte.
-/
def unusableName? (name : String) : Option String :=
  let bytes := name.toUTF8.toList
  (bytes.findIdx? (· = 0)).map fun index =>
    "thread name may not contain interior null bytes: NulError(" ++ toString index ++ ", ["
      ++ ", ".intercalate (bytes.map fun byte => toString byte.toNat) ++ "])"

/--
A caller tells a message and goes on, or gives up whatever it holds and breaks off with its call.
-/
def tell (pool : Pool) (caller : Nat) (message : Message) (next : Call) :
    Pool × Call × List Event :=
  if pool.failsAt message then
    (pool.release caller, .broken Sink.failureText, pool.kept (.caller caller) message)
  else (pool, next, pool.kept (.caller caller) message)

/-- A pool with one more worker, which is on the roster and about to begin. -/
def employ (pool : Pool) (name : String) : Pool :=
  { pool.enlist name pool.workers.length with workers := pool.workers ++ [⟨name, .opening⟩] }

/-- The step of a start that creates the worker with a number, unless the system refuses. -/
def create (pool : Pool) (caller count index : Nat) (refusal : Option Trouble) :
    Pool × Call × List Event :=
  let name := pool.settings.workerName index
  -- An unusable name is found before the system is asked for a thread.
  match unusableName? name, refusal with
  | some text, _ => (pool.release caller, .broken text, [])
  | none, some trouble => (pool, .start count (.lamenting index (.spawn name trouble)), [])
  | none, none => (pool.employ name, .start count (.creating (index + 1)), [])

/-- The next step of a start, if it can go on; it never touches the queue. -/
def Starting.step (pool : Pool) (caller count : Nat) (refusal : Option Trouble) :
    Starting → Option (Pool × Call × List Event)
  | .locking =>
    if pool.lifecycle = none then some ({ pool with lifecycle := some caller },
      .start count .checking, [])
    else none
  | .checking => some (pool, .start count (if pool.stopped then .refusing else .claiming), [])
  | .refusing => some (pool.tell caller .restartRefused (.start count .unlocking))
  | .claiming =>
    -- A second start changes nothing and tells nothing.
    if pool.running then some (pool, .start count .unlocking, [])
    else some ({ pool with running := true }, .start count .announcing, [])
  | .announcing => some (pool.tell caller (.starting count) (.start count .reserving))
  | .reserving =>
    -- From here on the roster stays locked until all workers have been created.
    if pool.rosterLock = none then
      if rosterLimit < count then some (pool.release caller, .broken rosterOverflowText, [])
      else some ({ pool with rosterLock := some caller }, .start count (.creating 0), [])
    else none
  | .creating index =>
    if index < count then some (pool.create caller count index refusal)
    else some ({ pool with rosterLock := none }, .start count .unlocking, [])
  | .lamenting index failure =>
    some (pool.tell caller (.lost failure) (.start count (.creating (index + 1))))
  | .unlocking => some ({ pool with lifecycle := none }, .returned .nothing, [])

end TaskPool.Pool
