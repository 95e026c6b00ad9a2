import Mathlib.Data.List.Infix
import TaskPool.Proofs.Pool.Shutdown
import TaskPool.Proofs.Pool.Wakeup

/-!
Scripts: what callers of one pool do, one step after the other, while the workers run in any order.

A task may wait at gates that a later step of the script opens. Once they are open they stay so,
whether or not a task has come to them yet.
-/

namespace TaskPool

/-- Which gates are open, where a gate is known by its task and by what the task does behind it. -/
abbrev Gates := Task → List Action → Bool

/--
Whether a task leaves pools and the queue alone, and does not take its worker with it at its end.
-/
structure Task.IsPlain (task : Task) : Prop where
  asks : ∀ request, .ask request ∉ task.actions
  mild : task.outcome.isDeadly = false

/-- Whether a task has a gate that is shut. -/
def Task.isBlocked (gates : Gates) (task : Task) : Bool :=
  task.actions.tails.any fun
    | .await :: left => !gates task left
    | _ => false

/-- A task has a gate that is shut just if there is one in front of some part of it. -/
theorem Task.isBlocked_iff {gates : Gates} {task : Task} :
    task.isBlocked gates = true ↔ ∃ left, .await :: left <:+ task.actions ∧
      gates task left = false := by
  -- The test looks at every part that is left of the task at some time.
  simp only [isBlocked, List.any_eq_true, List.mem_tails]
  constructor
  · intro shut
    obtain ⟨rest, part, closed⟩ := shut
    split at closed
    · exact ⟨_, part, by simpa using closed⟩
    · cases closed
  · intro shut
    obtain ⟨left, part, closed⟩ := shut
    exact ⟨_, part, by simp [closed]⟩

namespace World

/-- One step of a script. -/
inductive Command where
  /-- Submits a task to the pool. -/
  | submit (task : Task)
  /-- Puts a task on the queue without the pool. -/
  | push (task : Task)
  | close
  | start (count : Nat)
  | stop
  | observe
  /-- Opens some gates. -/
  | release (gates : Gates)

namespace Command

/-- The call that a step of a script makes; opening gates is none. -/
def request? : Command → Option Pool.Request
  | .submit task => some (.submit task)
  | .push task => some (.queue (.push task))
  | .close => some (.queue .close)
  | .start count => some (.start count)
  | .stop => some .stop
  | .observe => some .observe
  | .release _ => none

/-- The task that a step of a script puts on the queue. -/
def task? : Command → Option Task
  | .submit task | .push task => some task
  | _ => none

/-- The gates that a step of a script opens. -/
def opens : Command → Gates
  | .release gates => gates
  | _ => fun _ _ => false

end Command

/-- The gates that were opened so far. -/
def opened (script : List Command) : Gates :=
  fun task left => script.any fun command => command.opens task left

/-- Whether all tasks of a script leave pools, the queue and their workers alone. -/
def IsPlain (script : List Command) : Prop :=
  ∀ command ∈ script, ∀ task, command.task? = some task → task.IsPlain

/--
Whether a turn may be taken between the steps of a script.

Workers and callers go on as they like, where the system creates a thread or refuses it
by its number only, and a gate lets a task pass if it is open.
-/
def Scheduled (refuse : Nat → Option Trouble) (gates : Gates) (world : World) : Turn → Prop
  | .worker _ _ => True
  | .caller index chance => ∀ count number, world.pool.callers[index]? =
      some (.start count (.creating number)) →
      chance.refusal = refuse number
  | .openGate index => ∃ name task left,
      world.pool.workers[index]? = some ⟨name, .working task (.await :: left)⟩ ∧
      gates task left = true
  | .begin .. | .resume .. | .refilter _ => False

/-- Nothing moves any more: no turn may be taken that is possible. -/
def Settled (refuse : Nat → Option Trouble) (gates : Gates) (world : World) : Prop :=
  ∀ turn, Scheduled refuse gates world turn → world.step turn = none

/-- Whether a call is about to put a task on the queue. -/
def isPushing : Pool.Call → Bool
  | .queue (.pushing _) | .submit (.pushing _) => true
  | _ => false

/--
A performance of a script: its steps in their order, and between them any turns of the
workers and of the callers.

A step begins once all calls have ended, or once nothing moves any more although some call has not
ended. In a patient performance a task is put on a closed queue only once nothing moves any more,
since a worker that finds the closed queue empty leaves for good. Gates may be opened while a call
goes on, if the call is not about to put a task on the queue.
-/
inductive Performance (patient : Bool) (refuse : Nat → Option Trouble) (start : World) :
    List Command → World → List Pool.Event → Prop where
  | nothing : Performance patient refuse start [] start []
  | issue {script : List Command} {world next : World} {events new : List Pool.Event}
      {command : Command}
    {request : Pool.Request} {caller : Nat} (performed : Performance patient refuse start
      script world events)
    (ready : (∀ call ∈ world.pool.callers, call.hasEnded = true) ∨
      Settled refuse (opened script) world)
    (late : patient = true → command.task?.isSome = true → world.queue.closed = true →
      Settled refuse (opened script) world)
    (wanted : command.request? = some request) (begun : world.step (.begin caller request) =
      some (next, new)) :
    Performance patient refuse start (script ++ [command]) next (events ++ new)
  | release {script : List Command} {world : World} {events : List Pool.Event} (gates : Gates)
    (performed : Performance patient refuse start script world events)
    (still : ∀ call ∈ world.pool.callers, isPushing call = false) :
    Performance patient refuse start (script ++ [.release gates]) world events
  | turn {script : List Command} {world next : World} {events new : List Pool.Event} {turn : Turn}
    (performed : Performance patient refuse start script world events)
    (scheduled : Scheduled refuse (opened script) world turn) (stepped : world.step turn =
      some (next, new)) :
    Performance patient refuse start script next (events ++ new)

/-- A performance is a run. -/
theorem Performance.run {patient : Bool} {refuse : Nat → Option Trouble} {start world : World}
    {script : List Command} {events : List Pool.Event}
    (performed : Performance patient refuse start script world events) :
    ∃ turns, runOf step start turns = some (world, events) := by
  -- Beginning a call is a turn of the run, and opening gates is none.
  induction performed with
  | nothing => exact ⟨[], rfl⟩
  | issue performed ready late wanted begun ih =>
    obtain ⟨turns, ran⟩ := ih
    exact ⟨turns ++ [_], runOf_concat.mpr ⟨_, _, _, ran, begun, rfl⟩⟩
  | release gates performed still ih => exact ih
  | turn performed scheduled stepped ih =>
    obtain ⟨turns, ran⟩ := ih
    exact ⟨turns ++ [_], runOf_concat.mpr ⟨_, _, _, ran, stepped, rfl⟩⟩

end World

end TaskPool
