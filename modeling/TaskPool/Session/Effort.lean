import TaskPool.Pool.World

/-! How many turns there can be at most before nothing moves any more, by a generous count. -/

namespace TaskPool

mutual

/-- A bound for the turns that a task can take, with all that it causes. -/
def Task.effort : Task → Nat
  | .mk _ actions _ => 8 + actionsEffort actions

/-- A bound for the turns that some actions can take. -/
def actionsEffort : List Action → Nat
  | [] => 0
  | action :: rest => action.effort + actionsEffort rest

/-- A bound for the turns that an action can take. -/
def Action.effort : Action → Nat
  | .note _ => 1
  | .noteThread _ => 1
  | .await => 1
  | .ask request => 8 + request.effort

/-- A bound for the turns that a call of a task can take. -/
def Request.effort : Request → Nat
  | .submit _ task => task.effort
  | .push task => task.effort
  | .start _ count => 8 * count
  | .close => 0
  | .observe _ _ => 0

end

/-- The sum of a number for each member of a list. -/
def total {α : Type} (size : α → Nat) (members : List α) : Nat :=
  members.foldr (fun member sum => size member + sum) 0

/-- A bound for the turns that a worker can take without any further task. -/
def Worker.effort (worker : Worker) : Nat :=
  match worker.duty with
  | .working _ left => 8 + actionsEffort left
  | _ => 8

namespace Pool

/-- A bound for the turns that a call of the queue can take. -/
def queueEffort : Queue.Call Task → Nat
  | .pushing task => 8 + task.effort
  | _ => 8

/-- A bound for the turns that a call can take. -/
def Call.effort : Call → Nat
  | .queue call => queueEffort call
  | .submit call => queueEffort call
  | .start count _ => 16 + 8 * count
  | .stop _ => 16
  | .observe => 1
  | .returned _ => 0
  | .broken _ => 0

/-- A bound for the turns that the threads of a pool can take without any further task. -/
def effort (pool : Pool) : Nat :=
  total (fun worker => worker.effort + 4) pool.workers + total Call.effort pool.callers

end Pool

end TaskPool
