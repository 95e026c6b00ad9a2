import TaskPool.Proofs.Pool.Script

/-!
What a script comes to once nothing moves any more, worked out without any workers.

Tasks are begun in the order in which they were put on the queue, until as many of them are
blocked as there are workers.
-/

namespace TaskPool.World

open Pool (Starting Stopping)

/-- The first of some tasks, up to the one with which so many are blocked. -/
def reach (blocked : Task → Bool) : Nat → List Task → List Task
  | 0, _ => []
  | _ + 1, [] => []
  | staff + 1, task :: tasks =>
    task :: reach blocked (if blocked task then staff else staff + 1) tasks

/--
The first of some tasks reach so far if there was a worker for each of them, and none for one more.
-/
theorem eq_reach {blocked : Task → Bool} {staff : Nat} {tasks begun : List Task}
    (first : begun <+: tasks)
    (served : ∀ early task, begun = early ++ [task] → early.countP blocked < staff)
    (full : begun = tasks ∨ staff ≤ begun.countP blocked) : begun = reach blocked staff tasks := by
  -- The induction takes the first task off, with one worker less for the others if it is blocked.
  induction tasks generalizing staff begun with
  | nil =>
    obtain rfl := List.prefix_nil.mp first
    cases staff <;> rfl
  | cons task tasks ih =>
    cases staff with
    | zero =>
      rcases List.eq_nil_or_concat begun with rfl | ⟨early, last, rfl⟩
      · rfl
      · exact absurd (served early last (by simp)) (Nat.not_lt_zero _)
    | succ staff =>
      cases begun with
      | nil =>
        -- Nothing was begun, so there is nothing to begin or no worker.
        rcases full with same | many
        · cases same
        · exact absurd many (Nat.not_succ_le_zero _)
      | cons other begun =>
        obtain ⟨rfl, rest⟩ := List.cons_prefix_cons.mp first
        have others : begun = tasks ∨ staff + 1 ≤ (other :: begun).countP blocked :=
          full.imp_left fun same => (List.cons.inj same).2
        have before : ∀ early last, begun = early ++ [last] →
            (other :: early).countP blocked < staff + 1 :=
          fun early last split => served (other :: early) last (by rw [split]; rfl)
        simp only [List.countP_cons] at others before
        rw [reach]
        congr 1
        cases blocks : blocked other with
        | true =>
          simp only [blocks, if_true, Nat.add_le_add_iff_right,
            Nat.add_lt_add_iff_right] at others before
          exact ih rest before others
        | false =>
          simp only [blocks, Bool.false_eq_true, if_false, Nat.add_zero] at others before
          exact ih rest before others

/--
No shorter part of the tasks has as many blocked ones as there are workers,
and what is reached has them.
-/
theorem reach_shortest {blocked : Task → Bool} {staff : Nat} {tasks front : List Task}
    (first : front <+: tasks) (enough : staff ≤ front.countP blocked) :
    reach blocked staff tasks <+: front ∧ staff ≤ (reach blocked staff tasks).countP blocked := by
  -- The induction walks along both lists, with one worker less behind each blocked task.
  induction tasks generalizing staff front with
  | nil =>
    obtain rfl := List.prefix_nil.mp first
    obtain rfl : staff = 0 := by simpa using enough
    exact ⟨List.prefix_rfl, Nat.le_refl 0⟩
  | cons task tasks ih =>
    cases staff with
    | zero => exact ⟨List.nil_prefix, Nat.zero_le _⟩
    | succ staff =>
      cases front with
      | nil => simp at enough
      | cons other front =>
        obtain ⟨rfl, rest⟩ := List.cons_prefix_cons.mp first
        rw [List.countP_cons] at enough
        -- The first task needs a worker of its own just if it is blocked.
        rw [reach, List.cons_prefix_cons, List.countP_cons]
        cases blocks : blocked other with
        | true =>
          obtain ⟨short, many⟩ := @ih staff front rest (by simpa [blocks] using enough)
          exact ⟨⟨rfl, short⟩, by simpa using many⟩
        | false =>
          obtain ⟨short, many⟩ := @ih (staff + 1) front rest (by simpa [blocks] using enough)
          exact ⟨⟨rfl, short⟩, by simpa using many⟩

/-- All tasks are reached where fewer of them are blocked than there are workers. -/
theorem reach_all {blocked : Task → Bool} {staff : Nat} {tasks : List Task}
    (few : tasks.countP blocked < staff) :
    reach blocked staff tasks = tasks := by
  refine (eq_reach List.prefix_rfl ?_ (.inl rfl)).symm
  -- In front of each task fewer are blocked than in all.
  intro early task split
  subst split
  rw [List.countP_append] at few
  omega

/-- What everybody can see of a pool and its queue, without its tasks. -/
structure Face where
  settings : Settings
  running : Bool
  stopped : Bool
  closed : Bool
  roster : List (String × Nat)
  /-- How many workers were created. -/
  hired : Nat
  submitted : UInt64

/-- What can be seen of a pool and its queue. -/
def faceOf (queue : Queue Thread Task) (pool : Pool) : Face :=
  ⟨pool.settings, pool.running, pool.stopped, queue.closed, pool.roster, pool.workers.length,
    pool.submitted⟩

/--
What a script comes to.

A task that is put on a closed queue is only for workers that are still in the middle of a task,
since the others have left. So what had been begun by then is set apart, and of the workers only
those count on that are blocked by it.
-/
structure Plan where
  face : Face
  gates : Gates
  /-- What had been begun when a task was last put on the closed queue. -/
  sealed : List Task
  /-- What was put on the queue behind that. -/
  waiting : List Task
  /--
  How many workers there are, but for those that had left when a task was
  last put on the closed queue.
  -/
  staff : Nat

namespace Plan

/-- A new pool, for which nothing was done. -/
def fresh (settings : Settings) : Plan :=
  ⟨⟨settings, false, false, false, [], 0, 0⟩, fun _ _ => false, [], [], 0⟩

/-- Whether a task is blocked. -/
def blocks (plan : Plan) (task : Task) : Bool := task.isBlocked plan.gates

/-- The tasks that have been begun once nothing moves any more. -/
def begun (plan : Plan) : List Task :=
  plan.sealed ++ reach plan.blocks (plan.staff - plan.sealed.countP plan.blocks) plan.waiting

/-- The plan with one more task, where nothing moves any more if the queue is closed. -/
def put (plan : Plan) (task : Task) : Plan :=
  if plan.face.closed then
    { plan with
      sealed := plan.begun
      waiting := (plan.sealed ++ plan.waiting).drop plan.begun.length ++ [task]
      staff := plan.begun.countP plan.blocks }
  else { plan with waiting := plan.waiting ++ [task] }

/-- The plan once a submitted task was counted. -/
def count (plan : Plan) : Plan :=
  { plan with face := { plan.face with submitted := plan.face.submitted + 1 } }

/-- The plan once the queue is closed. -/
def close (plan : Plan) : Plan := { plan with face := { plan.face with closed := true } }

/-- The plan once the pool runs no more. -/
def halt (plan : Plan) : Plan := { plan with face := { plan.face with running := false } }

/-- The plan once the pool is marked as stopped. -/
def mark (plan : Plan) : Plan := { plan with face := { plan.face with stopped := true } }

/-- The plan once nobody is on the roster. -/
def clear (plan : Plan) : Plan := { plan with face := { plan.face with roster := [] } }

/-- The plan once more gates are open. -/
def unlock (plan : Plan) (gates : Gates) : Plan :=
  { plan with gates := fun task left => plan.gates task left || gates task left }

/-- The plan with one more worker. -/
def employ (plan : Plan) (name : String) : Plan :=
  { plan with
    face := { plan.face with
      roster := plan.face.roster.filter (·.1 ≠ name) ++ [(name, plan.face.hired)]
      hired := plan.face.hired + 1 }
    staff := plan.staff + 1 }

/--
The plan once so many workers were asked for, the first of them with a number;
an unusable name ends that.
-/
def hire (refuse : Nat → Option Trouble) (plan : Plan) : Nat → Nat → Plan
  | 0, _ => plan
  | more + 1, number =>
    match Pool.unusableName? (plan.face.settings.workerName number), refuse number with
    | some _, _ => plan
    | none, some _ => hire refuse plan more (number + 1)
    | none, none => hire refuse (plan.employ (plan.face.settings.workerName number))
        more (number + 1)

/-- The plan once all workers of a start were asked for, if a roster can hold them. -/
def recruit (refuse : Nat → Option Trouble) (plan : Plan) (count : Nat) : Plan :=
  if Pool.rosterLimit < count then plan else plan.hire refuse count 0

/-- The plan once a start has come to its end; it changes nothing where the pool runs. -/
def start (refuse : Nat → Option Trouble) (plan : Plan) (count : Nat) : Plan :=
  if plan.face.running then plan
  else { plan with face := { plan.face with running := true } }.recruit refuse count

/-- What the plan will be once a start has gone on from a phase to its end. -/
def afterStarting (refuse : Nat → Option Trouble) (plan : Plan) (count : Nat) : Starting → Plan
  | .locking | .checking => if plan.face.stopped then plan else plan.start refuse count
  | .claiming => plan.start refuse count
  | .announcing | .reserving => plan.recruit refuse count
  | .creating number => plan.hire refuse (count - number) number
  | .lamenting number _ => plan.hire refuse (count - (number + 1)) (number + 1)
  | .refusing | .unlocking => plan

/-- What the plan will be once a stop has gone on from a phase to where it waits for the workers. -/
def afterStopping (plan : Plan) : Stopping → Plan
  | .locking | .claiming => if plan.face.running then plan.halt.mark.close.clear else plan
  | .marking => plan.mark.close.clear
  | .announcing | .draining | .warning | .closing => plan.close.clear
  | .waking | .parting | .gathering => plan.clear
  | .joining _ | .lamenting .. | .unlocking => plan

/--
What the plan will be once a call has gone on to its end, or to where it waits for the workers.
-/
def outlook (refuse : Nat → Option Trouble) (plan : Plan) : Pool.Call → Plan
  | .queue (.pushing task) => plan.put task
  | .queue .closing => plan.close
  | .submit (.pushing task) => (plan.put task).count
  | .submit _ => plan.count
  | .start count phase => plan.afterStarting refuse count phase
  | .stop phase => plan.afterStopping phase
  | .queue _ | .observe | .returned _ | .broken _ => plan

/-- The plan after one more step of a script. -/
def after (refuse : Nat → Option Trouble) (plan : Plan) (command : Command) : Plan :=
  match command.request? with
  | some request => plan.outlook refuse request.call
  | none => plan.unlock command.opens

/-- The plan of a script for a new pool. -/
def of (refuse : Nat → Option Trouble) (settings : Settings) (script : List Command) : Plan :=
  script.foldl (after refuse) (fresh settings)

/-- The plan of a script with one more step goes on from that of the script. -/
theorem of_concat (refuse : Nat → Option Trouble) (settings : Settings) (script : List Command)
    (command : Command) :
    of refuse settings (script ++ [command]) =
    after refuse (of refuse settings script) command := by
  rw [of, List.foldl_append]
  rfl

variable {refuse : Nat → Option Trouble} {plan : Plan} {gates : Gates}

/-- Creating workers has nothing to do with gates. -/
theorem hire_unlock (more number : Nat) :
    (plan.unlock gates).hire refuse more number = (plan.hire refuse more number).unlock gates := by
  induction more generalizing plan number with
  | zero => rfl
  | succ more ih =>
    -- Whether there is a next worker depends on its name and on the system alone.
    have name : (plan.unlock gates).face.settings.workerName number =
      plan.face.settings.workerName number := rfl
    simp only [hire, name]
    cases Pool.unusableName? (plan.face.settings.workerName number) with
    | some text => rfl
    | none =>
      cases refuse number with
      | some trouble => exact ih _
      | none => exact @ih (plan.employ (plan.face.settings.workerName number)) (number + 1)

/-- Creating all workers of a start has nothing to do with gates. -/
theorem recruit_unlock (count : Nat) :
    (plan.unlock gates).recruit refuse count = (plan.recruit refuse count).unlock gates := by
  simp only [recruit]
  split
  · rfl
  · exact hire_unlock ..

/-- A start has nothing to do with gates. -/
theorem start_unlock (count : Nat) :
    (plan.unlock gates).start refuse count = (plan.start refuse count).unlock gates := by
  -- Whether the start does anything depends on what everybody can see of the pool.
  have face : (plan.unlock gates).face = plan.face := rfl
  simp only [start, face]
  cases plan.face.running with
  | true => rfl
  | false =>
    exact @recruit_unlock refuse
      { plan with face := { plan.face with running := true } } gates count

/-- Gates can be opened while a call goes on, unless it is about to put a task on the queue. -/
theorem outlook_unlock {call : Pool.Call} (still : isPushing call = false) :
    (plan.unlock gates).outlook refuse call = (plan.outlook refuse call).unlock gates := by
  -- Only putting a task on the queue looks at the gates, and all else looks at the face.
  have face : (plan.unlock gates).face = plan.face := rfl
  cases call with
  | queue call =>
    cases call with
    | pushing task => cases still
    | _ => rfl
  | submit call =>
    cases call with
    | pushing task => cases still
    | _ => rfl
  | start count phase =>
    cases phase with
    | locking | checking =>
      simp only [outlook, afterStarting, face]
      cases plan.face.stopped with
      | true => rfl
      | false => exact start_unlock count
    | claiming => exact start_unlock count
    | announcing | reserving => exact recruit_unlock count
    | creating | lamenting => exact hire_unlock ..
    | refusing | unlocking => rfl
  | stop phase =>
    cases phase with
    | locking | claiming =>
      simp only [outlook, afterStopping, face]
      cases plan.face.running <;> rfl
    | _ => rfl
  | observe | returned | broken => rfl

end Plan

end TaskPool.World
