import TaskPool.Proofs.Pool.Locks
import TaskPool.Proofs.Pool.Reports

/-!
The calls of a script follow its plan: with every step of a call the plan moves on,
and what the plan will be at the end of the call stays what it was when the call began.
-/

namespace TaskPool

open World (Face Plan faceOf isPushing)
open Queue (pushedItems)

/-- Whether a pool was stopped and does not run, which is for good. -/
def World.Face.IsDead (face : Face) : Prop := face.stopped = true ∧ face.running = false

/-- Putting a task on the queue revives no pool. -/
theorem World.Plan.put_dead {plan : Plan} (task : Task) (dead : plan.face.IsDead) :
    (plan.put task).face.IsDead := by
  rw [put]
  split <;> exact dead

namespace Pool

/--
Whether a call is one that scripts make: it takes no task, and any task that it
puts on the queue is plain.
-/
def Call.IsUsual : Call → Prop
  | .queue (.pushing task) | .submit (.pushing task) => task.IsPlain
  | .queue .notifying | .queue .closing | .queue .notifyingAll => True
  | .submit .notifying | .submit (.returned _) => True
  | .queue _ | .submit _ => False
  | .start .. | .stop _ | .observe | .returned _ | .broken _ => True

/-- Whether a call will change nothing that can be seen of a pool. -/
def Call.IsIdle (face : Face) : Call → Prop
  | .start _ .locking | .start _ .checking | .stop .locking | .stop .claiming => face.IsDead
  | .start _ .refusing | .start _ .unlocking => True
  | .stop (.joining _) | .stop (.lamenting ..) | .stop .unlocking => True
  | .observe | .returned _ | .broken _ => True
  | .queue _ | .submit _ | .start .. | .stop _ => False

/-- A call of a script does not wait for a task. -/
theorem Call.IsUsual.awake {call : Call} (usual : call.IsUsual) :
    call.isPopping = false ∧ ∀ task, call ≠ .queue (.returned task) := by
  cases call with
  | queue call => cases call <;> first | exact usual.elim | exact ⟨rfl, by simp⟩
  | submit call => cases call <;> first | exact usual.elim | exact ⟨rfl, by simp⟩
  | _ => exact ⟨rfl, by simp⟩

/-- A call that will change nothing leaves the plan as it is. -/
theorem Call.IsIdle.outlook {call : Call} {plan : Plan} (idle : call.IsIdle plan.face)
    (refuse : Nat → Option Trouble) : plan.outlook refuse call = plan := by
  -- In a dead pool a start will be refused, and a stop will find nothing to do.
  cases call with
  | queue | submit => exact idle.elim
  | start count phase =>
    cases phase with
    | locking | checking => exact if_pos idle.1
    | refusing | unlocking => rfl
    | _ => exact idle.elim
  | stop phase =>
    cases phase with
    | locking | claiming => exact if_neg (by rw [idle.2]; exact Bool.false_ne_true)
    | joining | lamenting | unlocking => rfl
    | _ => exact idle.elim
  | observe | returned | broken => rfl

/-- A call that will change nothing is not about to put a task on the queue. -/
theorem Call.IsIdle.still {call : Call} {face : Face} (idle : call.IsIdle face) :
    isPushing call = false := by
  cases call with
  | queue | submit => exact idle.elim
  | _ => rfl

/-- A call that will change nothing is still such a call where a dead pool is still dead. -/
theorem Call.IsIdle.mono {call : Call} {face more : Face} (idle : call.IsIdle face)
    (dead : face.IsDead → more.IsDead) : call.IsIdle more := by
  cases call with
  | queue | submit => exact idle.elim
  | start count phase =>
    cases phase with
    | locking | checking => exact dead idle
    | refusing | unlocking => trivial
    | _ => exact idle.elim
  | stop phase =>
    cases phase with
    | locking | claiming => exact dead idle
    | joining | lamenting | unlocking => trivial
    | _ => exact idle.elim
  | observe | returned | broken => trivial

variable {refuse : Nat → Option Trouble} {plan onward : Plan} {queue after : Queue Thread Task}
  {pool next : Pool} {events : List Event} {caller count : Nat} {call later : Call}

/-- How a plan moves on with a step of a call. -/
inductive Shift (plan : Plan) (queue : Queue Thread Task) (pool : Pool) (call : Call) :
    Queue Thread Task → Pool → List Event → Plan → Prop where
  /-- Nothing is put on the queue, and there is no new worker. -/
  | beside {after : Queue Thread Task} {next : Pool} {events : List Event} {face : Face}
    (items : after.items = queue.items) (closed : queue.closed = true → after.closed = true)
    (workers : next.workers = pool.workers) (shown : faceOf after next = face)
    (pushed : pushedItems (queueEvents events) = []) :
    Shift plan queue pool call after next events { plan with face := face }
  /-- There is a new worker. -/
  | hire {next : Pool} {name : String} (workers : next.workers = pool.workers ++ [⟨name, .opening⟩])
    (shown : faceOf queue next = (plan.employ name).face) : Shift plan queue pool call queue next []
      (plan.employ name)
  /-- A plain task is put on the queue. -/
  | put {task : Task} {events : List Event} (pushing : isPushing call = true) (plain : task.IsPlain)
    (pushed : pushedItems (queueEvents events) = [task]) :
    Shift plan queue pool call (queue.append task) pool events (plan.put task)

/-- A step of a call moves the plan on, and keeps what it will be at the end of the call. -/
structure Stride (refuse : Nat → Option Trouble) (plan : Plan) (queue : Queue Thread Task)
    (pool : Pool) (call : Call) (after : Queue Thread Task) (next : Pool) (later : Call)
    (events : List Event) (onward : Plan) : Prop where
  shift : Shift plan queue pool call after next events onward
  outlook : onward.outlook refuse later = plan.outlook refuse call
  usual : later.IsUsual := by trivial
  /-- A call that will change nothing changes nothing. -/
  idle : call.IsIdle plan.face →
    later.IsIdle onward.face ∧ after.contents = queue.contents ∧ next.workers = pool.workers := by
      exact fun idle => idle.elim
  dead : plan.face.IsDead → onward.face.IsDead := by exact id
  silent : failureTexts events = [] := by rfl
  still : isPushing later = false := by rfl

/--
A step that leaves the contents of the queue and the workers alone keeps the plan
where it shows no change.
-/
theorem Shift.same (face : plan.face = faceOf queue pool)
    (contents : after.contents = queue.contents) (workers : next.workers = pool.workers)
    (shown : faceOf after next = faceOf queue pool)
    (pushed : pushedItems (queueEvents events) = []) :
    Shift plan queue pool call after next events plan := by
  -- The plan is replaced by itself.
  have same : { plan with face := faceOf queue pool } = plan := by rw [← face]
  have items : after.items = queue.items := congrArg Queue.Contents.items contents
  have closed : after.closed = queue.closed := congrArg Queue.Contents.closed contents
  exact same ▸ .beside items (by rw [closed]; exact id) workers shown pushed

/-- A step that changes at most who holds a lock keeps the plan. -/
theorem Shift.stay (face : plan.face = faceOf queue pool) (workers : next.workers = pool.workers)
    (shown : faceOf queue next = faceOf queue pool) :
    Shift plan queue pool call queue next [] plan :=
  .same face rfl workers shown rfl

/-- A caller that tells something, where that fails nobody, keeps the plan. -/
theorem Shift.tell {message : Message} (face : plan.face = faceOf queue pool) :
    Shift plan queue pool call queue pool (pool.kept (.caller caller) message) plan :=
  .same face rfl rfl rfl (by rw [queueEvents_kept]; rfl)

/-- A start follows the plan, where the system refuses workers by their numbers. -/
theorem Starting.step_stride {phase : Starting} {refusal : Option Trouble} (quiet : pool.Quiet)
    (own : ∀ stage, (Call.start count phase).stage? = some stage → stage.Holds pool)
    (fits : ∀ number, phase = .creating number → refusal = refuse number)
    (face : plan.face = faceOf queue pool)
    (stepped : phase.step pool caller count refusal = some (next, later, events)) :
    ∃ onward, Stride refuse plan queue
      pool (.start count phase) queue next later events onward := by
  have stopped : plan.face.stopped = pool.stopped := by rw [face]; rfl
  have running : plan.face.running = pool.running := by rw [face]; rfl
  cases phase with
  | locking =>
    simp only [step, Option.ite_none_right_eq_some] at stepped
    obtain ⟨-, same⟩ := stepped
    cases same
    exact ⟨plan,
      { shift := .stay face rfl rfl, outlook := rfl, idle := fun dead => ⟨dead, rfl, rfl⟩ }⟩
  | checking =>
    cases stepped
    refine ⟨plan, ?_⟩
    -- What was seen of the flag decides whether the start goes on,
    -- and it is what the plan knows of it.
    cases marked : pool.stopped with
    | true =>
      exact { shift := .stay face rfl rfl, outlook := (if_pos (stopped.trans marked)).symm
              idle := fun _ => ⟨trivial, rfl, rfl⟩ }
    | false =>
      refine { shift := .stay face rfl rfl, outlook := ?_, idle := fun dead => ?_ }
      · exact (if_neg (by rw [stopped, marked]; exact Bool.false_ne_true)).symm
      · exact absurd (dead.1.symm.trans (stopped.trans marked)) (by simp)
  | refusing =>
    simp only [step, tell_quiet quiet] at stepped
    cases stepped
    exact ⟨plan, { shift := .tell face, outlook := rfl, idle := fun _ => ⟨trivial, rfl, rfl⟩
                   silent := failureTexts_kept (by simp) }⟩
  | claiming =>
    -- The pool is not stopped, since the start has seen that under the lock;
    -- so it is not dead either.
    obtain ⟨-, marked⟩ := own _ rfl
    simp only [step] at stepped
    split at stepped <;> cases stepped
    · rename_i already
      exact ⟨plan, { shift := .stay face rfl rfl, outlook :=
        (if_pos (running.trans already)).symm }⟩
    · rename_i free
      refine ⟨{ plan with face := { plan.face with running := true } }, ?_⟩
      refine { shift := .beside rfl id rfl (by rw [face]; rfl) rfl, outlook := ?_, dead :=
        fun dead => ?_ }
      · exact (if_neg (by rw [running]; exact free)).symm
      · exact absurd (dead.1.symm.trans (stopped.trans marked)) (by simp)
  | announcing =>
    simp only [step, tell_quiet quiet] at stepped
    cases stepped
    exact ⟨plan, { shift := .tell face, outlook := rfl, silent := failureTexts_kept (by simp) }⟩
  | reserving =>
    -- Nobody is created where the roster cannot hold so many workers.
    simp only [step, Option.ite_none_right_eq_some] at stepped
    obtain ⟨-, stepped⟩ := stepped
    refine ⟨plan, ?_⟩
    split at stepped <;> cases stepped
    · rename_i many
      exact { shift := .stay face rfl rfl, outlook := (if_pos many).symm }
    · rename_i few
      exact { shift := .stay face rfl rfl, outlook := (if_neg few).symm }
  | creating number =>
    simp only [step, create] at stepped
    split at stepped
    · -- There is one worker more to be asked for, and the plan asks for it like the start.
      rename_i below
      have more : count - number = count - (number + 1) + 1 := by omega
      have name : plan.face.settings.workerName number = pool.settings.workerName number := by
        rw [face]; rfl
      have outlook : plan.outlook refuse (.start count (.creating number)) =
          plan.hire refuse (count - (number + 1) + 1) number :=
            congrArg (plan.hire refuse · number) more
      rw [Plan.hire, name, ← fits number rfl] at outlook
      -- Both give up at an unusable name, pass over a worker that the system refuses,
      -- and have one more otherwise.
      cases named : unusableName? (pool.settings.workerName number) with
      | some text =>
        simp only [named] at stepped outlook
        cases stepped
        exact ⟨plan, { shift := .stay face rfl rfl, outlook := outlook.symm }⟩
      | none =>
        cases refusal with
        | some trouble =>
          simp only [named] at stepped outlook
          cases stepped
          exact ⟨plan, { shift := .stay face rfl rfl, outlook := outlook.symm }⟩
        | none =>
          simp only [named] at stepped outlook
          cases stepped
          refine ⟨plan.employ (pool.settings.workerName number),
            { shift := .hire rfl ?_, outlook := outlook.symm }⟩
          rw [Plan.employ, face]
          simp [faceOf, employ, enlist]
    · -- All workers were asked for, and the plan asks for no more.
      rename_i done
      cases stepped
      have none : count - number = 0 := by omega
      exact ⟨plan, { shift := .stay face rfl rfl
                     outlook := (congrArg (plan.hire refuse · number) none).symm }⟩
  | lamenting number failure =>
    simp only [step, tell_quiet quiet] at stepped
    cases stepped
    exact ⟨plan, { shift := .tell face, outlook := rfl, silent := failureTexts_kept (by simp) }⟩
  | unlocking =>
    cases stepped
    exact ⟨plan, { shift := .stay face rfl rfl, outlook := rfl, idle := fun _ =>
      ⟨trivial, rfl, rfl⟩ }⟩

/-- A stop follows the plan. -/
theorem Stopping.step_stride {phase : Stopping} {timeUp : Bool} {worker : Nat} (quiet : pool.Quiet)
    (face : plan.face = faceOf queue pool)
    (stepped : phase.step queue pool caller timeUp worker = some (after, next, later, events)) :
    ∃ onward, Stride refuse plan queue pool (.stop phase) after next later events onward := by
  have running : plan.face.running = pool.running := by rw [face]; rfl
  cases phase with
  | locking =>
    simp only [step, Option.ite_none_right_eq_some] at stepped
    obtain ⟨-, same⟩ := stepped
    cases same
    exact ⟨plan,
      { shift := .stay face rfl rfl, outlook := rfl, idle := fun dead => ⟨dead, rfl, rfl⟩ }⟩
  | claiming =>
    simp only [step] at stepped
    split at stepped <;> cases stepped
    · -- This stop is the one that counts, so the pool is not dead.
      rename_i runs
      refine ⟨plan.halt,
        { shift := .beside rfl id rfl (by rw [face]; rfl) rfl, outlook := ?_,
          idle := fun dead => ?_,
                           dead := fun dead => ⟨dead.1, rfl⟩ }⟩
      · exact (if_pos (running.trans runs)).symm
      · exact absurd (dead.2.symm.trans (running.trans runs)) (by simp)
    · rename_i rests
      refine ⟨plan, { shift := .stay face rfl rfl, outlook := ?_, idle := fun _ =>
        ⟨trivial, rfl, rfl⟩ }⟩
      exact (if_neg (by rw [running]; exact rests)).symm
  | marking =>
    cases stepped
    exact ⟨plan.mark, { shift := .beside rfl id rfl (by rw [face]; rfl) rfl, outlook := rfl
                        dead := fun dead => ⟨rfl, dead.2⟩ }⟩
  | announcing | warning | parting =>
    simp only [step, tell_quiet quiet] at stepped
    cases stepped
    exact ⟨plan, { shift := .tell face, outlook := rfl, silent := failureTexts_kept (by simp) }⟩
  | lamenting =>
    simp only [step, tell_quiet quiet] at stepped
    cases stepped
    exact ⟨plan, { shift := .tell face, outlook := rfl, idle := fun _ => ⟨trivial, rfl, rfl⟩
                   silent := failureTexts_kept (by simp) }⟩
  | draining =>
    -- However long the stop waits for the queue to become empty, the plan stays.
    refine ⟨plan, ?_⟩
    simp only [step] at stepped
    split at stepped
    · cases stepped
      exact { shift := .stay face rfl rfl, outlook := rfl }
    · obtain ⟨-, same⟩ := Option.ite_none_right_eq_some.mp stepped
      cases same
      exact { shift := .stay face rfl rfl, outlook := rfl }
  | closing =>
    cases stepped
    exact ⟨plan.close,
      { shift := .beside rfl (fun _ => rfl) rfl (by rw [face]; rfl) rfl, outlook := rfl }⟩
  | waking =>
    cases stepped
    exact ⟨plan, { shift := .same face rfl rfl rfl rfl, outlook := rfl }⟩
  | gathering =>
    simp only [step, Option.ite_none_right_eq_some] at stepped
    obtain ⟨-, same⟩ := stepped
    cases same
    exact ⟨plan.clear, { shift := .beside rfl id rfl (by rw [face]; rfl) rfl, outlook := rfl }⟩
  | joining left =>
    -- In whatever order the workers end and are joined, the plan stays.
    refine ⟨plan, ?_⟩
    cases left with
    | nil =>
      cases stepped
      exact { shift := .stay face rfl rfl, outlook := rfl, idle := fun _ => ⟨trivial, rfl, rfl⟩ }
    | cons first rest =>
      obtain ⟨phase, joined, same⟩ := Option.map_eq_some_iff.mp stepped
      cases same
      simp only [join] at joined
      split at joined
      · split at joined <;> cases joined
        split <;>
          exact { shift := .stay face rfl rfl, outlook := rfl, idle := fun _ =>
            ⟨trivial, rfl, rfl⟩ }
      · cases joined
  | unlocking =>
    cases stepped
    exact ⟨plan, { shift := .stay face rfl rfl, outlook := rfl, idle := fun _ =>
      ⟨trivial, rfl, rfl⟩ }⟩

/-- A call of a script that wakes one sleeper keeps the plan. -/
theorem Shift.notify {chosen : Option Thread} {self : Thread} {onward : Queue.Call Task}
    {told : List (Queue.Event Thread Task)} (face : plan.face = faceOf queue pool)
    (stepped : Queue.Call.notifying.step self chosen queue = some (after, onward, told)) :
    onward = .returned none ∧ Shift plan queue pool call after pool (told.map .queue) plan := by
  -- Whether or not somebody is woken, the queue holds what it held.
  obtain ⟨rfl, rfl, contents⟩ : onward = .returned none ∧ told = [] ∧
      after.contents = queue.contents := by
    cases chosen <;> simp only [Queue.Call.step, Option.ite_none_right_eq_some, Option.some.injEq,
      Prod.mk.injEq] at stepped <;> obtain ⟨-, rfl, rfl, rfl⟩ := stepped <;> exact ⟨rfl, rfl, rfl⟩
  have shown : faceOf after pool = faceOf queue pool := by
    rw [faceOf, show after.closed = queue.closed from congrArg Queue.Contents.closed contents]
    rfl
  exact ⟨rfl, .same face contents rfl shown rfl⟩

/-- Whatever a call of a script does, it follows the plan. -/
theorem Call.step_stride {chance : Chance} (usual : call.IsUsual) (quiet : pool.Quiet)
    (own : ∀ stage, call.stage? = some stage → stage.Holds pool)
    (fits : ∀ count number, call = .start count (.creating number) → chance.refusal = refuse number)
    (face : plan.face = faceOf queue pool)
    (stepped : call.step queue pool caller chance = some (after, next, later, events)) :
    ∃ onward, Stride refuse plan queue pool call after next later events onward := by
  cases call with
  | queue call =>
    cases call with
    | pushing task =>
      cases stepped
      exact ⟨plan.put task,
        { shift := .put rfl usual rfl, outlook := rfl, dead := Plan.put_dead task }⟩
    | notifying =>
      obtain ⟨⟨_, onward, told⟩, moved, same⟩ := Option.map_eq_some_iff.mp stepped
      cases same
      obtain ⟨rfl, shift⟩ := Shift.notify face moved
      exact ⟨plan, { shift := shift, outlook := rfl, silent := failureTexts_map told }⟩
    | closing =>
      cases stepped
      exact ⟨plan.close,
        { shift := .beside rfl (fun _ => rfl) rfl (by rw [face]; rfl) rfl, outlook := rfl }⟩
    | notifyingAll =>
      cases stepped
      exact ⟨plan, { shift := .same face rfl rfl rfl rfl, outlook := rfl }⟩
    | _ => exact usual.elim
  | submit call =>
    cases call with
    | pushing task =>
      cases stepped
      exact ⟨plan.put task,
        { shift := .put rfl usual rfl, outlook := rfl, dead := Plan.put_dead task }⟩
    | notifying =>
      simp only [step, Option.map_eq_some_iff, Prod.exists, Prod.mk.injEq] at stepped
      obtain ⟨_, onward, told, moved, rfl, rfl, rfl, rfl⟩ := stepped
      obtain ⟨rfl, shift⟩ := Shift.notify face moved
      exact ⟨plan, { shift := shift, outlook := rfl, silent := failureTexts_map told }⟩
    | returned =>
      -- Only now the submitted task is counted, and nothing else will happen.
      cases stepped
      exact ⟨plan.count, { shift := .beside rfl id rfl (by rw [face]; rfl) rfl, outlook := rfl }⟩
    | _ => exact usual.elim
  | start count phase =>
    obtain ⟨_, moved, same⟩ := Option.map_eq_some_iff.mp stepped
    cases same
    exact Starting.step_stride quiet own (fun number creating =>
      fits count number (by rw [creating])) face moved
  | stop phase => exact Stopping.step_stride quiet face stepped
  | observe =>
    simp only [step, Option.ite_none_right_eq_some] at stepped
    obtain ⟨-, same⟩ := stepped
    cases same
    exact ⟨plan, { shift := .stay face rfl rfl, outlook := rfl, idle := fun _ =>
      ⟨trivial, rfl, rfl⟩ }⟩
  | returned answer => cases stepped
  | broken text => cases stepped

end Pool

end TaskPool
