import TaskPool.Proofs.Pool.Stride

/-!
How far a pool has come with the plan of a script, while its workers go on in any order.

A task is begun only while there is a worker for it, and no worker leaves while there is something
to begin. So once all workers are at rest, what was begun is what the plan says.
-/

namespace TaskPool

open Queue (Contents pushedItems removedItems)

/-- Whether a worker has not learned that nothing will come any more. -/
def Worker.stays (worker : Worker) : Bool := !worker.duty.isLeaving

/-- Whether a worker stays and has nothing in its hand. -/
def Worker.isFree (worker : Worker) : Bool := worker.stays && worker.duty.inHand.isEmpty

/-- Every worker that stays is free or has one task in its hand. -/
theorem hands_length (workers : List Worker) :
    (workers.flatMap (·.duty.inHand)).length + workers.countP Worker.isFree =
    workers.countP Worker.stays := by
  induction workers with
  | nil => rfl
  | cons worker rest ih =>
    -- For one worker this is a look at what it does.
    have single : worker.duty.inHand.length + (if worker.isFree then 1 else 0) =
        if worker.stays then 1 else 0 := by
      obtain ⟨name, duty⟩ := worker
      cases duty with
      | gone broken => cases broken <;> rfl
      | _ => rfl
    rw [List.flatMap_cons, List.length_append, List.countP_cons, List.countP_cons, ← ih, ← single]
    omega

/-- Whether a worker can do nothing more by itself where the queue holds something or not. -/
def Duty.Rests (gates : Gates) (contents : Contents Task) : Duty → Prop
  | .working task (.await :: left) => gates task left = false
  | .fetching => contents.closed = false ∧ contents.items = []
  | .gone _ => True
  | _ => False

namespace Pool

variable {queue after : Queue Thread Task} {pool next : Pool} {events new : List Event}
  {duty later : Duty}

/-- What a worker does at the queue in one step. -/
inductive Draw (queue : Queue Thread Task) (thread : Thread) :
    Duty → Queue Thread Task → Duty → List Event → Prop where
  /-- It takes nothing, and has not learned that nothing will come any more. -/
  | aside {duty later : Duty} {after : Queue Thread Task} {events : List Event}
    (contents : after.contents = queue.contents) (told : queueEvents events = [])
    (leaving : later.isLeaving = duty.isLeaving) : Draw queue thread duty after later events
  /-- It takes the first task. -/
  | taken {task : Task} {after : Queue Thread Task} {events : List Event}
    (items : queue.items = task :: after.items) (closed : after.closed = queue.closed)
    (told : queueEvents events = [.popped thread (some task)]) :
    Draw queue thread .fetching after (.working task task.actions) events
  /-- It learns that nothing will come any more. -/
  | dismissed {after : Queue Thread Task} {events : List Event} (closed : queue.closed = true)
    (items : queue.items = []) (contents : after.contents = queue.contents)
    (told : queueEvents events = [.popped thread none]) : Draw queue thread .fetching after
      .closing events

/-- A worker puts nothing on the queue and does not close it. -/
theorem Draw.puts_nothing {thread : Thread} (draw : Draw queue thread duty after later new) :
    pushedItems (queueEvents new) = [] ∧ after.closed = queue.closed := by
  -- Whatever a worker draws, its events are of taking and of leaving.
  cases draw with
  | aside contents told leaving =>
    rw [told]
    exact ⟨rfl, congrArg Contents.closed contents⟩
  | taken items closed told =>
    rw [told]
    exact ⟨rfl, closed⟩
  | dismissed closed items contents told =>
    rw [told]
    exact ⟨rfl, congrArg Contents.closed contents⟩

/-- A worker that tells something takes nothing. -/
theorem Draw.utter {thread : Thread} {index : Nat} {message : Message} (quiet : pool.Quiet)
    (leaving : later.isLeaving = duty.isLeaving) :
    Draw queue thread duty queue (pool.utter index message later).1
      (pool.utter index message later).2 := by
  simp only [Pool.utter, quiet message, Bool.false_eq_true, if_false]
  exact .aside rfl (queueEvents_kept ..) leaving

/--
A worker that looks at the queue takes the first task, or learns that there will
be none, or falls asleep.
-/
theorem Draw.fetching {thread : Thread} {met : Queue.Met Task}
    (looked : queue.take thread = (met, after)) :
    Draw queue thread .fetching after
      (match met with
        | .item task => .working task task.actions
        | .ended => .closing
        | .nothing => .fetching)
      ((met.events thread).map .queue) := by
  -- What a consumer meets depends on what the queue holds first, and then on whether it is closed.
  obtain ⟨items, closed, asleep, woken⟩ := queue
  cases items with
  | cons task rest =>
    cases looked
    exact .taken rfl rfl rfl
  | nil =>
    cases closed <;> cases looked
    · exact .aside rfl rfl rfl
    · exact .dismissed rfl rfl rfl rfl

/-- Whatever a worker does, this is what it does at the queue. -/
theorem work_draw {index : Nat} {name : String} {micros : UInt64} (quiet : pool.Quiet)
    (worked : pool.work queue index name micros duty = some (after, next, later, events)) :
    Draw queue ⟨pool.number, .worker index⟩ duty after later events := by
  cases duty with
  | opening | closing =>
    cases worked
    exact .utter quiet rfl
  | fetching =>
    simp only [work] at worked
    split at worked
    · cases worked
    · split at worked <;> rename_i looked <;> cases worked
      all_goals exact .fetching looked
  | working task left =>
    cases left with
    | nil =>
      cases worked
      exact .aside rfl rfl rfl
    | cons action left => cases action <;> cases worked <;> exact .aside rfl rfl rfl
  | reporting failure =>
    cases failure with
    | none =>
      cases worked
      exact .aside rfl rfl rfl
    | some failure =>
      cases worked
      exact .utter quiet rfl
  | counting task outcome =>
    -- Also a worker that breaks off has not learned anything at the queue.
    cases worked
    cases outcome.isDeadly <;> exact .aside rfl rfl rfl
  | timing =>
    cases worked
    exact .aside rfl rfl rfl
  | gone broken => cases worked

end Pool

namespace World

open Pool

variable {plan onward : Plan} {queue after : Queue Thread Task} {pool next : Pool}
  {events new : List Pool.Event}

/-- How far a pool has come with a plan. -/
structure Fulfils (plan : Plan) (queue : Queue Thread Task) (pool : Pool)
    (events : List Pool.Event) : Prop where
  face : plan.face = faceOf queue pool
  pushed : pushedItems (queueEvents events) = plan.sealed ++ plan.waiting
  sealed : plan.sealed <+: removedItems (queueEvents events)
  /-- When a task was begun, there was a worker left for it. -/
  served : ∀ early task, removedItems (queueEvents events) = plan.sealed ++ early ++ [task] →
    (plan.sealed ++ early).countP plan.blocks < plan.staff
  staffed : pool.workers.countP Worker.stays ≤ plan.staff
  /-- Workers leave only once there is nothing to begin. -/
  drained : pool.workers.countP Worker.stays < plan.staff → queue.closed = true ∧ queue.items = []
  /-- As long as the queue is open, nobody has left. -/
  open_ : queue.closed = false → plan.sealed = [] ∧ plan.staff = pool.workers.length

/-- Nothing was done and nothing is planned. -/
theorem Fulfils.fresh (number : Nat) (settings : Settings) (sink : Sink) :
    Fulfils (.fresh settings) (World.fresh number settings sink).queue
      (World.fresh number settings sink).pool [] where
  face := rfl
  pushed := rfl
  sealed := List.prefix_rfl
  served early task split := by
    simp [removedItems, queueEvents, Queue.removals, Plan.fresh] at split
  staffed := Nat.le_refl 0
  drained few := absurd few (Nat.lt_irrefl 0)
  open_ _ := ⟨rfl, rfl⟩

/-- How far a pool has come does not depend on what its callers are doing. -/
theorem Fulfils.withCallers (fulfils : Fulfils plan queue pool events) (callers : List Call) :
    Fulfils plan queue { pool with callers := callers } events where
  face := fulfils.face
  pushed := fulfils.pushed
  sealed := fulfils.sealed
  served := fulfils.served
  staffed := fulfils.staffed
  drained := fulfils.drained
  open_ := fulfils.open_

/-- Opening gates blocks no task. -/
theorem Plan.blocks_unlock {gates : Gates} {task : Task}
    (blocks : (plan.unlock gates).blocks task = true) :
    plan.blocks task = true := by
  refine Task.isBlocked_mono (fun task left still => ?_) blocks
  show (plan.gates task left || gates task left) = true
  rw [still, Bool.true_or]

/-- A pool that has come so far has come as far once more gates are open. -/
theorem Fulfils.unlock (fulfils : Fulfils plan queue pool events) (gates : Gates) :
    Fulfils (plan.unlock gates) queue pool events where
  face := fulfils.face
  pushed := fulfils.pushed
  sealed := fulfils.sealed
  served early task split :=
    Nat.lt_of_le_of_lt (List.countP_mono_left fun _ _ => Plan.blocks_unlock)
      (fulfils.served early task split)
  staffed := fulfils.staffed
  drained := fulfils.drained
  open_ := fulfils.open_

/-- A step of a caller takes nothing off the queue, where it moves the plan on. -/
theorem removed_of_shift {call : Call} (visit : Visit queue pool after next new)
    (shift : Shift plan queue pool call after next new onward) :
    removedItems (queueEvents new) = [] := by
  have ledger := visit.path.ledger
  -- What is there afterwards is what was there and what was put there.
  cases shift with
  | beside items closed workers shown pushed =>
    simp only [Queue.contents, pushed, items, List.append_nil] at ledger
    exact List.append_left_eq_self.mp ledger.symm
  | hire workers shown => rfl
  | put pushing plain pushed =>
    simp only [Queue.contents, pushed, Queue.append] at ledger
    exact List.append_left_eq_self.mp ledger.symm

/--
A step of a caller keeps a pool as far as it has come.

A task is put on a closed queue only where the workers are at rest, and then those
that are left are blocked.
-/
theorem Fulfils.shift {call : Call} (fulfils : Fulfils plan queue pool events)
    (ledger : pushedItems (queueEvents events) = removedItems (queueEvents events) ++ queue.items)
    (visit : Visit queue pool after next new)
    (shift : Shift plan queue pool call after next new onward)
    (late : isPushing call = true → queue.closed = true →
      removedItems (queueEvents events) = plan.begun ∧
      pool.workers.countP Worker.stays = plan.begun.countP plan.blocks) :
    Fulfils onward after next (events ++ new) := by
  have removed : removedItems (queueEvents (events ++ new)) =
      removedItems (queueEvents events) := by
    rw [queueEvents_append, Queue.removedItems_append, removed_of_shift visit shift,
      List.append_nil]
  have pushed : pushedItems (queueEvents (events ++ new)) =
      pushedItems (queueEvents events) ++ pushedItems (queueEvents new) := by
    rw [queueEvents_append, Queue.pushedItems_append]
  cases shift with
  | beside items closed workers shown none =>
    rw [none, List.append_nil] at pushed
    -- All that may have changed is whether the queue is closed, and it is not opened again.
    refine ⟨shown.symm, pushed.trans fulfils.pushed, removed ▸ fulfils.sealed, fun early task =>
      ?_, ?_, ?_, ?_⟩
    · rw [removed]
      exact fulfils.served early task
    · rw [workers]
      exact fulfils.staffed
    · rw [workers, items]
      exact fun few => ⟨closed (fulfils.drained few).1, (fulfils.drained few).2⟩
    · intro still
      rw [workers]
      cases before : queue.closed with
      | false => exact fulfils.open_ before
      | true => exact absurd (still.symm.trans (closed before)) Bool.false_ne_true
  | hire workers shown =>
    -- The new worker stays, so there is one more worker on either side.
    have staff : next.workers.countP Worker.stays = pool.workers.countP Worker.stays + 1 := by
      rw [workers, List.countP_append]
      rfl
    rw [List.append_nil] at pushed removed ⊢
    refine ⟨shown.symm, fulfils.pushed, fulfils.sealed, fun early task split => ?_, ?_, fun few =>
      ?_, fun still => ?_⟩
    · exact Nat.lt_succ_of_lt (fulfils.served early task split)
    · rw [staff]
      exact Nat.succ_le_succ fulfils.staffed
    · rw [staff] at few
      exact fulfils.drained (Nat.lt_of_succ_lt_succ few)
    · rw [workers, List.length_append]
      exact ⟨(fulfils.open_ still).1, congrArg (· + 1) (fulfils.open_ still).2⟩
  | @put task _ pushing plain single =>
    rw [single] at pushed
    have face : plan.face.closed = queue.closed := by rw [fulfils.face]; rfl
    cases closed : queue.closed with
    | false =>
      -- At an open queue there is one more task to wait for, and nobody has left.
      have onward : plan.put task = { plan with waiting := plan.waiting ++ [task] } := by
        simp [Plan.put, face, closed]
      rw [onward]
      refine ⟨fulfils.face, ?_, removed ▸ fulfils.sealed, fun early last => ?_, fulfils.staffed,
        fun few => ?_, fulfils.open_⟩
      · rw [pushed, fulfils.pushed, List.append_assoc]
      · rw [removed]
        exact fulfils.served early last
      · exact absurd (closed.symm.trans (fulfils.drained few).1) Bool.false_ne_true
    | true =>
      -- At a closed queue a new account is opened, with the workers that are left.
      obtain ⟨begun, left⟩ := late pushing closed
      have onward : plan.put task = { plan with
          sealed := plan.begun, waiting :=
            (plan.sealed ++ plan.waiting).drop plan.begun.length ++ [task],
          staff := plan.begun.countP plan.blocks } := by simp [Plan.put, face, closed]
      rw [onward]
      refine ⟨fulfils.face, ?_, ?_, fun early last split => ?_, Nat.le_of_eq left, fun few =>
        ?_, fun still => ?_⟩
      · -- What had been begun is the first part of what was put there.
        show _ = plan.begun ++ ((plan.sealed ++ plan.waiting).drop plan.begun.length ++ [task])
        rw [pushed, ← fulfils.pushed, ledger, ← begun, List.drop_left, List.append_assoc]
      · rw [removed, begun]
      · rw [removed, begun, List.append_assoc] at split
        exact absurd (List.self_eq_append_right.mp split) (by simp)
      · exact absurd few
          (by rw [show pool.workers.countP Worker.stays = _ from left]; exact Nat.lt_irrefl _)
      · exact absurd (closed.symm.trans still) (by simp)

/--
A step of a worker keeps a pool as far as it has come, where a worker takes a task
only while there is room.
-/
theorem Fulfils.draw {thread : Thread} {index : Nat} {name : String} {duty later : Duty}
    {tally : Tally} (fulfils : Fulfils plan queue pool events)
    (found : pool.workers[index]? = some ⟨name, duty⟩)
    (draw : Draw queue thread duty after later new)
    (room : duty = .fetching →
      (removedItems (queueEvents events)).countP plan.blocks < plan.staff) :
    Fulfils plan after (setWorker { pool with tally := tally } index ⟨name, later⟩)
      (events ++ new) := by
  obtain ⟨nothing, closed⟩ := draw.puts_nothing
  obtain ⟨others, before, behind⟩ := Queue.countP_set_frame Worker.stays found
  have staffed := fulfils.staffed
  have drained := fulfils.drained
  have crew : (setWorker { pool with tally := tally } index ⟨name, later⟩).workers.length =
    pool.workers.length :=
    List.length_set
  have staff : (setWorker { pool with tally := tally } index ⟨name, later⟩).workers.countP
    Worker.stays =
      others + (Worker.stays ⟨name, later⟩).toNat := behind _
  -- Nothing that everybody can see changes, and nothing is put on the queue.
  have face : plan.face =
      faceOf after (setWorker { pool with tally := tally } index ⟨name, later⟩) := by
    rw [faceOf, closed, crew]
    exact fulfils.face
  have pushed : pushedItems (queueEvents (events ++ new)) = plan.sealed ++ plan.waiting := by
    rw [queueEvents_append, Queue.pushedItems_append, nothing, List.append_nil]
    exact fulfils.pushed
  have open_ : after.closed = false → plan.sealed = [] ∧
      plan.staff = (setWorker { pool with tally := tally } index ⟨name, later⟩).workers.length := by
    rw [closed, crew]
    exact fulfils.open_
  cases draw with
  | aside contents told leaving =>
    have stays : (Worker.stays ⟨name, later⟩).toNat = (Worker.stays ⟨name, duty⟩).toNat := by
      simp only [Worker.stays, leaving]
    rw [stays, ← before] at staff
    have seen : queueEvents (events ++ new) = queueEvents events := by
      rw [queueEvents_append, told, List.append_nil]
    refine ⟨face, pushed, seen ▸ fulfils.sealed, seen ▸ fulfils.served, ?_, ?_, open_⟩
    · rw [staff]
      exact staffed
    · rw [staff, closed, show after.items = queue.items from congrArg Contents.items contents]
      exact drained
  | @taken task _ _ items _ told =>
    have stays : (Worker.stays ⟨name, .working task task.actions⟩).toNat =
      (Worker.stays ⟨name, .fetching⟩).toNat := rfl
    rw [stays, ← before] at staff
    have removed : removedItems (queueEvents (events ++ new)) =
        removedItems (queueEvents events) ++ [task] := by
      rw [queueEvents_append, Queue.removedItems_append, told]
      rfl
    refine ⟨face, pushed, ?_, fun early last split => ?_, ?_, fun few => ?_, open_⟩
    · rw [removed]
      exact fulfils.sealed.trans (List.prefix_append ..)
    · -- All that had been begun before this task left room for it.
      rw [removed] at split
      rw [← List.append_inj_left' split rfl]
      exact room rfl
    · rw [staff]
      exact staffed
    · -- The queue was not empty, so nobody had left.
      rw [staff] at few
      rw [(drained few).2] at items
      cases items
  | dismissed ended items contents told =>
    have removed : removedItems (queueEvents (events ++ new)) =
        removedItems (queueEvents events) := by
      rw [queueEvents_append, Queue.removedItems_append, told]
      exact List.append_nil _
    refine ⟨face, pushed, removed ▸ fulfils.sealed, fun early last => ?_, ?_, fun _ => ?_, open_⟩
    · rw [removed]
      exact fulfils.served early last
    · rw [staff]
      exact Nat.le_trans (Nat.le_add_right others _) (before ▸ staffed)
    · -- The worker has seen that the queue is closed and empty.
      exact ⟨closed.trans ended, (congrArg Contents.items contents).trans items⟩

end World

end TaskPool
