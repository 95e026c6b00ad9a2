import TaskPool.Proofs.Pool.Rest

/-!
The course of a performance: of all calls at most one still has something to do,
and with it the plan comes to be that of the script, whatever the workers do meanwhile.
-/

namespace TaskPool.World

open Pool
open Queue (pushedItems removedItems)

variable {number : Nat} {settings : Settings} {sink : Sink} {refuse : Nat → Option Trouble}
  {script : List Command} {plan : Plan} {active : Nat} {patient : Bool} {world next : World}
  {events new : List Pool.Event}

/-- What is true of a pool after every run from a new one whose sink fails nobody. -/
structure Regular (number : Nat) (world : World) (events : List Pool.Event) : Prop where
  balanced : Balanced number world.queue world.pool events
  orderly : world.pool.Orderly
  quiet : world.pool.Quiet
  owned : world.Owned
  attentive : world.Attentive
  books : Books number world.queue world.pool.workers events

/-- Where the tasks are those of a plain script, no worker has broken off. -/
theorem Regular.sound {gates : Gates} (regular : Regular number world events)
    (faithful : Faithful number sink gates world.pool events) :
    ∀ worker ∈ world.pool.workers, worker.duty ≠ .gone true :=
  regular.books.unbroken_of_mild (faithful.mild regular.balanced)

/-- A performance is a run, so what is true of runs is true of it. -/
theorem Performance.regular (quiet : ∀ message : Message, sink.failsAt message.line = false)
    (performed : Performance patient refuse (fresh number settings sink) script world events) :
    Regular number world events := by
  obtain ⟨turns, ran⟩ := performed.run
  obtain ⟨books, orderly, still⟩ := run_orderly quiet ran
  exact ⟨run_balanced ran, orderly, still, run_owned ran, run_attentive ran, books⟩

/--
How a performance stands: which plan its pool fulfils so far, and which caller may
have something left to do.
-/
structure Course (number : Nat) (settings : Settings) (sink : Sink) (refuse : Nat → Option Trouble)
    (script : List Command) (world : World) (events : List Pool.Event) (plan : Plan)
    (active : Nat) : Prop where
  gates : plan.gates = opened script
  usual : ∀ call ∈ world.pool.callers, call.IsUsual
  /-- All other calls will change nothing. -/
  idle : ∀ index call, world.pool.callers[index]? = some call → index ≠ active →
    call.IsIdle plan.face
  /-- At the end of its call the plan will be that of the script. -/
  goal : (world.pool.callers[active]?).elim plan (plan.outlook refuse) = .of refuse settings script
  /-- Nobody is about to put a task on a closed queue while workers do something. -/
  late : ∀ call ∈ world.pool.callers, isPushing call = true → world.queue.closed = true →
    AtRest plan.gates world.queue world.pool
  fulfils : Fulfils plan world.queue world.pool events
  faithful : Faithful number sink plan.gates world.pool events

namespace Course

/-- Where no call will change anything, the plan is that of the script. -/
theorem plan_eq (course : Course number settings sink refuse script world events plan active)
    (idle : ∀ call ∈ world.pool.callers, call.IsIdle plan.face) :
    plan = .of refuse settings script := by
  -- The call that had something to do has come to its end.
  have goal := course.goal
  cases found : world.pool.callers[active]? with
  | none => rwa [found] at goal
  | some call =>
    rw [found] at goal
    exact ((idle call (List.mem_of_getElem? found)).outlook refuse).symm.trans goal

/-- Where nothing moves any more, no call will change anything and the workers are at rest. -/
theorem of_settled (course : Course number settings sink refuse script world events plan active)
    (regular : Regular number world events) (settled : Settled refuse (opened script) world) :
    (∀ call ∈ world.pool.callers, call.IsIdle plan.face) ∧
      AtRest plan.gates world.queue world.pool := by
  refine ⟨course.fulfils.face ▸ settled.idle regular.owned regular.orderly course.usual, ?_⟩
  rw [course.gates]
  exact settled.atRest regular.attentive course.usual regular.balanced.onTrack
    (course.faithful.plain_hands regular.balanced)

/-- Nothing was performed at a new pool. -/
theorem fresh :
    Course number settings sink refuse [] (World.fresh number settings sink) []
      (.fresh settings) 0 where
  gates := rfl
  usual := List.forall_mem_nil _
  idle index call found := by simp [World.fresh, Pool.fresh] at found
  goal := rfl
  late := List.forall_mem_nil _
  fulfils := .fresh number settings sink
  faithful := .fresh settings

/-- A step of a script that makes a call opens no gates. -/
theorem opened_issue {command : Command} {request : Pool.Request}
    (wanted : command.request? = some request) :
    opened (script ++ [command]) = opened script := by
  funext task left
  have none : command.opens task left = false := by cases command <;> first | rfl | cases wanted
  simp [opened, none]

/--
A call of a script is one that scripts make, and it puts a task on the queue where the script does.
-/
theorem usual_request {command : Command} {request : Pool.Request}
    (wanted : command.request? = some request)
    (plain : ∀ task, command.task? = some task → task.IsPlain) :
    request.call.IsUsual ∧ isPushing request.call = command.task?.isSome := by
  -- Commands with a task push it, and all others push nothing.
  cases command with
  | submit task | push task =>
    cases wanted
    exact ⟨plain task rfl, rfl⟩
  | release gates => cases wanted
  | _ =>
    cases wanted
    exact ⟨trivial, rfl⟩

/-- A step of the script begins, where no call has anything left to do. -/
theorem issue {command : Command} {request : Pool.Request} {caller : Nat}
    (course : Course number settings sink refuse script world events plan active)
    (idle : ∀ call ∈ world.pool.callers, call.IsIdle plan.face)
    (late : command.task?.isSome = true → world.queue.closed = true →
      AtRest plan.gates world.queue world.pool)
    (wanted : command.request? = some request)
    (plain : ∀ task, command.task? = some task → task.IsPlain)
    (begun : world.step (.begin caller request) = some (next, new)) :
    ∃ active, Course number settings sink refuse (script ++ [command]) next (events ++ new)
      plan active := by
  obtain ⟨usual, pushing⟩ := usual_request wanted plain
  -- The plan is that of the script so far, so with the new call it will be
  -- that of the longer script.
  have goal : plan.outlook refuse request.call = .of refuse settings (script ++ [command]) := by
    rw [Plan.of_concat, ← course.plan_eq idle, Plan.after, wanted]
  -- The caller of the new call is the active one from now on.
  obtain ⟨rfl, place, callers, rfl, placed, -⟩ := placed_of_step_begin begun
  rw [List.append_nil]
  refine ⟨place, course.gates.trans (opened_issue wanted).symm, ?_, ?_, ?_, ?_,
    course.fulfils.withCallers callers, course.faithful.withCallers callers⟩
  · intro call member
    rcases placed.cases_mem member with rfl | ⟨index, -, known⟩
    · exact usual
    · exact course.usual call (List.mem_of_getElem? known)
  · -- The call that begins may have something to do, and all others will change nothing.
    intro index call known apart
    exact idle call (List.mem_of_getElem? ((placed.others index apart).symm.trans known))
  · show (callers[place]?).elim plan (plan.outlook refuse) = _
    rw [placed.known]
    exact goal
  · intro call member pushes closed
    rcases placed.cases_mem member with rfl | ⟨index, -, known⟩
    · exact late (pushing.symm.trans pushes) closed
    · exact absurd ((idle call (List.mem_of_getElem? known)).still.symm.trans pushes)
        Bool.false_ne_true

/-- Gates are opened, where nobody is about to put a task on the queue. -/
theorem release (course : Course number settings sink refuse script world events plan active)
    (gates : Gates) (still : ∀ call ∈ world.pool.callers, isPushing call = false) :
    Course number settings sink refuse (script ++ [.release gates]) world events
      (plan.unlock gates) active where
  gates := by
    funext task left
    show (plan.gates task left || gates task left) = _
    rw [course.gates]
    simp [opened, Command.opens]
  usual := course.usual
  idle := course.idle
  goal := by
    have goal := course.goal
    rw [Plan.of_concat, ← goal]
    -- It makes no difference whether gates are opened before the call has come
    -- to its end or after that.
    cases found : world.pool.callers[active]? with
    | none => rfl
    | some call => exact Plan.outlook_unlock (still call (List.mem_of_getElem? found))
  late call member pushes := absurd ((still call member).symm.trans pushes) Bool.false_ne_true
  fulfils := course.fulfils.unlock gates
  faithful := course.faithful.mono fun task left open_ => by
    show (plan.gates task left || gates task left) = true
    rw [open_, Bool.true_or]

/-- What a step of a call does to the plan leaves the gates alone. -/
theorem gates_of_shift {onward : Plan} {queue after : Queue Thread Task} {pool later : Pool}
    {call : Call} (shift : Shift plan queue pool call after later new onward) :
    onward.gates = plan.gates := by
  cases shift with
  | beside | hire => rfl
  | put =>
    rw [Plan.put]
    split <;> rfl

/-- A caller goes on. -/
theorem caller {index : Nat} {chance : Chance}
    (course : Course number settings sink refuse script world events plan active)
    (regular : Regular number world events)
    (scheduled : Scheduled refuse (opened script) world (.caller index chance))
    (stepped : world.step (.caller index chance) = some (next, new)) :
    ∃ plan, Course number settings sink refuse script next (events ++ new) plan active := by
  obtain ⟨call, queue, pool, later, found, moved, rfl⟩ := step_caller.mp stepped
  have member := List.mem_of_getElem? found
  have visit := Call.step_visit moved
  have submission := Call.step_submission moved
  obtain ⟨onward, stride⟩ := Call.step_stride (course.usual call member) regular.quiet
    (fun stage reached => (regular.orderly.held index call stage found reached).2)
    (fun count number creating => scheduled count number (by rw [found, creating]))
      course.fulfils.face moved
  have fulfils :=
    course.fulfils.shift regular.balanced.ledger visit stride.shift fun pushes closed => by
    -- The workers are at rest, so what was begun is what the plan says,
    -- and who has not left is blocked.
    have rest := course.late call member pushes closed
    have sound := regular.sound course.faithful
    have begun := rest.begun course.fulfils course.faithful regular.balanced sound
    refine ⟨begun, ?_⟩
    rw [rest.left_blocked course.faithful regular.balanced sound closed, begun]
    rfl
  -- Of the calls only that of the caller changes, and no gate is opened.
  have faithful := course.faithful.shift visit submission stride
  have gates := gates_of_shift stride.shift
  rw [← gates] at faithful
  have placed : Placed world.pool.callers index later (setCaller pool index later).callers := by
    show Placed _ _ _ (pool.callers.set index later)
    rw [show pool.callers = world.pool.callers from visit.callers]
    exact .set found
  have usual : ∀ other ∈ (setCaller pool index later).callers, other.IsUsual := by
    intro other there
    rcases placed.cases_mem there with rfl | ⟨place, -, known⟩
    · exact stride.usual
    · exact course.usual other (List.mem_of_getElem? known)
  refine ⟨onward, gates.trans course.gates, usual, fun other call known passive =>
    ?_, ?_, ?_, fulfils.withCallers _,
    faithful.withCallers _⟩
  · by_cases here : other = index
    · -- A call that will change nothing is still such a call after its step.
      subst here
      rw [placed.known] at known
      cases known
      exact (stride.idle (course.idle other _ found passive)).1
    · have before := (placed.others other here).symm.trans known
      exact (course.idle other call before passive).mono stride.dead
  · by_cases here : active = index
    · -- The step moves the plan on just as the call goes on, so the goal stays.
      subst here
      have goal := course.goal
      rw [found] at goal
      rw [placed.known]
      exact stride.outlook.trans goal
    · -- The step changes nothing, so the plan stays.
      have passive := course.idle index call found (Ne.symm here)
      have stays : onward = plan :=
        ((stride.idle passive).1.outlook refuse).symm.trans
          (stride.outlook.trans (passive.outlook refuse))
      rw [placed.others active here, stays]
      exact course.goal
  · intro other there pushes closed
    rcases placed.cases_mem there with rfl | ⟨place, apart, known⟩
    · exact absurd (stride.still.symm.trans pushes) Bool.false_ne_true
    · -- The other call has something to do, so this one changes nothing.
      have acts : place = active := by
        by_contra passive
        exact Bool.false_ne_true ((course.idle place other known passive).still.symm.trans pushes)
      obtain ⟨-, contents, workers⟩ :=
        stride.idle (course.idle index call found (acts ▸ apart.symm))
      have before : world.queue.closed = true :=
        (congrArg Queue.Contents.closed contents).symm.trans closed
      have rest := course.late other (List.mem_of_getElem? known) pushes before
      intro worker place
      show worker.duty.Rests onward.gates queue.contents
      rw [contents, gates]
      exact rest worker (workers ▸ place)

/-- A worker that is at rest at a closed queue does nothing. -/
theorem work_of_rests {gates : Gates} {pool : Pool} {queue : Queue Thread Task} {index : Nat}
    {name : String} {micros : UInt64} {duty : Duty} (rests : duty.Rests gates queue.contents)
    (closed : queue.closed = true) :
    pool.work queue index name micros duty = none := by
  -- It waits for a gate or it is gone. To look for a task it would have to have an open queue.
  cases duty with
  | fetching => exact absurd (rests.1.symm.trans closed) Bool.false_ne_true
  | working task left =>
    cases left with
    | nil => exact rests.elim
    | cons action left =>
      cases action with
      | await => rfl
      | _ => exact rests.elim
  | gone broken => rfl
  | _ => exact rests.elim

/-- A worker goes on. -/
theorem worker {index : Nat} {chance : Chance}
    (course : Course number settings sink refuse script world events plan active)
    (regular : Regular number world events)
    (stepped : world.step (.worker index chance) = some (next, new)) :
    Course number settings sink refuse script next (events ++ new) plan active := by
  obtain ⟨name, duty, queue, pool, later, found, moved, rfl⟩ := step_worker.mp stepped
  have draw := work_draw regular.quiet moved
  obtain ⟨pushed, kept⟩ := draw.puts_nothing
  have errand : Errand plan.gates world.pool duty later new :=
    work_errand regular.quiet (regular.balanced.onTrack _ (List.mem_of_getElem? found)) moved
  have fulfils : Fulfils plan queue (setWorker { world.pool with tally := pool.tally } index
    ⟨name, later⟩)
      (events ++ new) := by
    -- A worker that looks for a task is not one of those that are needed for blocked ones.
    refine course.fulfils.draw found draw fun fetching => ?_
    subst fetching
    exact course.faithful.room regular.balanced found course.fulfils.staffed
  have faithful : Faithful number sink plan.gates
      (setWorker { world.pool with tally := pool.tally } index ⟨name, later⟩) (events ++ new) :=
    course.faithful.work found pushed errand
  rw [(work_progress moved).same]
  refine ⟨course.gates, course.usual, course.idle, course.goal, fun call member pushes closed =>
    ?_, fulfils, faithful⟩
  -- At a closed queue the workers would be at rest, and this one has gone on.
  have before : world.queue.closed = true := kept.symm.trans closed
  have rest := course.late call member pushes before
  rw [work_of_rests (rest _ (List.mem_of_getElem? found)) before] at moved
  cases moved

/-- A gate is opened for a worker. -/
theorem openGate {index : Nat}
    (course : Course number settings sink refuse script world events plan active)
    (regular : Regular number world events)
    (scheduled : Scheduled refuse (opened script) world (.openGate index))
    (stepped : world.step (.openGate index) = some (next, new)) :
    Course number settings sink refuse script next (events ++ new) plan active := by
  obtain ⟨name, task, left, found, open_⟩ := scheduled
  rw [← course.gates] at open_
  obtain ⟨rfl, _, _, _, known, rfl⟩ := step_openGate stepped
  rw [found] at known
  cases known
  have draw : Draw world.queue ⟨number, .worker index⟩ (.working task (.await :: left)) world.queue
      (.working task left) [] := .aside rfl rfl rfl
  have fulfils : Fulfils plan world.queue
    (setWorker { world.pool with tally := world.pool.tally } index
      ⟨name, .working task left⟩) (events ++ []) := course.fulfils.draw found draw (by simp)
  have faithful := course.faithful.openGate regular.balanced found open_
  refine ⟨course.gates, course.usual, course.idle, course.goal, fun call member pushes closed =>
    ?_, fulfils, ?_⟩
  · -- At a closed queue the worker would wait at a gate that is shut.
    have rest := course.late call member pushes closed
    have shut : plan.gates task left = false := rest _ (List.mem_of_getElem? found)
    exact absurd (shut.symm.trans open_) Bool.false_ne_true
  · rw [List.append_nil]
    exact faithful

end Course

/--
Every patient performance of a plain script, at a new pool whose sink fails
nobody, has such a course.
-/
theorem Performance.course (quiet : ∀ message : Message, sink.failsAt message.line = false)
    (performed : Performance true refuse (fresh number settings sink) script world events)
    (plain : IsPlain script) :
    ∃ plan active, Course number settings sink refuse script world events plan active := by
  -- The induction is on the performance, with one lemma for each way in which it goes on.
  induction performed with
  | nothing => exact ⟨_, _, .fresh⟩
  | @issue _ world _ _ _ _ _ _ performed ready late wanted begun ih =>
    have regular := performed.regular quiet
    obtain ⟨plan, active, course⟩ :=
      ih fun command member => plain command (List.mem_append_left _ member)
    -- A new step begins only where no call has anything left to do.
    have idle : ∀ call ∈ world.pool.callers, call.IsIdle plan.face := by
      rcases ready with ended | settled
      · intro call member
        have finished := ended call member
        cases call with
        | returned | broken => trivial
        | _ => cases finished
      · exact (course.of_settled regular settled).1
    obtain ⟨active, course⟩ := course.issue idle
      (fun pushing closed => (course.of_settled regular (late rfl pushing closed)).2) wanted
      (plain _ (List.mem_append_right _ (List.mem_singleton_self _))) begun
    exact ⟨plan, active, course⟩
  | release gates performed still ih =>
    obtain ⟨plan, active, course⟩ :=
      ih fun command member => plain command (List.mem_append_left _ member)
    exact ⟨_, active, course.release gates still⟩
  | @turn _ _ _ _ _ turn performed scheduled stepped ih =>
    have regular := performed.regular quiet
    obtain ⟨plan, active, course⟩ := ih plain
    cases turn with
    | caller index chance =>
      obtain ⟨plan, course⟩ := course.caller regular scheduled stepped
      exact ⟨plan, active, course⟩
    | worker index chance => exact ⟨plan, active, course.worker regular stepped⟩
    | openGate index => exact ⟨plan, active, course.openGate regular scheduled stepped⟩
    | begin | resume | refilter => exact scheduled.elim

end TaskPool.World
