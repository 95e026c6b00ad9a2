import TaskPool.Proofs.Pool.Course

/-!
What can be seen of a pool depends on the script only, and not on the order in which its workers go
on: at every point where nothing moves any more, it can be read off the plan.
-/

namespace TaskPool.World

open Pool
open Queue (pushedItems removedItems)

variable {number : Nat} {settings : Settings} {sink : Sink} {refuse : Nat → Option Trouble}
  {script : List Command} {gates : Gates} {plan : Plan} {active : Nat} {queue : Queue Thread Task}
  {pool : Pool} {world : World} {events : List Pool.Event}

/-- The tasks that come to an end: those that were begun and are not blocked. -/
def Plan.finished (plan : Plan) : List Task := plan.begun.filter fun task => !plan.blocks task

/-- The ends of the tasks of a script are their own outcomes. -/
theorem Faithful.own_outcome (faithful : Faithful number sink gates pool events)
    (balanced : Balanced number queue pool events) :
    (endings events).map (·.2) = ((endings events).map (·.1)).map (·.outcome) := by
  rw [List.map_map]
  exact List.map_congr_left fun entry member => (faithful.ends_own balanced entry member).2

/--
Where the workers are at rest, the tasks that have come to an end are those that the plan says.
-/
theorem AtRest.finished (rest : AtRest plan.gates queue pool)
    (faithful : Faithful number sink plan.gates pool events)
    (balanced : Balanced number queue pool events) (begun : taken number events = plan.begun) :
    ((endings events).map (·.1)).Perm plan.finished := by
  -- What was begun has ended or is in a hand, and of these the former is not
  -- blocked and the latter is.
  have ended : ((endings events).map (·.1)).filter (fun task => !plan.blocks task) =
      (endings events).map (·.1) := by
    refine List.filter_eq_self.mpr fun task member => ?_
    obtain ⟨entry, among, rfl⟩ := List.mem_map.mp member
    rw [show plan.blocks entry.1 = false from faithful.ended entry among]
    rfl
  have held :
      (pool.workers.flatMap (·.duty.inHand)).filter (fun task => !plan.blocks task) = [] := by
    refine List.filter_eq_nil_iff.mpr fun task member => ?_
    rw [show plan.blocks task = true from rest.blocked balanced.onTrack task member]
    exact Bool.false_ne_true
  have sorted := balanced.hands.filter fun task => !plan.blocks task
  rw [List.filter_append, ended, held, List.append_nil, begun] at sorted
  exact sorted.symm

/-- What can be seen of a performance where nothing moves any more, by the plan of its script. -/
structure Results (number : Nat) (sink : Sink) (plan : Plan) (world : World)
    (events : List Pool.Event) : Prop where
  begun : taken number events = plan.begun
  pushed : pushedItems (queueEvents events) = plan.sealed ++ plan.waiting
  items : pushedItems (queueEvents events) = taken number events ++ world.queue.items
  face : plan.face = faceOf world.queue world.pool
  counters : ∀ outcome : Outcome, world.pool.tally.counter outcome =
    UInt64.ofNat ((plan.finished.map (·.outcome)).countP (·.tick = outcome.tick))
  reports : (failureTexts events).Perm
    (if sink.filter.admits .error then
      (plan.finished.map (·.outcome)).filterMap Outcome.report?
    else [])
  /-- As long as the queue is open, all workers that were created count. -/
  open_ : world.queue.closed = false → plan.sealed = [] ∧ plan.staff = world.pool.workers.length

/--
Where nothing moves any more, the results of a performance are those of the plan of its script.
-/
theorem Performance.results (quiet : ∀ message : Message, sink.failsAt message.line = false)
    (plain : IsPlain script)
    (performed : Performance true refuse (fresh number settings sink) script world events)
    (settled : Settled refuse (opened script) world) :
    Results number sink (.of refuse settings script) world events ∧
      (Plan.of refuse settings script).gates = opened script := by
  obtain ⟨plan, active, course⟩ := performed.course quiet plain
  have regular := performed.regular quiet
  -- No call will change anything, so the plan that the pool fulfils is that of the whole script.
  obtain ⟨idle, rest⟩ := course.of_settled regular settled
  obtain rfl := course.plan_eq idle
  have faithful := course.faithful
  have balanced := regular.balanced
  have begun :=
    (faithful.byWorkers).trans (rest.begun course.fulfils faithful balanced
      (regular.sound faithful))
  have finished := rest.finished faithful balanced begun
  have outcomes : ((endings events).map (·.2)).Perm
      ((Plan.of refuse settings script).finished.map (·.outcome)) := by
    rw [faithful.own_outcome balanced]
    exact finished.map _
  -- No end is due to be counted or to be reported, since nobody is in the middle of that.
  have due : world.pool.workers.flatMap (·.duty.due) = [] ∧
      world.pool.workers.flatMap (·.duty.untold) = [] := by
    refine ⟨List.flatMap_eq_nil_iff.mpr fun worker member =>
      ?_, List.flatMap_eq_nil_iff.mpr fun worker member => ?_⟩
    all_goals
      have rests := rest worker member
      cases duty : worker.duty with
      | counting | reporting =>
        rw [duty] at rests
        exact rests.elim
      | _ => rfl
  refine ⟨⟨begun, course.fulfils.pushed, ?_, course.fulfils.face, fun outcome =>
    ?_, ?_, course.fulfils.open_⟩,
    course.gates⟩
  · rw [faithful.byWorkers]
    exact balanced.ledger
  · -- All ends were counted, each with its own outcome.
    obtain ⟨counted, all, counters⟩ := balanced.counted
    rw [due.1, List.append_nil] at all
    rw [counters outcome, (all.symm.trans outcomes).countP_eq]
  · -- All bad ends were reported, if the sink keeps such lines at all.
    cases admits : sink.filter.admits .error with
    | false =>
      rw [faithful.untold admits]
      exact .refl _
    | true =>
      have told := faithful.told admits
      rw [due.2, List.append_nil] at told
      refine told.symm.trans ?_
      have reports : reportsOf (endings events) =
          ((endings events).map (·.2)).filterMap Outcome.report? := by
        rw [reportsOf, List.filterMap_map]
        rfl
      rw [reports]
      exact outcomes.filterMap _

/--
A script is performed twice at new pools that are alike, by workers that go on in any order,
with whatever wakes and pauses; the sink fails nobody, and the tasks leave pools, the queue
and their workers alone, but they may wait at gates. In both performances nothing moves any more.
A step of the script may begin while workers are in the middle of something, but the performances
are patient: a step that puts a task on a closed queue begins only once nothing moves any more,
since each worker that has found the closed queue empty has left for good.

Then the tasks that were begun are the same, and they are the first of those that were put on
the queue; as long as the queue is open, they are the shortest such part that has as many blocked
tasks as there are workers, or all tasks if no part has so many. The tasks that have ended well,
failed and broken off are counted alike, the queue holds the same tasks in the same order,
the pool shows the same of itself, and the same failures were reported.
-/
theorem results_do_not_depend_on_the_schedule {first second : World}
    {firstEvents secondEvents : List Pool.Event}
    (quiet : ∀ message : Message, sink.failsAt message.line = false) (plain : IsPlain script)
    (one : Performance true refuse (fresh number settings sink) script first firstEvents)
    (other : Performance true refuse (fresh number settings sink) script second secondEvents)
    (settled : Settled refuse (opened script) first)
    (settledToo : Settled refuse (opened script) second) :
    taken number firstEvents = taken number secondEvents ∧
    pushedItems (queueEvents firstEvents) = pushedItems (queueEvents secondEvents) ∧
    taken number firstEvents <+: pushedItems (queueEvents firstEvents) ∧
    (first.queue.closed = false →
      (∀ front, front <+: pushedItems (queueEvents firstEvents) →
        first.pool.workers.length ≤ front.countP (·.isBlocked (opened script)) →
        taken number firstEvents <+: front ∧
          first.pool.workers.length ≤
          (taken number firstEvents).countP (·.isBlocked (opened script))) ∧
      ((pushedItems (queueEvents firstEvents)).countP (·.isBlocked (opened script)) <
        first.pool.workers.length →
        taken number firstEvents = pushedItems (queueEvents firstEvents))) ∧
    first.pool.tally.completed = second.pool.tally.completed ∧
    first.pool.tally.failed = second.pool.tally.failed ∧
    first.pool.tally.panicked = second.pool.tally.panicked ∧
    first.queue.items = second.queue.items ∧
    first.queue.closed = second.queue.closed ∧
    first.pool.workers.length = second.pool.workers.length ∧
    first.pool.overview = second.pool.overview ∧
    (failureTexts firstEvents).Perm (failureTexts secondEvents) := by
  -- Both performances have the results of one plan.
  obtain ⟨results, gates⟩ := one.results quiet plain settled
  obtain ⟨same, -⟩ := other.results quiet plain settledToo
  have begun := results.begun.trans same.begun.symm
  have pushed := results.pushed.trans same.pushed.symm
  have face := results.face.symm.trans same.face
  have counters (outcome : Outcome) := (results.counters outcome).trans (same.counters outcome).symm
  refine ⟨begun, pushed, results.items ▸ List.prefix_append .., fun open_ => ?_,
    counters .completed, counters (.failed (.other "")), counters (.panicked .unreadable), ?_,
    congrArg Face.closed face, congrArg Face.hired face, ?_,
    results.reports.trans same.reports.symm⟩
  · -- What was begun is what the workers reach among all that was put on the queue.
    obtain ⟨nothing, staff⟩ := results.open_ open_
    have reached : taken number firstEvents =
        reach (·.isBlocked (opened script)) first.pool.workers.length
          (pushedItems (queueEvents firstEvents)) := by
      rw [results.begun, results.pushed, Plan.begun, nothing, staff, ← gates]
      rfl
    rw [reached]
    exact ⟨fun front part enough => reach_shortest part enough, fun few => reach_all few⟩
  · -- The queue holds what was put there behind the tasks that were begun.
    have left := results.items.symm.trans (pushed.trans same.items)
    rw [begun] at left
    exact List.append_cancel_left left
  · -- What a pool shows is a part of its face.
    have running : first.pool.running = second.pool.running := congrArg Face.running face
    have roster : first.pool.roster = second.pool.roster := congrArg Face.roster face
    have submitted : first.pool.submitted = second.pool.submitted := congrArg Face.submitted face
    rw [overview, overview, running, roster, submitted]

/-- One step of a performance in which the system refuses no thread. -/
inductive Act where
  | issue (caller : Nat) (command : Command)
  | release (gates : Gates)
  | move (turn : Turn)

namespace Act

/-- The step of the script that is done. -/
def command? : Act → Option Command
  | .issue _ command => some command
  | .release gates => some (.release gates)
  | .move _ => none

/-- Whether a turn may be taken between the steps of a script. -/
def allows (gates : Gates) (world : World) : Turn → Bool
  | .worker .. => true
  | .caller _ chance => chance.refusal.isNone
  | .openGate index =>
    match world.pool.workers[index]? with
    | some ⟨_, .working task (.await :: left)⟩ => gates task left
    | _ => false
  | .begin .. | .resume .. | .refilter _ => false

/-- The world after one step of a performance, where it may be done at once. -/
def step (patient : Bool) (script : List Command) (world : World) :
    Act → Option (World × List Pool.Event)
  | .issue caller command =>
    if world.pool.callers.all Call.hasEnded &&
        !(patient && command.task?.isSome && world.queue.closed) then
      command.request?.bind fun request => world.step (.begin caller request)
    else none
  | .release _ => if world.pool.callers.all (!isPushing ·) then some (world, []) else none
  | .move turn => if allows (opened script) world turn then world.step turn else none

/-- What a performance comes to in some more steps. -/
def perform (patient : Bool) :
    List Act → List Command → World → List Pool.Event → Option (World × List Pool.Event)
  | [], _, world, events => some (world, events)
  | act :: acts, script, world, events =>
    (act.step patient script world).bind fun (next, new) =>
      perform patient acts (script ++ act.command?.toList) next (events ++ new)

/-- A turn that is allowed may be taken. -/
theorem scheduled_of_allows {turn : Turn} (allowed : allows gates world turn = true) :
    Scheduled (fun _ => none) gates world turn := by
  cases turn with
  | worker index chance => trivial
  | caller index chance => exact fun _ _ _ => Option.isNone_iff_eq_none.mp allowed
  | openGate index =>
    simp only [allows] at allowed
    -- A gate is opened only for a task that waits for it.
    split at allowed
    · rename_i name task left found
      exact ⟨name, task, left, found, allowed⟩
    · cases allowed
  | _ => cases allowed

/-- A performance goes on with each step that may be done. -/
theorem performance {patient : Bool} {start last : World} {acts : List Act} {all : List Pool.Event}
    (performed : Performance patient (fun _ => none) start script world events)
    (went : perform patient acts script world events = some (last, all)) :
    Performance patient (fun _ => none) start (script ++ acts.filterMap command?) last all := by
  -- The induction takes the first step off, with which the performance so far goes on.
  induction acts generalizing script world events with
  | nil =>
    cases went
    rw [List.filterMap_nil, List.append_nil]
    exact performed
  | cons act acts ih =>
    obtain ⟨⟨next, new⟩, stepped, went⟩ := Option.bind_eq_some_iff.mp went
    have onward : Performance patient (fun _ => none) start (script ++ act.command?.toList) next
        (events ++ new) := by
      cases act with
      | issue caller command =>
        -- All calls have ended, and a patient performance puts tasks on an open queue only.
        simp only [step, Option.ite_none_right_eq_some, Bool.and_eq_true, List.all_eq_true,
          Bool.not_eq_true', Bool.and_eq_false_iff, Option.bind_eq_some_iff] at stepped
        obtain ⟨⟨ended, open_⟩, request, wanted, begun⟩ := stepped
        refine .issue performed (.inl ended) (fun waits pushing closed => ?_) wanted begun
        rcases open_ with (hurries | other) | open_
        · exact absurd (hurries.symm.trans waits) Bool.false_ne_true
        · exact absurd (other.symm.trans pushing) Bool.false_ne_true
        · exact absurd (open_.symm.trans closed) Bool.false_ne_true
      | release gates =>
        simp only [step, Option.ite_none_right_eq_some, List.all_eq_true,
          Bool.not_eq_true'] at stepped
        obtain ⟨still, same⟩ := stepped
        cases same
        rw [List.append_nil]
        exact .release gates performed still
      | move turn =>
        simp only [step, Option.ite_none_right_eq_some] at stepped
        rw [show (Act.move turn).command?.toList = [] from rfl, List.append_nil]
        exact .turn performed (scheduled_of_allows stepped.1) stepped.2
    have rest := ih onward went
    rw [List.append_assoc] at rest
    cases done : act.command? <;> simpa [done] using rest

end Act

/-- Whether a worker has ended, or waits at a gate that is shut, or is asleep. -/
def isStuck (gates : Gates) (world : World) (index : Nat) (worker : Worker) : Bool :=
  match worker.duty with
  | .gone _ => true
  | .working task (.await :: left) => !gates task left
  | .fetching => (⟨world.pool.number, .worker index⟩ : Thread) ∈ world.queue.asleep
  | _ => false

/-- Whether all calls have ended and all workers are stuck. -/
def isSettled (gates : Gates) (world : World) : Bool :=
  world.pool.callers.all Call.hasEnded &&
    world.pool.workers.zipIdx.all fun (worker, index) => isStuck gates world index worker

/-- Nothing moves where all calls have ended and all workers are stuck. -/
theorem settled_of_isSettled (still : isSettled gates world = true) :
    Settled refuse gates world := by
  -- A turn would be one of a call that has ended, of a worker that is stuck,
  -- or of a gate that is shut.
  simp only [isSettled, Bool.and_eq_true, List.all_eq_true, Prod.forall,
    List.mem_zipIdx_iff_getElem?] at still
  obtain ⟨ended, stuck⟩ := still
  intro turn scheduled
  cases turn with
  | caller index chance =>
    cases found : world.pool.callers[index]? with
    | none => simp [step, found]
    | some call =>
      have finished := ended call (List.mem_of_getElem? found)
      cases call <;> first | cases finished; done | simp [step, found, Call.step]
  | worker index chance =>
    cases found : world.pool.workers[index]? with
    | none => simp [step, found]
    | some worker =>
      have held := stuck worker index found
      obtain ⟨name, duty⟩ := worker
      cases duty with
      | gone broken => simp [step, found, Pool.work]
      | fetching =>
        have asleep : (⟨world.pool.number, .worker index⟩ : Thread) ∈ world.queue.asleep :=
          of_decide_eq_true held
        simp [step, found, Pool.work, asleep]
      | working task left =>
        cases left with
        | nil => cases held
        | cons action left =>
          cases action with
          | await => simp [step, found, Pool.work]
          | _ => cases held
      | _ => cases held
  | openGate index =>
    obtain ⟨name, task, left, found, open_⟩ := scheduled
    have held := stuck _ index found
    simp [isStuck, open_] at held
  | _ => exact scheduled.elim

/-- The gate of one task, known by its label. -/
def gateOf (label : Nat) : Gates := fun task _ =>
  match task.label with
  | .natural number => number = label
  | _ => false

/-- A task that waits at a gate before it comes to its end. -/
def gatedTask (label : Nat) (outcome : Outcome) : Task := .mk (.natural label) [.await] outcome

/--
Two workers get a task that goes on waiting, a task that fails, and a task that
breaks off behind a gate.
-/
def threeTasks : List Command :=
  [.start 2, .submit (gatedTask 1 .completed), .submit (briefTask 2 (.failed (.other "no"))),
    .submit (gatedTask 3 (.panicked .unreadable)), .release (gateOf 3)]

/-- So many steps of a caller, or of a worker. -/
def steps (turn : Turn) (count : Nat) : List Act := List.replicate count (.move turn)

/-- A step of a caller that wakes a worker. -/
def waking (worker : Nat) : Turn := .caller 0 { plain with woken := some ⟨0, .worker worker⟩ }

/--
All tasks are there and the gate is open before any worker begins, and then one
worker goes on after the other.
-/
def lateWorkers : List Act :=
  [.issue 0 (.start 2)] ++ steps (.caller 0 plain) 9 ++
  [.issue 0 (.submit (gatedTask 1 .completed))] ++ steps (.caller 0 plain) 3 ++
  [.issue 0 (.submit (briefTask 2 (.failed (.other "no"))))] ++ steps (.caller 0 plain) 3 ++
  [.issue 0 (.submit (gatedTask 3 (.panicked .unreadable)))] ++ steps (.caller 0 plain) 3 ++
  [.release (gateOf 3)] ++ steps (.worker 0 plain) 2 ++ steps (.worker 1 plain) 7 ++
  [.move (.openGate 1)] ++
  steps (.worker 1 plain) 5

/-- Both workers sleep before the first task comes, and the second of them is woken for it. -/
def earlyWorkers : List Act :=
  [.issue 0 (.start 2)] ++ steps (.caller 0 plain) 9 ++ steps (.worker 1 plain) 2 ++
  steps (.worker 0 plain) 2 ++
  [.issue 0 (.submit (gatedTask 1 .completed)), .move (.caller 0 plain), .move (waking 1),
    .move (.worker 1 plain), .move (.caller 0 plain)] ++
  [.issue 0 (.submit (briefTask 2 (.failed (.other "no")))), .move (.caller 0 plain),
    .move (waking 0), .move (.caller 0 plain)] ++
  [.issue 0 (.submit (gatedTask 3 (.panicked .unreadable)))] ++ steps (.worker 0 plain) 5 ++
  steps (.caller 0 plain) 3 ++ steps (.worker 0 plain) 1 ++
  [.release (gateOf 3), .move (.openGate 0)] ++
  steps (.worker 0 plain) 5

/--
In one performance the first worker ends nothing and in the other two tasks,
and all else is the same.
-/
theorem results_of_early_and_late_workers :
    ∃ first firstEvents second secondEvents,
      Performance true (fun _ => none) (fresh 0 .default .keepAll) threeTasks first firstEvents ∧
      Performance true (fun _ => none) (fresh 0 .default .keepAll) threeTasks second secondEvents ∧
      Settled (fun _ => none) (opened threeTasks) first ∧
        Settled (fun _ => none) (opened threeTasks) second ∧
      (endedBy 0 firstEvents).length = 0 ∧ (endedBy 0 secondEvents).length = 2 ∧
      (taken 0 firstEvents).length = 3 ∧ first.pool.tally.failed = 1 ∧
      taken 0 firstEvents = taken 0 secondEvents ∧
      first.pool.tally.failed = second.pool.tally.failed ∧
      (failureTexts firstEvents).Perm (failureTexts secondEvents) := by
  -- Both performances are evaluated once, with what is to be known about
  -- them, and then taken apart.
  have run : ((Act.perform true lateWorkers [] (fresh 0 .default .keepAll) []).bind
      fun (first, firstEvents) =>
      (Act.perform true earlyWorkers [] (fresh 0 .default .keepAll) []).map fun (second,
        secondEvents) =>
        (isSettled (opened threeTasks) first, isSettled (opened threeTasks) second,
          (endedBy 0 firstEvents).length, (endedBy 0 secondEvents).length,
          (taken 0 firstEvents).length, first.pool.tally.failed)) =
      some (true, true, 0, 2, 3, 1) := by
    decide +kernel
  simp only [Option.bind_eq_some_iff, Option.map_eq_some_iff, Prod.exists, Prod.mk.injEq] at run
  obtain ⟨first, firstEvents, went, second, secondEvents, wentToo, still, stillToo, none, two,
    three, failed⟩ := run
  have one : Performance true (fun _ => Option.none) (fresh 0 .default .keepAll) threeTasks first
      firstEvents :=
    Act.performance .nothing went
  have other : Performance true (fun _ => Option.none) (fresh 0 .default .keepAll) threeTasks second
      secondEvents :=
    Act.performance .nothing wentToo
  have settled : Settled (fun _ => Option.none) (opened threeTasks) first :=
    settled_of_isSettled still
  have settledToo : Settled (fun _ => Option.none) (opened threeTasks) second :=
    settled_of_isSettled stillToo
  have alone : IsPlain threeTasks := by
    rintro command member task puts
    simp only [threeTasks, List.mem_cons, List.not_mem_nil, or_false] at member
    rcases member with rfl | rfl | rfl | rfl | rfl <;> cases puts <;>
      exact ⟨by simp [gatedTask, briefTask, Task.actions], rfl⟩
  obtain ⟨begun, -, -, -, -, alike, -, -, -, -, -, texts⟩ :=
    results_do_not_depend_on_the_schedule (fun _ => rfl) alone one other settled settledToo
  exact ⟨first, firstEvents, second, secondEvents, one, other, settled, settledToo, none, two,
    three, failed, begun, alike, texts⟩

/-- The queue of a pool with one worker is closed, and then a task comes. -/
def lateTask : List Command := [.start 1, .close, .push (briefTask 1 .completed)]

/-- The worker looks at the closed queue before the task comes. -/
def keenWorker : List Act :=
  [.issue 0 (.start 1)] ++ steps (.caller 0 plain) 8 ++ [.issue 0 .close] ++
  steps (.caller 0 plain) 2 ++
  steps (.worker 0 plain) 3 ++ [.issue 0 (.push (briefTask 1 .completed))] ++
  steps (.caller 0 plain) 2

/-- The worker looks at the closed queue after the task has come. -/
def idleWorker : List Act :=
  [.issue 0 (.start 1)] ++ steps (.caller 0 plain) 8 ++ [.issue 0 .close] ++
  steps (.caller 0 plain) 2 ++
  [.issue 0 (.push (briefTask 1 .completed))] ++ steps (.caller 0 plain) 2 ++
  steps (.worker 0 plain) 8

/-- The one worker of a pool gets a task with some end, and another one. -/
def twoBriefTasks (outcome : Outcome) : List Command :=
  [.start 1, .submit (briefTask 1 outcome), .submit (briefTask 2 .completed)]

/-- Both tasks are there before the worker takes so many steps. -/
def briefWorker (outcome : Outcome) (count : Nat) : List Act :=
  [.issue 0 (.start 1)] ++ steps (.caller 0 plain) 8 ++
  [.issue 0 (.submit (briefTask 1 outcome))] ++
  steps (.caller 0 plain) 3 ++ [.issue 0 (.submit (briefTask 2 .completed))] ++
  steps (.caller 0 plain) 3 ++
  steps (.worker 0 plain) count

/--
Nothing moves any more at an open queue, no task is blocked, and still not all of them were begun.
-/
def FallsShort (script : List Command) (world : World) (events : List Pool.Event) : Prop :=
  Settled (fun _ => none) (opened script) world ∧ world.queue.closed = false ∧
    (pushedItems (queueEvents events)).countP (·.isBlocked (opened script)) <
    world.pool.workers.length ∧
    taken 0 events ≠ pushedItems (queueEvents events)

/-- Turns are no steps of a script. -/
theorem commands_steps (turn : Turn) (count : Nat) :
    (steps turn count).filterMap Act.command? = [] := by
  simp [steps, List.filterMap_replicate, Act.command?]

/--
A pool with one worker falls short of two tasks where the worker can go
no further and has begun only one.
-/
theorem fallsShort_of_brief {sink : Sink} {outcome : Outcome} (count : Nat)
    (run : (Act.perform true (briefWorker outcome count) [] (fresh 0 .default sink) []).map
      (fun run => (isSettled (opened (twoBriefTasks outcome)) run.1, run.1.queue.closed,
        [(pushedItems (queueEvents run.2)).countP (·.isBlocked (opened (twoBriefTasks outcome))),
          run.1.pool.workers.length, (taken 0 run.2).length,
          (pushedItems (queueEvents run.2)).length])) = some (true, false, [0, 1, 1, 2])) :
    ∃ world events, Performance true (fun _ => none) (fresh 0 .default sink) (twoBriefTasks outcome)
      world events ∧
      FallsShort (twoBriefTasks outcome) world events := by
  simp only [Option.map_eq_some_iff, Prod.exists, Prod.mk.injEq, List.cons.injEq, and_true] at run
  obtain ⟨world, events, went, still, open_, blocked, staff, begun, pushed⟩ := run
  have performed := Act.performance .nothing went
  -- The commands among the acts are the script, whatever the worker does between them.
  have script : (briefWorker outcome count).filterMap Act.command? = twoBriefTasks outcome := by
    simp [briefWorker, commands_steps, Act.command?, twoBriefTasks]
  rw [script, List.nil_append] at performed
  refine ⟨world, events, performed, settled_of_isSettled still, open_, by omega, fun same => ?_⟩
  rw [same, pushed] at begun
  cases begun

/--
What a script comes to depends on the order in which the workers go on, where a task is put on
the closed queue before they have left; and tasks that nothing blocks are not begun where the only
worker breaks off, with the end of a task or with a line about it.
-/
theorem results_depend_on_late_tasks_and_lost_workers :
    (∃ first firstEvents second secondEvents,
      Performance false (fun _ => none) (fresh 0 .default .keepAll) lateTask first firstEvents ∧
      Performance false (fun _ => none) (fresh 0 .default .keepAll) lateTask second secondEvents ∧
      Settled (fun _ => none) (opened lateTask) first ∧
        Settled (fun _ => none) (opened lateTask) second ∧
      taken 0 firstEvents ≠ taken 0 secondEvents ∧ first.queue.items ≠ second.queue.items ∧
      first.pool.tally.completed ≠ second.pool.tally.completed) ∧
    (∃ world events,
      Performance true (fun _ => none) (fresh 0 .default .keepAll)
        (twoBriefTasks (.panicked .volatile)) world events ∧
      FallsShort (twoBriefTasks (.panicked .volatile)) world events) ∧
    ∃ world events,
      Performance true (fun _ => none) (fresh 0 .default touchySink)
        (twoBriefTasks (.panicked (.message "no"))) world
        events ∧
      FallsShort (twoBriefTasks (.panicked (.message "no"))) world events := by
  refine ⟨?late, ?deadly, ?touchy⟩
  case late =>
    -- The queue is closed in both runs. In the first one the worker looks before the task is put,
    -- and in the second one afterwards.
    have run : ((Act.perform false keenWorker [] (fresh 0 .default .keepAll) []).bind
        fun (first, firstEvents) =>
        (Act.perform false idleWorker [] (fresh 0 .default .keepAll) []).map fun (second,
          secondEvents) =>
          (isSettled (opened lateTask) first, isSettled (opened lateTask) second,
            [(taken 0 firstEvents).length, (taken 0 secondEvents).length, first.queue.items.length,
              second.queue.items.length],
            first.pool.tally.completed, second.pool.tally.completed)) =
            some (true, true, [0, 1, 1, 0], 0, 1) := by
      decide +kernel
    simp only [Option.bind_eq_some_iff, Option.map_eq_some_iff, Prod.exists, Prod.mk.injEq,
      List.cons.injEq, and_true] at run
    obtain ⟨first, firstEvents, went, second, secondEvents, wentToo, still, stillToo,
      ⟨none, one, left, gone⟩, idle, done⟩ := run
    refine ⟨first, firstEvents, second, secondEvents, Act.performance .nothing went,
      Act.performance .nothing wentToo, settled_of_isSettled still, settled_of_isSettled stillToo,
      fun same => ?_, fun same => ?_, ?_⟩
    · rw [same, one] at none
      cases none
    · rw [same, gone] at left
      cases left
    · rw [idle, done]
      decide
  case deadly => exact fallsShort_of_brief 4 (by decide +kernel)
  case touchy => exact fallsShort_of_brief 5 (by decide +kernel)

end TaskPool.World
