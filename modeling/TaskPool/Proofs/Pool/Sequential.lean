import TaskPool.Proofs.Pool.Nested
import TaskPool.Proofs.Pool.Recast

/-!
A pool with one worker runs the tasks of its queue one after the other, in the order
in which they were put there.

Where nobody else takes tasks off the queue, what the worker has counted and reported is what
somebody would count and report who is handed the same tasks in that order.
-/

namespace TaskPool

open Queue (pushedItems pushedWhileOpen removals removedItems)

/-- Whether a call of the queue leaves the items there to others. -/
def Queue.Call.leavesItems {α : Type} : Queue.Call α → Bool
  | .popping | .trying | .clearing => false
  | _ => true

/-- A call that leaves the items to others does so to its end. -/
theorem Queue.Call.step_leavesItems {κ α : Type} [DecidableEq κ] {self : κ} {chosen : Option κ}
    {queue after : Queue κ α} {call onward : Queue.Call α} {told : List (Queue.Event κ α)}
    (leaves : call.leavesItems = true)
    (stepped : call.step self chosen queue = some (after, onward, told)) :
    onward.leavesItems = true ∧ removals told = [] := by
  -- What a step tells is known from the calls before and after it.
  have events := Queue.Call.step_told stepped
  cases call with
  | popping | trying | clearing => cases leaves
  | pushing item =>
    cases stepped
    exact ⟨rfl, rfl⟩
  | notifying =>
    cases chosen <;>
      simp only [step, Option.ite_none_right_eq_some, Option.some.injEq,
        Prod.mk.injEq] at stepped <;>
      obtain ⟨-, -, rfl, rfl⟩ := stepped <;> exact ⟨rfl, rfl⟩
  | closing | notifyingAll =>
    cases stepped
    exact ⟨rfl, rfl⟩
  | returned item => cases stepped

/-- The counters and the reports of somebody who is handed one task after the other. -/
structure Account where
  tally : Tally
  reports : List Line

namespace Account

/-- Nothing was handed over yet. -/
def blank : Account := ⟨.zero, []⟩

/-- One more task is counted by its outcome, and reported if that is bad. -/
def enter (name : String) (account : Account) (outcome : Outcome) : Account where
  tally :=
    match outcome with
    | .completed => { account.tally with completed := account.tally.completed + 1 }
    | .failed _ | .unspeakable => { account.tally with failed := account.tally.failed + 1 }
    | .panicked _ => { account.tally with panicked := account.tally.panicked + 1 }
  reports := account.reports ++ (outcome.line? name).toList

/-- An account counts as a worker does. -/
theorem enter_tally (name : String) (account : Account) (outcome : Outcome) :
    (account.enter name outcome).tally = account.tally.add outcome.tick := by
  cases outcome <;> rfl

/-- The account of one who was handed tasks that ended in some ways, in this order. -/
def ofOutcomes (name : String) (outcomes : List Outcome) : Account :=
  outcomes.foldl (enter name) blank

/-- One task more is entered behind all others. -/
theorem ofOutcomes_concat (name : String) (outcomes : List Outcome) (outcome : Outcome) :
    ofOutcomes name (outcomes ++ [outcome]) = (ofOutcomes name outcomes).enter name outcome := by
  rw [ofOutcomes, List.foldl_append]
  rfl

/-- What is reported of some tasks is one line for each that came to a bad end. -/
theorem reports_eq (name : String) (ends : List (Task × Outcome)) :
    (ofOutcomes name (ends.map (·.2))).reports = ends.filterMap fun entry =>
      entry.2.line? name := by
  -- The induction takes the last task off.
  induction ends using List.reverseRecOn with
  | nil => rfl
  | append_singleton ends entry ih =>
    rw [List.map_append, List.map_singleton, ofOutcomes_concat, List.filterMap_append, ← ih]
    show _ ++ (entry.2.line? name).toList = _
    cases line : entry.2.line? name <;> simp [line]

/-- Each counter is the number of tasks that ended in its way. -/
theorem counter_eq (name : String) (outcomes : List Outcome) (outcome : Outcome) :
    (ofOutcomes name outcomes).tally.counter outcome =
      UInt64.ofNat (outcomes.countP (·.tick = outcome.tick)) := by
  induction outcomes using List.reverseRecOn with
  | nil => cases outcome <;> rfl
  | append_singleton outcomes last ih =>
    rw [ofOutcomes_concat, enter_tally, Pool.Tally.counter_add, ih, List.countP_append,
      UInt64.ofNat_add]

end Account

/-- Counters are the same if the three for outcomes are, and the time. -/
theorem Tally.eq_of_counters {tally other : Tally}
    (counters : ∀ outcome, tally.counter outcome = other.counter outcome)
    (micros : tally.micros = other.micros) : tally = other := by
  -- Each of the three counters belongs to one kind of outcome.
  have completed : tally.completed = other.completed := counters .completed
  have failed : tally.failed = other.failed := counters (.failed (.other ""))
  have panicked : tally.panicked = other.panicked := counters (.panicked .unreadable)
  cases tally
  cases other
  simp_all

/-- Whether a worker is not between taking a task and having reported it. -/
def Duty.isFree : Duty → Bool
  | .working .. | .counting .. | .reporting _ => false
  | _ => true

/-- A worker that is free has no task in its hand, none to count and none to report. -/
theorem Duty.free {duty : Duty} (free : duty.isFree = true) : duty.inHand = [] ∧ duty.due = [] := by
  cases duty <;> first | exact ⟨rfl, rfl⟩ | cases free

namespace Pool

/-- Whether a call leaves the items on the queue to others. -/
def Call.leavesItems : Call → Bool
  | .queue call | .submit call => call.leavesItems
  | _ => true

variable {queue after : Queue Thread Task} {pool next : Pool} {events : List Event}

/-- A caller that leaves the items to others goes on doing so, and takes none. -/
theorem Call.step_leavesItems {call later : Call} {caller : Nat} {chance : Chance}
    (leaves : call.leavesItems = true)
    (stepped : call.step queue pool caller chance = some (after, next, later, events)) :
    later.leavesItems = true ∧ removals (queueEvents events) = [] := by
  have telling {message : Message} {onward : Call}
      (tells : Telling pool caller message onward next later events)
      (meant : onward.leavesItems = true) :
      later.leavesItems = true ∧ removals (queueEvents events) = [] := by
    -- A message is nothing that happens at the queue, and a call that breaks off takes nothing.
    refine ⟨?_, by rw [tells.events_eq, queueEvents_kept]; rfl⟩
    cases tells with
    | told => exact meant
    | failed => rfl
  cases Call.step_eq_some_iff.mp stepped with
  | @queue own onward after told moved =>
    obtain ⟨still, none⟩ := Queue.Call.step_leavesItems leaves moved
    rw [queueEvents_map]
    exact ⟨by cases onward <;> first | rfl | exact still, none⟩
  | push => exact ⟨rfl, rfl⟩
  | hand put moved =>
    obtain ⟨still, none⟩ := Queue.Call.step_leavesItems leaves moved
    rw [queueEvents_map]
    exact ⟨still, none⟩
  | count => exact ⟨rfl, rfl⟩
  | start move =>
    cases move with
    | refuse tells | announce tells | lament tells => exact telling tells rfl
    | _ => exact ⟨rfl, rfl⟩
  | stop move =>
    cases move with
    | announce tells | warn tells | part tells | lament tells => exact telling tells rfl
    | _ => exact ⟨rfl, rfl⟩
  | observe free => exact ⟨rfl, rfl⟩

/-- What a worker takes off the queue it takes as a worker of its pool. -/
theorem work_taken {index : Nat} {name : String} {micros : UInt64} {duty later : Duty}
    (worked : pool.work queue index name micros duty = some (after, next, later, events)) :
    taken pool.number events = removedItems (queueEvents events) := by
  -- Only a worker that looks at the queue does anything there.
  have aside {message : Message} : taken pool.number (pool.kept (.worker index) message) =
      removedItems (queueEvents (pool.kept (.worker index) message)) := by
    rw [taken, queueEvents_kept]
    rfl
  cases duty with
  | opening | closing =>
    cases worked
    exact aside
  | fetching =>
    obtain ⟨-, met, -, -, -, rfl⟩ := work_fetching_iff.mp worked
    cases met <;>
      simp [taken, queueEvents, Queue.Met.events, removals, Queue.Event.removals,
        byWorker, removedItems]
  | working task left =>
    cases left with
    | nil =>
      cases worked
      rfl
    | cons action left => cases action <;> cases worked <;> rfl
  | counting task outcome | timing =>
    cases worked
    rfl
  | reporting failure =>
    cases failure with
    | none =>
      cases worked
      rfl
    | some failure =>
      cases worked
      exact aside
  | gone broken => cases worked

end Pool

namespace World

open Pool (Diaries Hears Mild said endsOf endings taken queueEvents)

variable {world next : World} {events more : List Pool.Event}

/--
Whether a turn leaves the items on the queue to the workers: nobody begins to take any from outside.
-/
def Turn.leavesItems : Turn → Bool
  | .begin _ request => request.call.leavesItems
  | _ => true

/--
Nobody from outside is about to take items off the queue, and all that have left
it were taken by workers.
-/
structure Alone (world : World) (events : List Pool.Event) : Prop where
  -- A call goes on over many turns, so it counts what is under way and not only what begins.
  callers : ∀ call ∈ world.pool.callers, call.leavesItems = true
  own : taken world.pool.number events = removedItems (queueEvents events)

/-- What happens beside the workers takes nothing off the queue. -/
theorem Alone.aside (alone : Alone world events) (none : removals (queueEvents more) = [])
    (number : next.pool.number = world.pool.number)
    (callers : ∀ call ∈ next.pool.callers, call.leavesItems = true) :
    Alone next (events ++ more) := by
  refine ⟨callers, ?_⟩
  have nothing : taken world.pool.number more = [] := by rw [Pool.taken, none]; rfl
  rw [number, Pool.taken_append, nothing, alone.own, Pool.queueEvents_append,
    Queue.removedItems_append]
  rw [removedItems, removedItems, none]
  rfl

/-- A turn at which nobody begins to take items from outside leaves them to the workers. -/
theorem step_alone {turn : Turn} (leaves : turn.leavesItems = true) (alone : Alone world events)
    (stepped : world.step turn = some (next, more)) :
    Alone next (events ++ more) ∧ next.pool.number = world.pool.number := by
  cases turn with
  | begin caller request =>
    obtain ⟨rfl, callers, rfl, added⟩ := step_begin stepped
    refine ⟨alone.aside rfl rfl fun call member => ?_, rfl⟩
    -- The only new call is the one that begins.
    have either : call ∈ world.pool.callers ∨ call = request.call := by
      rcases added with rfl | ⟨_, -, -, rfl⟩
      · simpa using member
      · exact List.mem_or_eq_of_mem_set member
    rcases either with old | rfl
    · exact alone.callers call old
    · exact leaves
  | caller index chance =>
    obtain ⟨call, queue, pool, later, found, moved, rfl⟩ := step_caller.mp stepped
    have visit := Pool.Call.step_visit moved
    obtain ⟨still, none⟩ :=
      Pool.Call.step_leavesItems (alone.callers call (List.mem_of_getElem? found)) moved
    refine ⟨alone.aside none visit.number fun known member => ?_, visit.number⟩
    rcases List.mem_or_eq_of_mem_set (l := pool.callers) member with old | rfl
    · exact alone.callers known (visit.callers ▸ old)
    · exact still
  | worker index chance =>
    obtain ⟨name, duty, queue, pool, later, found, moved, rfl⟩ := step_worker.mp stepped
    have same := (Pool.work_progress moved).same
    have number : pool.number = world.pool.number := by rw [same]
    have callers : pool.callers = world.pool.callers := by rw [same]
    refine ⟨⟨fun call member => alone.callers call (callers ▸ member), ?_⟩, number⟩
    show taken pool.number (events ++ more) = removedItems (queueEvents (events ++ more))
    rw [number, Pool.taken_append, Pool.queueEvents_append, Queue.removedItems_append, alone.own,
      Pool.work_taken moved]
  | openGate index =>
    obtain ⟨rfl, name, task, left, found, rfl⟩ := step_openGate stepped
    exact ⟨alone.aside rfl rfl alone.callers, rfl⟩
  | resume index broken =>
    obtain ⟨name, task, request, left, later, found, rfl, moved⟩ := step_resume stepped
    refine ⟨alone.aside ?_ rfl alone.callers, rfl⟩
    rcases moved with ⟨-, rfl⟩ | ⟨text, -, rfl⟩ <;> rfl
  | refilter filter =>
    cases stepped
    exact ⟨alone.aside rfl rfl alone.callers, rfl⟩

/--
Where there is at most one worker, it has ended what it took, in that order,
but for what is in its hand.
-/
def OneHand (world : World) (events : List Pool.Event) : Prop :=
  world.pool.workers.length ≤ 1 →
    taken world.pool.number events = (endings events).map (·.1) ++ world.pool.workers.flatMap
      (·.duty.inHand)

/--
A worker that goes on where there is no other one takes tasks into its hand,
and ends the one that is there.
-/
theorem OneHand.progress {index : Nat} {name : String} {duty later : Duty}
    {queue after : Queue Thread Task} {pool : Pool} (held : OneHand world events)
    (found : world.pool.workers[index]? = some ⟨name, duty⟩)
    (progress : Pool.Progress queue world.pool duty after pool later more) :
    OneHand ⟨after, setWorker pool index ⟨name, later⟩⟩ (events ++ more) := by
  have number : pool.number = world.pool.number := by rw [progress.same]
  have workers : pool.workers = world.pool.workers := by rw [progress.same]
  show (pool.workers.set index ⟨name, later⟩).length ≤ 1 → taken pool.number (events ++ more) =
    (endings (events ++ more)).map (·.1) ++ (pool.workers.set index ⟨name, later⟩).flatMap
      (·.duty.inHand)
  rw [workers, List.length_set]
  intro few
  have own := held few
  -- The worker that goes on is the only one there is.
  obtain ⟨within, here⟩ := List.getElem?_eq_some_iff.mp found
  obtain ⟨worker, single⟩ := List.length_eq_one_iff.mp (Nat.le_antisymm few (by omega))
  simp only [single, List.length_singleton, Nat.lt_one_iff] at within
  subst within
  simp only [single, List.getElem_singleton] at here
  subst here
  simp only [single, List.flatMap_singleton] at own
  rw [single, List.set_cons_zero, List.flatMap_singleton, number, Pool.taken_append, own,
    List.append_assoc, progress.hand, Pool.endings_append, List.map_append, List.append_assoc]

/-- Every turn keeps the one hand. -/
theorem step_oneHand {turn : Turn} (held : OneHand world events)
    (stepped : world.step turn = some (next, more)) :
    OneHand next (events ++ more) := by
  cases turn with
  | begin caller request =>
    obtain ⟨rfl, callers, rfl, -⟩ := step_begin stepped
    rw [List.append_nil]
    exact held
  | caller index chance =>
    obtain ⟨call, queue, pool, later, found, moved, rfl⟩ := step_caller.mp stepped
    have visit := Pool.Call.step_visit moved
    show pool.workers.length ≤ 1 → taken pool.number (events ++ more) =
      (endings (events ++ more)).map (·.1) ++ pool.workers.flatMap (·.duty.inHand)
    intro few
    -- A worker that is new has nothing in its hand, and there was none before it.
    have hands : world.pool.workers.length ≤ 1 ∧
        pool.workers.flatMap (·.duty.inHand) = world.pool.workers.flatMap (·.duty.inHand) := by
      rcases visit.workers with same | ⟨name, hired⟩
      · rw [← same]
        exact ⟨few, rfl⟩
      · rw [hired, List.length_append] at few
        rw [hired, List.flatMap_append]
        exact ⟨by omega, List.append_nil _⟩
    rw [visit.number, Pool.taken_append, Pool.taken_eq_nil visit.got, Pool.endings_append,
      (Pool.Call.step_submission moved).ended, hands.2, List.append_nil, List.append_nil]
    exact held hands.1
  | worker index chance =>
    obtain ⟨name, duty, queue, pool, later, found, moved, rfl⟩ := step_worker.mp stepped
    exact held.progress found (Pool.work_progress moved)
  | openGate index =>
    obtain ⟨rfl, name, task, left, found, rfl⟩ := step_openGate stepped
    exact held.progress found .further
  | resume index broken =>
    obtain ⟨name, task, request, left, later, found, rfl, moved⟩ := step_resume stepped
    exact held.progress found (resume_progress moved)
  | refilter filter =>
    cases stepped
    rw [List.append_nil]
    exact held

/-- Where there is at most one worker, nobody but the first one has ended anything. -/
theorem endsOf_first {wanted : Message → Bool} (diaries : Diaries wanted world.pool.workers events)
    (few : world.pool.workers.length ≤ 1) : endsOf 0 events = endings events := by
  -- An end of another worker would be in a diary that nobody keeps.
  have first : ∀ execution ∈ Pool.executions events, execution.1 = 0 := by
    intro execution member
    by_contra apart
    have none := (diaries.absent execution.1 (by omega)).2
    have there : execution.2 ∈ endsOf execution.1 events :=
      List.mem_filterMap.mpr ⟨execution, member, if_pos rfl⟩
    rw [none] at there
    cases there
  rw [endsOf, ← Pool.executions_ends, ← List.filterMap_eq_map]
  exact List.filterMap_congr fun execution member => if_pos (first execution member)

/-- A worker that is free has told of all tasks that it has ended, if errors are kept. -/
theorem errors_eq {name : String} (diaries : Diaries Message.isError world.pool.workers events)
    (few : world.pool.workers.length ≤ 1)
    (free : ∀ worker ∈ world.pool.workers, worker.name = name ∧ worker.duty.isFree = true) :
    (said 0 events).filter Message.isError = troubles name (endings events) := by
  rw [← endsOf_first diaries few]
  cases found : world.pool.workers[0]? with
  | none =>
    -- Without a worker nothing was told and nothing has ended.
    obtain ⟨silent, idle⟩ := diaries.absent 0 (List.getElem?_eq_none_iff.mp found)
    rw [silent, idle]
    rfl
  | some worker =>
    obtain ⟨known, duty⟩ := worker
    obtain ⟨rfl, rests⟩ := free _ (List.mem_of_getElem? found)
    have told := diaries.errors found
    -- Nothing is pending but what is no error.
    have pending : (duty.pending known).filter Message.isError = [] := by
      cases duty <;> first | rfl | cases rests
    rw [List.filter_append, pending, List.append_nil] at told
    exact told

/--
Where no worker is about to count a task, the counters are those of an account
of all tasks that have ended.
-/
theorem tally_eq {number : Nat} {queue : Queue Thread Task} {pool : Pool}
    (balanced : Pool.Balanced number queue pool events)
    (free : ∀ worker ∈ pool.workers, worker.duty.isFree = true) (name : String) :
    pool.tally =
      { (Account.ofOutcomes name ((endings events).map (·.2))).tally with micros :=
        pool.tally.micros } := by
  -- Both count the ends by their outcomes, one in the order of the queue.
  refine Tally.eq_of_counters (fun outcome => ?_) rfl
  calc pool.tally.counter outcome
      = UInt64.ofNat (((endings events).map (·.2)).countP (·.tick = outcome.tick)) :=
        balanced.counter_eq (fun worker member => (Duty.free (free worker member)).2) outcome
    _ = (Account.ofOutcomes name ((endings events).map (·.2))).tally.counter outcome :=
        (Account.counter_eq name _ outcome).symm
    _ = _ := by cases outcome <;> rfl

/--
A pool has at most one worker so far, and nobody from outside begins to take tasks off its queue.

Then the tasks that were begun are the first of those that were put on the queue; they have ended,
in that order, but for at most one that is in hand; and each has ended with its own outcome
or with a call that it made. While the worker is not between taking a task and having reported it,
all that were begun have ended, and the counters and the errors that the worker has told,
if the sink keeps errors, are the account of somebody who was handed them in that order.
Once a stop has returned from the pool that was stopped, whose sink fails nobody,
and if there was a worker and no task came to a deadly end, what has ended goes at least as far as
what was put on the queue before it was first closed.
-/
theorem one_worker_interprets_its_queue {number : Nat} {settings : Settings} {sink : Sink}
    {turns : List Turn} (leaves : ∀ turn ∈ turns, turn.leavesItems = true)
    (ran : runOf step (fresh number settings sink) turns = some (world, events))
    (few : world.pool.workers.length ≤ 1) :
    taken number events <+: pushedItems (queueEvents events) ∧
    taken number events = (endings events).map (·.1) ++ world.pool.workers.flatMap (·.duty.inHand) ∧
    (world.pool.workers.flatMap (·.duty.inHand)).length ≤ 1 ∧
    (∀ entry ∈ endings events, entry.1.EndsWith entry.2) ∧
    (∀ name, (∀ worker ∈ world.pool.workers, worker.name = name ∧ worker.duty.isFree = true) →
      taken number events = (endings events).map (·.1) ∧
      world.pool.tally =
        { (Account.ofOutcomes name ((endings events).map (·.2))).tally with micros :=
          world.pool.tally.micros } ∧
      (sink.filter.admits .error = true → (∀ filter, .refilter filter ∈ turns →
        filter.admits .error = true) →
        ((said 0 events).filter Message.isError).map Message.line =
          (Account.ofOutcomes name ((endings events).map (·.2))).reports)) ∧
    (∀ early late caller chance before told, turns = early ++ .caller caller chance :: late →
      runOf step (fresh number settings sink) early = some (before, told) →
      before.pool.callers[caller]? = some (.stop .unlocking) → before.pool.stopped = true →
      (∀ message : Message, sink.failsAt message.line = false) → Mild events →
      world.pool.workers ≠ [] →
      pushedWhileOpen (queueEvents events) <+: (endings events).map (·.1)) := by
  have balanced := run_balanced ran
  -- Two invariants say who takes tasks and in which order they end.
  obtain ⟨⟨alone, rfl⟩, held⟩ := run_invariant_among (·.leavesItems = true)
    (fun world events => (Alone world events ∧ world.pool.number = number) ∧ OneHand world events)
    ⟨⟨⟨List.forall_mem_nil _, rfl⟩, rfl⟩, fun _ => rfl⟩
    (fun world events turn next new leaves held stepped =>
      have ⟨alone, number⟩ := step_alone leaves held.1.1 stepped
      ⟨⟨alone, number.trans held.1.2⟩, step_oneHand held.2 stepped⟩)
    leaves ran
  have ended := held few
  have ledger := balanced.ledger
  rw [← alone.own] at ledger
  refine ⟨ledger ▸ List.prefix_append .., ended, ?_, balanced.ends,
    fun name free => ⟨?_, ?_, fun keeps heeds => ?_⟩, ?_⟩
  · -- One worker has at most one task in its hand.
    rcases workers : world.pool.workers with _ | ⟨worker, _ | ⟨other, rest⟩⟩
    · exact Nat.zero_le 1
    · rw [List.flatMap_singleton]
      cases worker.duty <;> simp [Duty.inHand]
    · simp [workers] at few
  · have hands : world.pool.workers.flatMap (·.duty.inHand) = [] :=
      List.flatMap_eq_nil_iff.mpr fun worker member => (Duty.free (free worker member).2).1
    rw [ended, hands, List.append_nil]
  · exact tally_eq balanced (fun worker member => (free worker member).2) name
  · -- Errors are kept throughout, so the diary of the worker has all of them.
    rw [Account.reports_eq, errors_eq (run_errors keeps heeds ran) few free]
    exact lines_troubles name (endings events)
  · intro early late caller chance before told same began returning stopped quiet mild staffed
    subst same
    obtain ⟨middle, first, more, reached, went, rfl⟩ := runOf_append.mp ran
    obtain ⟨rfl, rfl⟩ : before = middle ∧ told = first := by
      rw [began] at reached
      cases reached
      exact ⟨rfl, rfl⟩
    obtain ⟨books, -, well⟩ := gone_of_return quiet began returning stopped went
    have gone : ∀ worker ∈ world.pool.workers, worker.duty = .gone false := by
      intro worker member
      obtain ⟨index, found⟩ := List.getElem?_of_mem member
      exact well index worker found (mild.spares index)
    -- The worker has left the queue closed and empty, and has nothing in its hand.
    obtain ⟨worker, member⟩ := List.exists_mem_of_ne_nil _ staffed
    obtain ⟨-, fewer⟩ := books.left worker member (by rw [gone worker member]; rfl)
    have hands : world.pool.workers.flatMap (·.duty.inHand) = [] :=
      List.flatMap_eq_nil_iff.mpr fun worker member => by rw [gone worker member]; rfl
    rw [hands, List.append_nil] at ended
    rw [← alone.own, ended] at fewer
    rw [ended] at ledger
    exact List.prefix_of_prefix_length_le (Queue.pushedWhileOpen_prefix _)
      (ledger ▸ List.prefix_append ..) fewer

/--
The one worker of a stop that gave up its wait has run both tasks in the order of the
queue, and counted them so.
-/
theorem hurried_stop_keeps_the_order :
    ∃ before told world events,
      runOf step (fresh 0 .default .keepAll) hurriedStop = some (before, told) ∧
      before.pool.callers[0]? = some (.stop .unlocking) ∧ before.pool.stopped = true ∧
      runOf step (fresh 0 .default .keepAll) (hurriedStop ++ [.caller 0 hasty]) =
      some (world, events) ∧
      world.pool.workers.length = 1 ∧ (endings events).length = 2 ∧
      world.pool.tally =
        { (Account.ofOutcomes "Worker 0" ((endings events).map (·.2))).tally with
          micros := world.pool.tally.micros } ∧
      ((said 0 events).filter Message.isError).map Message.line =
        (Account.ofOutcomes "Worker 0" ((endings events).map (·.2))).reports ∧
      pushedWhileOpen (queueEvents events) <+: (endings events).map (·.1) := by
  -- The run is evaluated up to the return of the stop, and once more with it.
  have run : ((runOf step (fresh 0 .default .keepAll) hurriedStop).bind fun run =>
      (runOf step (fresh 0 .default .keepAll) (hurriedStop ++ [.caller 0 hasty])).map fun went =>
        ((run.1.pool.callers[0]?).any isUnlocking, run.1.pool.stopped, went.1.pool.workers.length,
          went.1.pool.workers.all (fun worker => worker.name = "Worker 0" ∧
            worker.duty.isFree = true),
          went.2.all Pool.Event.isMild, (endings went.2).length)) =
          some (true, true, 1, true, true, 2) := by
    decide +kernel
  simp only [Option.bind_eq_some_iff, Option.map_eq_some_iff, Prod.exists, Prod.mk.injEq,
    Option.any_eq_true] at run
  obtain ⟨before, told, ran, world, events, went, ⟨call, found, same⟩, stopped, one, free,
    mild, ended⟩ := run
  have returning : before.pool.callers[0]? = some (.stop .unlocking) :=
    eq_of_isUnlocking same ▸ found
  have staffed : world.pool.workers ≠ [] := List.ne_nil_of_length_pos (by omega)
  obtain ⟨-, -, -, -, account, whole⟩ := one_worker_interprets_its_queue (by decide) went one.le
  obtain ⟨-, tally, errors⟩ := account "Worker 0" (by simpa using free)
  refine ⟨before, told, world, events, ran, returning, stopped, went, one, ended, tally, ?_, ?_⟩
  · exact errors rfl fun filter member => by simp [hurriedStop] at member
  · exact whole hurriedStop [] 0 hasty before told rfl ran returning stopped (fun _ => rfl)
      (List.all_eq_true.mp mild) staffed

/--
The one worker of a pool that breaks off has run less than what came in time.

It breaks off where the first task leaves something behind that cannot be thrown away,
and where the sink fails it while it tells of that task.
-/
theorem broken_worker_leaves_the_fold_short :
    (∃ world events,
      runOf step (fresh 0 .default .keepAll) (bereavedStop (.panicked .volatile) 4) =
      some (world, events) ∧
      strandsOne world events = true ∧ ¬ pushedWhileOpen (queueEvents events) <+:
      (endings events).map (·.1)) ∧
    ∃ world events,
      runOf step (fresh 0 .default touchySink) (bereavedStop (.panicked (.message "no")) 5) =
      some (world, events) ∧
      strandsOne world events = true ∧ ¬ pushedWhileOpen (queueEvents events) <+:
      (endings events).map (·.1) := by
  -- Of the two tasks only one has ended.
  have short {sink : Sink} {turns : List Turn}
      (run : (runOf step (fresh 0 .default sink) turns).map (fun run =>
        (strandsOne run.1 run.2, ((endings run.2).map (·.1)).length)) = some (true, 1)) :
      ∃ world events, runOf step (fresh 0 .default sink) turns = some (world, events) ∧
        strandsOne world events = true ∧
        ¬ pushedWhileOpen (queueEvents events) <+: (endings events).map (·.1) := by
    simp only [Option.map_eq_some_iff, Prod.exists, Prod.mk.injEq] at run
    obtain ⟨world, events, ran, strands, one⟩ := run
    exact ⟨world, events, ran, strands, not_prefix_of_strandsOne strands one⟩
  exact ⟨short (by decide +kernel), short (by decide +kernel)⟩

end World

end TaskPool
