import TaskPool.Proofs.Exchange
import TaskPool.Proofs.Pool.Books
import TaskPool.Proofs.Queue.Wakeup

/-!
Tasks are conserved: each one that was put on the queue is there still, or in the hand of a worker,
or counted, or was given to somebody else, or discarded.

Nothing is assumed of the sink, since a worker that breaks off with
a message has nothing in its hand.
-/

namespace TaskPool

open Queue (Contents pushedItems removals removedItems)

/-- The counter that goes up for a task that ended in some way. -/
def Tally.counter (tally : Tally) : Outcome → UInt64
  | .completed => tally.completed
  | .failed _ | .unspeakable => tally.failed
  | .panicked _ => tally.panicked

/-- The task that a worker has taken and has not counted. -/
def Duty.uncounted : Duty → List Task
  | .working task _ | .counting task _ => [task]
  | _ => []

/-- The end of a task that a worker has seen and has not counted. -/
def Duty.due : Duty → List Outcome
  | .counting _ outcome => [outcome]
  | _ => []

/-- Whether a task may end like this: with its own outcome, or together with a call that it made. -/
def Task.EndsWith (task : Task) (outcome : Outcome) : Prop :=
  outcome = task.outcome ∨
    ∃ request text, .ask request ∈ task.actions ∧ outcome = .panicked (.message text)

/--
What has already been done of the task that a worker runs, and what is left, make up the task.
-/
def Duty.OnTrack : Duty → Prop
  | .working task left => left <:+ task.actions
  | _ => True

namespace Pool

/-- Whether a task was taken by a worker of the pool with a number. -/
def byWorker (number : Nat) : Option Thread → Bool
  | some ⟨pool, .worker _⟩ => pool = number
  | _ => false

/-- The tasks that the workers of the pool with a number have taken. -/
def taken (number : Nat) (events : List Event) : List Task :=
  ((removals (queueEvents events)).filter fun entry => byWorker number entry.1).map (·.2)

/-- The tasks that were given to somebody who is no worker of the pool with a number. -/
def givenAway (number : Nat) (events : List Event) : List Task :=
  ((removals (queueEvents events)).filter fun entry =>
    entry.1.isSome && !byWorker number entry.1).map (·.2)

/-- The tasks that were discarded. -/
def discarded (events : List Event) : List Task :=
  ((removals (queueEvents events)).filter fun entry => entry.1.isNone).map (·.2)

/-- The tasks that have come to an end, each with its outcome. -/
def endings (events : List Event) : List (Task × Outcome) :=
  events.filterMap fun
    | .ended _ task outcome => some (task, outcome)
    | _ => none

/-- The tasks that were put on the queue through the pool. -/
def submittedTasks (events : List Event) : List Task :=
  events.filterMap fun
    | .submitted _ task => some task
    | _ => none

/-- Whether a call has put a task on the queue through the pool and has not counted it. -/
def Call.owesCount : Call → Bool
  | .submit (.pushing _) => false
  | .submit _ => true
  | _ => false

/-- What left the queue was taken by workers, or given to others, or discarded. -/
theorem removed_length (number : Nat) (events : List Event) :
    (removedItems (queueEvents events)).length =
      (taken number events).length + (givenAway number events).length +
      (discarded events).length := by
  simp only [removedItems, taken, givenAway, discarded, List.length_map]
  -- The induction sorts one removal after the other, by who took it.
  induction removals (queueEvents events) with
  | nil => rfl
  | cons entry rest ih =>
    obtain ⟨taker, task⟩ := entry
    cases taker with
    | none => simp [byWorker, ih]; omega
    | some thread => cases own : byWorker number (some thread) <;> simp [own, ih] <;> omega

theorem taken_append (number : Nat) (events more : List Event) :
    taken number (events ++ more) = taken number events ++ taken number more := by
  simp [taken, queueEvents_append, Queue.removals_append]

theorem endings_append (events more : List Event) :
    endings (events ++ more) = endings events ++ endings more :=
  List.filterMap_append

theorem submittedTasks_append (events more : List Event) :
    submittedTasks (events ++ more) = submittedTasks events ++ submittedTasks more :=
      List.filterMap_append

/-- Nobody has taken anything where no worker has got anything. -/
theorem taken_eq_nil {number : Nat} {events : List Event}
    (got : ∀ index, Queue.gotBy ⟨number, .worker index⟩ (queueEvents events) = []) :
    taken number events = [] := by
  -- A task that was taken was got by the worker that took it.
  refine List.map_eq_nil_iff.mpr (List.filter_eq_nil_iff.mpr ?_)
  rintro ⟨taker, task⟩ member own
  match taker with
  | some ⟨pool, .worker index⟩ =>
    obtain rfl : pool = number := by simpa [byWorker] using own
    have found : task ∈ Queue.gotBy ⟨pool, .worker index⟩ (queueEvents events) :=
      List.mem_filterMap.mpr ⟨_, member, if_pos rfl⟩
    rw [got index] at found
    cases found
  | some ⟨_, .caller _⟩ => simp [byWorker] at own
  | none => simp [byWorker] at own

/-- A message neither takes a task nor ends nor submits one. -/
theorem kept_counts_nothing (pool : Pool) (number : Nat) (seat : Seat) (message : Message) :
    taken number (pool.kept seat message) = [] ∧ endings (pool.kept seat message) = [] ∧
      submittedTasks (pool.kept seat message) = [] := by
  unfold kept
  split <;> exact ⟨rfl, rfl, rfl⟩

/-- What happens at the queue neither ends a task nor submits one. -/
theorem map_counts_nothing (told : List (Queue.Event Thread Task)) :
    endings (told.map .queue) = [] ∧ submittedTasks (told.map .queue) = [] := by
  simp [endings, submittedTasks, List.filterMap_map]

variable {queue after : Queue Thread Task} {pool next : Pool} {events : List Event}

/-- What the step of a caller does to the count of what was submitted. -/
structure Submission (pool : Pool) (call : Call) (next : Pool) (later : Call)
    (events : List Event) : Prop where
  tally : next.tally = pool.tally := by rfl
  ended : endings events = [] := by rfl
  pushed : (submittedTasks events).Sublist (pushedItems (queueEvents events)) := by
    exact List.nil_sublist _
  /-- What is owed is counted at once, or it is owed still. -/
  count : ∃ counted, next.submitted = pool.submitted + UInt64.ofNat counted ∧
    call.owesCount.toNat + (submittedTasks events).length = later.owesCount.toNat + counted := by
      exact ⟨0, (UInt64.add_zero _).symm, rfl⟩

/-- Telling a message submits nothing, also where the caller breaks off. -/
theorem Submission.tell {caller : Nat} {message : Message} {before onward call : Call}
    (idle : before.owesCount = false ∧ onward.owesCount = false)
    (told : pool.tell caller message onward = (next, call, events)) :
    Submission pool before next call events := by
  have nothing := kept_counts_nothing pool 0 (.caller caller) message
  unfold Pool.tell at told
  split at told <;> cases told
  · refine { ended := nothing.2.1, pushed := by simp [nothing], count :=
      ⟨0, by simp [release], ?_⟩ }
    rw [idle.1, nothing.2.2]
    rfl
  · refine { ended := nothing.2.1, pushed := by simp [nothing], count := ⟨0, by simp, ?_⟩ }
    rw [idle.1, idle.2, nothing.2.2]
    rfl

/-- A start submits nothing. -/
theorem Starting.step_submission {phase : Starting} {caller count : Nat} {refusal : Option Trouble}
    {call : Call} (stepped : phase.step pool caller count refusal = some (next, call, events)) :
    Submission pool (.start count phase) next call events := by
  -- Of the phases, only those that tell something have any events.
  cases phase with
  | refusing | announcing | lamenting => exact .tell ⟨rfl, rfl⟩ (Option.some.inj stepped)
  | checking | unlocking =>
    cases stepped
    exact {}
  | locking | claiming =>
    simp only [step] at stepped
    split at stepped <;> cases stepped
    all_goals exact {}
  | reserving =>
    simp only [step] at stepped
    split at stepped
    · split at stepped <;> cases stepped <;> exact {}
    · cases stepped
  | creating index =>
    simp only [step, create] at stepped
    split at stepped
    · split at stepped <;> cases stepped <;> exact {}
    · cases stepped
      exact {}

/-- A stop submits nothing. -/
theorem Stopping.step_submission {phase : Stopping} {caller worker : Nat} {timeUp : Bool}
    {call : Call}
    (stepped : phase.step queue pool caller timeUp worker = some (after, next, call, events)) :
    Submission pool (.stop phase) next call events := by
  cases phase with
  | announcing | warning | parting | lamenting =>
    -- The queue is handed through.
    simp only [step, besideQueue, Option.some.injEq, Prod.mk.injEq] at stepped
    obtain ⟨-, rfl, rfl, rfl⟩ := stepped
    exact .tell ⟨rfl, rfl⟩ rfl
  | closing | waking | marking | unlocking =>
    cases stepped
    exact {}
  | locking | claiming | gathering =>
    simp only [step] at stepped
    split at stepped <;> cases stepped
    all_goals exact {}
  | draining =>
    simp only [step] at stepped
    split at stepped
    · cases stepped
      exact {}
    · split at stepped <;> cases stepped
      exact {}
  | joining left =>
    cases left with
    | nil =>
      cases stepped
      exact {}
    | cons first rest =>
      obtain ⟨phase, -, same⟩ := Option.map_eq_some_iff.mp stepped
      cases same
      exact {}

/-- A call of the queue never goes back to where it has not put its item there. -/
theorem Call.step_pushed {self : Thread} {chosen : Option Thread} {before call : Queue.Call Task}
    {told : List (Queue.Event Thread Task)}
    (stepped : before.step self chosen queue = some (after, call, told)) :
    (Call.submit call).owesCount = true := by
  cases before with
  | notifying =>
    cases chosen <;> simp only [Queue.Call.step, Option.ite_none_right_eq_some, Option.some.injEq,
      Prod.mk.injEq] at stepped <;> obtain ⟨-, -, rfl, -⟩ := stepped <;> rfl
  | popping =>
    simp only [Queue.Call.step] at stepped
    split at stepped
    · cases stepped
    · split at stepped <;> cases stepped <;> rfl
  | returned => cases stepped
  | _ =>
    cases stepped
    rfl

/-- Whatever a caller does, a task that is submitted is counted as such once it is on the queue. -/
theorem Call.step_submission {call later : Call} {caller : Nat} {chance : Chance}
    (stepped : call.step queue pool caller chance = some (after, next, later, events)) :
    Submission pool call next later events := by
  cases call with
  | queue call =>
    obtain ⟨⟨_, call, told⟩, -, same⟩ := Option.map_eq_some_iff.mp stepped
    cases same
    -- Without the pool, nothing is owed and nothing is counted.
    have nothing := map_counts_nothing told
    refine { ended := nothing.1, pushed := by simp [nothing], count := ⟨0, by simp, ?_⟩ }
    cases call <;> simp [nothing, Call.ofQueue, Call.owesCount]
  | submit call =>
    cases call with
    | pushing task =>
      -- From here on the count is owed.
      cases stepped
      exact { pushed := .refl _ }
    | returned task =>
      cases stepped
      exact { count := ⟨1, rfl, rfl⟩ }
    | _ =>
      simp only [step, Option.map_eq_some_iff, Prod.exists, Prod.mk.injEq] at stepped
      obtain ⟨_, _, told, moved, -, rfl, rfl, rfl⟩ := stepped
      have nothing := map_counts_nothing told
      refine { ended := nothing.1, pushed := by simp [nothing], count := ⟨0, by simp, ?_⟩ }
      rw [step_pushed moved, nothing.2]
      rfl
  | start count phase =>
    obtain ⟨⟨_, _, _⟩, moved, same⟩ := Option.map_eq_some_iff.mp stepped
    cases same
    exact Starting.step_submission moved
  | stop phase => exact Stopping.step_submission stepped
  | observe =>
    simp only [step] at stepped
    split at stepped <;> cases stepped
    exact {}
  | returned answer => cases stepped
  | broken text => cases stepped

/-- What the step of a worker does to what it holds and to the counters. -/
structure Progress (queue : Queue Thread Task) (pool : Pool) (duty : Duty)
    (after : Queue Thread Task) (next : Pool) (later : Duty) (events : List Event) : Prop where
  path : Contents.Path queue.contents (queueEvents events) after.contents
  -- Most steps neither take nor end nor count anything.
  same : next = { pool with tally := next.tally } := by rfl
  submitted : submittedTasks events = [] := by rfl
  /-- What was in the hand and what was taken is what ended and what is in the hand now. -/
  hand : duty.inHand ++ taken pool.number events = (endings events).map (·.1) ++
    later.inHand := by rfl
  /-- What was due and what ended is counted now, or it is due still. -/
  count : ∃ counted : List Outcome, duty.due ++ (endings events).map (·.2) = counted ++ later.due ∧
    ∀ outcome : Outcome, next.tally.counter outcome =
      pool.tally.counter outcome + UInt64.ofNat (counted.countP (·.tick = outcome.tick)) := by
        exact ⟨[], rfl, fun _ => (UInt64.add_zero _).symm⟩
  ends : duty.OnTrack → ∀ entry ∈ endings events, entry.1.EndsWith entry.2 := by
    exact fun _ => List.forall_mem_nil _
  onTrack : duty.OnTrack → later.OnTrack := by exact fun _ => trivial

/-- A worker that tells a message counts nothing, also where it breaks off. -/
theorem Progress.utter {index : Nat} {message : Message} {duty later : Duty}
    (free : duty.inHand = [] ∧ duty.due = [])
    (idle : later = .fetching ∨ later = .timing ∨ later = .gone false) :
    Progress queue pool duty queue pool (pool.utter index message later).1
      (pool.utter index message later).2 := by
  -- The next duty is the one that was meant, or the worker is gone; either way its hand is empty.
  have nothing := kept_counts_nothing pool pool.number (.worker index) message
  have empty : ∀ broken : Bool, (if broken then Duty.gone true else later).inHand = [] ∧
      (if broken then Duty.gone true else later).due = [] ∧
      (if broken then Duty.gone true else later).OnTrack := by
    rintro (_ | _)
    · rcases idle with rfl | rfl | rfl <;> exact ⟨rfl, rfl, trivial⟩
    · exact ⟨rfl, rfl, trivial⟩
  obtain ⟨hand, due, onTrack⟩ := empty (pool.failsAt message)
  refine { path := path_kept .., submitted := nothing.2.2, hand := ?_, count := ⟨[],
    ?_, by simp⟩, ends := ?_,
           onTrack := fun _ => onTrack }
  · simp [Pool.utter, nothing, free, hand]
  · simp [Pool.utter, nothing, free, due]
  · simp [Pool.utter, nothing]

/-- The end of a task is due to be counted. -/
theorem Progress.ending {index : Nat} {task : Task} {left : List Action} {outcome : Outcome}
    (ends : (Duty.working task left).OnTrack → task.EndsWith outcome) :
    Progress queue pool (.working task left) queue pool (.counting task outcome)
      [.ended index task outcome] where
  path := .done
  hand := rfl
  count := ⟨[], rfl, fun _ => (UInt64.add_zero _).symm⟩
  ends onTrack entry member := by
    obtain rfl : entry = (task, outcome) := List.mem_singleton.mp member
    exact ends onTrack

/-- A task that goes on has less left to do. -/
theorem Progress.further {task : Task} {action : Action} {left : List Action} :
    Progress queue pool (.working task (action :: left)) queue pool (.working task left) [] where
  path := .done
  onTrack onTrack := (List.suffix_cons action left).trans onTrack

/-- Each outcome goes to its own counter, and leaves the other two as they are. -/
theorem Tally.counter_add (tally : Tally) (counted outcome : Outcome) :
    (tally.add counted.tick).counter outcome =
      tally.counter outcome + UInt64.ofNat ([counted].countP (·.tick = outcome.tick)) := by
  cases counted <;> cases outcome <;> simp [Tally.add, Tally.counter, Outcome.tick]

/-- A worker looks at the queue, and what it takes is in its hand. -/
theorem Progress.fetching {index : Nat} {met : Queue.Met Task}
    (looked : queue.take (⟨pool.number, .worker index⟩ : Thread) = (met, after)) :
    Progress queue pool .fetching after pool
      (match met with
        | .item task => .working task task.actions
        | .ended => .closing
        | .nothing => .fetching)
      ((met.events ⟨pool.number, .worker index⟩).map .queue) := by
  have path := queue.take_path (⟨pool.number, .worker index⟩ : Thread)
  rw [looked] at path
  have path : Contents.Path queue.contents
      (queueEvents ((met.events ⟨pool.number, .worker index⟩).map .queue)) after.contents := by
    simpa using path
  cases met with
  | item task =>
    -- The worker has done nothing of the task yet.
    exact { path := path, hand := by simp [taken, queueEvents, Queue.Met.events, removals,
              Queue.Event.removals, byWorker, endings, Duty.inHand], onTrack := fun _ =>
                List.suffix_rfl }
  | ended | nothing => exact { path := path }

/--
Whatever a worker does, its hand holds what it has taken and not ended,
and it counts each task that it ends.
-/
theorem work_progress {index : Nat} {name : String} {micros : UInt64} {duty later : Duty}
    (worked : pool.work queue index name micros duty = some (after, next, later, events)) :
    Progress queue pool duty after next later events := by
  cases duty with
  | opening | closing =>
    cases worked
    exact .utter ⟨rfl, rfl⟩ (by simp)
  | fetching =>
    simp only [work] at worked
    split at worked
    · cases worked
    · split at worked <;> rename_i looked <;> cases worked
      all_goals exact Progress.fetching looked
  | working task left =>
    cases left with
    | nil =>
      cases worked
      exact .ending fun _ => .inl rfl
    | cons action left =>
      -- One action more is done, so less is left.
      have further : (Duty.working task (action :: left)).OnTrack →
          (Duty.working task left).OnTrack :=
        fun onTrack => (List.suffix_cons action left).trans onTrack
      cases action <;> cases worked <;> exact { path := .done, onTrack := further }
  | counting task outcome =>
    cases worked
    -- The task is counted whether or not it takes its worker with it.
    have counts := Tally.counter_add pool.tally outcome
    cases outcome.isDeadly <;> exact { path := .done, count := ⟨[outcome], rfl, counts⟩ }
  | reporting failure =>
    cases failure with
    | none =>
      cases worked
      exact { path := .done }
    | some failure =>
      cases worked
      exact .utter ⟨rfl, rfl⟩ (by simp)
  | timing =>
    -- The time goes to a counter that has nothing to do with outcomes.
    cases worked
    refine { path := .done, count := ⟨[], rfl, fun outcome => ?_⟩ }
    cases outcome <;> exact (UInt64.add_zero _).symm
  | gone broken => cases worked

/-- Every outcome is one of three kinds. -/
theorem length_eq_countP (outcomes : List Outcome) (failure : Failure) (payload : Payload) :
    outcomes.length = outcomes.countP (·.tick = Outcome.completed.tick) +
      outcomes.countP (·.tick = (Outcome.failed failure).tick) +
      outcomes.countP (·.tick = (Outcome.panicked payload).tick) := by
  induction outcomes with
  | nil => rfl
  | cons outcome rest ih => cases outcome <;> simp [Outcome.tick, ih] <;> omega

/-- A task that was not counted is in a hand, or its end is due to be counted. -/
theorem uncounted_length (workers : List Worker) :
    (workers.flatMap (·.duty.uncounted)).length =
      (workers.flatMap (·.duty.inHand)).length + (workers.flatMap (·.duty.due)).length := by
  induction workers with
  | nil => rfl
  | cons worker rest ih =>
    have single : worker.duty.uncounted.length = worker.duty.inHand.length +
        worker.duty.due.length := by
      cases worker.duty <;> rfl
    simp only [List.flatMap_cons, List.length_append, ih]
    omega

/-- What has become of all tasks so far, where some outcomes were counted. -/
structure Balanced (number : Nat) (queue : Queue Thread Task) (pool : Pool)
    (events : List Event) : Prop where
  path : Contents.Path ⟨[], false⟩ (queueEvents events) queue.contents
  hands : (taken number events).Perm ((endings events).map (·.1) ++ pool.workers.flatMap
    (·.duty.inHand))
  counted : ∃ counted : List Outcome,
    ((endings events).map (·.2)).Perm (counted ++ pool.workers.flatMap (·.duty.due)) ∧
    ∀ outcome : Outcome, pool.tally.counter outcome =
      UInt64.ofNat (counted.countP (·.tick = outcome.tick))
  ends : ∀ entry ∈ endings events, entry.1.EndsWith entry.2
  onTrack : ∀ worker ∈ pool.workers, worker.duty.OnTrack
  submitted : ∃ counted, pool.submitted = UInt64.ofNat counted ∧
    (submittedTasks events).length = pool.callers.countP Call.owesCount + counted
  pushed : (submittedTasks events).Sublist (pushedItems (queueEvents events))

namespace Balanced

variable {number : Nat} {more : List Event}

/-- What happened at the queue happened in one go. -/
theorem path_append (balanced : Balanced number queue pool events)
    (path : Contents.Path queue.contents (queueEvents more) after.contents) :
    Contents.Path ⟨[], false⟩ (queueEvents (events ++ more)) after.contents := by
  rw [queueEvents_append]
  exact balanced.path.append path

/-- What was put on the queue is what was taken off it and what it holds. -/
theorem ledger (balanced : Balanced number queue pool events) :
    pushedItems (queueEvents events) = removedItems (queueEvents events) ++ queue.items := by
  -- Nothing was on the new queue.
  simpa [Queue.contents] using balanced.path.ledger

/--
Where no task is about to be counted, each counter is the number of tasks
that have ended in its way.
-/
theorem counter_eq (balanced : Balanced number queue pool events)
    (settled : ∀ worker ∈ pool.workers, worker.duty.due = []) (outcome : Outcome) :
    pool.tally.counter outcome =
      UInt64.ofNat (((endings events).map (·.2)).countP (·.tick = outcome.tick)) := by
  obtain ⟨counted, perm, counters⟩ := balanced.counted
  rw [List.flatMap_eq_nil_iff.mpr settled, List.append_nil] at perm
  -- The order in which tasks were counted does not matter for the counters.
  rw [counters outcome, perm.countP_eq]

/-- A step of a caller keeps the balance. -/
theorem visit {index : Nat} {call later : Call} (balanced : Balanced pool.number queue pool events)
    (found : pool.callers[index]? = some call) (visit : Visit queue pool after next more)
    (submission : Submission pool call next later more) :
    Balanced next.number after (World.setCaller next index later) (events ++ more) := by
  -- Nothing is taken or ended, and a worker that is new holds nothing.
  have took : taken pool.number more = [] := taken_eq_nil visit.got
  have held {β : Type} (holds : Duty → List β) (free : holds .opening = []) :
      next.workers.flatMap (holds ·.duty) = pool.workers.flatMap (holds ·.duty) := by
    rcases visit.workers with same | ⟨name, hired⟩
    · rw [same]
    · simp [hired, free]
  have number := visit.number
  constructor
  case path => exact balanced.path_append visit.path
  case hands =>
    show (taken next.number (events ++ more)).Perm
      ((endings (events ++ more)).map (·.1) ++ next.workers.flatMap (·.duty.inHand))
    rw [number, taken_append, took, endings_append, submission.ended, List.append_nil,
      List.append_nil, held Duty.inHand rfl]
    exact balanced.hands
  case counted =>
    obtain ⟨counted, perm, counters⟩ := balanced.counted
    refine ⟨counted, ?_, fun outcome => ?_⟩
    · show ((endings (events ++ more)).map (·.2)).Perm
        (counted ++ next.workers.flatMap (·.duty.due))
      rw [endings_append, submission.ended, List.append_nil, held Duty.due rfl]
      exact perm
    · exact (congrArg (Tally.counter · outcome) submission.tally).trans (counters outcome)
  case ends =>
    rw [endings_append, submission.ended, List.append_nil]
    exact balanced.ends
  case onTrack =>
    show ∀ worker ∈ next.workers, worker.duty.OnTrack
    rcases visit.workers with same | ⟨name, hired⟩
    · rw [same]
      exact balanced.onTrack
    · intro worker member
      rw [hired, List.mem_append, List.mem_singleton] at member
      rcases member with old | rfl
      · exact balanced.onTrack worker old
      · exact trivial
  case submitted =>
    -- The caller that has gone on is split off, and what it owes is what the step says.
    obtain ⟨before, same, total⟩ := balanced.submitted
    obtain ⟨fresh, counted, owed⟩ := submission.count
    obtain ⟨others, owing, owes⟩ := Queue.countP_set_frame Call.owesCount found
    refine ⟨before + fresh, ?_, ?_⟩
    · rw [UInt64.ofNat_add, ← same]
      exact counted
    · show (submittedTasks (events ++ more)).length =
        (next.callers.set index later).countP Call.owesCount + (before + fresh)
      rw [visit.callers, owes, submittedTasks_append, List.length_append, total, owing]
      omega
  case pushed =>
    rw [submittedTasks_append, queueEvents_append, pushedItems, List.filterMap_append]
    exact balanced.pushed.append submission.pushed

/-- A step of a worker keeps the balance. -/
theorem progress {index : Nat} {name : String} {duty later : Duty}
    (balanced : Balanced pool.number queue pool events)
    (found : pool.workers[index]? = some ⟨name, duty⟩)
    (progress : Progress queue pool duty after next later more) :
    Balanced next.number after (World.setWorker next index ⟨name, later⟩) (events ++ more) := by
  have workers : next.workers = pool.workers := by rw [progress.same]
  have number : next.number = pool.number := by rw [progress.same]
  have shift {β : Type} (holds : Duty → List β) :
      ((next.workers.set index ⟨name, later⟩).flatMap (holds ·.duty) ++ holds duty).Perm
        (pool.workers.flatMap (holds ·.duty) ++ holds later) := by
    rw [workers]
    exact flatMap_set (fun worker => holds worker.duty) found ⟨name, later⟩
  have onTrack := progress.onTrack (balanced.onTrack _ (List.mem_of_getElem? found))
  constructor
  case path => exact balanced.path_append progress.path
  case hands =>
    show (taken next.number (events ++ more)).Perm
      ((endings (events ++ more)).map (·.1) ++ (next.workers.set index ⟨name, later⟩).flatMap
        (·.duty.inHand))
    rw [number, taken_append, endings_append, List.map_append]
    exact perm_of_exchange balanced.hands progress.hand (shift Duty.inHand)
  case counted =>
    obtain ⟨counted, perm, counters⟩ := balanced.counted
    obtain ⟨fresh, exchange, ticks⟩ := progress.count
    refine ⟨counted ++ fresh, ?_, fun outcome => ?_⟩
    · show ((endings (events ++ more)).map (·.2)).Perm
        (counted ++ fresh ++ (next.workers.set index ⟨name, later⟩).flatMap (·.duty.due))
      rw [endings_append, List.map_append]
      exact perm_of_exchange perm exchange (shift Duty.due)
    · show next.tally.counter outcome = _
      rw [ticks outcome, counters outcome, List.countP_append, UInt64.ofNat_add]
  case ends =>
    intro entry member
    rw [endings_append, List.mem_append] at member
    rcases member with old | new
    · exact balanced.ends entry old
    · exact progress.ends (balanced.onTrack _ (List.mem_of_getElem? found)) entry new
  case onTrack =>
    intro worker member
    rcases List.mem_or_eq_of_mem_set member with old | rfl
    · exact balanced.onTrack worker (workers ▸ old)
    · exact onTrack
  case submitted =>
    show ∃ counted, next.submitted = UInt64.ofNat counted ∧
      (submittedTasks (events ++ more)).length = next.callers.countP Call.owesCount + counted
    rw [submittedTasks_append, progress.submitted, List.append_nil, progress.same]
    exact balanced.submitted
  case pushed =>
    rw [submittedTasks_append, progress.submitted, List.append_nil, queueEvents_append, pushedItems,
      List.filterMap_append]
    exact balanced.pushed.trans (List.sublist_append_left ..)

end Balanced

end Pool

namespace World

open Pool

variable {world next : World} {events more : List Pool.Event}

/--
A worker that comes back from a call of its task goes on with the task,
or the task ends with the call.
-/
theorem resume_progress {index : Nat} {task : Task} {request : Request} {left : List Action}
    {later : Duty}
    (moved : later = .working task left ∧ more = [] ∨
      ∃ text, later = .counting task (.panicked (.message text)) ∧
        more = [.ended index task (.panicked (.message text))]) :
    Progress world.queue world.pool (.working task (.ask request :: left)) world.queue world.pool
      later more := by
  rcases moved with ⟨rfl, rfl⟩ | ⟨text, rfl, rfl⟩
  · exact .further
  · -- The task breaks off with a call that it made, which is one of its actions.
    exact .ending fun onTrack => .inr ⟨request, text, onTrack.subset List.mem_cons_self, rfl⟩

/-- Every turn keeps the balance. -/
theorem step_balanced {turn : Turn}
    (balanced : Balanced world.pool.number world.queue world.pool events)
    (stepped : world.step turn = some (next, more)) :
    Balanced next.pool.number next.queue next.pool (events ++ more) ∧
    next.pool.number = world.pool.number := by
  cases turn with
  | begin caller request =>
    obtain ⟨rfl, callers, rfl, added⟩ := step_begin stepped
    -- Neither a new call nor the ended one that it replaces owes anything.
    have idle : request.call.owesCount = false := by cases request <;> rfl
    have owed : callers.countP Call.owesCount = world.pool.callers.countP Call.owesCount := by
      rcases added with rfl | ⟨call, found, ended, rfl⟩
      · simp [idle]
      · obtain ⟨others, before, after⟩ := Queue.countP_set_frame Call.owesCount found
        have free : call.owesCount = false := by
          cases call <;> simp [Call.hasEnded] at ended <;> rfl
        rw [after, before, idle, free]
    rw [List.append_nil]
    exact ⟨{ balanced with submitted := by simpa [owed] using balanced.submitted }, rfl⟩
  | caller index chance =>
    obtain ⟨call, queue, pool, after, found, moved, rfl⟩ := step_caller.mp stepped
    have visit := Call.step_visit moved
    exact ⟨balanced.visit found visit (Call.step_submission moved), visit.number⟩
  | worker index chance =>
    obtain ⟨name, duty, queue, pool, after, found, moved, rfl⟩ := step_worker.mp stepped
    have progress := work_progress moved
    exact ⟨balanced.progress found progress, by rw [setWorker, progress.same]⟩
  | openGate index =>
    obtain ⟨rfl, name, task, left, found, rfl⟩ := step_openGate stepped
    exact ⟨balanced.progress found .further, rfl⟩
  | resume index broken =>
    obtain ⟨name, task, request, left, after, found, rfl, moved⟩ := step_resume stepped
    exact ⟨balanced.progress found (resume_progress moved), rfl⟩
  | refilter filter =>
    cases stepped
    rw [List.append_nil]
    exact ⟨{ balanced with }, rfl⟩

/-- In every run from a new pool, the balance is kept. -/
theorem run_balanced {number : Nat} {settings : Settings} {sink : Sink} {turns : List Turn}
    (ran : runOf step (fresh number settings sink) turns = some (world, events)) :
    Balanced number world.queue world.pool events := by
  -- No turn changes the number of the pool, so it is that of the new one throughout.
  have base : Balanced number (fresh number settings sink).queue
      (fresh number settings sink).pool [] :=
    { path := .done
      hands := .refl _
      counted := ⟨[], .refl _, fun outcome => by cases outcome <;> rfl⟩
      ends := List.forall_mem_nil _
      onTrack := by simp [fresh, Pool.fresh]
      submitted := ⟨0, rfl, rfl⟩
      pushed := .refl _ }
  have kept := run_invariant
    (fun world events => Balanced world.pool.number world.queue world.pool events ∧
      world.pool.number = number)
    ⟨base, rfl⟩ ?_ ran
  · obtain ⟨balanced, rfl⟩ := kept
    exact balanced
  · intro before told turn after new held stepped
    obtain ⟨balanced, same⟩ := held
    obtain ⟨balanced, kept⟩ := step_balanced balanced stepped
    exact ⟨balanced, kept.trans same⟩

/--
Any number of threads use a new pool and its queue in any order, and fewer tasks are put on
the queue than a word can count.

Then each of them is still on the queue, or a worker has taken it and not counted it,
or it was counted, or it was given to somebody who is no worker of the pool, or it was discarded.
What the workers have taken has ended or is in a hand; each task that has ended did so with
its own outcome or broke off with a call that it made, and was counted for that outcome,
unless it is about to be. What was submitted is among what was put on the queue, and was counted,
unless it is about to be.
-/
theorem tasks_are_conserved {number : Nat} {settings : Settings} {sink : Sink} {turns : List Turn}
    (ran : runOf step (fresh number settings sink) turns = some (world, events))
    (few : (pushedItems (queueEvents events)).length < UInt64.size) :
    (pushedItems (queueEvents events)).length =
      world.queue.items.length + (world.pool.workers.flatMap (·.duty.uncounted)).length +
        (world.pool.tally.completed.toNat + world.pool.tally.failed.toNat +
          world.pool.tally.panicked.toNat) +
        (givenAway number events).length + (discarded events).length ∧
    (taken number events).Perm
      ((endings events).map (·.1) ++ world.pool.workers.flatMap (·.duty.inHand)) ∧
    (∀ entry ∈ endings events, entry.1.EndsWith entry.2) ∧
    (∀ outcome : Outcome,
      (world.pool.tally.counter outcome).toNat +
          (world.pool.workers.flatMap (·.duty.due)).countP (·.tick = outcome.tick) =
        (endings events).countP (·.2.tick = outcome.tick)) ∧
    (submittedTasks events).Sublist (pushedItems (queueEvents events)) ∧
    world.pool.submitted.toNat + world.pool.callers.countP Call.owesCount =
    (submittedTasks events).length := by
  have balanced := run_balanced ran
  have ledger := congrArg List.length balanced.path.ledger
  have removed := removed_length number events
  obtain ⟨counted, perm, counters⟩ := balanced.counted
  obtain ⟨done, submitted, total⟩ := balanced.submitted
  have hands := balanced.hands.length_eq
  have ended := perm.length_eq
  have pushed := balanced.pushed.length_le
  simp only [Queue.contents, List.length_append, List.length_map,
    List.nil_append] at ledger hands ended
  -- No counter has passed its word, since no more was counted than was put on the queue.
  have exact_ (outcome : Outcome) :
      (world.pool.tally.counter outcome).toNat = counted.countP (·.tick = outcome.tick) := by
    rw [counters outcome]
    refine UInt64.toNat_ofNat_of_lt' (Nat.lt_of_le_of_lt List.countP_le_length ?_)
    omega
  have sorts := length_eq_countP counted (.other "") .unreadable
  simp only [← exact_, Tally.counter] at sorts
  have held := uncounted_length world.pool.workers
  refine ⟨by omega, balanced.hands, balanced.ends, fun outcome => ?_, balanced.pushed, ?_⟩
  · have counts := perm.countP_eq (·.tick = outcome.tick)
    rw [List.countP_append, List.countP_map] at counts
    rw [exact_ outcome, ← counts]
    rfl
  · rw [submitted, UInt64.toNat_ofNat_of_lt' (by omega)]
    omega

/-- A turn in which nothing goes wrong, nobody is woken, and no time passes. -/
def plain : Pool.Chance := ⟨none, none, false, 0, 0⟩

/-- A task that does nothing before it ends. -/
def briefTask (label : Nat) (outcome : Outcome) : Task := .mk (.natural label) [] outcome

/--
One worker counts a failure and is about to count another task, while others
try, clear, push and submit.
-/
def busyPool : List Turn :=
  .begin 0 (.start 1) :: List.replicate 8 (.caller 0 plain) ++
  [.begin 1 (.submit (briefTask 1 (.failed (.other "no")))), .caller 1 plain, .caller 1 plain,
    .caller 1 plain, .begin 1 (.submit (briefTask 2 (.panicked .unreadable))), .caller 1 plain] ++
  List.replicate 8 (.worker 0 plain) ++
  [.begin 2 (.queue (.push (briefTask 3 .completed))), .caller 2 plain, .begin 3 (.queue .tryPop),
    .caller 3 plain, .caller 2 plain, .begin 2 (.queue (.push (briefTask 4 .completed))),
    .caller 2 plain, .begin 3 (.queue .clear), .caller 3 plain, .caller 2 plain,
    .begin 2 (.queue (.push (briefTask 5 .completed))), .caller 2 plain]

/--
Of five tasks one is counted, one about to be, one given away, one discarded,
and one still on the queue.
-/
theorem tasks_of_busy_pool :
    ∃ world events, runOf step (fresh 0 .default .keepAll) busyPool = some (world, events) ∧
      (pushedItems (queueEvents events)).length = 5 ∧ world.queue.items.length = 1 ∧
      world.pool.tally.failed = 1 ∧ (givenAway 0 events).length = 1 ∧
      (discarded events).length = 1 ∧
      5 = 1 + (world.pool.workers.flatMap (·.duty.uncounted)).length +
        (world.pool.tally.completed.toNat + (1 : UInt64).toNat + world.pool.tally.panicked.toNat) +
        1 + 1 := by
  -- The run is evaluated once, with what is to be known about it, and then taken apart.
  have run : ((runOf step (fresh 0 .default .keepAll) busyPool).map fun (world, events) =>
      ((pushedItems (queueEvents events)).length, world.queue.items.length, world.pool.tally.failed,
        (givenAway 0 events).length, (discarded events).length)) = some (5, 1, 1, 1, 1) := by
    decide +kernel
  simp only [Option.map_eq_some_iff, Prod.exists, Prod.mk.injEq] at run
  obtain ⟨world, events, ran, pushed, left, failed, given, lost⟩ := run
  have few : (pushedItems (queueEvents events)).length < UInt64.size := by
    rw [pushed]
    decide
  have sum := (tasks_are_conserved ran few).1
  rw [pushed, left, failed, given, lost] at sum
  exact ⟨world, events, ran, pushed, left, failed, given, lost, sum⟩

end World

end TaskPool
