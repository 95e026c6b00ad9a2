import TaskPool.Proofs.Pool.Turn
import TaskPool.Proofs.Queue.Ledger
import TaskPool.Proofs.Run

/-!
The books of a pool: the books of its queue, and beside them which worker has
brought which task to its end.

What a worker takes from the queue it holds in its hand until the task has ended,
so the two books differ by what is in the workers' hands.
-/

namespace TaskPool

open Queue (Contents gotBy pushedItems pushedWhileOpen removedItems)

/-- The task that a worker has taken and has not brought to its end. -/
def Duty.inHand : Duty → List Task
  | .working task _ => [task]
  | _ => []

/-- Whether a worker has learned that nothing will come any more, and tells so or is gone. -/
def Duty.isLeaving : Duty → Bool
  | .closing | .gone false => true
  | _ => false

/-- Whether a worker has broken off, or will do so once it has counted the task that has ended. -/
def Duty.isDoomed : Duty → Bool
  | .gone true => true
  | .counting _ outcome => outcome.isDeadly
  | _ => false

/-- Of a task that takes its worker with it, the worker tells nothing. -/
theorem Outcome.trouble?_deadly {outcome : Outcome} (deadly : outcome.isDeadly = true)
    (worker : String) :
    outcome.trouble? worker = none := by
  cases outcome with
  | completed | failed => cases deadly
  | unspeakable => rfl
  | panicked payload => cases payload <;> first | rfl | cases deadly

/-- The task in the hand of the worker with a place, if there is such a worker. -/
def handOf (workers : List Worker) (index : Nat) : List Task :=
  (workers[index]?).elim [] fun worker => worker.duty.inHand

/-- A new worker has nothing in its hand. -/
theorem handOf_hired (workers : List Worker) (name : String) (index : Nat) :
    handOf (workers ++ [⟨name, .opening⟩]) index = handOf workers index := by
  -- The new worker stands behind all others, so only its own place could tell.
  unfold handOf
  rcases Nat.lt_trichotomy index workers.length with old | new | beyond
  · rw [List.getElem?_append_left old]
  · subst new
    simp [Duty.inHand]
  · rw [List.getElem?_eq_none (by simp; omega), List.getElem?_eq_none (by omega)]

/-- A worker that goes on changes only what is in its own hand. -/
theorem handOf_set {workers : List Worker} {index : Nat} (within : index < workers.length)
    (worker : Worker) (other : Nat) :
    handOf (workers.set index worker) other = if index = other then worker.duty.inHand
      else handOf workers other := by
  -- A place of a worker that is there holds what is put there, and the other
  -- places hold what they held.
  unfold handOf
  by_cases same : index = other
  · subst same
    simp [within]
  · simp [same]

namespace Pool

/-- Whether the sink of a pool fails nobody who tells a message. -/
def Quiet (pool : Pool) : Prop := ∀ message, pool.failsAt message = false

/-- What happened at the queue. -/
def queueEvents (events : List Event) : List (Queue.Event Thread Task) :=
  events.filterMap fun
    | .queue event => some event
    | _ => none

/-- The tasks that a worker has brought to their end, in this order. -/
def endedBy (index : Nat) (events : List Event) : List Task :=
  events.filterMap fun
    | .ended worker task _ => if worker = index then some task else none
    | _ => none

/-- Whether a worker has brought some task to a deadly end. -/
def Stricken (index : Nat) (events : List Event) : Prop :=
  ∃ task outcome, .ended index task outcome ∈ events ∧ outcome.isDeadly = true

/-- Whether something that happens is anything but the deadly end of a task. -/
def Event.isMild : Event → Bool
  | .ended _ _ outcome => !outcome.isDeadly
  | _ => true

/-- Whether no task has come to a deadly end. -/
def Mild (events : List Event) : Prop := ∀ event ∈ events, event.isMild = true

/-- What a worker has ended stays ended. -/
theorem Stricken.append {index : Nat} {events : List Event} (stricken : Stricken index events)
    (more : List Event) :
    Stricken index (events ++ more) :=
  have ⟨task, outcome, member, deadly⟩ := stricken
  ⟨task, outcome, List.mem_append_left more member, deadly⟩

/-- Where no task has come to a deadly end, no worker has brought one there. -/
theorem Mild.spares {events : List Event} (mild : Mild events) (index : Nat) :
    ¬ Stricken index events := by
  rintro ⟨task, outcome, member, deadly⟩
  have harmless := mild _ member
  simp [Event.isMild, deadly] at harmless

/-- What has happened so far has no deadly end if everything has none. -/
theorem Mild.of_append {events more : List Event} (mild : Mild (events ++ more)) : Mild events :=
  (List.forall_mem_append.mp mild).1

/-- What happened at the queue happened there earlier, and then later. -/
theorem queueEvents_append (events more : List Event) :
    queueEvents (events ++ more) = queueEvents events ++ queueEvents more := List.filterMap_append

/-- A worker has ended the tasks that it ended earlier, and then those that it ended later. -/
theorem endedBy_append (index : Nat) (events more : List Event) :
    endedBy index (events ++ more) = endedBy index events ++ endedBy index more :=
      List.filterMap_append

/-- Events that all happen at the queue are what happens there. -/
@[simp] theorem queueEvents_map (events : List (Queue.Event Thread Task)) :
    queueEvents (events.map .queue) = events := by
  -- Each event is wrapped, and then taken out of its wrapping.
  rw [queueEvents, List.filterMap_map]
  exact List.filterMap_some

/-- No task ends at the queue. -/
@[simp] theorem endedBy_map (index : Nat) (events : List (Queue.Event Thread Task)) :
    endedBy index (events.map .queue) = [] := by
  -- None of the wrapped events is an end.
  simp [endedBy, List.filterMap_map]

/-- A message is nothing that happens at the queue. -/
@[simp] theorem queueEvents_kept (pool : Pool) (seat : Seat) (message : Message) :
    queueEvents (pool.kept seat message) = [] := by
  -- Whether or not the sink keeps the line, nothing happens at the queue.
  unfold kept
  split <;> rfl

/-- A message is no end of a task. -/
@[simp] theorem endedBy_kept (pool : Pool) (index : Nat) (seat : Seat) (message : Message) :
    endedBy index (pool.kept seat message) = [] := by
  -- Whether or not the sink keeps the line, no task ends.
  unfold kept
  split <;> rfl

/-- A message leaves the contents of the queue as they are. -/
theorem path_kept (queue : Queue Thread Task) (pool : Pool) (seat : Seat) (message : Message) :
    Contents.Path queue.contents (queueEvents (pool.kept seat message)) queue.contents := by
  -- Nothing happens on this path.
  rw [queueEvents_kept]
  exact .done

/-- Nobody gets a task with a message. -/
theorem gotBy_kept (thread : Thread) (pool : Pool) (seat : Seat) (message : Message) :
    gotBy thread (queueEvents (pool.kept seat message)) = [] := by
  -- There is nothing at the queue that could be a removal.
  rw [queueEvents_kept]
  rfl

/--
What the step of a caller does to the books: it brings no task to an end,
and hands none to a worker.
-/
structure Visit (queue : Queue Thread Task) (pool : Pool) (after : Queue Thread Task) (next : Pool)
    (events : List Event) : Prop where
  path : Contents.Path queue.contents (queueEvents events) after.contents
  -- Most steps touch nothing of what follows, and then it holds by itself.
  number : next.number = pool.number := by rfl
  settings : next.settings = pool.settings := by rfl
  sink : next.sink = pool.sink := by rfl
  callers : next.callers = pool.callers := by rfl
  got : ∀ index, gotBy ⟨pool.number, .worker index⟩ (queueEvents events) = [] := by
    exact fun _ => rfl
  ended : ∀ index, endedBy index events = [] := by exact fun _ => rfl
  /-- At most one worker is new, and it has nothing in its hand. -/
  workers : next.workers = pool.workers ∨
      ∃ name, next.workers = pool.workers ++ [⟨name, .opening⟩] := by
    exact .inl rfl

variable {queue after : Queue Thread Task} {pool next : Pool} {events : List Event}

/-- Telling a message is a step beside the queue, also where the caller breaks off. -/
theorem Visit.tell {caller : Nat} {message : Message} {onward call : Call}
    (told : pool.tell caller message onward = (next, call, events)) :
    Visit queue pool queue next events := by
  -- A caller that breaks off only gives up its locks.
  unfold Pool.tell at told
  split at told <;> cases told <;>
    exact { path := path_kept .., got := fun _ => gotBy_kept .., ended := fun _ => endedBy_kept .. }

/-- Creating a worker is a step beside the queue, also where the system refuses. -/
theorem Visit.create {caller count index : Nat} {refusal : Option Trouble} {call : Call}
    (created : pool.create caller count index refusal = (next, call, events)) :
    Visit queue pool queue next events := by
  -- The name may be of no use, the system may refuse, or there is a new worker.
  simp only [Pool.create] at created
  split at created <;> cases created
  · exact { path := .done }
  · exact { path := .done }
  · exact { path := .done, workers := .inr ⟨_, rfl⟩ }

/-- A start is always beside the queue. -/
theorem Starting.step_visit {phase : Starting} {caller count : Nat} {refusal : Option Trouble}
    {call : Call} (stepped : phase.step pool caller count refusal = some (next, call, events)) :
    Visit queue pool queue next events := by
  -- Only the phase that creates workers does more than take and give up locks or tell something.
  cases phase with
  | refusing | announcing | lamenting => exact Visit.tell (Option.some.inj stepped)
  | creating index =>
    simp only [step] at stepped
    split at stepped
    · exact Visit.create (Option.some.inj stepped)
    · -- All workers have been asked for.
      cases stepped
      exact { path := .done }
  | checking | unlocking =>
    cases stepped
    exact { path := .done }
  | locking | claiming =>
    simp only [step] at stepped
    split at stepped <;> cases stepped
    all_goals exact { path := .done }
  | reserving =>
    simp only [step] at stepped
    split at stepped
    · split at stepped <;> cases stepped <;> exact { path := .done }
    · cases stepped

/-- A step of a stop that only tells a message leaves the queue alone. -/
theorem Visit.tellBeside {caller : Nat} {message : Message} {onward call : Call}
    (told : besideQueue queue (pool.tell caller message onward) = (after, next, call, events)) :
    Visit queue pool after next events := by
  -- The queue is handed through.
  cases same : pool.tell caller message onward
  rw [same] at told
  cases told
  exact Visit.tell same

/-- A stop closes the queue, and does nothing else to what it holds. -/
theorem Stopping.step_visit {phase : Stopping} {caller worker : Nat} {timeUp : Bool} {call : Call}
    (stepped : phase.step queue pool caller timeUp worker = some (after, next, call, events)) :
    Visit queue pool after next events := by
  -- Only the phase that closes the queue touches what it holds.
  cases phase with
  | announcing | warning | parting | lamenting => exact Visit.tellBeside (Option.some.inj stepped)
  | closing =>
    -- The one step of a stop that the books of the queue show.
    cases stepped
    exact { path := .single .closed }
  | waking =>
    cases stepped
    exact { path := .done }
  | marking | unlocking =>
    cases stepped
    exact { path := .done }
  | locking | claiming | gathering =>
    simp only [step] at stepped
    split at stepped <;> cases stepped
    all_goals exact { path := .done }
  | draining =>
    -- The wait is over because the queue is empty, or because the time is up.
    simp only [step] at stepped
    split at stepped
    · cases stepped
      exact { path := .done }
    · split at stepped <;> cases stepped
      exact { path := .done }
  | joining left =>
    cases left with
    | nil =>
      cases stepped
      exact { path := .done }
    | cons first rest =>
      obtain ⟨phase, -, same⟩ := Option.map_eq_some_iff.mp stepped
      cases same
      exact { path := .done }

/-- A call of the queue is booked by the queue, and hands nothing to a worker. -/
theorem Visit.ofQueue {caller : Nat} {chosen : Option Thread} {before call : Queue.Call Task}
    {told : List (Queue.Event Thread Task)}
    (stepped : before.step ⟨pool.number, .caller caller⟩ chosen queue = some (after, call, told)) :
    Visit queue pool after pool (told.map .queue) where
  path := by simpa using Queue.Call.step_path stepped
  got index := by simpa using Queue.Call.step_gotBy stepped (by simp)
  ended index := by simp

/-- Whatever a caller does, it brings no task to an end and hands none to a worker. -/
theorem Call.step_visit {call later : Call} {caller : Nat} {chance : Chance}
    (stepped : call.step queue pool caller chance = some (after, next, later, events)) :
    Visit queue pool after next events := by
  -- Calls of the queue keep its books themselves, and a push through the pool is one of them.
  cases call with
  | queue call =>
    obtain ⟨⟨_, _, _⟩, moved, same⟩ := Option.map_eq_some_iff.mp stepped
    cases same
    exact .ofQueue moved
  | submit call =>
    cases call with
    | pushing task =>
      cases stepped
      exact { path := .single .pushed }
    | returned task =>
      cases stepped
      exact { path := .done }
    | _ =>
      -- Otherwise the call goes on as a call of the queue.
      simp only [step, Option.map_eq_some_iff, Prod.exists, Prod.mk.injEq] at stepped
      obtain ⟨_, _, _, moved, rfl, rfl, -, rfl⟩ := stepped
      exact .ofQueue moved
  | start count phase =>
    obtain ⟨⟨_, _, _⟩, moved, same⟩ := Option.map_eq_some_iff.mp stepped
    cases same
    exact Starting.step_visit moved
  | stop phase => exact Stopping.step_visit stepped
  | observe =>
    simp only [step] at stepped
    split at stepped <;> cases stepped
    exact { path := .done }
  | returned answer => cases stepped
  | broken text => cases stepped

/--
What a worker does to the books in one step: it may take a task into its hand,
or bring the one there to its end.
-/
structure Toil (number index : Nat) (queue : Queue Thread Task) (duty : Duty)
    (after : Queue Thread Task) (later : Duty) (events : List Event) : Prop where
  path : Contents.Path queue.contents (queueEvents events) after.contents
  hand : duty.inHand ++ gotBy ⟨number, .worker index⟩ (queueEvents events) =
    endedBy index events ++ later.inHand := by rfl
  -- Most steps name no other worker and do not begin to leave.
  othersGot : ∀ other, other ≠ index → gotBy ⟨number, .worker other⟩ (queueEvents events) = [] := by
    exact fun _ _ => rfl
  othersEnded : ∀ other, other ≠ index → endedBy other events = [] := by exact fun _ _ => rfl
  /-- A worker begins to leave only where it has seen that the queue is closed and empty. -/
  leaving : later.isLeaving = true →
    duty.isLeaving = true ∨ queue.closed = true ∧ queue.items = [] := by intro left; cases left
  /-- A worker breaks off only after a task that has come to a deadly end. -/
  sound : later.isDoomed = true → duty.isDoomed = true ∨ Stricken index events := by
    intro doomed; cases doomed

/-- The step at which a worker brings its task to an end. -/
theorem Toil.ending (number : Nat) {index : Nat} (task : Task) (left : List Action)
    (outcome : Outcome) :
    Toil number index queue (.working task left) queue (.counting task outcome)
      [.ended index task outcome] where
  path := .done
  hand := by simp [Duty.inHand, endedBy, queueEvents, gotBy, Queue.removals]
  othersEnded other apart := by simp [endedBy, Ne.symm apart]
  sound doomed := .inr ⟨task, outcome, List.mem_singleton.mpr rfl, doomed⟩

/--
Once a task is counted its worker goes on to report it, or breaks off if the end was a deadly one.
-/
theorem Toil.counted (number index : Nat) (task : Task) (outcome : Outcome)
    (failure : Option Failure) :
    Toil number index queue (.counting task outcome) queue
      (if outcome.isDeadly then .gone true else .reporting failure) [] := by
  cases deadly : outcome.isDeadly with
  | true => exact { path := .done, sound := fun _ => .inl deadly }
  | false => exact { path := .done }

/-- What an item handed to one worker means for each worker. -/
theorem gotBy_popped (number index other : Nat) (task : Task) :
    gotBy (⟨number, .worker other⟩ : Thread) [.popped ⟨number, .worker index⟩ (some task)] =
      if index = other then [task] else [] := by
  -- Nobody but that one worker is named by the event.
  by_cases same : index = other <;> simp [gotBy, Queue.removals, Queue.Event.removals, same]

/-- A worker that looks at the queue takes its first task, or leaves, or falls asleep. -/
theorem Toil.fetching {number index : Nat} {met : Queue.Met Task}
    (looked : queue.take (⟨number, .worker index⟩ : Thread) = (met, after)) :
    Toil number index queue .fetching after
      (match met with
        | .item task => .working task task.actions
        | .ended => .closing
        | .nothing => .fetching)
      ((met.events ⟨number, .worker index⟩).map .queue) := by
  -- The step is that of a consumer at the queue, and what it meets becomes the next duty.
  have path := queue.take_path (⟨number, .worker index⟩ : Thread)
  rw [looked] at path
  cases met with
  | item task =>
    -- The worker that takes the task is the only one that gets anything.
    refine ⟨by simpa using path, ?_, fun other apart => ?_, fun _ _ => rfl, nofun, nofun⟩
    · rw [queueEvents_map, endedBy_map]
      simpa [Queue.Met.events, Duty.inHand] using gotBy_popped number index index task
    · rw [queueEvents_map]
      simpa [Queue.Met.events, apart.symm] using gotBy_popped number index other task
  | ended =>
    refine ⟨by simpa using path, rfl, fun _ _ => rfl, fun _ _ => rfl, fun _ => .inr ?_, nofun⟩
    -- The only change that tells this is a dismissal.
    obtain ⟨items, closed, asleep, woken⟩ := queue
    cases items <;> cases closed <;> simp [Queue.take] at looked ⊢
  | nothing => exact ⟨by simpa using path, rfl, fun _ _ => rfl, fun _ _ => rfl, nofun, nofun⟩

/-- A worker that tells a message which fails nobody goes on beside the queue. -/
theorem Toil.utter {number index : Nat} {duty later : Duty} {message : Message}
    (quiet : pool.Quiet) (hand : later.inHand = duty.inHand)
    (leaving : later.isLeaving = true → duty.isLeaving = true) (sound : later.isDoomed = false) :
    Toil number index queue duty queue (pool.utter index message later).1
      (pool.utter index message later).2 := by
  -- Where telling fails nobody, the next duty is the one that was meant.
  simp only [Pool.utter, quiet message, Bool.false_eq_true, if_false]
  refine ⟨path_kept .., ?_, fun _ _ => gotBy_kept .., fun _ _ => endedBy_kept ..,
    fun left => .inl (leaving left), fun doomed => absurd doomed (by simp [sound])⟩
  rw [gotBy_kept, endedBy_kept, List.append_nil, List.nil_append, hand]

/--
Whatever a worker does where telling fails nobody, its hand holds what it has taken and not ended.
-/
theorem work_toil {index : Nat} {name : String} {micros : UInt64} {duty later : Duty}
    (quiet : pool.Quiet)
    (worked : pool.work queue index name micros duty = some (after, next, later, events)) :
    Toil pool.number index queue duty after later events ∧
    next = { pool with tally := next.tally } := by
  -- A duty either looks at the queue, or ends a task, or leaves both books as they are.
  cases duty with
  | opening | closing =>
    cases worked
    exact ⟨.utter quiet rfl (by simp [Duty.isLeaving]) rfl, rfl⟩
  | fetching =>
    simp only [work] at worked
    split at worked
    · -- A worker that is asleep takes no step.
      cases worked
    · split at worked <;> rename_i looked <;> cases worked
      all_goals exact ⟨Toil.fetching looked, rfl⟩
  | working task left =>
    cases left with
    | nil =>
      -- Nothing is left to be done, so the task ends with its own outcome.
      cases worked
      exact ⟨.ending pool.number task [] task.outcome, rfl⟩
    | cons action left =>
      -- The task goes on, or it waits at a gate or for a call, and stays in the hand of its worker.
      cases action <;> cases worked <;> exact ⟨{ path := .done }, rfl⟩
  | counting task outcome =>
    cases worked
    exact ⟨.counted _ _ task outcome _, rfl⟩
  | timing =>
    cases worked
    exact ⟨{ path := .done }, rfl⟩
  | reporting failure =>
    cases failure with
    | none =>
      cases worked
      exact ⟨{ path := .done }, rfl⟩
    | some failure =>
      cases worked
      exact ⟨.utter quiet rfl nofun rfl, rfl⟩
  | gone broken => cases worked

/-- Whether a queue is closed, and as much has left it as was put on it before it was closed. -/
def Drained (queue : Queue Thread Task) (events : List Event) : Prop :=
  queue.closed = true ∧
    (pushedWhileOpen (queueEvents events)).length ≤ (removedItems (queueEvents events)).length

/-- The books of a pool with a number, from the first use of its queue on. -/
structure Books (number : Nat) (queue : Queue Thread Task) (workers : List Worker)
    (events : List Event) :
    Prop where
  path : Contents.Path ⟨[], false⟩ (queueEvents events) queue.contents
  /-- What a worker has taken it has brought to its end, but for the task in its hand. -/
  hands : ∀ index, gotBy ⟨number, .worker index⟩ (queueEvents events) =
    endedBy index events ++ handOf workers index
  /-- A worker that was never created has taken nothing. -/
  absent : ∀ index, workers.length ≤ index → gotBy ⟨number, .worker index⟩ (queueEvents events) = []
  /-- A worker leaves only a queue that is drained. -/
  left : ∀ worker ∈ workers, worker.duty.isLeaving = true → Drained queue events
  /-- A worker has broken off only after a task that has come to a deadly end. -/
  sound : ∀ (index : Nat) (worker : Worker), workers[index]? = some worker →
    worker.duty.isDoomed = true →
    Stricken index events

namespace Books

variable {number : Nat} {workers : List Worker} {more : List Event}

/-- A queue that is drained stays so. -/
theorem drained_append (books : Books number queue workers events) (drained : Drained queue events)
    (path : Contents.Path queue.contents (queueEvents more) after.contents) :
    Drained after (events ++ more) := by
  -- The queue stays closed, so no more is counted as put on it while it was
  -- open, and more may leave it.
  obtain ⟨closed, fewer⟩ := drained
  refine ⟨path.closed_iff.mpr (.inl closed), ?_⟩
  have shut : (queueEvents events).any Queue.Event.closes = true := by
    rcases books.path.closed_iff.mp closed with open_ | shut
    · cases open_
    · exact shut
  rw [queueEvents_append, Queue.pushedWhileOpen_append shut, Queue.removedItems_append,
    List.length_append]
  omega

/-- A queue that is closed and empty is drained. -/
theorem drained_of_empty (books : Books number queue workers events) (closed : queue.closed = true)
    (empty : queue.items = []) : Drained queue events := by
  -- All that was ever put on the queue has left it, so in particular what came while it was open.
  have ledger : pushedItems (queueEvents events) = removedItems (queueEvents events) := by
    simpa [Queue.contents, empty] using books.path.ledger
  exact ⟨closed, ledger ▸ (Queue.pushedWhileOpen_prefix _).length_le⟩

/-- A step of a caller keeps the books. -/
theorem visit {next : Pool} (books : Books pool.number queue pool.workers events)
    (visit : Visit queue pool after next more) :
    Books next.number after next.workers (events ++ more) := by
  -- Nobody's hand changes, and a new worker has not begun to leave.
  have same : next.workers = pool.workers ∨
    ∃ name, next.workers = pool.workers ++ [⟨name, .opening⟩] :=
    visit.workers
  have hands (index : Nat) : handOf next.workers index = handOf pool.workers index := by
    rcases same with same | ⟨name, hired⟩
    · rw [same]
    · rw [hired, handOf_hired]
  have known : ∀ worker ∈ next.workers, worker ∈ pool.workers ∨ worker.duty = .opening := by
    intro worker member
    rcases same with same | ⟨name, hired⟩
    · exact .inl (same ▸ member)
    · rw [hired, List.mem_append, List.mem_singleton] at member
      rcases member with old | rfl
      · exact .inl old
      · exact .inr rfl
  have grown : pool.workers.length ≤ next.workers.length := by
    rcases same with same | ⟨name, hired⟩
    · exact same ▸ Nat.le_refl _
    · simp [hired]
  constructor
  case path =>
    rw [queueEvents_append]
    exact books.path.append visit.path
  case hands =>
    -- The step adds nothing to what a worker has got or ended.
    intro index
    rw [visit.number, queueEvents_append, Queue.gotBy_append, visit.got, endedBy_append,
      visit.ended, hands, List.append_nil, List.append_nil]
    exact books.hands index
  case absent =>
    intro index beyond
    rw [visit.number, queueEvents_append, Queue.gotBy_append, visit.got, List.append_nil]
    exact books.absent index (by omega)
  case left =>
    intro worker member leaving
    rcases known worker member with old | new
    · exact books.drained_append (books.left worker old leaving) visit.path
    · -- A worker that has just been created is not leaving.
      rw [new] at leaving
      cases leaving
  case sound =>
    intro index worker found doomed
    -- A worker that has just been created has not broken off.
    have old : pool.workers[index]? = some worker := by
      rcases same with same | ⟨name, hired⟩
      · exact same ▸ found
      · rw [hired, List.getElem?_append] at found
        split at found
        · exact found
        · obtain rfl := List.mem_singleton.mp (List.mem_of_getElem? found)
          cases doomed
    exact (books.sound index worker old doomed).append more

/-- A step of a worker keeps the books. -/
theorem toil {index : Nat} {name : String} {duty later : Duty}
    (books : Books number queue workers events) (found : workers[index]? = some ⟨name, duty⟩)
    (toil : Toil number index queue duty after later more) :
    Books number after (workers.set index ⟨name, later⟩) (events ++ more) := by
  -- Only the books of the worker that has gone on change.
  have within : index < workers.length := (List.getElem?_eq_some_iff.mp found).1
  have present : (⟨name, duty⟩ : Worker) ∈ workers := List.mem_of_getElem? found
  constructor
  case path =>
    rw [queueEvents_append]
    exact books.path.append toil.path
  case hands =>
    intro other
    rw [queueEvents_append, Queue.gotBy_append, endedBy_append, handOf_set within,
      books.hands other]
    by_cases same : index = other
    · -- What was in the hand has ended, or is there still; what is new was taken now.
      subst same
      have before : handOf workers index = duty.inHand := by simp [handOf, found]
      rw [if_pos rfl, before, List.append_assoc, toil.hand, List.append_assoc]
    · -- The others have neither got nor ended anything.
      rw [if_neg same, toil.othersGot other (Ne.symm same), toil.othersEnded other (Ne.symm same)]
      simp
  case absent =>
    intro other beyond
    rw [List.length_set] at beyond
    rw [queueEvents_append, Queue.gotBy_append, books.absent other beyond,
      toil.othersGot other (by omega)]
    rfl
  case left =>
    intro worker member leaving
    rcases List.mem_or_eq_of_mem_set member with old | rfl
    · exact books.drained_append (books.left worker old leaving) toil.path
    · -- The worker was leaving already, or it has just seen the queue closed and empty.
      rcases toil.leaving leaving with already | ⟨closed, empty⟩
      · exact books.drained_append (books.left _ present already) toil.path
      · exact books.drained_append (books.drained_of_empty closed empty) toil.path
  case sound =>
    intro other worker known doomed
    by_cases same : index = other
    · -- The worker was doomed already, or it has just ended a task that dooms it.
      subst same
      obtain rfl : (⟨name, later⟩ : Worker) = worker := by simpa [within] using known
      rcases toil.sound doomed with already | ⟨task, outcome, member, deadly⟩
      · exact (books.sound index _ found already).append more
      · exact ⟨task, outcome, List.mem_append_right events member, deadly⟩
    · rw [List.getElem?_set_ne same] at known
      exact (books.sound other worker known doomed).append more

/-- A worker that has brought no task to a deadly end has not broken off. -/
theorem unbroken (books : Books number queue workers events) {index : Nat} {worker : Worker}
    (found : workers[index]? = some worker) (spared : ¬ Stricken index events) :
    worker.duty ≠ .gone true := by
  intro broken
  exact spared (books.sound index worker found (by rw [broken]; rfl))

/-- Where no task has come to a deadly end, no worker has broken off. -/
theorem unbroken_of_mild (books : Books number queue workers events) (mild : Mild events) :
    ∀ worker ∈ workers, worker.duty ≠ .gone true := by
  intro worker member
  obtain ⟨index, found⟩ := List.getElem?_of_mem member
  exact books.unbroken found (mild.spares index)

end Books

end Pool

namespace World

/-- A pool with a number that nobody has used yet, at a queue that nobody has used yet. -/
def fresh (number : Nat) (settings : Settings) (sink : Sink) : World :=
  ⟨.empty, .fresh number settings sink⟩

open Pool (Books)

variable {world next : World} {events more : List Pool.Event}

/-- Every turn keeps the books of a pool whose messages fail nobody. -/
theorem step_books {turn : Turn}
    (books : Books world.pool.number world.queue world.pool.workers events)
    (quiet : world.pool.Quiet) (stepped : world.step turn = some (next, more)) :
    Books next.pool.number next.queue next.pool.workers (events ++ more) ∧
      next.pool.number = world.pool.number := by
  -- A turn is a step of a caller or of a worker, or something that the books do not show.
  cases turn with
  | begin caller request =>
    obtain ⟨rfl, callers, rfl, -⟩ := step_begin stepped
    exact ⟨by simpa using books, rfl⟩
  | caller index chance =>
    obtain ⟨call, queue, pool, after, -, moved, rfl⟩ := step_caller.mp stepped
    have visit := Pool.Call.step_visit moved
    have kept : Books pool.number queue pool.workers (events ++ more) := books.visit visit
    exact ⟨kept, visit.number⟩
  | worker index chance =>
    obtain ⟨name, duty, queue, pool, after, found, moved, rfl⟩ := step_worker.mp stepped
    obtain ⟨toil, same⟩ := Pool.work_toil quiet moved
    rw [same]
    exact ⟨books.toil found toil, rfl⟩
  | openGate index =>
    obtain ⟨rfl, name, task, left, found, rfl⟩ := step_openGate stepped
    exact ⟨books.toil found { path := .done }, rfl⟩
  | resume index broken =>
    obtain ⟨name, task, request, left, after, found, rfl, moved⟩ := step_resume stepped
    refine ⟨books.toil found ?_, rfl⟩
    rcases moved with ⟨rfl, rfl⟩ | ⟨text, rfl, rfl⟩
    · exact { path := .done }
    · -- A task that breaks off with its call has come to its end as well.
      exact .ending _ task _ _
  | refilter filter =>
    cases stepped
    exact ⟨by simpa using books, rfl⟩

/-- A new pool has nothing in its books. -/
theorem fresh_books (number : Nat) (settings : Settings) (sink : Sink) :
    Books number (fresh number settings sink).queue
      (fresh number settings sink).pool.workers [] where
  path := .done
  hands _ := rfl
  absent _ _ := rfl
  left := by simp [fresh, Pool.fresh]
  sound := by simp [fresh, Pool.fresh]

end World

end TaskPool
