import TaskPool.Proofs.Pool.Follow

/-!
The diary of a worker: it tells that it begins, then of each task that came to a bad end,
in the order in which it ran them, and at last that it ends.

What a worker has yet to tell can be read off its duty, so the diary is kept step by step.
Only some messages may be of interest: where nobody asks which workers have ended,
the sink may even fail them.
-/

namespace TaskPool

/-- What a worker tells of tasks that have ended. -/
def troubles (name : String) (ends : List (Task × Outcome)) : List Message :=
  ends.filterMap fun entry => (entry.2.trouble? name).map (.troubled name)

/-- What is told of tasks is told of the earlier ones, and then of the later ones. -/
theorem troubles_append (name : String) (ends more : List (Task × Outcome)) :
    troubles name (ends ++ more) = troubles name ends ++ troubles name more := List.filterMap_append

/-- Whether a message is an error. -/
def Message.isError (message : Message) : Bool := message.severity = .error

/-- All that a worker tells of tasks that have ended badly are errors. -/
theorem isError_troubles (name : String) (ends : List (Task × Outcome)) :
    (troubles name ends).filter Message.isError = troubles name ends := by
  refine List.filter_eq_self.mpr fun message member => ?_
  obtain ⟨entry, -, told⟩ := List.mem_filterMap.mp member
  obtain ⟨failure, -, rfl⟩ := Option.map_eq_some_iff.mp told
  rfl

namespace Duty

/-- What a worker has yet to tell of what has happened. -/
def pending (name : String) : Duty → List Message
  | .opening => [.started name]
  | .counting _ outcome => ((outcome.trouble? name).map (Message.troubled name)).toList
  | .reporting failure => (failure.map (Message.troubled name)).toList
  | _ => []

/-- What a worker has told last, once it has ended well. -/
def parting (name : String) : Duty → List Message
  | .gone false => [.finished name]
  | _ => []

end Duty

namespace Pool

/-- The tasks that were executed, each with the worker that ran it and with its end. -/
def executions (events : List Event) : List (Nat × Task × Outcome) :=
  events.filterMap fun
    | .ended worker task outcome => some (worker, task, outcome)
    | _ => none

/-- The tasks that a worker has brought to their end, each with its end. -/
def endsOf (index : Nat) (events : List Event) : List (Task × Outcome) :=
  (executions events).filterMap fun execution => if execution.1 =
    index then some execution.2 else none

/-- What a worker has told, as far as it was kept. -/
def said (index : Nat) (events : List Event) : List Message :=
  events.filterMap fun
    | .logged (.worker worker) message => if worker = index then some message else none
    | _ => none

/-- What callers have told, as far as it was kept. -/
def told (events : List Event) : List Message :=
  events.filterMap fun
    | .logged (.caller _) message => some message
    | _ => none

theorem executions_append (events more : List Event) :
    executions (events ++ more) = executions events ++ executions more := List.filterMap_append

theorem endsOf_append (index : Nat) (events more : List Event) :
    endsOf index (events ++ more) = endsOf index events ++ endsOf index more := by
  rw [endsOf, executions_append, List.filterMap_append]
  rfl

theorem said_append (index : Nat) (events more : List Event) :
    said index (events ++ more) = said index events ++ said index more := List.filterMap_append

/-- The tasks that have come to an end are those that were executed, by whomever. -/
theorem executions_ends (events : List Event) : (executions events).map (·.2) = endings events := by
  rw [executions, List.map_filterMap]
  refine List.filterMap_congr fun event _ => ?_
  cases event <;> rfl

/-- Nobody has executed anything where no task has come to an end. -/
theorem executions_eq_nil {events : List Event} (none : endings events = []) :
    executions events = [] := by
  rw [← executions_ends] at none
  exact List.map_eq_nil_iff.mp none

/--
What one worker tells is kept as what it has told, if it is kept at all,
and no other worker has told it.
-/
theorem said_kept (pool : Pool) (worker index : Nat) (message : Message) :
    said index (pool.kept (.worker worker) message) =
      if worker = index ∧ pool.sink.filter.admits message.severity =
          true then [message] else [] := by
  unfold kept
  by_cases mine : worker = index <;> cases pool.sink.filter.admits message.severity <;>
    simp [said, mine]

/-- What a worker tells is told by no caller. -/
@[simp] theorem told_kept (pool : Pool) (index : Nat) (message : Message) :
    told (pool.kept (.worker index) message) = [] := by
  unfold kept
  split <;> rfl

/-- What happens at the queue is told by nobody. -/
@[simp] theorem said_queue (index : Nat) (events : List (Queue.Event Thread Task)) :
    said index (events.map .queue) = [] := by
  simp [said, List.filterMap_map]

/-- What happens at the queue executes nothing. -/
@[simp] theorem executions_queue (events : List (Queue.Event Thread Task)) :
    executions (events.map .queue) = [] := by
  simp [executions, List.filterMap_map]

/-- A message executes nothing. -/
@[simp] theorem executions_kept (pool : Pool) (seat : Seat) (message : Message) :
    executions (pool.kept seat message) = [] := by
  unfold kept
  split <;> rfl

/--
The sink keeps the messages that are wanted.

It fails nobody, or nobody wants to know which workers have ended, since a worker
that breaks off does not tell.
-/
structure Hears (wanted : Message → Bool) (pool : Pool) : Prop where
  -- A filter looks at the severity only, so it may keep more than what is wanted.
  kept : ∀ message, wanted message = true → pool.sink.filter.admits message.severity = true
  safe : pool.Quiet ∨ ∀ worker, wanted (.finished worker) = false

/-- Every sink keeps what is wanted where nothing is. -/
theorem Hears.nothing (pool : Pool) : Hears (fun _ => false) pool := ⟨nofun, .inr fun _ => rfl⟩

variable {wanted : Message → Bool} {queue after : Queue Thread Task} {pool next : Pool}
  {events : List Event}

/-- A message that is told is kept if it is wanted. -/
theorem Hears.said_kept (hears : Hears wanted pool) (index : Nat) (message : Message) :
    (said index (pool.kept (.worker index) message)).filter wanted = [message].filter wanted := by
  rw [Pool.said_kept]
  cases wants : wanted message with
  | true => simp [hears.kept message wants]
  | false => split <;> simp [wants]

/-- Where a worker breaks off with a message, nobody wants to know which workers have ended. -/
theorem Hears.parting (hears : Hears wanted pool) {message : Message}
    (fails : pool.failsAt message = true) (name : String) (duty : Duty) :
    (duty.parting name).filter wanted = [] := by
  rcases hears.safe with quiet | only
  · -- A sink that fails nobody does not fail this worker.
    rw [quiet message] at fails
    cases fails
  · cases duty with
    | gone broken => cases broken <;> simp [Duty.parting, only name]
    | _ => rfl

/--
What one step of a worker adds to its diary, and that it adds nothing to what others have told.
-/
structure Entry (wanted : Message → Bool) (index : Nat) (name : String) (duty later : Duty)
    (events : List Event) :
    Prop where
  told : (said index events).filter wanted ++ (later.pending name).filter wanted =
    (duty.pending name).filter wanted ++ (troubles name (endsOf index events)).filter wanted ++
      (later.parting name).filter wanted := by rfl
  stays : duty.parting name = [] := by rfl
  outside : Pool.told events = [] := by rfl
  saysElse : ∀ other, other ≠ index → said other events = [] := by exact fun _ _ => rfl
  endsElse : ∀ other, other ≠ index → endsOf other events = [] := by exact fun _ _ => rfl

/-- A worker that tells what it had yet to tell goes on, or breaks off after that. -/
theorem Entry.utter {index : Nat} {name : String} {message : Message} {duty meant : Duty}
    (hears : Hears wanted pool) (stays : duty.parting name = [])
    (due : (duty.pending name).filter wanted ++ (meant.parting name).filter wanted =
      [message].filter wanted)
    (done : meant.pending name = []) :
    Entry wanted index name duty (pool.utter index message meant).1
      (pool.utter index message meant).2 := by
  have nothing (other : Nat) : endsOf other (pool.kept (.worker index) message) = [] := by
    simp [endsOf]
  refine { told := ?_, stays := stays, outside := told_kept pool index message,
           saysElse := fun other apart => ?_, endsElse := fun other _ => nothing other }
  · simp only [Pool.utter, hears.said_kept, nothing, troubles, List.filterMap_nil, List.filter_nil,
      List.append_nil]
    split
    · -- The message was kept before the worker broke off, and nothing is due after it.
      rename_i fails
      rw [← due, hears.parting fails, hears.parting fails]
      simp [Duty.pending]
    · rw [done, ← due]
      exact List.append_nil _
  · rw [Pool.utter, Pool.said_kept, if_neg fun both => apart both.1.symm]

/-- A task that was counted is about to be reported, unless it takes its worker with it before. -/
theorem Entry.counted (wanted : Message → Bool) (index : Nat) (name : String) (task : Task)
    (outcome : Outcome) :
    Entry wanted index name (.counting task outcome)
      (if outcome.isDeadly then .gone true else .reporting (outcome.trouble? name)) [] := by
  refine { told := ?_ }
  cases deadly : outcome.isDeadly with
  | true => simp [Duty.pending, Duty.parting, said, troubles, endsOf, executions,
      outcome.trouble?_deadly deadly]
  | false => simp [Duty.pending, Duty.parting, said, troubles, endsOf, executions]

/-- Whatever a worker does, it keeps its diary. -/
theorem work_entry {index : Nat} {name : String} {micros : UInt64} {duty later : Duty}
    (hears : Hears wanted pool)
    (worked : pool.work queue index name micros duty = some (after, next, later, events)) :
    Entry wanted index name duty later events := by
  cases duty with
  | opening =>
    cases worked
    exact .utter hears rfl (List.append_nil _) rfl
  | fetching =>
    -- Nothing is told where a task is taken, or none is there.
    simp only [work] at worked
    split at worked
    · cases worked
    · split at worked <;> cases worked <;> exact {}
  | working task left =>
    cases left with
    | nil =>
      -- The task ends, and what there is to tell of it is due.
      cases worked
      have ends : endsOf index [.ended index task task.outcome] = [(task, task.outcome)] := by
        simp [endsOf, executions]
      refine { told := ?_, endsElse := fun other apart => by simp [endsOf, executions, apart.symm] }
      rw [ends]
      cases trouble : task.outcome.trouble? name <;>
        simp [Duty.pending, Duty.parting, said, troubles, trouble]
    | cons action left => cases action <;> cases worked <;> exact {}
  | counting task outcome =>
    cases worked
    exact .counted wanted index name task outcome
  | reporting failure =>
    cases failure with
    | none =>
      cases worked
      exact {}
    | some failure =>
      cases worked
      exact .utter hears rfl (List.append_nil _) rfl
  | timing =>
    cases worked
    exact {}
  | closing =>
    cases worked
    exact .utter hears rfl (List.nil_append _) rfl
  | gone broken => cases worked

/--
The worker at each place has kept its diary, and nobody has kept one at a place
where there is no worker.
-/
structure Diaries (wanted : Message → Bool) (workers : List Worker)
    (events : List Event) : Prop where
  kept : ∀ (index : Nat) (name : String) (duty : Duty), workers[index]? = some ⟨name, duty⟩ →
    (said index events).filter wanted ++ (duty.pending name).filter wanted =
      (.started name :: troubles name (endsOf index events)).filter wanted ++
      (duty.parting name).filter wanted
  absent : ∀ index, workers.length ≤ index → said index events = [] ∧ endsOf index events = []

namespace Diaries

variable {workers : List Worker} {more : List Event}

/-- A worker that goes on keeps its own diary, and leaves those of the others alone. -/
theorem turn {index : Nat} {name : String} {duty later : Duty}
    (diaries : Diaries wanted workers events) (found : workers[index]? = some ⟨name, duty⟩)
    (entry : Entry wanted index name duty later more) :
    Diaries wanted (workers.set index ⟨name, later⟩) (events ++ more) where
  kept other known next there := by
    by_cases same : index = other
    · subst same
      rw [List.getElem?_set_self (List.getElem?_eq_some_iff.mp found).1] at there
      cases there
      have before := diaries.kept index name duty found
      rw [entry.stays, List.filter_nil, List.append_nil] at before
      -- What was pending is told now, or it is pending still, and what has ended is told after it.
      calc (said index (events ++ more)).filter wanted ++ (later.pending name).filter wanted
          = (said index events).filter wanted ++
              ((said index more).filter wanted ++ (later.pending name).filter wanted) := by
            rw [said_append, List.filter_append, List.append_assoc]
        _ = (said index events).filter wanted ++ (duty.pending name).filter wanted ++
              ((troubles name (endsOf index more)).filter wanted ++
                (later.parting name).filter wanted) := by
            rw [entry.told, List.append_assoc, List.append_assoc]
        _ = (.started name :: troubles name (endsOf index (events ++ more))).filter wanted ++
              (later.parting name).filter wanted := by
            rw [before, endsOf_append, troubles_append, ← List.cons_append, List.filter_append,
              List.append_assoc]
    · rw [List.getElem?_set_ne same] at there
      rw [said_append, endsOf_append, entry.saysElse other (Ne.symm same),
        entry.endsElse other (Ne.symm same), List.append_nil, List.append_nil]
      exact diaries.kept other known next there
  absent other beyond := by
    rw [List.length_set] at beyond
    have apart : other ≠ index := by
      rintro rfl
      exact absurd (List.getElem?_eq_some_iff.mp found).1 (Nat.not_lt.mpr beyond)
    rw [said_append, endsOf_append, entry.saysElse other apart, entry.endsElse other apart,
      List.append_nil, List.append_nil]
    exact diaries.absent other beyond

/--
What others do leaves all diaries alone, and a worker that is new has told
nothing and has yet to begin.
-/
theorem others {next : List Worker} (diaries : Diaries wanted workers events)
    (unsaid : ∀ index, said index more = []) (ends : ∀ index, endsOf index more = [])
    (grown : next = workers ∨ ∃ name, next = workers ++ [⟨name, .opening⟩]) :
    Diaries wanted next (events ++ more) := by
  have same (index : Nat) : said index (events ++ more) = said index events ∧
      endsOf index (events ++ more) = endsOf index events := by
    rw [said_append, endsOf_append, unsaid, ends, List.append_nil, List.append_nil]
    exact ⟨rfl, rfl⟩
  rcases grown with rfl | ⟨name, rfl⟩
  · refine ⟨fun index known duty found => ?_, fun index beyond => ?_⟩
    · rw [(same index).1, (same index).2]
      exact diaries.kept index known duty found
    · rw [(same index).1, (same index).2]
      exact diaries.absent index beyond
  · refine ⟨fun index known duty found => ?_, fun index beyond => ?_⟩
    · rw [(same index).1, (same index).2]
      rcases Nat.lt_or_ge index workers.length with old | new
      · rw [List.getElem?_append_left old] at found
        exact diaries.kept index known duty found
      · -- The new worker has the first place that nobody had.
        obtain ⟨unsaid, ends⟩ := diaries.absent index new
        rw [List.getElem?_append_right new] at found
        obtain ⟨rfl, rfl⟩ : name = known ∧ Duty.opening = duty := by
          obtain ⟨within, here⟩ := List.getElem?_eq_some_iff.mp found
          simpa using here
        rw [unsaid, ends]
        exact (List.append_nil _).symm
    · rw [(same index).1, (same index).2]
      exact diaries.absent index (by simp at beyond; omega)

/--
The errors that a worker has told, or has yet to tell, are those of its tasks
that have come to a bad end.
-/
theorem errors {index : Nat} {name : String} {duty : Duty}
    (diaries : Diaries Message.isError workers events)
    (found : workers[index]? = some ⟨name, duty⟩) :
    (said index events ++ duty.pending name).filter Message.isError =
    troubles name (endsOf index events) := by
  have kept := diaries.kept index name duty found
  -- What a worker tells first and last is no error.
  have parting : (duty.parting name).filter Message.isError = [] := by
    cases duty with
    | gone broken => cases broken <;> rfl
    | _ => rfl
  rw [parting, List.append_nil, ← List.filter_append] at kept
  exact kept.trans (isError_troubles name (endsOf index events))

end Diaries

end Pool

namespace World

open Pool (Diaries Hears said endsOf)

variable {wanted : Message → Bool} {world next : World} {events more : List Pool.Event}

/-- A turn that does not make the sink deaf to what is wanted. -/
def Turn.heeds (wanted : Message → Bool) : Turn → Prop
  | .refilter filter => ∀ message, wanted message = true → filter.admits message.severity = true
  | _ => True

/-- A sink that hears what is wanted goes on hearing it. -/
theorem step_hears {turn : Turn} (heeds : turn.heeds wanted) (hears : Hears wanted world.pool)
    (stepped : world.step turn = some (next, more)) : Hears wanted next.pool := by
  have sink := (step_frame stepped).sink
  constructor
  case kept =>
    intro message wants
    rw [sink]
    cases turn with
    | refilter filter => exact heeds message wants
    | _ => exact hears.kept message wants
  case safe =>
    -- What a sink fails on never changes.
    refine hears.safe.imp (fun quiet message => ?_) id
    rw [Pool.failsAt, sink]
    exact quiet message

/-- What a caller does is in no worker's diary. -/
theorem said_of_caller {call later : Pool.Call} {caller : Nat} {chance : Pool.Chance}
    {queue after : Queue Thread Task} {pool next : Pool}
    (stepped : call.step queue pool caller chance = some (after, next, later, events))
    (index : Nat) :
    said index events = [] ∧ endsOf index events = [] := by
  constructor
  · -- Only lines count, and the lines of a caller are its own.
    have own : said index (events.filter Pool.Event.isLine) = said index events := by
      simp only [said, List.filterMap_filter]
      refine List.filterMap_congr fun event _ => ?_
      cases event <;> rfl
    rw [← own, (Pool.Call.step_eq_some_iff.mp stepped).lines_eq]
    cases call.message? with
    | none => rfl
    | some message =>
      simp only [Option.elim, Pool.kept]
      split <;> rfl
  · rw [endsOf, Pool.executions_eq_nil (Pool.Call.step_submission stepped).ended]
    rfl

/-- Every turn keeps the diaries. -/
theorem step_diaries {turn : Turn} (diaries : Diaries wanted world.pool.workers events)
    (hears : Hears wanted world.pool) (stepped : world.step turn = some (next, more)) :
    Diaries wanted next.pool.workers (events ++ more) := by
  cases turn with
  | begin caller request =>
    obtain ⟨rfl, callers, rfl, -⟩ := step_begin stepped
    exact diaries.others (fun _ => rfl) (fun _ => rfl) (.inl rfl)
  | caller index chance =>
    obtain ⟨call, queue, pool, later, -, moved, rfl⟩ := step_caller.mp stepped
    exact diaries.others (fun index => (said_of_caller moved index).1)
      (fun index => (said_of_caller moved index).2)
      (Pool.Call.step_visit moved).workers
  | worker index chance =>
    obtain ⟨name, duty, queue, pool, later, found, moved, rfl⟩ := step_worker.mp stepped
    rw [(Pool.work_progress moved).same]
    exact diaries.turn found (Pool.work_entry hears moved)
  | openGate index =>
    obtain ⟨rfl, name, task, left, found, rfl⟩ := step_openGate stepped
    exact diaries.turn found {}
  | resume index broken =>
    obtain ⟨name, task, request, left, later, found, rfl, moved⟩ := step_resume stepped
    refine diaries.turn found ?_
    rcases moved with ⟨rfl, rfl⟩ | ⟨text, rfl, rfl⟩
    · exact {}
    · -- A task that breaks off with its call has something to be told of as well.
      refine { told := ?_, endsElse := fun other apart => by simp [endsOf,
        Pool.executions, apart.symm] }
      simp [Duty.pending, Duty.parting, said, endsOf, Pool.executions, troubles, Outcome.trouble?]
  | refilter filter =>
    cases stepped
    exact diaries.others (fun _ => rfl) (fun _ => rfl) (.inl rfl)

/-- In every run where the sink hears what is wanted, each worker has kept its diary. -/
theorem run_diaries {number : Nat} {settings : Settings} {sink : Sink} {turns : List Turn}
    (hears : Hears wanted (.fresh number settings sink)) (heeds : ∀ turn ∈ turns, turn.heeds wanted)
    (ran : runOf step (fresh number settings sink) turns = some (world, events)) :
    Diaries wanted world.pool.workers events := by
  -- That the sink hears what is wanted is kept as well, since each turn needs it.
  have kept := run_invariant_among (Turn.heeds wanted)
    (fun world events => Hears wanted world.pool ∧ Diaries wanted world.pool.workers events)
    ⟨hears, { kept := by simp [fresh, Pool.fresh], absent := fun _ _ => ⟨rfl, rfl⟩ }⟩
    (fun _ _ _ _ _ heeds held stepped =>
      ⟨step_hears heeds held.1 stepped, step_diaries held.2 held.1 stepped⟩)
    heeds ran
  exact kept.2

/--
In every run where the sink keeps errors, each worker has kept its diary as
far as it is one of errors.
-/
theorem run_errors {number : Nat} {settings : Settings} {sink : Sink} {turns : List Turn}
    (keeps : sink.filter.admits .error = true)
    (goesOn : ∀ filter, .refilter filter ∈ turns → filter.admits .error = true)
    (ran : runOf step (fresh number settings sink) turns = some (world, events)) :
    Diaries Message.isError world.pool.workers events := by
  -- A worker that breaks off with an error has told it, and that a worker ends is no error.
  have hears : Hears Message.isError (.fresh number settings sink) :=
    { kept := fun message error => by rw [of_decide_eq_true error]; exact keeps,
      safe := .inr fun _ => rfl }
  refine run_diaries hears (fun turn member => ?_) ran
  cases turn with
  | refilter filter =>
    intro message error
    rw [of_decide_eq_true error]
    exact goesOn filter member
  | _ => trivial

end World

end TaskPool
