import TaskPool.Proofs.Pool.Chronicle
import TaskPool.Proofs.Pool.Diary
import TaskPool.Proofs.Pool.Inert
import TaskPool.Proofs.Pool.Listeners
import TaskPool.Proofs.Pool.Nested

/-!
The log of the life of a pool.

Callers tell of its start and its stop, and each worker keeps its diary.
The first line of all is that of the start, the last ones say that some starts came too late,
and what the workers tell is in between.
-/

namespace TaskPool

namespace Pool

/-- What workers have told, as far as it was kept, each message with the worker that told it. -/
def uttered (events : List Event) : List (Nat × Message) :=
  -- The lines stay in the order in which they were told, whoever told them.
  events.filterMap fun
    | .logged (.worker worker) message => some (worker, message)
    | _ => none

/-- Whether a line is an error. -/
def Event.isError : Event → Bool
  | .logged _ message => message.isError
  | _ => false

/-- Whether a task came to a bad end. -/
def endedBadly (entry : Task × Outcome) : Bool := entry.2.tick ≠ .completed

variable {events : List Event}

/-- What one worker has told is what workers have told, as far as it was that one. -/
theorem said_eq (index : Nat) (events : List Event) :
    said index events = (uttered events).filterMap fun line => if line.1 = index then some line.2
      else none := by
  rw [said, uttered, List.filterMap_filterMap]
  refine List.filterMap_congr fun event _ => ?_
  cases event with
  | logged seat message => cases seat <;> rfl
  | _ => rfl

/-- Where neither callers nor workers have told anything, no line was kept. -/
theorem lines_eq_nil {events : List Event} (outside : told events = [])
    (inside : uttered events = []) :
    events.filter Event.isLine = [] := by
  rw [told, List.filterMap_eq_nil_iff] at outside
  rw [uttered, List.filterMap_eq_nil_iff] at inside
  refine List.filter_eq_nil_iff.mpr fun event member => ?_
  -- A line was told by somebody, and would be found on that side.
  cases event with
  | logged seat message =>
    cases seat with
    | caller => cases outside _ member
    | worker => cases inside _ member
  | _ => exact Bool.false_ne_true

/-- An error was told by a caller or by a worker. -/
theorem countP_isError (events : List Event) :
    events.countP Event.isError =
      (told events).countP Message.isError + (uttered events).countP (·.2.isError) := by
  -- The induction goes along the events; each line is on one of the two sides.
  unfold told uttered
  induction events with
  | nil => rfl
  | cons event rest ih =>
    cases event with
    | logged seat message =>
      cases seat <;> cases grave : message.isError <;> simp [Event.isError, ih, grave] <;> omega
    | _ => simpa [Event.isError] using ih

/-- Among entries with a place, those of one place are counted as often as the place is met. -/
theorem countP_place {α : Type} (counts : α → Bool) (entries : List (Nat × α)) (place : Nat) :
    (entries.filterMap fun entry => if entry.1 = place then some entry.2 else none).countP counts =
      ((entries.filter (counts ·.2)).map (·.1)).count place := by
  induction entries with
  | nil => rfl
  | cons entry rest ih =>
    by_cases here : entry.1 = place <;> cases counted : counts entry.2 <;> simp [here, counted, ih]

/--
Where at each place as much is counted on the one side as on the other, as much is counted in all.
-/
theorem countP_eq_of_places {α β : Type} {counts : α → Bool} {countsElse : β → Bool}
    {entries : List (Nat × α)} {others : List (Nat × β)}
    (same : ∀ place, (entries.filterMap fun entry => if entry.1 = place then some entry.2
      else none).countP counts = (others.filterMap fun entry => if entry.1 = place then some entry.2
        else none).countP countsElse) :
    entries.countP (counts ·.2) = others.countP (countsElse ·.2) := by
  -- The places that are met on either side are the same, each as often.
  have places : ((entries.filter (counts ·.2)).map (·.1)).Perm
      ((others.filter (countsElse ·.2)).map (·.1)) :=
    List.perm_iff_count.mpr fun place => by rw [← countP_place, ← countP_place, same place]
  simpa [List.countP_eq_length_filter] using places.length_eq

/--
Where no task came to a deadly end, a worker tells as many errors as there are
tasks that came to a bad one.
-/
theorem countP_troubles (name : String) {ends : List (Task × Outcome)}
    (mild : ∀ entry ∈ ends, entry.2.isDeadly = false) :
    (troubles name ends).countP Message.isError = ends.countP endedBadly := by
  induction ends with
  | nil => rfl
  | cons entry rest ih =>
    have told := ih fun other member => mild other (List.mem_cons_of_mem _ member)
    have harmless : entry.2.isDeadly = false := mild entry List.mem_cons_self
    obtain ⟨task, outcome⟩ := entry
    -- The ends that are not deadly have a message if they are bad, and none if they are not.
    cases outcome with
    | completed | failed =>
      simpa [troubles, Outcome.trouble?, endedBadly, Outcome.tick, Message.isError,
        Message.severity] using told
    | unspeakable => cases harmless
    | panicked payload =>
      cases payload with
      | volatile => cases harmless
      | _ => simpa [troubles, Outcome.trouble?, endedBadly, Outcome.tick, Message.isError,
          Message.severity] using told

/-- A task that came to a bad end returned a failure or broke off. -/
theorem countP_endedBadly (ends : List (Task × Outcome)) (failure : Failure) (payload : Payload) :
    ends.countP endedBadly =
      (ends.map (·.2)).countP (·.tick = (Outcome.failed failure).tick) +
        (ends.map (·.2)).countP (·.tick = (Outcome.panicked payload).tick) := by
  induction ends with
  | nil => rfl
  | cons entry rest ih =>
    obtain ⟨task, outcome⟩ := entry
    cases outcome <;> simp [endedBadly, Outcome.tick, ih] <;> omega

/-- Where no task came to a deadly end, none of one worker did. -/
theorem Mild.endsOf (mild : Mild events) (index : Nat) :
    ∀ entry ∈ endsOf index events, entry.2.isDeadly = false := by
  intro entry member
  -- What a worker has ended it has ended at some event.
  obtain ⟨execution, executed, own⟩ := List.mem_filterMap.mp member
  obtain ⟨event, happened, ended⟩ := List.mem_filterMap.mp executed
  have harmless := mild event happened
  cases event with
  | ended worker task outcome =>
    cases ended
    obtain ⟨-, same⟩ := Option.ite_none_right_eq_some.mp own
    cases same
    simpa [Event.isMild] using harmless
  | _ => cases ended

/-- For each thread that the system was asked for there is a worker, or something to tell. -/
theorem losses_length_add_hired_length (settings : Settings) (asked : List (Nat × Option Trouble)) :
    (losses settings asked).length + (hired settings asked).length = asked.length := by
  induction asked with
  | nil => rfl
  | cons entry rest ih =>
    obtain ⟨number, refusal⟩ := entry
    cases refusal <;> simp [losses, hired] at ih ⊢ <;> omega

end Pool

namespace World

open Pool (Call Diaries Event Feasible Mild endings endsOf executions hired losses
  said told uttered)

variable {number : Nat} {settings : Settings} {sink : Sink} {watched : Watched}
  {moments : List Moment} {events : List Event} {turns : List Turn} {moment : Moment} {count : Nat}

/-- What happens in all at some moments. -/
def happenings (moments : List Moment) : List Event := moments.flatMap (·.events)

/-- The lines of a caller, if the sink keeps all lines, are what it tells. -/
theorem lines_of_turn {turn : Turn} {last : World}
    (keeps : watched.world.pool.sink.filter = .upTo .trace)
    (stepped : watched.world.step turn = some (last, events))
    (now : moment = ⟨watched, turn, last, events⟩) :
    told moment.events = moment.message?.toList ∧
      ∀ message, moment.message? = some message →
        ∃ caller, moment.events.filter Event.isLine = [.logged (.caller caller) message] := by
  subst now
  -- Only a caller that goes on with its call tells something that is its own.
  have nothing (message : Message) (told : none = some message) :
      ∃ caller, events.filter Event.isLine = [.logged (.caller caller) message] := by cases told
  cases turn with
  | begin caller request =>
    obtain ⟨rfl, -⟩ := step_begin stepped
    exact ⟨rfl, nothing⟩
  | caller index chance =>
    obtain ⟨call, queue, pool, later, found, moved, rfl⟩ := step_caller.mp stepped
    have lines := (Pool.Call.step_eq_some_iff.mp moved).lines_eq
    have own : told (events.filter Event.isLine) = told events := by
      simp only [told, List.filterMap_filter]
      refine List.filterMap_congr fun event _ => ?_
      cases event <;> rfl
    have tells : (⟨watched, .caller index chance, ⟨queue, setCaller pool index later⟩, events⟩ :
      Moment).message? =
        call.message? := by
      simp [Moment.message?, Moment.call?, found]
    rw [tells]
    refine ⟨?_, fun message same => ⟨index, ?_⟩⟩
    · rw [← own, lines]
      cases call.message? with
      | none => rfl
      | some message => simp [Pool.kept, keeps, told]
    · show events.filter Event.isLine = _
      rw [lines, same]
      simp [Pool.kept, keeps]
  | worker index chance =>
    obtain ⟨name, duty, queue, pool, later, -, moved, rfl⟩ := step_worker.mp stepped
    exact ⟨(Pool.work_entry (.nothing _) moved).outside, nothing⟩
  | openGate index =>
    obtain ⟨rfl, -⟩ := step_openGate stepped
    exact ⟨rfl, nothing⟩
  | resume index broken =>
    obtain ⟨name, task, request, left, later, -, rfl, ⟨-, rfl⟩ | ⟨text, -, rfl⟩⟩ :=
      step_resume stepped <;>
      exact ⟨rfl, nothing⟩
  | refilter filter =>
    cases stepped
    exact ⟨rfl, nothing⟩

/-- In every run whose sink keeps all lines, those of callers are what they tell, in this order. -/
theorem run_told (keeps : sink.filter = .upTo .trace)
    (unhushed : ∀ turn ∈ turns, turn.hushesNobody = true)
    (ran : runOf recorded (.fresh number settings sink) turns = some (watched, moments)) :
    watched.world.pool.sink.filter = .upTo .trace ∧
    told (happenings moments) = messages moments := by
  refine run_invariant_among (·.hushesNobody = true) (fun watched moments =>
    watched.world.pool.sink.filter = .upTo .trace ∧ told (happenings moments) = messages moments)
    ⟨keeps, rfl⟩ ?_ unhushed ran
  rintro before earlier turn after new unhushed ⟨keeps, same⟩ stepped
  obtain ⟨⟨next, events⟩, moved, made⟩ := Option.map_eq_some_iff.mp stepped
  cases made
  refine ⟨keepsAll_of_step keeps unhushed moved, ?_⟩
  -- What one more turn has callers tell is what is kept of it.
  rw [messages_concat, ← (lines_of_turn keeps moved rfl).1, ← same]
  simp [happenings, told, List.flatMap_append]

/-- A start that took effect is the one that did, where only one has. -/
theorem Claimed.only (claimed : Claimed count moments) (once : moments.countP Moment.claims ≤ 1) :
    moments.countP Moment.claims = 1 ∧
      ∀ moment ∈ moments, moment.claims = true → moment.call? = some (.start count .claiming) := by
  obtain ⟨first, member, claims, call⟩ := claimed
  have there : first ∈ moments.filter Moment.claims := List.mem_filter.mpr ⟨member, claims⟩
  rw [List.countP_eq_length_filter] at once ⊢
  -- There is just one moment at which a start takes effect.
  obtain ⟨only, same⟩ :=
    List.length_eq_one_iff.mp (Nat.le_antisymm once (List.length_pos_of_mem there))
  refine ⟨by rw [same]; rfl, fun moment member claims => ?_⟩
  have here : moment ∈ moments.filter Moment.claims := List.mem_filter.mpr ⟨member, claims⟩
  rw [same, List.mem_singleton] at there here
  rw [here, ← there, call]

/-- Of a pool that stays stopped whatever happens, callers have told the whole story. -/
theorem Chronicle.closed (chronicle : Chronicle settings watched.world.pool moments)
    (inert : watched.world.Inert)
    (owned : ∀ caller, watched.world.pool.lifecycle = some caller →
      ∃ call, watched.world.pool.callers[caller]? = some call ∧ call.stage?.isSome = true) :
    Recounts settings watched.world.pool moments Closed := by
  have rested (rests : Rests settings watched.world.pool moments) :
      Recounts settings watched.world.pool moments Closed := by
    cases rests with
    | unstarted _ open_
        | started _ open_ => exact absurd (open_.symm.trans inert.spent.stopped) Bool.false_ne_true
    | stopped _ _ recounts => exact recounts
  cases free : watched.world.pool.lifecycle with
  | none => exact rested (chronicle.idle free)
  | some caller =>
    -- Whoever has the lock can do nothing with it.
    obtain ⟨call, found, staged⟩ := owned caller free
    have page := chronicle.held caller call found staged
    have vain := inert.vain call (List.mem_of_getElem? found)
    cases call with
    | start many phase =>
      cases phase with
      | checking | unlocking => exact rested page
      | refusing => exact rested page.2
      | locking => cases staged
      | _ => cases vain
    | stop phase =>
      cases phase with
      | claiming | unlocking => exact rested page
      | joining left =>
        obtain ⟨count, opening, words, claimed, opens, told, parted⟩ := page
        exact ⟨count, opening, words, claimed, opens, told, words, 0, parted,
          (List.append_nil _).symm⟩
      | locking => cases staged
      | _ => cases vain
    | _ => cases staged

/-- While there is no worker, no worker tells anything. -/
theorem uttered_eq_nil {wanted : Message → Bool}
    (diaries : Diaries wanted watched.world.pool.workers events)
    (nobody : watched.world.pool.workers = []) : uttered events = [] := by
  refine List.eq_nil_iff_forall_not_mem.mpr fun line member => ?_
  -- A line has the number of its worker, and no worker has this number.
  have silent := (diaries.absent line.1 (by simp [nobody])).1
  have there : line.2 ∈ said line.1 events := by
    rw [Pool.said_eq]
    exact List.mem_filterMap.mpr ⟨line, member, if_pos rfl⟩
  rw [silent] at there
  cases there

/-- A start that has just claimed the pool, and is about to announce that, finds no workers. -/
theorem unmanned_of_announcing (chronicle : Chronicle settings moment.before.world.pool moments)
    (telling : moment.message? = some (.starting count)) :
    moment.before.world.pool.workers = [] := by
  obtain ⟨call, acts, tells⟩ := Option.bind_eq_some_iff.mp telling
  unfold Moment.call? at acts
  split at acts
  · rename_i caller chance turn
    -- Only a start tells this, and only in one phase.
    cases call with
    | start many phase =>
      cases phase with
      | announcing =>
        obtain ⟨-, -, unasked, staff⟩ := chronicle.held caller _ acts rfl
        exact (staff.nobody unasked).1
      | _ => cases tells
    | stop phase => cases phase <;> cases tells
    | _ => cases tells
  · cases acts

/-- The first line that callers tell is the first line of all, if it is that of a start. -/
theorem first_line {words : List Message}
    (quiet : ∀ message : Message, sink.failsAt message.line = false)
    (keeps : sink.filter = .upTo .trace) (unhushed : ∀ turn ∈ turns, turn.hushesNobody = true)
    (ran : runOf recorded (.fresh number settings sink) turns = some (watched, moments))
    (mild : Mild (happenings moments)) (tells : messages moments = .starting count :: words) :
    ∃ caller rest, (happenings moments).filter Event.isLine =
      .logged (.caller caller) (.starting count) :: rest := by
  obtain ⟨first, announce, rest, rfl, silent, telling, -⟩ := List.filterMap_eq_cons_iff.mp tells
  obtain ⟨early, next, late, began, stepped, -⟩ := recorded_split ran
  have earlier : ∀ turn ∈ early, turn.hushesNobody = true := by
    intro turn member
    rw [← turns_of_recorded began] at member
    refine unhushed turn ?_
    rw [← turns_of_recorded ran, List.map_append]
    exact List.mem_append_left _ member
  obtain ⟨loud, same⟩ := run_told keeps earlier began
  obtain ⟨⟨last, events⟩, moved, made⟩ := Option.map_eq_some_iff.mp stepped
  obtain ⟨-, made⟩ := Prod.mk.inj made
  have now : announce = ⟨announce.before, announce.turn, last, events⟩ :=
    (List.singleton_inj.mp made).symm
  -- There are no workers yet, so nobody has told anything.
  rw [happenings, List.flatMap_append] at mild
  have nobody := unmanned_of_announcing (run_chronicle quiet began mild.of_append) telling
  have none : (happenings first).filter Event.isLine = [] := by
    have heeds : ∀ turn ∈ early, turn.heeds fun _ => false := by
      intro turn _
      cases turn with
      | refilter filter => exact nofun
      | _ => trivial
    have diaries := run_diaries (.nothing _) heeds (run_of_recorded began)
    refine Pool.lines_eq_nil ?_ (uttered_eq_nil diaries nobody)
    rw [same]
    exact List.filterMap_eq_nil_iff.mpr silent
  obtain ⟨caller, line⟩ := (lines_of_turn loud moved now).2 _ telling
  refine ⟨caller, (happenings rest).filter Event.isLine, ?_⟩
  rw [happenings, List.flatMap_append, List.flatMap_cons, List.filter_append, List.filter_append]
  rw [show (first.flatMap (·.events)).filter Event.isLine = [] from none, line]
  rfl

/--
A worker that has ended has told that it began, then of all its tasks that came to a
bad end, and that it ended.
-/
theorem said_of_gone {workers : List Worker} {index : Nat} {worker : Worker}
    (diaries : Diaries (fun _ => true) workers events) (found : workers[index]? = some worker)
    (gone : worker.duty = .gone false) :
    said index events =
      .started worker.name :: troubles worker.name (endsOf index events) ++
      [.finished worker.name] := by
  obtain ⟨name, duty⟩ := worker
  obtain rfl : duty = .gone false := gone
  have kept := diaries.kept index name _ found
  simpa [Duty.pending, Duty.parting] using kept

/-- Where all workers have ended, nobody has told of a worker that was lost, unless a caller has. -/
theorem no_worker_lost {workers : List Worker} (diaries : Diaries (fun _ => true) workers events)
    (gone : ∀ worker ∈ workers, worker.duty = .gone false)
    (callers : ∀ name, .lost (.join name) ∉ told events) (seat : Seat) (name : String) :
    .logged seat (.lost (.join name)) ∉ events := by
  intro member
  cases seat with
  | caller caller => exact callers name (List.mem_filterMap.mpr ⟨_, member, rfl⟩)
  | worker index =>
    -- The diary of a worker has nothing about other workers.
    have there : .lost (.join name) ∈ said index events :=
      List.mem_filterMap.mpr ⟨_, member, if_pos rfl⟩
    cases known : workers[index]? with
    | none =>
      rw [(diaries.absent index (List.getElem?_eq_none_iff.mp known)).1] at there
      cases there
    | some worker =>
      rw [said_of_gone diaries known (gone worker (List.mem_of_getElem? known))] at there
      simp [troubles] at there

/--
Where all workers have ended well, they have told of as many errors as tasks came to a bad end.
-/
theorem countP_uttered {workers : List Worker} (diaries : Diaries (fun _ => true) workers events)
    (gone : ∀ worker ∈ workers, worker.duty = .gone false) (mild : Mild events) :
    (uttered events).countP (·.2.isError) = (endings events).countP Pool.endedBadly := by
  calc (uttered events).countP (·.2.isError)
      = (executions events).countP (Pool.endedBadly ·.2) := by
        -- Each worker has told of the tasks that it has ended itself.
        refine Pool.countP_eq_of_places fun index => ?_
        rw [← Pool.said_eq]
        show (said index events).countP Message.isError =
          (endsOf index events).countP Pool.endedBadly
        cases found : workers[index]? with
        | none =>
          obtain ⟨silent, idle⟩ := diaries.absent index (List.getElem?_eq_none_iff.mp found)
          rw [silent, idle]
          rfl
        | some worker =>
          rw [said_of_gone diaries found (gone worker (List.mem_of_getElem? found)),
            List.countP_append, List.countP_cons, Pool.countP_troubles _ (mild.endsOf index)]
          rfl
    _ = (endings events).countP Pool.endedBadly := by
        rw [← Pool.executions_ends, List.countP_map]
        rfl

/-- The lines about the workers whose threads the system refused. -/
def lossLines (settings : Settings) (asked : List (Nat × Option Trouble)) : List Line :=
  asked.filterMap fun (number, refusal) => refusal.map fun trouble =>
    ⟨.error, "[Worker Pool] Failed to spawn worker '" ++ settings.workerName number ++ "': " ++
      trouble.display⟩

/-- The text about a worker that could not be created. -/
theorem line_loss (name : String) (trouble : Trouble) :
    (Message.lost (.spawn name trouble)).text =
      "[Worker Pool] Failed to spawn worker '" ++ name ++ "': " ++ trouble.display := by
  have whole : (Message.lost (.spawn name trouble)).text =
      "[Worker Pool]" ++ " " ++
        ("Failed to spawn worker '" ++ name ++ "': " ++ trouble.display) := rfl
  rw [whole]
  simp [← String.toList_inj]

/-- What is told about the workers whose threads were refused are these lines. -/
theorem lines_losses (settings : Settings) (asked : List (Nat × Option Trouble)) :
    (losses settings asked).map Message.line = lossLines settings asked := by
  rw [losses, List.map_filterMap]
  -- Number by number, a thread that was refused has one line and any other has none.
  apply List.filterMap_congr
  intro entry _
  obtain ⟨number, refusal⟩ := entry
  cases refusal with
  | none => rfl
  | some trouble =>
    exact congrArg (fun text => some (Line.mk .error text))
      (line_loss (settings.workerName number) trouble)

/--
What is known of the log of a pool that was started with some workers and stopped,
whatever its tasks came to.
-/
structure TellsAll (settings : Settings) (count refusals : Nat)
    (asked : List (Nat × Option Trouble)) (pool : Pool) (events : List Event) : Prop where
  /--
  The lines of callers: the start, the threads that were refused, the stop,
  and the starts that came too late.
  -/
  outside : ∃ opening waiting, Opening settings count asked pool.staffNames opening ∧
    Hurried waiting ∧
    told events = opening ++ (waiting ++ .drained :: List.replicate refusals .restartRefused)
  /--
  The lines of a worker: its begin, its tasks that came to a bad end, in the order
  in which it ran them, its end.
  -/
  inside : ∀ (index : Nat) (worker : Worker), pool.workers[index]? = some worker →
    said index events = .started worker.name :: troubles worker.name (endsOf index events) ++
    [.finished worker.name]
  /-- What the lines of callers say; of threads only a start tells that was feasible. -/
  outsideLines : ∃ refused waiting,
    (Feasible settings count → refused = lossLines settings asked) ∧
    (¬ Feasible settings count → refused = []) ∧
    (waiting = [] ∨ waiting = [⟨.warn, "[Worker Pool] Timeout waiting for queue to drain."⟩]) ∧
    (told events).map Message.line =
      ⟨.info, "[Worker Pool] Starting " ++ toString count ++ " workers"⟩ :: refused ++
      ⟨.info, "[Worker Pool] Stop requested, waiting for remaining tasks..."⟩ :: waiting ++
      ⟨.info, "[Worker Pool] Task queue drained, closing..."⟩ ::
      List.replicate refusals
        ⟨.warn, "[Worker Pool] Restart after stop is not supported, ignoring start"⟩
  /-- What the lines of a worker say. -/
  insideLines : ∀ (index : Nat) (worker : Worker), pool.workers[index]? = some worker →
    (said index events).map Message.line =
      ⟨.debug, "[Worker Pool][" ++ worker.name ++ "] Started"⟩ ::
      (endsOf index events).filterMap (fun entry => entry.2.line? worker.name) ++
      [⟨.debug, "[Worker Pool][" ++ worker.name ++ "] Finished"⟩]
  /-- Nobody else tells anything as a worker. -/
  beyond : ∀ index, pool.workers.length ≤ index → said index events = []
  /-- The first line of all is that of the start. -/
  first : ∃ caller rest, events.filter Event.isLine =
    .logged (.caller caller) (.starting count) :: rest
  /-- No stop has lost a worker. -/
  together : ∀ seat name, .logged seat (.lost (.join name)) ∉ events
  /--
  There is an error for each thread that was refused, and one for each task that came to a bad end.
  -/
  errors : Feasible settings count → (endings events).length < UInt64.size →
    events.countP Event.isError + pool.workers.length =
      count + pool.tally.failed.toNat + pool.tally.panicked.toNat

/-- The lines of a moment of an inert pool tell a start that it comes too late. -/
theorem Moment.IsVain.lines (vain : moment.IsVain) {event : Event}
    (member : event ∈ moment.events.filter Event.isLine) :
    ∃ caller, event = .logged (.caller caller) .restartRefused := by
  have logs := vain.logs
  rw [logs] at member
  -- Only a caller tells anything, and what it tells is the warning, if the sink keeps that.
  split at member
  · rename_i caller chance turn
    cases tells : moment.message? with
    | none =>
      rw [tells] at member
      cases member
    | some message =>
      rw [tells, vain.warns message tells, Option.elim, Pool.kept] at member
      split at member
      · exact ⟨caller, List.mem_singleton.mp member⟩
      · cases member
  · cases member

/-- What a start tells that takes effect: that it begins, and of threads that were refused. -/
theorem Opening.words {asked : List (Nat × Option Trouble)} {names : List String}
    {opening : List Message} (opens : Opening settings count asked names opening) :
    ∃ rest, opening = .starting count :: rest ∧
      ∀ message ∈ rest, ∃ name trouble, message = .lost (.spawn name trouble) := by
  cases opens with
  | staffed =>
    -- What is told behind the first message are the losses.
    refine ⟨_, rfl, fun message member => ?_⟩
    obtain ⟨⟨number, refusal⟩, -, told⟩ := List.mem_filterMap.mp member
    obtain ⟨trouble, -, rfl⟩ := Option.map_eq_some_iff.mp told
    exact ⟨_, trouble, rfl⟩
  | thwarted => exact ⟨[], rfl, List.forall_mem_nil _⟩

/-- What callers have told of a pool that was started and stopped, spelled out. -/
theorem Opening.lines {asked : List (Nat × Option Trouble)} {names : List String}
    {opening waiting : List Message} {refusals : Nat}
    (opens : Opening settings count asked names opening) (hurried : Hurried waiting) :
    ∃ refused warned,
      (Feasible settings count → refused = lossLines settings asked) ∧
      (¬ Feasible settings count → refused = []) ∧
      (warned = [] ∨ warned = [⟨.warn, "[Worker Pool] Timeout waiting for queue to drain."⟩]) ∧
      (opening ++ (waiting ++ Message.drained :: List.replicate refusals
        Message.restartRefused)).map Message.line =
        ⟨.info, "[Worker Pool] Starting " ++ toString count ++ " workers"⟩ :: refused ++
        ⟨.info, "[Worker Pool] Stop requested, waiting for remaining tasks..."⟩ :: warned ++
        ⟨.info, "[Worker Pool] Task queue drained, closing..."⟩ ::
        List.replicate refusals
          ⟨.warn, "[Worker Pool] Restart after stop is not supported, ignoring start"⟩ := by
  -- What was told first, and what is told from the stop on.
  obtain ⟨refused, feasible, infeasible, opened⟩ : ∃ refused,
      (Feasible settings count → refused = lossLines settings asked) ∧
      (¬ Feasible settings count → refused = []) ∧
      opening.map Message.line = ⟨.info, "[Worker Pool] Starting " ++ toString count ++
        " workers"⟩ :: refused := by
    have started : (Message.starting count).line =
        ⟨.info, "[Worker Pool] Starting " ++ toString count ++ " workers"⟩ :=
      congrArg (Line.mk .info) (by simp [Message.text, Message.heading])
    cases opens with
    | staffed feasible =>
      exact ⟨_, fun _ => rfl, fun other => absurd feasible other, by rw [List.map_cons, started,
        lines_losses]⟩
    | thwarted infeasible => exact ⟨[], fun other => absurd other infeasible, fun _ =>
      rfl, by simp [started]⟩
  obtain ⟨warned, either, waited⟩ : ∃ warned,
      (warned = [] ∨
        warned = [(⟨.warn, "[Worker Pool] Timeout waiting for queue to drain."⟩ : Line)]) ∧
      waiting.map Message.line =
        ⟨.info, "[Worker Pool] Stop requested, waiting for remaining tasks..."⟩ :: warned := by
    rcases hurried with rfl | rfl
    · exact ⟨[], .inl rfl, rfl⟩
    · exact ⟨_, .inr rfl, rfl⟩
  refine ⟨refused, warned, feasible, infeasible, either, ?_⟩
  rw [List.map_append, List.map_append, List.map_cons, List.map_replicate, opened, waited]
  simp only [List.cons_append, List.append_assoc]
  rfl

/-- What a worker has told that has ended well, spelled out. -/
theorem lines_of_worker (name : String) (ends : List (Task × Outcome)) :
    (Message.started name :: troubles name ends ++ [Message.finished name]).map Message.line =
      ⟨.debug, "[Worker Pool][" ++ name ++ "] Started"⟩ ::
        ends.filterMap (fun entry => entry.2.line? name) ++
      [⟨.debug, "[Worker Pool][" ++ name ++ "] Finished"⟩] := by
  -- The first and the last line are spelled out here, and those of the ends elsewhere.
  have started : (Message.started name).line = ⟨.debug, "[Worker Pool][" ++ name ++ "] Started"⟩ :=
    congrArg (Line.mk .debug)
      (by simp [Message.text, Message.workerHeading, Message.heading, ← String.toList_inj])
  have finished : (Message.finished name).line =
      ⟨.debug, "[Worker Pool][" ++ name ++ "] Finished"⟩ :=
    congrArg (Line.mk .debug)
      (by simp [Message.text, Message.workerHeading, Message.heading, ← String.toList_inj])
  rw [List.map_append, List.map_cons, lines_troubles, started, List.map_singleton, finished]

/--
In a closed story the refusals are those of starts that came too late, and there is no
error behind the opening.
-/
theorem Closed.words {words : List Message} (closed : Closed words) :
    ∃ waiting refusals, Hurried waiting ∧
      words = waiting ++ .drained :: List.replicate refusals .restartRefused ∧
      words.countP Message.isRefusal = refusals ∧ words.countP Message.isError = 0 ∧
      ∀ failure, .lost failure ∉ words := by
  obtain ⟨_, refusals, ⟨waiting, hurried, rfl⟩, rfl⟩ := closed
  -- Behind the end of the stop there is the same warning over and over.
  have late : (List.replicate refusals Message.restartRefused).countP Message.isRefusal = refusals ∧
      (List.replicate refusals Message.restartRefused).countP Message.isError = 0 := by
    simp [List.countP_replicate, Message.isRefusal, Message.isError, Message.severity]
  refine ⟨waiting, refusals, hurried, List.append_assoc .., ?_, ?_, ?_⟩
  · rw [List.countP_append, List.countP_append, late.1]
    rcases hurried with rfl | rfl <;> exact Nat.zero_add _
  · rw [List.countP_append, List.countP_append, late.2]
    rcases hurried with rfl | rfl <;> rfl
  · rcases hurried with rfl | rfl <;> simp

/--
There is an error for each thread that was refused, and one for each task that came to a bad end.
-/
theorem countP_errors {asked : List (Nat × Option Trouble)} {workers : List Worker}
    {opening words : List Message}
    (opens : Opening settings count asked (workers.map (·.name)) opening)
    (fine : words.countP Message.isError = 0) (tells : told events = opening ++ words)
    (diaries : Diaries (fun _ => true) workers events)
    (gone : ∀ worker ∈ workers, worker.duty = .gone false) (mild : Mild events)
    (feasible : Feasible settings count) :
    events.countP Event.isError + workers.length =
    count + (endings events).countP Pool.endedBadly := by
  -- The opening has an error for each thread that was asked for and has no worker.
  have opening : opening.countP Message.isError + workers.length = count := by
    cases opens with
    | thwarted infeasible => exact absurd feasible infeasible
    | staffed _ numbers staff =>
      have all : (losses settings asked).countP Message.isError =
          (losses settings asked).length := by
        refine List.countP_eq_length.mpr fun message member => ?_
        obtain ⟨⟨number, refusal⟩, -, told⟩ := List.mem_filterMap.mp member
        obtain ⟨trouble, -, rfl⟩ := Option.map_eq_some_iff.mp told
        rfl
      have asking : asked.length = count := by simpa using congrArg List.length numbers
      have staffing : workers.length = (hired settings asked).length := by
        simpa using congrArg List.length staff
      rw [List.countP_cons, all, staffing, ← asking, ← Pool.losses_length_add_hired_length
        settings asked]
      rfl
  rw [Pool.countP_isError, tells, List.countP_append, fine, countP_uttered diaries gone mild]
  omega

/--
In every run whose sink keeps all lines and fails nobody, each worker has kept its diary in full.
-/
theorem run_tells (quiet : ∀ message : Message, sink.failsAt message.line = false)
    (keeps : sink.filter = .upTo .trace) (unhushed : ∀ turn ∈ turns, turn.hushesNobody = true)
    (ran : runOf recorded (.fresh number settings sink) turns = some (watched, moments)) :
    Diaries (fun _ => true) watched.world.pool.workers (happenings moments) := by
  refine run_diaries ⟨fun message _ => ?_, .inl quiet⟩ (fun turn member => ?_) (run_of_recorded ran)
  · show sink.filter.admits message.severity = true
    rw [keeps]
    exact Filter.trace_admits _
  · cases turn with
    | refilter filter =>
      -- Whoever changes the filter leaves it the widest one.
      intro message _
      rw [of_decide_eq_true (unhushed _ member)]
      exact Filter.trace_admits _
    | _ => trivial

/-- Where no worker has broken off, all workers of an inert pool have come to a good end. -/
theorem Inert.gone_well (inert : watched.world.Inert)
    (sound : ∀ worker ∈ watched.world.pool.workers, worker.duty ≠ .gone true) :
    ∀ worker ∈ watched.world.pool.workers, worker.duty = .gone false := by
  intro worker member
  obtain ⟨index, found⟩ := List.getElem?_of_mem member
  -- An inert pool has no worker that could still go on.
  obtain ⟨broken, gone⟩ := inert.no_worker found
  cases broken with
  | true => exact absurd gone (sound worker member)
  | false => exact gone

/--
Any number of threads use a new pool and its queue in any order, its sink keeps everything and fails
nobody, no task comes to a deadly end, and a stop has come to the end of its wait for all workers,
which is before it returns.

Then just one start has taken effect. What callers have told is, in this order,
that this start began, of each thread that the system refused, that the stop began,
perhaps that time was up, that the queue was closed, and then only that some starts came too late,
each of which is told so once; but of threads only if the start was feasible, since otherwise it
broke off before it had asked for any. Each worker has told that it began, then of each task that it
ran to a bad end, in this order, and that it ended. The line of the start is the first of all,
and from the end of that wait on there are only lines that starts came too late.
There are as many errors as threads that were refused and tasks that came to a bad end,
and none of them says that the stop has lost a worker. All these lines are spelled out.
-/
theorem life_is_told_in_order {stopper : Nat} {early late : List Turn} {before after : Watched}
    {past : List Moment} (quiet : ∀ message : Message, sink.failsAt message.line = false)
    (keeps : sink.filter = .upTo .trace)
    (unhushed : ∀ turn ∈ early ++ late, turn.hushesNobody = true)
    (ran : runOf recorded (.fresh number settings sink) early = some (before, past))
    (joined : before.world.pool.callers[stopper]? = some (.stop (.joining [])))
    (went : runOf recorded before late = some (after, moments))
    (mild : Mild (happenings (past ++ moments))) :
    ∃ count refusals,
      (past ++ moments).countP Moment.claims = 1 ∧
      (∀ moment ∈ past ++ moments, moment.claims = true →
        moment.call? = some (.start count .claiming)) ∧
      refusals + after.world.pool.callers.countP Call.isRefusing =
      (past ++ moments).countP Moment.isBarred ∧
      TellsAll settings count refusals (attempts (past ++ moments)) after.world.pool
        (happenings (past ++ moments)) ∧
      ∀ event ∈ (happenings moments).filter Event.isLine,
        ∃ caller, event = .logged (.caller caller) .restartRefused := by
  have start : Reached number settings sink before := ⟨early, past, ran⟩
  have whole := runOf_append.mpr ⟨before, past, moments, ran, went, rfl⟩
  obtain ⟨inert, -, vain⟩ := run_inert (start.inert joined) went
  obtain ⟨⟨deeds, annals, present⟩, -⟩ := run_present whole
  -- Callers have told the whole story by now, and the sink has kept it.
  obtain ⟨count, opening, words, claimed, opens, tells, closed⟩ :=
    ((run_chronicle quiet whole mild).closed inert present.owned).tells
  obtain ⟨waiting, refusals, hurried, rfl, late, fine, found⟩ := closed.words
  obtain ⟨starting, rfl, lost⟩ := opens.words
  obtain ⟨once, only⟩ := claimed.only (annals.claims ▸ Bool.toNat_le _)
  have kept := (run_told keeps unhushed whole).2
  have diaries := run_tells quiet keeps unhushed whole
  have gone := inert.gone_well ((run_orderly quiet (run_of_recorded whole)).1.unbroken_of_mild mild)
  refine ⟨count, refusals, once, only, ?refused,
    ⟨?outside, ?inside, ?outsideLines, ?insideLines, ?beyond, ?first, ?together, ?errors⟩, ?behind⟩
  case refused =>
    have none : (.starting count :: starting).countP Message.isRefusal = 0 := by
      refine List.countP_eq_zero.mpr
        (List.forall_mem_cons.mpr ⟨Bool.false_ne_true, fun message member => ?_⟩)
      obtain ⟨name, trouble, rfl⟩ := lost message member
      exact Bool.false_ne_true
    rw [← run_refusals whole, tells, List.countP_append, none, late, Nat.zero_add]
  case outside => exact ⟨_, waiting, opens, hurried, kept.trans tells⟩
  case inside =>
    intro index worker there
    exact said_of_gone diaries there (gone worker (List.mem_of_getElem? there))
  case outsideLines =>
    rw [kept, tells]
    exact opens.lines hurried
  case insideLines =>
    intro index worker there
    rw [said_of_gone diaries there (gone worker (List.mem_of_getElem? there))]
    exact lines_of_worker worker.name (endsOf index _)
  case beyond => exact fun index beyond => (diaries.absent index beyond).1
  case first => exact first_line quiet keeps unhushed whole mild tells
  case together =>
    refine no_worker_lost diaries gone fun name there => ?_
    -- Among the lines of callers, only those about threads that were refused are about a loss.
    rw [kept, tells, List.mem_append, List.mem_cons] at there
    rcases there with (same | there) | there
    · cases same
    · obtain ⟨_, _, same⟩ := lost _ there
      cases same
    · exact found _ there
  case errors =>
    intro feasible few
    have balanced := run_balanced (run_of_recorded whole)
    -- No counter has passed its word, since no more was counted than has ended.
    have counter (outcome : Outcome) : (after.world.pool.tally.counter outcome).toNat =
        ((endings (happenings (past ++ moments))).map (·.2)).countP (·.tick = outcome.tick) := by
      rw [balanced.counter_eq (fun worker member => by rw [gone worker member]; rfl) outcome]
      refine UInt64.toNat_ofNat_of_lt' (Nat.lt_of_le_of_lt List.countP_le_length ?_)
      rw [List.length_map]
      exact few
    rw [countP_errors opens fine (kept.trans tells) diaries gone mild feasible,
      Pool.countP_endedBadly _ (.other "") .unreadable, ← counter, ← counter, ← Nat.add_assoc]
    rfl
  case behind =>
    intro event member
    obtain ⟨there, line⟩ := List.mem_filter.mp member
    obtain ⟨moment, among, here⟩ := List.mem_flatMap.mp there
    exact (vain moment among).lines (List.mem_filter.mpr ⟨here, line⟩)

/--
Of two workers the system creates one; it runs a task that breaks off, while a stop gives up
its wait for the queue and then has waited for the worker.
-/
def scarcePool : List Turn :=
  .begin 0 (.start 2) :: scarceStart ++
  [.begin 1 (.submit (shortTask 1 (.panicked .unreadable))), .caller 1 hasty, .begin 0 .stop] ++
  List.replicate 10 (.caller 0 hasty) ++ List.replicate 8 (.worker 0 hasty) ++ [.caller 0 hasty]

/-- The stop returns, and somebody else starts the pool once more. -/
def restartedPool : List Turn :=
  List.replicate 2 (.caller 0 hasty) ++ .begin 2 (.start 1) :: List.replicate 4 (.caller 2 hasty)

/--
The log has an error for the worker that was not created and one for the task,
and a warning for the late start.
-/
theorem scarce_pool_tells_all :
    ∃ before past after moments count refusals,
      runOf recorded (.fresh 0 .default .keepAll) scarcePool = some (before, past) ∧
      before.world.pool.callers[0]? = some (.stop (.joining [])) ∧
      runOf recorded before restartedPool = some (after, moments) ∧
      (told (happenings (past ++ moments))).map Message.severity =
      [.info, .error, .info, .warn, .info, .warn] ∧
      (said 0 (happenings (past ++ moments))).map Message.severity = [.debug, .error, .debug] ∧
      TellsAll .default count refusals (attempts (past ++ moments)) after.world.pool
        (happenings (past ++ moments)) := by
  -- The two parts of the run are evaluated once, with all that is to be known about them.
  have run : ((runOf recorded (.fresh 0 .default .keepAll) scarcePool).bind fun run =>
      (runOf recorded run.1 restartedPool).map fun went =>
        ((run.1.world.pool.callers[0]?).any hasJoined,
          (happenings (run.2 ++ went.2)).all Event.isMild,
          (told (happenings (run.2 ++ went.2))).map Message.severity,
          (said 0 (happenings (run.2 ++ went.2))).map Message.severity)) =
      some (true, true, [.info, .error, .info, .warn, .info, .warn], [.debug, .error, .debug]) := by
    decide +kernel
  simp only [Option.bind_eq_some_iff, Option.map_eq_some_iff, Prod.exists, Prod.mk.injEq,
    Option.any_eq_true] at run
  obtain ⟨before, past, began, after, moments, went, ⟨call, found, joined⟩, mild, outside,
    inside⟩ := run
  have stopped : before.world.pool.callers[0]? = some (.stop (.joining [])) :=
    eq_of_hasJoined joined ▸ found
  -- The sink keeps everything, fails nobody, and nobody tells it otherwise.
  obtain ⟨count, refusals, -, -, -, tells, -⟩ :=
    life_is_told_in_order (fun _ => rfl) rfl (by decide) began stopped went
      (List.all_eq_true.mp mild)
  exact ⟨before, past, after, moments, count, refusals, began, stopped, went, outside,
    inside, tells⟩

/-- A start of one worker with a name that no thread can have, and then a stop. -/
def oddlyNamedPool : List Turn :=
  .begin 0 (.start 1) :: List.replicate 6 (.caller 0 hasty) ++ .begin 0 .stop ::
  List.replicate 11 (.caller 0 hasty)

/--
The start takes effect and the stop returns, but nobody tells of the worker that was not created.
-/
theorem oddly_named_pool_tells_no_error :
    oddlyNamed.validate = .ok oddlyNamed ∧
    ∃ watched moments,
      runOf recorded (.fresh 0 oddlyNamed .keepAll) oddlyNamedPool = some (watched, moments) ∧
      moments.countP Moment.claims = 1 ∧ moments.countP Moment.halts = 1 ∧
      (watched.world.pool.callers[0]?).any hasReturned = true ∧
      (told (happenings moments)).map Message.severity = [.info, .info, .info] ∧
      (happenings moments).countP Event.isError ≠
        1 - watched.world.pool.workers.length + watched.world.pool.tally.failed.toNat +
          watched.world.pool.tally.panicked.toNat := by
  refine ⟨by simp [Settings.validate, oddlyNamed, Settings.default, Span.toNanos], ?_⟩
  have run : ((runOf recorded (.fresh 0 oddlyNamed .keepAll) oddlyNamedPool).map fun run =>
      ((run.1.world.pool.callers[0]?).any hasReturned,
        (told (happenings run.2)).map Message.severity, run.1.world.pool.tally,
        [run.2.countP Moment.claims, run.2.countP Moment.halts,
          (happenings run.2).countP Event.isError, run.1.world.pool.workers.length])) =
      some (true, [.info, .info, .info], .zero, [1, 1, 0, 0]) := by
    decide +kernel
  simp only [Option.map_eq_some_iff, Prod.exists, Prod.mk.injEq, List.cons.injEq, and_true] at run
  obtain ⟨watched, moments, ran, returned, outside, tally, claims, halts, errors, nobody⟩ := run
  refine ⟨watched, moments, ran, claims, halts, returned, outside, ?_⟩
  -- No error was told, but one worker is missing.
  rw [errors, nobody, tally]
  decide

end World

end TaskPool
