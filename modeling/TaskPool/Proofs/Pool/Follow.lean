import TaskPool.Proofs.Pool.Roster

/-!
One call followed from its beginning on: what its own caller does, one step after the other,
and what others may do meanwhile.
-/

namespace TaskPool

namespace Pool

/-- What a caller tells in some phases of its call, if it tells anything in this one. -/
def Call.message? : Call → Option Message
  | .start _ .refusing => some .restartRefused
  | .start count .announcing => some (.starting count)
  | .start _ (.lamenting _ failure) | .stop (.lamenting _ failure) => some (.lost failure)
  | .stop .announcing => some .stopRequested
  | .stop .warning => some .drainTimeout
  | .stop .parting => some .drained
  | _ => none

/-- Whether an event is that a line was kept. -/
def Event.isLine : Event → Bool
  | .logged .. => true
  | _ => false

variable {queue after : Queue Thread Task} {pool next : Pool} {events : List Event}
  {caller count : Nat} {call later : Call}

/-- What is kept of a message is lines only. -/
theorem filter_isLine_kept (pool : Pool) (seat : Seat) (message : Message) :
    (pool.kept seat message).filter Event.isLine = pool.kept seat message := by
  -- The filter of the sink lets the one line through or nothing.
  unfold kept
  split <;> rfl

/-- What happens at the queue is no line. -/
theorem filter_isLine_queue (events : List (Queue.Event Thread Task)) :
    (events.map Event.queue).filter Event.isLine = [] := by
  simp [List.filter_eq_nil_iff, Event.isLine]

/--
What is kept where a message is told is what is kept of the message,
also where the caller breaks off.
-/
theorem Telling.events_eq {message : Message} {onward : Call}
    (tells : Telling pool caller message onward next later events) :
    events = pool.kept (.caller caller) message := by
  -- The sink has kept the message by the time that it fails the caller.
  cases tells <;> rfl

/-- All that happens in the step of a start is that what the start tells in it may be kept. -/
theorem Starting.Move.events_eq {phase : Starting} {refusal : Option Trouble}
    (move : phase.Move pool caller count refusal next later events) :
    events = (Call.start count phase).message?.elim [] (pool.kept (.caller caller)) := by
  -- The phases that tell something are those with a message.
  cases move with
  | refuse tells | announce tells | lament tells => exact tells.events_eq
  | _ => rfl

/-- The lines kept in the step of a stop are what it tells in it. -/
theorem Stopping.Move.lines_eq {phase : Stopping} {timeUp : Bool} {worker : Nat}
    (move : phase.Move queue pool caller timeUp worker after next later events) :
    events.filter Event.isLine = (Call.stop phase).message?.elim []
      (pool.kept (.caller caller)) := by
  -- That the queue was closed is the one event of a stop which is no line.
  cases move with
  | announce tells | warn tells | part tells | lament tells =>
    exact (congrArg _ tells.events_eq).trans (filter_isLine_kept pool (.caller caller) _)
  | _ => rfl

/-- The lines kept in the step of a caller are what it tells in it. -/
theorem Call.Move.lines_eq {chance : Chance}
    (move : call.Move queue pool caller chance after next later events) :
    events.filter Event.isLine = call.message?.elim [] (pool.kept (.caller caller)) := by
  -- A call of the queue and a submission tell nothing, and neither keeps a line.
  cases move with
  | queue | hand => exact filter_isLine_queue _
  | @start count phase _ _ _ move =>
    rw [move.events_eq]
    cases (Call.start count phase).message? with
    | none => rfl
    | some message => exact filter_isLine_kept pool (.caller caller) message
  | stop move => exact move.lines_eq
  | _ => rfl

end Pool

namespace World

open Pool (Call SameLife)

variable {world next : World} {events : List Pool.Event} {number : Nat} {settings : Settings}
  {sink : Sink}

namespace Turn

/-- Whether a turn is one at which a caller begins a call. -/
def begins (caller : Nat) : Turn → Bool
  | .begin other _ => other = caller
  | _ => false

/-- Whether a turn is one at which a caller goes on with its call. -/
def isBy (caller : Nat) : Turn → Bool
  | .caller other _ => other = caller
  | _ => false

end Turn

namespace Moment

/-- What a caller tells at a moment, if it tells anything. -/
def message? (moment : Moment) : Option Message := moment.call?.bind Call.message?

/--
Whether a moment leaves everything but the calls and the lock on the life of the pool as it was.
-/
def IsIdle (moment : Moment) : Prop :=
  ∃ lifecycle callers, moment.next = { moment.before.world with
    pool := { moment.before.world.pool with lifecycle := lifecycle, callers := callers } }

end Moment

/-- The moments at which a caller goes on with its calls. -/
def ofCaller (caller : Nat) (moments : List Moment) : List Moment :=
  moments.filter fun moment => moment.turn.isBy caller

/-- A moment more is one more of a caller just if it is its turn. -/
theorem ofCaller_concat (caller : Nat) (moments : List Moment) (moment : Moment) :
    ofCaller caller (moments ++ [moment]) =
      ofCaller caller moments ++ if moment.turn.isBy caller then [moment] else [] := by
  rw [ofCaller, List.filter_append]
  cases mine : moment.turn.isBy caller <;> simp [mine, ofCaller]

/-- What a caller tells at some moments. -/
def messages (own : List Moment) : List Message := own.filterMap Moment.message?

/-- What a caller tells with one more moment. -/
theorem messages_concat (own : List Moment) (moment : Moment) :
    messages (own ++ [moment]) = messages own ++ moment.message?.toList := by
  rw [messages, List.filterMap_append]
  cases told : moment.message? <;> simp [told, messages]

/-- A call that begins has the place of its caller. -/
theorem found_of_step_begin {caller : Nat} {request : Pool.Request}
    (stepped : world.step (.begin caller request) = some (next, events)) :
    next.pool.callers[caller]? = some request.call := by
  simp only [step] at stepped
  split at stepped
  · -- A new caller comes behind all others.
    rename_i new
    cases stepped
    simp [new]
  · cases found : world.pool.callers[caller]? with
    | none => simp [found] at stepped
    | some call =>
      simp only [found, Option.ite_none_right_eq_some] at stepped
      obtain ⟨-, same⟩ := stepped
      cases same
      exact (Placed.set found).known

/-- A run whose moments are kept is a run. -/
theorem run_of_recorded {turns : List Turn} {watched : Watched} {moments : List Moment}
    (ran : runOf recorded (.fresh number settings sink) turns = some (watched, moments)) :
    runOf step (fresh number settings sink) turns =
    some (watched.world, moments.flatMap (·.events)) := by
  -- To keep the moments changes nothing about the turns.
  have same := runOf_recorded (.fresh number settings sink) turns
  rw [ran] at same
  exact same.symm

/-- Whether a world can be reached from a new pool. -/
def Reached (number : Nat) (settings : Settings) (sink : Sink) (watched : Watched) : Prop :=
  ∃ turns moments, runOf recorded (.fresh number settings sink) turns = some (watched, moments)

/-- One more turn leads to a world that can be reached. -/
theorem Reached.further {watched next : Watched} {turn : Turn} {moments : List Moment}
    (reached : Reached number settings sink watched)
    (stepped : recorded watched turn = some (next, moments)) :
    Reached number settings sink next := by
  obtain ⟨turns, past, ran⟩ := reached
  exact ⟨turns ++ [turn], past ++ moments, runOf_concat.mpr ⟨watched, past, moments, ran,
    stepped, rfl⟩⟩

/-- Any number of turns more lead to a world that can be reached. -/
theorem Reached.run {watched last : Watched} {turns : List Turn} {moments : List Moment}
    (reached : Reached number settings sink watched)
    (ran : runOf recorded watched turns = some (last, moments)) :
    Reached number settings sink last := by
  obtain ⟨early, past, born⟩ := reached
  exact ⟨early ++ turns, past ++ moments, runOf_append.mpr ⟨watched, past, moments, born, ran, rfl⟩⟩

/-- Every turn of a run has one moment. -/
theorem turns_of_recorded {start last : Watched} {turns : List Turn} {moments : List Moment}
    (ran : runOf recorded start turns = some (last, moments)) : moments.map (·.turn) = turns := by
  -- The induction takes the last turn off, together with its moment.
  induction turns using List.reverseRecOn generalizing last moments with
  | nil =>
    obtain ⟨-, rfl⟩ : start = last ∧ [] = moments := by simpa [runOf] using ran
    rfl
  | append_singleton turns turn ih =>
    obtain ⟨watched, earlier, new, reached, stepped, rfl⟩ := runOf_concat.mp ran
    obtain ⟨⟨next, events⟩, -, same⟩ := Option.map_eq_some_iff.mp stepped
    cases same
    rw [List.map_append, ih reached]
    rfl

/--
Around each of its moments a run falls into what was before, the turn of the
moment, and what came after.
-/
theorem recorded_split {start last : Watched} {turns : List Turn} {first rest : List Moment}
    {moment : Moment} (ran : runOf recorded start turns = some (last, first ++ moment :: rest)) :
    ∃ early next late, runOf recorded start early = some (moment.before, first) ∧
      recorded moment.before moment.turn = some (next, [moment]) ∧
      runOf recorded next late = some (last, rest) := by
  -- The induction takes the first turn off, which has one moment.
  induction turns generalizing start first with
  | nil => simp [runOf] at ran
  | cons turn turns ih =>
    obtain ⟨next, new, more, stepped, went, same⟩ := runOf_cons.mp ran
    obtain ⟨⟨world, events⟩, moved, made⟩ := Option.map_eq_some_iff.mp stepped
    cases made
    cases first with
    | nil =>
      obtain ⟨rfl, rfl⟩ := List.cons.inj same
      exact ⟨[], _, turns, rfl, stepped, went⟩
    | cons head first =>
      obtain ⟨rfl, rfl⟩ := List.cons.inj same
      obtain ⟨early, onward, late, began, turned, ended⟩ := ih went
      exact ⟨turn :: early, onward, late, runOf_cons.mpr ⟨_, _, _, stepped, began, rfl⟩,
        turned, ended⟩

/-- While a call holds the lock on the life of the pool, nobody else changes anything about it. -/
theorem sameLife_of_others {turn : Turn} {caller : Nat} {call : Call} (orderly : world.pool.Orderly)
    (quiet : world.pool.Quiet) (found : world.pool.callers[caller]? = some call)
    (staged : call.stage?.isSome = true) (other : turn.isBy caller = false)
    (stepped : world.step turn = some (next, events)) :
    SameLife world.pool next.pool := by
  -- Another caller that changed something would need the lock; workers never
  -- change the life of the pool.
  obtain ⟨stage, reached⟩ := Option.isSome_iff_exists.mp staged
  have held := (orderly.held caller call stage found reached).1
  cases turn with
  | begin index request =>
    obtain ⟨-, callers, rfl, -⟩ := step_begin stepped
    exact {}
  | caller index chance =>
    obtain ⟨known, queue, pool, later, there, moved, rfl⟩ := step_caller.mp stepped
    have own (stage : Pool.Stage) (reached : known.stage? = some stage) :=
      orderly.held index known stage there reached
    rcases Call.step_life quiet moved orderly.idle own with ⟨same, -⟩ | ⟨alone, -, -⟩
    · exact same.setCaller index later
    · -- The lock is neither free nor with the caller that goes on.
      have apart : index ≠ caller := by simpa [Turn.isBy] using other
      rcases alone with free | mine
      · rw [free] at held
        cases held
      · exact absurd (Option.some.inj (mine.symm.trans held)) apart
  | worker index chance =>
    obtain ⟨name, duty, queue, pool, later, there, moved, rfl⟩ := step_worker.mp stepped
    have present : (⟨name, duty⟩ : Worker).isGone = false := by
      cases duty with
      | gone broken => cases moved
      | _ => rfl
    rw [(Pool.work_progress moved).same]
    exact .setWorker later _ there present
  | openGate index =>
    obtain ⟨-, name, task, left, there, rfl⟩ := step_openGate stepped
    exact .setWorker _ world.pool.tally there rfl
  | resume index broken =>
    obtain ⟨name, task, request, left, later, there, rfl, -⟩ := step_resume stepped
    exact .setWorker _ world.pool.tally there rfl
  | refilter filter =>
    cases stepped
    exact {}

/--
A turn of somebody else leaves the place of a caller as it is, unless the caller begins a call.
-/
theorem callers_of_others {turn : Turn} {caller : Nat} (alone : turn.begins caller = false)
    (other : turn.isBy caller = false) (stepped : world.step turn = some (next, events)) :
    next.pool.callers[caller]? = world.pool.callers[caller]? := by
  -- Calls change only at the place of the caller that begins one or goes on.
  cases turn with
  | begin index request =>
    have apart : index ≠ caller := by simpa [Turn.begins] using alone
    simp only [step] at stepped
    split at stepped
    · rename_i new
      cases stepped
      exact Placed.append.others caller fun same => apart (new.trans same.symm)
    · split at stepped
      · obtain ⟨-, same⟩ := Option.ite_none_right_eq_some.mp stepped
        cases same
        exact List.getElem?_set_ne apart
      · cases stepped
  | caller index chance =>
    obtain ⟨known, queue, pool, later, there, moved, rfl⟩ := step_caller.mp stepped
    have apart : index ≠ caller := by simpa [Turn.isBy] using other
    have callers := (Call.step_visit moved).callers
    exact (List.getElem?_set_ne apart).trans (congrArg (·[caller]?) callers)
  | worker index chance =>
    obtain ⟨name, duty, queue, pool, later, there, moved, rfl⟩ := step_worker.mp stepped
    rw [(Pool.work_progress moved).same]
    rfl
  | openGate index =>
    obtain ⟨-, name, task, left, there, rfl⟩ := step_openGate stepped
    rfl
  | resume index broken =>
    obtain ⟨name, task, request, left, later, there, rfl, -⟩ := step_resume stepped
    rfl
  | refilter filter =>
    cases stepped
    rfl

/-- A call goes on only where its caller does. -/
theorem goes_of_isBy {turn : Turn} {caller : Nat} (mine : turn.isBy caller = true)
    (stepped : world.step turn = some (next, events)) :
    ∃ chance call queue pool later, turn = .caller caller chance ∧
      world.pool.callers[caller]? = some call ∧
      call.step world.queue world.pool caller chance = some (queue, pool, later, events) ∧
      next = ⟨queue, setCaller pool caller later⟩ ∧ next.pool.callers[caller]? = some later := by
  cases turn with
  | caller index chance =>
    obtain rfl : index = caller := by simpa [Turn.isBy] using mine
    obtain ⟨call, queue, pool, later, found, moved, rfl⟩ := step_caller.mp stepped
    refine ⟨chance, call, queue, pool, later, rfl, found, moved, rfl, ?_⟩
    rw [show (setCaller pool index later).callers = world.pool.callers.set index later from
      congrArg (List.set · index later) (Call.step_visit moved).callers]
    exact (Placed.set found).known
  | _ => cases mine

/--
What is said of a call at its beginning, and what every step of its own and every turn of somebody
else keep, is said of it as long as its caller begins no other.
-/
theorem follow {caller : Nat} (good : Watched → Prop) (tale : Pool → List Moment → Call → Prop)
    (keeps : ∀ watched turn next moments, good watched →
      recorded watched turn = some (next, moments) → good next)
    (others : ∀ (watched : Watched) turn next events own call, good watched →
      watched.world.pool.callers[caller]? = some call → turn.isBy caller = false →
      watched.world.step turn = some (next, events) → tale watched.world.pool own call →
      tale next.pool own call)
    (goes : ∀ (watched : Watched) chance queue pool later events own call, good watched →
      watched.world.pool.callers[caller]? = some call →
      call.step watched.world.queue watched.world.pool caller chance =
      some (queue, pool, later, events) → tale watched.world.pool own call →
      tale (setCaller pool caller later)
        (own ++ [callerMoment watched.world.queue queue watched.world.pool pool watched.begun caller
          chance later events]) later)
    {start last : Watched} {call : Call} {turns : List Turn} {moments : List Moment}
    (fine : good start) (found : start.world.pool.callers[caller]? = some call)
    (base : tale start.world.pool [] call) (alone : ∀ turn ∈ turns, turn.begins caller = false)
    (ran : runOf recorded start turns = some (last, moments)) :
    good last ∧ ∃ call, last.world.pool.callers[caller]? = some call ∧
      tale last.world.pool (ofCaller caller moments) call := by
  -- The induction takes the last turn off, which is one of the caller
  -- or leaves its call where it is.
  induction turns using List.reverseRecOn generalizing last moments with
  | nil =>
    obtain ⟨rfl, rfl⟩ : start = last ∧ [] = moments := by simpa [runOf] using ran
    exact ⟨fine, call, found, base⟩
  | append_singleton turns turn ih =>
    obtain ⟨watched, earlier, new, reached, stepped, rfl⟩ := runOf_concat.mp ran
    obtain ⟨fine, call, found, told⟩ :=
      ih (fun other member => alone other (List.mem_append_left _ member)) reached
    refine ⟨keeps _ _ _ _ fine stepped, ?_⟩
    obtain ⟨⟨next, events⟩, moved, same⟩ := Option.map_eq_some_iff.mp stepped
    cases same
    cases mine : turn.isBy caller with
    | false =>
      -- The call stands where it stood, and its caller has one moment less than the run.
      refine ⟨call, (callers_of_others (alone turn (by simp)) mine moved).trans found, ?_⟩
      rw [ofCaller_concat, mine, if_neg Bool.false_ne_true, List.append_nil]
      exact others watched turn next events _ call fine found mine moved told
    | true =>
      obtain ⟨chance, known, queue, pool, later, rfl, there, went, rfl, after⟩ :=
        goes_of_isBy mine moved
      -- The call that takes the step is the one that is followed.
      obtain rfl := Option.some.inj (found.symm.trans there)
      refine ⟨later, after, ?_⟩
      rw [ofCaller_concat, mine, if_pos rfl]
      exact goes watched chance queue pool later events _ call fine found went told

end World

end TaskPool
