import TaskPool.Proofs.Pool.Muster

/-!
A pool that was stopped stays so.

Once a stop has waited for all its workers, nothing that anybody does changes anything
about the pool but the count of submitted tasks. Tasks can still be put on the queue,
and starts are told that they come too late.

Nothing is assumed of the sink, so a start may also break off when it is told so.
-/

namespace TaskPool

namespace Pool

/--
Whether a call, if it is a start or a stop, is in one of the phases in which it does
nothing to a stopped pool.
-/
def Call.isVain : Call → Bool
  | .start _ .locking | .start _ .checking | .start _ .refusing | .start _ .unlocking => true
  | .stop .locking | .stop .claiming | .stop (.joining []) | .stop .unlocking => true
  | .start .. | .stop _ => false
  | _ => true

/-- What is true of a stopped pool when all its workers have ended. -/
structure Spent (pool : Pool) : Prop where
  stopped : pool.stopped = true
  idle : pool.running = false
  empty : pool.roster = []
  gone : ∀ worker ∈ pool.workers, worker.isGone = true
  unlocked : pool.rosterLock = none

/--
Whether nothing but the calls, the lock on the life of a pool, its count of tasks
and its filter has changed.
-/
def Alike (pool next : Pool) : Prop :=
  ∃ callers lifecycle submitted filter, next = { pool with
    callers := callers, lifecycle := lifecycle, submitted := submitted, sink :=
      { pool.sink with filter := filter } }

variable {queue after : Queue Thread Task} {pool next third : Pool} {events : List Event}
  {caller count : Nat} {call later : Call} {chance : Chance}

namespace Alike

/-- Nothing has changed. -/
theorem refl (pool : Pool) : Alike pool pool := ⟨_, _, _, _, rfl⟩

/-- One change after the other is a change. -/
theorem trans (first : Alike pool next) (second : Alike next third) : Alike pool third := by
  obtain ⟨_, _, _, _, rfl⟩ := first
  obtain ⟨_, _, _, _, rfl⟩ := second
  exact ⟨_, _, _, _, rfl⟩

/-- A pool stays spent. -/
theorem spent (alike : Alike pool next) (spent : pool.Spent) : next.Spent := by
  obtain ⟨_, _, _, _, rfl⟩ := alike
  exact ⟨spent.stopped, spent.idle, spent.empty, spent.gone, spent.unlocked⟩

end Alike

/-- What a spent pool shows of itself. -/
theorem Spent.overview (spent : pool.Spent) : pool.overview = ⟨false, 0, [], pool.submitted⟩ := by
  simp [Pool.overview, spent.idle, spent.empty]

/--
A caller that breaks off where nobody has the lock on the roster gives up the other lock at most.
-/
theorem release_eq (unlocked : pool.rosterLock = none) (caller : Nat) :
    ∃ lifecycle, pool.release caller = { pool with lifecycle := lifecycle } :=
  ⟨(pool.release caller).lifecycle, by simp [release, unlocked]⟩

/-- A caller of a spent pool that tells a message gives up the lock on its life at most. -/
theorem Telling.vain {message : Message} {onward : Call}
    (tells : Telling pool caller message onward next later events) (spent : pool.Spent)
    (vain : onward.isVain = true) :
    later.isVain = true ∧ ∃ lifecycle, next = { pool with lifecycle := lifecycle } := by
  -- Nobody has the lock on the roster, so there is one lock to give up at most.
  cases tells with
  | told => exact ⟨vain, _, rfl⟩
  | failed => exact ⟨rfl, release_eq spent.unlocked caller⟩

/-- A start that meets a spent pool changes nothing but the lock on its life. -/
theorem Starting.Move.vain {phase : Starting} {refusal : Option Trouble}
    (move : phase.Move pool caller count refusal next later events) (spent : pool.Spent)
    (vain : (Call.start count phase).isVain = true) :
    later.isVain = true ∧ ∃ lifecycle, next = { pool with lifecycle := lifecycle } := by
  -- The pool is marked as stopped, so a start gets no further than to its warning.
  cases move with
  | lock | bar | unlock => exact ⟨rfl, _, rfl⟩
  | pass open_ => exact absurd (open_.symm.trans spent.stopped) Bool.false_ne_true
  | refuse tells => exact tells.vain spent rfl
  | _ => cases vain

/-- A stop that meets a spent pool changes nothing but the lock on its life. -/
theorem Stopping.Move.vain {phase : Stopping} {timeUp : Bool} {worker : Nat}
    (move : phase.Move queue pool caller timeUp worker after next later events) (spent : pool.Spent)
    (vain : (Call.stop phase).isVain = true) :
    later.isVain = true ∧ after = queue ∧
    ∃ lifecycle, next = { pool with lifecycle := lifecycle } := by
  -- The pool does not run, so a stop has nothing to stop; the one that stopped it
  -- has nobody left to wait for.
  cases move with
  | lock | skip | rest | unlock => exact ⟨rfl, rfl, _, rfl⟩
  | claim running => exact absurd (spent.idle.symm.trans running) Bool.false_ne_true
  | @join left _ joined =>
    cases left with
    | nil => cases joined
    | cons => cases vain
  | _ => cases vain

/-- No call changes more of a spent pool than the lock on its life and its count of tasks. -/
theorem Call.Move.vain (move : call.Move queue pool caller chance after next later events)
    (spent : pool.Spent) (vain : call.isVain = true) :
    later.isVain = true ∧
      ∃ lifecycle submitted, next =
        { pool with lifecycle := lifecycle, submitted := submitted } := by
  -- Starts and stops touch the lock, and submissions the count.
  cases move with
  | @queue own onward =>
    -- A call of the queue goes on as one, or has ended.
    exact ⟨by cases onward <;> rfl, _, _, rfl⟩
  | start move =>
    obtain ⟨onward, lifecycle, same⟩ := move.vain spent vain
    exact ⟨onward, lifecycle, _, same⟩
  | stop move =>
    obtain ⟨onward, -, lifecycle, same⟩ := move.vain spent vain
    exact ⟨onward, lifecycle, _, same⟩
  | _ => exact ⟨rfl, _, _, rfl⟩

end Pool

namespace World

open Pool (Call Alike Spent)

/-- Whether a turn is that of a caller, or of somebody who changes the filter. -/
def Turn.isOutside : Turn → Bool
  | .begin .. | .caller .. | .refilter _ => true
  | _ => false

/-- Whether a pool is spent, its queue is closed, and nobody can change that. -/
structure Inert (world : World) : Prop where
  spent : world.pool.Spent
  closed : world.queue.closed = true
  vain : ∀ call ∈ world.pool.callers, call.isVain = true

variable {world next : World} {events : List Pool.Event} {number : Nat} {settings : Settings}
  {sink : Sink}

/-- A worker that has ended is neither working nor about to do anything. -/
theorem Inert.no_worker {index : Nat} {worker : Worker} (inert : world.Inert)
    (found : world.pool.workers[index]? = some worker) : ∃ broken, worker.duty = .gone broken := by
  have gone := inert.spent.gone worker (List.mem_of_getElem? found)
  obtain ⟨name, duty⟩ := worker
  cases duty with
  | gone broken => exact ⟨broken, rfl⟩
  | _ => cases gone

/-- Whatever happens to an inert pool, it stays inert, and no worker has a part in it. -/
theorem step_inert {turn : Turn} (inert : world.Inert)
    (stepped : world.step turn = some (next, events)) :
    next.Inert ∧ Alike world.pool next.pool ∧ turn.isOutside = true := by
  have closed := step_closed inert.closed stepped
  -- All workers have ended, so the turns that are left are those of callers and of
  -- whoever changes the filter.
  cases turn with
  | begin caller request =>
    obtain ⟨-, place, callers, rfl, placed, -⟩ := placed_of_step_begin stepped
    have alike : Alike world.pool { world.pool with callers := callers } := ⟨_, _, _, _, rfl⟩
    refine ⟨⟨alike.spent inert.spent, closed, fun call member => ?_⟩, alike, rfl⟩
    rcases placed.cases_mem member with rfl | ⟨other, -, known⟩
    · cases request <;> rfl
    · exact inert.vain call (List.mem_of_getElem? known)
  | caller index chance =>
    obtain ⟨call, queue, pool, later, found, moved, rfl⟩ := step_caller.mp stepped
    obtain ⟨onward, lifecycle, submitted, rfl⟩ :=
      (Pool.Call.step_eq_some_iff.mp moved).vain inert.spent
        (inert.vain call (List.mem_of_getElem? found))
    have alike : Alike world.pool
      (setCaller { world.pool with lifecycle := lifecycle, submitted := submitted } index
      later) := ⟨_, _, _, _, rfl⟩
    refine ⟨⟨alike.spent inert.spent, closed, fun other member => ?_⟩, alike, rfl⟩
    rcases List.mem_or_eq_of_mem_set member with old | rfl
    · exact inert.vain other old
    · exact onward
  | worker index chance =>
    obtain ⟨name, duty, queue, pool, later, found, moved, rfl⟩ := step_worker.mp stepped
    obtain ⟨broken, rfl⟩ : ∃ broken, duty = .gone broken := inert.no_worker found
    cases moved
  | openGate index =>
    obtain ⟨-, name, task, left, found, rfl⟩ := step_openGate stepped
    obtain ⟨broken, same⟩ := inert.no_worker found
    cases same
  | resume index broken =>
    obtain ⟨name, task, request, left, later, found, rfl, -⟩ := step_resume stepped
    obtain ⟨broken, same⟩ := inert.no_worker found
    cases same
  | refilter filter =>
    cases stepped
    have alike :
        Alike world.pool { world.pool with sink := { world.pool.sink with filter := filter } } :=
      ⟨_, _, _, _, rfl⟩
    exact ⟨⟨alike.spent inert.spent, closed, inert.vain⟩, alike, rfl⟩

/-- A pool is inert as soon as a stop has waited for all its workers. -/
theorem Reached.inert {watched : Watched} {stopper : Nat}
    (reached : Reached number settings sink watched)
    (joined : watched.world.pool.callers[stopper]? = some (.stop (.joining []))) :
    watched.world.Inert := by
  -- The stop has taken all workers off the roster and has nobody left to wait
  -- for, so everyone has ended.
  have mustered := run_mustered reached
  obtain ⟨turns, moments, ran⟩ := reached
  have went := run_of_recorded ran
  obtain ⟨⟨idle, stopped, gone⟩, empty⟩ := mustered.held stopper _ _ joined rfl
  have held := run_held went joined rfl
  -- Everyone else waits for the lock on the life of the pool, which is with the stop.
  have alone {caller : Nat} {call : Call} (found : watched.world.pool.callers[caller]? = some call)
      (staged : call.stage?.isSome = true) : caller = stopper :=
    Option.some.inj ((run_held went found staged).symm.trans held)
  refine ⟨⟨stopped, idle, empty, fun worker member => ?_, ?_⟩, ?_, fun call member => ?_⟩
  · obtain ⟨index, found⟩ := List.getElem?_of_mem member
    exact (gone index worker found).resolve_left List.not_mem_nil
  · -- Whoever creates workers would have the lock on the life of the pool, which is with the stop.
    by_contra taken
    obtain ⟨owner, owns⟩ := Option.ne_none_iff_exists'.mp taken
    obtain ⟨call, found, creating⟩ := (run_owned went).roster owner owns
    obtain rfl := alone found (Pool.Call.staged_of_isCreating creating)
    rw [joined] at found
    cases found
    cases creating
  · exact ((run_faring went).calls _ (List.mem_of_getElem? joined)).1
  · obtain ⟨caller, found⟩ := List.getElem?_of_mem member
    cases staged : call.stage?.isSome with
    | true =>
      obtain rfl := alone found staged
      rw [joined] at found
      cases found
      rfl
    | false =>
      -- Without the lock a start or a stop has not come far enough to do anything.
      cases call with
      | start count phase => cases phase <;> first | rfl | cases staged
      | stop phase => cases phase <;> first | rfl | cases staged
      | _ => rfl

namespace Moment

/-- Whether the lines kept at a moment are what the caller tells whose turn it is. -/
def Logs (moment : Moment) : Prop :=
  moment.events.filter Pool.Event.isLine = match moment.turn with
    | .caller caller _ => moment.message?.elim [] (moment.before.world.pool.kept (.caller caller))
    | _ => []

/-- Whether a task is put behind all others at a moment, and nothing else changes but calls. -/
def Puts (task : Task) (moment : Moment) : Prop :=
  ∃ callers, moment.next =
    ⟨moment.before.world.queue.append task, { moment.before.world.pool with callers := callers }⟩

/-- Whether nothing changes at a moment but calls, and who sleeps at the queue. -/
def Wakes (moment : Moment) : Prop :=
  ∃ asleep woken callers, moment.next =
    ⟨{ moment.before.world.queue with asleep := asleep, woken := woken },
      { moment.before.world.pool with callers := callers }⟩

/--
Whether one more task is counted as submitted at a moment, and nothing else changes but calls.
-/
def Counts (moment : Moment) : Prop :=
  ∃ callers, moment.next = { moment.before.world with
    pool := { moment.before.world.pool with callers := callers, submitted :=
      moment.before.world.pool.submitted + 1 } }

/-- Whether nothing changes about the pool at a moment but calls. -/
def IsBeside (moment : Moment) : Prop :=
  ∃ queue callers, moment.next = ⟨queue, { moment.before.world.pool with callers := callers }⟩

end Moment

/--
What a request of an inert pool comes to: what its caller has done for it by the end of its call.
-/
def Harmless : Pool.Request → List Moment → Call → Prop
  | .submit task, own, _ =>
    messages own = [] ∧ ∃ put told counted, own = [put, told, counted] ∧ put.Puts task ∧
      told.Wakes ∧ counted.Counts
  | .start _, own, _ => messages own = [.restartRefused] ∧ ∀ moment ∈ own, moment.IsIdle
  | .stop, own, _ => messages own = [] ∧ ∀ moment ∈ own, moment.IsIdle
  | .observe, own, call =>
    messages own = [] ∧ (∀ moment ∈ own, moment.IsIdle) ∧
      ∃ submitted, call = .returned (.overview ⟨false, 0, [], submitted⟩)
  | .queue _, own, _ => messages own = [] ∧ ∀ moment ∈ own, moment.IsBeside

/-- What a caller has done so far for a request of an inert pool, wherever its call has come to. -/
def VainTale : Pool.Request → List Moment → Call → Prop
  | .submit task, own, .submit (.pushing item) => own = [] ∧ item = task
  | .submit task, own, .submit .notifying => messages own = [] ∧ ∃ put, own = [put] ∧ put.Puts task
  | .submit task, own, .submit (.returned _) =>
    messages own = [] ∧ ∃ put told, own = [put, told] ∧ put.Puts task ∧ told.Wakes
  | .start _, own, .start _ .unlocking => messages own = [.restartRefused] ∧
      ∀ moment ∈ own, moment.IsIdle
  | .start _, own, .start .. | .stop, own, .stop _ => messages own = [] ∧
      ∀ moment ∈ own, moment.IsIdle
  | .observe, own, .observe => own = []
  | .queue _, own, .queue _ => messages own = [] ∧ ∀ moment ∈ own, moment.IsBeside
  | request, own, .returned answer => Harmless request own (.returned answer)
  | request, own, .broken text => Harmless request own (.broken text)
  | _, _, _ => False

variable {watched : Watched} {queue : Queue Thread Task} {pool : Pool} {caller count : Nat}
  {chance : Pool.Chance} {call later : Call} {own : List Moment} {request : Pool.Request}
  {moment : Moment}

/-- A start of an inert pool does what brings it nearer to its end. -/
theorem VainTale.start_goes {phase : Pool.Starting} {next : Pool} {refusal : Option Trouble}
    (spent : pool.Spent) (vain : (Call.start count phase).isVain = true)
    (move : phase.Move pool caller count refusal next later events)
    (acts : moment.call? = some (.start count phase)) (still : moment.IsIdle)
    (tale : VainTale request own (.start count phase)) :
    VainTale request (own ++ [moment]) later := by
  have told : messages (own ++ [moment]) =
      messages own ++ (Call.start count phase).message?.toList := by
    rw [messages_concat, Moment.message?, acts]
    rfl
  cases request with
  | start wanted =>
    have both : (∀ each ∈ own, each.IsIdle) → ∀ each ∈ own ++ [moment], each.IsIdle := fun idle =>
      List.forall_mem_append.mpr ⟨idle, List.forall_mem_singleton.mpr still⟩
    cases move with
    | lock | bar | unlock => exact ⟨told.trans (by rw [tale.1]; rfl), both tale.2⟩
    | pass open_ => exact absurd (open_.symm.trans spent.stopped) Bool.false_ne_true
    | refuse tells =>
      -- The warning counts as told also where the sink fails the caller.
      have warned : messages (own ++ [moment]) = [.restartRefused] :=
        told.trans (by rw [tale.1]; rfl)
      cases tells <;> exact ⟨warned, both tale.2⟩
    | _ => cases vain
  | _ => exact tale.elim

/-- A stop of an inert pool does what brings it nearer to its end. -/
theorem VainTale.stop_goes {phase : Pool.Stopping} {after : Queue Thread Task} {next : Pool}
    {timeUp : Bool} {worker : Nat} (spent : pool.Spent) (vain : (Call.stop phase).isVain = true)
    (move : phase.Move queue pool caller timeUp worker after next later events)
    (acts : moment.call? = some (.stop phase)) (still : moment.IsIdle)
    (tale : VainTale request own (.stop phase)) : VainTale request (own ++ [moment]) later := by
  have told : messages (own ++ [moment]) = messages own ++ (Call.stop phase).message?.toList := by
    rw [messages_concat, Moment.message?, acts]
    rfl
  cases request with
  | stop =>
    have both : ∀ each ∈ own ++ [moment], each.IsIdle :=
      List.forall_mem_append.mpr ⟨tale.2, List.forall_mem_singleton.mpr still⟩
    -- A pool that does not run is skipped, so all but the four moves of a vain stop are excluded.
    cases move with
    | lock | skip | rest | unlock => exact ⟨told.trans (by rw [tale.1]; rfl), both⟩
    | claim running => exact absurd (spent.idle.symm.trans running) Bool.false_ne_true
    | @join left _ joined =>
      cases left with
      | nil => cases joined
      | cons => cases vain
    | _ => cases vain
  | _ => exact tale.elim

/-- Whether or not somebody sleeps who can be told, nothing is put on the queue or taken off it. -/
theorem step_notifying {self : Thread} {chosen : Option Thread} {after : Queue Thread Task}
    {onward : Queue.Call Task} {told : List (Queue.Event Thread Task)}
    (moved : Queue.Call.notifying.step self chosen queue = some (after, onward, told)) :
    (∃ asleep woken, after = { queue with asleep := asleep, woken := woken }) ∧
      onward = .returned none := by
  cases chosen <;> simp only [Queue.Call.step, Option.ite_none_right_eq_some, Option.some.injEq,
    Prod.mk.injEq] at moved <;> obtain ⟨-, rfl, rfl, -⟩ := moved
  all_goals exact ⟨⟨_, _, rfl⟩, rfl⟩

/-- A submission puts its task on the queue, tells a sleeper, and is counted. -/
theorem VainTale.submit_goes {asked : Queue.Call Task} {after : Queue Thread Task} {next : Pool}
    (move : (Call.submit asked).Move queue pool caller chance after next later events)
    (before : moment.before.world = ⟨queue, pool⟩)
    (then_ : moment.next = ⟨after, setCaller next caller later⟩)
    (acts : moment.call? = some (.submit asked)) (tale : VainTale request own (.submit asked)) :
    VainTale request (own ++ [moment]) later := by
  -- Its three steps are told apart by what the call of the queue has come to.
  have silent : messages (own ++ [moment]) = messages own := by
    rw [messages_concat, Moment.message?, acts]
    exact List.append_nil _
  cases request with
  | submit task =>
    cases move with
    | push =>
      obtain ⟨rfl, rfl⟩ := tale
      exact ⟨silent, moment, rfl, _, by rw [before, then_]; rfl⟩
    | hand put moved =>
      cases asked with
      | notifying =>
        obtain ⟨untold, put, rfl, puts⟩ := tale
        obtain ⟨⟨asleep, awake, rfl⟩, rfl⟩ := step_notifying moved
        exact ⟨silent.trans untold, put, moment, rfl, puts, asleep, awake,
          _, by rw [before, then_]; rfl⟩
      | pushing item => exact absurd rfl (put item)
      | returned => cases moved
      | _ => exact tale.elim
    | count =>
      obtain ⟨untold, put, told, rfl, puts, wakes⟩ := tale
      exact ⟨silent.trans untold, put, told, moment, rfl,
        puts, wakes, _, by rw [before, then_]; rfl⟩
  | _ => exact tale.elim

/-- Each step of a call does what brings it nearer to its end, and nothing else to an inert pool. -/
theorem VainTale.goes {after : Queue Thread Task} (inert : watched.world.Inert)
    (found : watched.world.pool.callers[caller]? = some call)
    (moved : call.step watched.world.queue watched.world.pool caller chance =
      some (after, pool, later, events))
    (now : moment = callerMoment watched.world.queue after watched.world.pool pool watched.begun
      caller chance later events)
    (tale : VainTale request own call) : VainTale request (own ++ [moment]) later := by
  have vain := inert.vain call (List.mem_of_getElem? found)
  have acts : moment.call? = some call := by rw [now]; exact found
  have move := Pool.Call.step_eq_some_iff.mp moved
  -- What a caller does fits its request, which is the one that the tale is about.
  cases call with
  | submit asked => exact submit_goes move (by rw [now]; rfl) (by rw [now]; rfl) acts tale
  | queue asked =>
    cases move with
    | @queue _ onward =>
      have silent : messages (own ++ [moment]) = messages own := by
        rw [messages_concat, Moment.message?, acts]
        exact List.append_nil _
      cases request with
      | queue wanted =>
        have beside : moment.IsBeside := by rw [now]; exact ⟨_, _, rfl⟩
        have all : messages (own ++ [moment]) = [] ∧ ∀ each ∈ own ++ [moment], each.IsBeside :=
          ⟨silent.trans tale.1, List.forall_mem_append.mpr
            ⟨tale.2, List.forall_mem_singleton.mpr beside⟩⟩
        cases onward <;> exact all
      | _ => exact tale.elim
  | start count phase =>
    cases move with
    | start move =>
      obtain ⟨-, lifecycle, rfl⟩ := move.vain inert.spent vain
      exact start_goes inert.spent vain move acts (by rw [now]; exact ⟨_, _, rfl⟩) tale
  | stop phase =>
    cases move with
    | stop move =>
      obtain ⟨-, rfl, lifecycle, rfl⟩ := move.vain inert.spent vain
      exact stop_goes inert.spent vain move acts (by rw [now]; exact ⟨_, _, rfl⟩) tale
  | observe =>
    cases move with
    | observe free =>
      cases request with
      | observe =>
        obtain rfl : own = [] := tale
        refine ⟨?_, List.forall_mem_singleton.mpr (by rw [now]; exact ⟨_, _, rfl⟩),
          watched.world.pool.submitted, ?_⟩
        · rw [messages_concat, Moment.message?, acts]
          rfl
        · rw [inert.spent.overview]
      | _ => exact tale.elim
  | returned answer => cases moved
  | broken text => cases moved

/-- A call that has come to its end was harmless. -/
theorem VainTale.harmless (tale : VainTale request own call) (ended : call.hasEnded = true) :
    Harmless request own call := by
  cases call with
  | returned answer => cases request <;> exact tale
  | broken text => cases request <;> exact tale
  | _ => cases ended

/-- A request begins with nothing done. -/
theorem VainTale.begins (request : Pool.Request) : VainTale request [] request.call := by
  cases request with
  | queue asked => exact ⟨rfl, List.forall_mem_nil _⟩
  | submit task => exact ⟨rfl, rfl⟩
  | start count => exact ⟨rfl, List.forall_mem_nil _⟩
  | stop => exact ⟨rfl, List.forall_mem_nil _⟩
  | observe => exact rfl

/-- What can be said of every moment of an inert pool. -/
structure Moment.IsVain (moment : Moment) : Prop where
  outside : moment.turn.isOutside = true
  logs : moment.Logs
  warns : ∀ message, moment.message? = some message → message = .restartRefused

/--
Nobody but a caller of an inert pool tells anything, and that only to somebody who would start it.
-/
theorem Inert.isVain {turn : Turn} {moments : List Moment} {last : Watched}
    (inert : watched.world.Inert) (stepped : recorded watched turn = some (last, moments)) :
    last.world.Inert ∧ Alike watched.world.pool last.world.pool ∧
    ∀ moment ∈ moments, moment.IsVain := by
  obtain ⟨⟨next, events⟩, moved, same⟩ := Option.map_eq_some_iff.mp stepped
  cases same
  obtain ⟨onward, alike, outside⟩ := step_inert inert moved
  -- One turn makes one moment, and only a start that is refused has something to tell at it.
  refine ⟨onward, alike, List.forall_mem_singleton.mpr ?_⟩
  cases turn with
  | begin caller request =>
    obtain ⟨rfl, -⟩ := step_begin moved
    exact ⟨rfl, rfl, nofun⟩
  | caller index chance =>
    obtain ⟨call, queue, pool, later, found, went, rfl⟩ := step_caller.mp moved
    have vain := inert.vain call (List.mem_of_getElem? found)
    refine ⟨rfl, ?_, fun message told => ?_⟩
    · simp only [Moment.Logs, Moment.message?, Moment.call?, found]
      exact (Pool.Call.step_eq_some_iff.mp went).lines_eq
    · simp only [Moment.message?, Moment.call?, found, Option.bind_some] at told
      cases call with
      | start count phase =>
        cases phase <;>
          first | cases vain; done | cases told; done | exact (Option.some.inj told).symm
      | stop phase => cases phase <;> first | cases told; done | cases vain
      | _ => cases told
  | refilter filter =>
    cases moved
    exact ⟨rfl, rfl, nofun⟩
  | _ => cases outside

/-- An inert pool stays inert, and nothing about it changes that matters, whatever happens. -/
theorem run_inert {last : Watched} {turns : List Turn} {moments : List Moment}
    (inert : watched.world.Inert) (ran : runOf recorded watched turns = some (last, moments)) :
    last.world.Inert ∧ Alike watched.world.pool last.world.pool ∧
    ∀ moment ∈ moments, moment.IsVain := by
  -- From one turn to the next the pool stays inert, and the changes add up.
  refine run_invariant (fun last moments =>
    last.world.Inert ∧ Alike watched.world.pool last.world.pool ∧
    ∀ moment ∈ moments, moment.IsVain) ?_ ?_ ran
  · exact ⟨inert, .refl _, List.forall_mem_nil _⟩
  · rintro before past turn after new ⟨inert, alike, vain⟩ stepped
    obtain ⟨onward, more, last⟩ := inert.isVain stepped
    exact ⟨onward, alike.trans more, List.forall_mem_append.mpr ⟨vain, last⟩⟩

/-- Whether a call is a stop that has waited for all its workers. -/
def hasJoined : Call → Bool
  | .stop (.joining []) => true
  | _ => false

/-- A call that has waited for all workers is at the end of its waiting. -/
theorem eq_of_hasJoined {call : Call} (joined : hasJoined call = true) :
    call = .stop (.joining []) := by
  unfold hasJoined at joined
  split at joined
  · rfl
  · cases joined

end World

end TaskPool
