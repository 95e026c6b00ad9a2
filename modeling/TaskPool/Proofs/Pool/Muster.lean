import TaskPool.Proofs.Pool.Follow
import TaskPool.Proofs.Pool.Standstill

/-!
Who is on the roster of a pool, whatever its sink does.

A start or a stop that breaks off with a message leaves the workers as they are.
So the roster has all of them until a stop takes them off it, and that stop waits for every one.
-/

namespace TaskPool

namespace Pool

/-- What is true of the workers at a stage, also where calls break off. -/
def Stage.Musters (pool : Pool) : Stage → Prop
  | .resting | .startable => True
  | .leaving left => (Stage.leaving left).Holds pool ∧ pool.roster = []
  | stage => stage.Holds pool

/--
Whether the roster has all workers of a pool that was not stopped, and those that
the stage of a call says.
-/
structure Call.Musters (pool : Pool) (call : Call) : Prop where
  enrolled : pool.stopped = false → pool.Enrolled
  stage : ∀ stage, call.stage? = some stage → stage.Musters pool

variable {queue after : Queue Thread Task} {pool next : Pool} {events : List Event}
  {caller count : Nat} {call later : Call}

/-- What is true at a stage stays true where nobody changes the life of the pool. -/
theorem Stage.Musters.frame {stage : Stage} (musters : stage.Musters pool)
    (same : SameLife pool next) : stage.Musters next := by
  -- What a stage says is about the life of the pool only.
  cases stage with
  | resting | startable => trivial
  | leaving left => exact ⟨same.holds musters.1, same.roster.trans musters.2⟩
  | growing number =>
    have holds : (Stage.growing number).Holds pool := musters
    exact same.holds holds
  | halting =>
    have holds : Stage.halting.Holds pool := musters
    exact same.holds holds
  | stopping =>
    have holds : Stage.stopping.Holds pool := musters
    exact same.holds holds

/-- A caller that tells a message goes on with the same workers, or breaks off. -/
theorem Telling.musters {message : Message} {onward : Call}
    (tells : Telling pool caller message onward next later events) (musters : onward.Musters pool) :
    later.Musters next := by
  -- A call that has broken off is at no stage, but what it did to the roster stays.
  cases tells with
  | told => exact musters
  | failed => exact ⟨musters.enrolled, fun _ reached => by cases reached⟩

/-- A start puts every worker that it creates on the roster, under a name that is new there. -/
theorem Starting.Move.musters {phase : Starting} {refusal : Option Trouble}
    (move : phase.Move pool caller count refusal next later events)
    (own : (Call.start count phase).Musters pool)
    (unstaffed : phase = .claiming → pool.running = false → pool.stopped = false ∧
      pool.roster = []) :
    later.Musters next := by
  -- Only two moves need an argument: the claim, which has to meet an empty roster,
  -- and the one that creates a worker.
  have enrolled := own.enrolled
  cases move with
  | refuse tells => exact tells.musters ⟨enrolled, by rintro _ ⟨⟩; trivial⟩
  | claim idle =>
    -- The pool was never started, so no name is taken.
    obtain ⟨open_, empty⟩ := unstaffed rfl idle
    exact ⟨enrolled,
      by rintro _ ⟨⟩; exact ⟨rfl, open_, enrolled open_, by simp [NamedBelow, empty]⟩⟩
  | announce tells => exact tells.musters ⟨enrolled, own.stage⟩
  | reserve =>
    have growing := own.stage _ rfl
    exact ⟨enrolled, by rintro _ ⟨⟩; exact growing⟩
  | miss => exact ⟨enrolled, own.stage⟩
  | hire =>
    -- The name has a number that no name on the roster has.
    have grown := Stage.growing_employ (own.stage _ rfl)
    exact ⟨fun _ => grown.2.2.1, by rintro _ ⟨⟩; exact grown⟩
  | lament tells =>
    -- The number of the worker that is lost is passed over.
    obtain ⟨running, open_, all, named⟩ := own.stage _ rfl
    exact tells.musters ⟨enrolled, by rintro _ ⟨⟩; exact ⟨running, open_, all, named.succ⟩⟩
  | overflow | misname | unlock => exact ⟨enrolled, fun _ reached => by cases reached⟩
  | _ => exact ⟨enrolled, by rintro _ ⟨⟩; trivial⟩

/-- A stop waits for all workers that it has taken off the roster. -/
theorem Stopping.Move.musters {phase : Stopping} {timeUp : Bool} {worker : Nat}
    (move : phase.Move queue pool caller timeUp worker after next later events)
    (own : (Call.stop phase).Musters pool) (halted : pool.stopped = true → pool.running = false) :
    later.Musters next := by
  have enrolled := own.enrolled
  cases move with
  | announce tells | warn tells | part tells
      | lament tells => exact tells.musters ⟨enrolled, own.stage⟩
  | claim running =>
    -- A pool that runs was not stopped, so everyone is on the roster.
    have open_ : pool.stopped = false := by
      cases stopped : pool.stopped with
      | true => exact absurd (running.symm.trans (halted stopped)) Bool.false_ne_true.symm
      | false => rfl
    exact ⟨enrolled, by rintro _ ⟨⟩; exact ⟨rfl, enrolled open_⟩⟩
  | mark =>
    -- From here on nobody says that all workers are on the roster but the stop itself,
    -- which has seen them there.
    obtain ⟨idle, all⟩ := own.stage _ rfl
    exact ⟨fun open_ => (by cases open_), by rintro _ ⟨⟩; exact ⟨idle, rfl, all⟩⟩
  | drained | tire | close | wake => exact ⟨enrolled, own.stage⟩
  | gather =>
    -- Every worker was on the roster, so every worker is waited for.
    obtain ⟨idle, stopped, all⟩ := own.stage _ rfl
    refine ⟨fun open_ => absurd (open_.symm.trans stopped) Bool.false_ne_true, ?_⟩
    rintro _ ⟨⟩
    exact ⟨⟨idle, stopped, fun index worker found =>
      .inl (all index (List.getElem?_eq_some_iff.mp found).1)⟩, rfl⟩
  | join joined =>
    -- Whoever is waited for no longer has ended.
    obtain ⟨⟨idle, stopped, gone⟩, empty⟩ := own.stage _ rfl
    obtain ⟨fewer, reached, gone⟩ := gone.join joined
    refine ⟨enrolled, fun stage known => ?_⟩
    obtain rfl : Stage.leaving fewer = stage := Option.some.inj (reached.symm.trans known)
    exact ⟨⟨idle, stopped, gone⟩, empty⟩
  | lock | skip | rest => exact ⟨enrolled, by rintro _ ⟨⟩; trivial⟩
  | unlock => exact ⟨enrolled, fun _ reached => by cases reached⟩

/-- A call that is neither a start nor a stop leaves the life of the pool alone. -/
theorem Call.Move.sameLife {chance : Chance}
    (move : call.Move queue pool caller chance after next later events)
    (start : call.isStart = false) (stop : call.isStop = false) :
    SameLife pool next ∧ later.stage? = none := by
  -- What such a call changes about the pool is at most its count of tasks.
  cases move with
  | queue => exact ⟨{}, stage?_ofQueue _⟩
  | start => cases start
  | stop => cases stop
  | _ => exact ⟨{}, rfl⟩

/--
A start or a stop that does not have the lock on the life of the pool goes on
only where nobody has it.
-/
theorem Call.Move.free {chance : Chance}
    (move : call.Move queue pool caller chance after next later events)
    (aside : ¬ (call.isStart = false ∧ call.isStop = false)) (staged : call.stage?.isSome = false) :
    pool.lifecycle = none := by
  -- Every phase but the one that takes the lock is a stage of having it.
  cases move with
  | start move | stop move =>
    cases move with
    | lock free => exact free
    | _ => cases staged
  | _ => exact absurd ⟨rfl, rfl⟩ aside

end Pool

namespace World

open Pool (Call SameLife Stage)

variable {world next : World} {events : List Pool.Event}

/--
While somebody goes on with a start or a stop, nobody else has the lock on the life of the pool.
-/
theorem outside_of_goes {queue : Queue Thread Task} {pool : Pool} {caller other : Nat}
    {chance : Pool.Chance} {call later known : Call}
    (held : ∀ (caller : Nat) (call : Call), world.pool.callers[caller]? = some call →
      call.stage?.isSome = true → world.pool.lifecycle = some caller)
    (found : world.pool.callers[caller]? = some call)
    (move : call.Move world.queue world.pool caller chance queue pool later events)
    (aside : ¬ (call.isStart = false ∧ call.isStop = false)) (apart : other ≠ caller)
    (there : world.pool.callers[other]? = some known) : known.stage?.isSome = false := by
  rw [Bool.eq_false_iff]
  intro staged
  have owns := held other known there staged
  -- The call that goes on has the lock, or takes it where nobody has it.
  cases mine : call.stage?.isSome with
  | true => exact apart (Option.some.inj (owns.symm.trans (held caller call found mine)))
  | false =>
    rw [move.free aside mine] at owns
    cases owns

/--
A turn at which nobody goes on with a start or a stop: it leaves the life of the pool
alone, and so do new calls.
-/
structure IsAside (world : World) (turn : Turn) (next : World) : Prop where
  same : SameLife world.pool next.pool
  calls : ∀ (caller : Nat) (call : Call), next.pool.callers[caller]? = some call →
    call.stage? = none ∨
    world.pool.callers[caller]? = some call
  actor : ∀ (caller : Nat) (chance : Pool.Chance) (call : Call), turn = .caller caller chance →
    world.pool.callers[caller]? = some call → call.isStart = false ∧ call.isStop = false

/--
Somebody goes on with a start or a stop, or the turn has nothing to do with the life of the pool.
-/
theorem isAside_or_goes {turn : Turn} (stepped : world.step turn = some (next, events)) :
    IsAside world turn next ∨ ∃ caller chance call queue pool later, turn = .caller caller chance ∧
      world.pool.callers[caller]? = some call ∧ ¬ (call.isStart = false ∧ call.isStop = false) ∧
      call.Move world.queue world.pool caller chance queue pool later events ∧
      next = ⟨queue, setCaller pool caller later⟩ ∧
      Placed world.pool.callers caller later (setCaller pool caller later).callers := by
  cases turn with
  | begin caller request =>
    -- A call is at no stage when it begins.
    obtain ⟨-, place, callers, rfl, placed, -⟩ := placed_of_step_begin stepped
    refine .inl ⟨{}, fun other call found => ?_, nofun⟩
    by_cases here : other = place
    · rw [here, placed.known] at found
      cases found
      exact .inl request.stage?_call
    · exact .inr ((placed.others other here).symm.trans found)
  | caller index chance =>
    obtain ⟨call, queue, pool, later, found, moved, rfl⟩ := step_caller.mp stepped
    have callers := (Pool.Call.step_visit moved).callers
    have placed : Placed world.pool.callers index later (setCaller pool index later).callers := by
      rw [show (setCaller pool index later).callers = world.pool.callers.set index later from
        congrArg (List.set · index later) callers]
      exact .set found
    have move := Pool.Call.step_eq_some_iff.mp moved
    by_cases aside : call.isStart = false ∧ call.isStop = false
    · obtain ⟨same, outside⟩ := move.sameLife aside.1 aside.2
      refine .inl ⟨same.setCaller index later, fun other known there => ?_, ?_⟩
      · by_cases here : other = index
        · rw [here, placed.known] at there
          cases there
          exact .inl outside
        · exact .inr ((placed.others other here).symm.trans there)
      · rintro _ _ known ⟨⟩ there
        obtain rfl := Option.some.inj (found.symm.trans there)
        exact aside
    · exact .inr ⟨index, chance, call, queue, pool, later, rfl, found, aside, move, rfl, placed⟩
  | worker index chance =>
    obtain ⟨name, duty, queue, pool, later, found, moved, rfl⟩ := step_worker.mp stepped
    have there : (⟨name, duty⟩ : Worker).isGone = false := by
      cases duty with
      | gone broken => cases moved
      | _ => rfl
    rw [(Pool.work_progress moved).same]
    exact .inl ⟨.setWorker later _ found there, fun _ _ known => .inr known, nofun⟩
  | openGate index =>
    obtain ⟨-, name, task, left, found, rfl⟩ := step_openGate stepped
    exact .inl ⟨.setWorker _ world.pool.tally found rfl, fun _ _ known => .inr known, nofun⟩
  | resume index broken =>
    obtain ⟨name, task, request, left, later, found, rfl, -⟩ := step_resume stepped
    exact .inl ⟨.setWorker _ world.pool.tally found rfl, fun _ _ known => .inr known, nofun⟩
  | refilter filter =>
    cases stepped
    exact .inl ⟨{}, fun _ _ known => .inr known, nofun⟩

/--
Whether the roster has all workers of a pool that was not stopped, and those that
the stages of its calls say.
-/
structure Mustered (pool : Pool) : Prop where
  enrolled : pool.stopped = false → pool.Enrolled
  held : ∀ (caller : Nat) (call : Call) (stage : Stage), pool.callers[caller]? = some call →
    call.stage? = some stage → stage.Musters pool

/--
The workers stay mustered where nobody changes the life of the pool,
and no new call has the lock on it.
-/
theorem Mustered.keep {pool next : Pool} (mustered : Mustered pool) (same : SameLife pool next)
    (calls : ∀ (caller : Nat) (call : Call), next.callers[caller]? = some call →
      call.stage? = none ∨ pool.callers[caller]? = some call) :
    Mustered next where
  enrolled open_ := same.enrolled (mustered.enrolled (same.stopped ▸ open_))
  held caller call stage found reached := by
    rcases calls caller call found with outside | old
    · rw [reached] at outside
      cases outside
    · exact (mustered.held caller call stage old reached).frame same

/-- A pool that was stopped does not run. -/
theorem Flags.halted {pool : Pool} {deeds : Deeds} (flags : Flags pool deeds)
    (stopped : pool.stopped = true) :
    pool.running = false := by
  -- Whoever marked the pool had stopped it before.
  rw [flags.running, Option.isNone_eq_false_iff.mpr (flags.stopped stopped), Bool.and_false]

/-- A pool that does not run, and that nobody has stopped, was never started. -/
theorem Flags.unstarted {pool : Pool} {deeds : Deeds} (flags : Flags pool deeds)
    (nobody : deeds.stopper = none) (idle : pool.running = false) :
    pool.stopped = false ∧ pool.workers = [] := by
  -- What a pool shows of its life follows from who has started it and who has stopped it.
  have unstarted : deeds.starter = none := by simpa [flags.running, nobody] using idle
  refine ⟨?_, flags.unstaffed unstarted⟩
  cases stopped : pool.stopped with
  | false => rfl
  | true => simpa [nobody] using flags.stopped stopped

/-- A start or a stop that goes on leaves the workers mustered, as its own stage says. -/
theorem Mustered.goes {watched : Watched} {deeds : Deeds} {queue : Queue Thread Task} {pool : Pool}
    {caller : Nat} {chance : Pool.Chance} {call later : Call}
    (mustered : Mustered watched.world.pool) (present : Present watched deeds)
    (listed : watched.world.pool.Listed) (found : watched.world.pool.callers[caller]? = some call)
    (move : call.Move watched.world.queue watched.world.pool caller chance queue pool later events)
    (aside : ¬ (call.isStart = false ∧ call.isStop = false)) : later.Musters pool := by
  have own : call.Musters watched.world.pool :=
    ⟨mustered.enrolled, fun stage reached => mustered.held caller call stage found reached⟩
  cases move with
  | start move =>
    refine move.musters own ?_
    rintro rfl idle
    -- A start that claims a pool that does not run is the first one,
    -- and no worker has been created yet.
    obtain ⟨open_, nobody⟩ := present.flags.unstarted (present.held caller _ found rfl).2 idle
    refine ⟨open_, List.eq_nil_iff_forall_not_mem.mpr fun entry member => ?_⟩
    have within := listed entry member
    rw [nobody] at within
    exact absurd within (Nat.not_lt_zero _)
  | stop move => exact move.musters own present.flags.halted
  | _ => exact absurd ⟨rfl, rfl⟩ aside

/-- Every turn leaves the workers mustered, also where a call breaks off. -/
theorem step_mustered {watched : Watched} {deeds : Deeds} {turn : Turn}
    (present : Present watched deeds) (listed : watched.world.pool.Listed)
    (mustered : Mustered watched.world.pool)
    (stepped : watched.world.step turn = some (next, events)) : Mustered next.pool := by
  obtain aside | ⟨index, chance, call, queue, pool, later, -, found, aside, move, rfl, placed⟩ :=
    isAside_or_goes stepped
  · exact mustered.keep aside.same aside.calls
  · have musters : later.Musters pool := mustered.goes present listed found move aside
    refine ⟨musters.enrolled, fun other known stage there reached => ?_⟩
    by_cases here : other = index
    · rw [here, placed.known] at there
      cases there
      exact (musters.stage stage reached).frame {}
    · -- Another call at a stage would have the lock on the life of the pool too.
      have outside :=
        outside_of_goes (fun caller call found staged =>
          (present.held caller call found staged).1) found
        move aside here ((placed.others other here).symm.trans there)
      rw [reached] at outside
      cases outside

/-- In every run from a new pool the workers are mustered. -/
theorem run_mustered {number : Nat} {settings : Settings} {sink : Sink} {watched : Watched} :
    Reached number settings sink watched → Mustered watched.world.pool := by
  -- The step needs what was done so far, which is known of every world that can be reached.
  rintro ⟨turns, moments, ran⟩
  have kept := run_invariant
    (fun watched (_ : List Moment) => Reached number settings sink watched ∧
      Mustered watched.world.pool)
    ⟨⟨[], [], rfl⟩, fun _ index within => absurd within (Nat.not_lt_zero index),
      fun _ _ _ found => by
      simp [Watched.fresh, fresh, Pool.fresh] at found⟩ ?_ ran
  · exact kept.2
  · rintro before earlier turn after new ⟨reached, mustered⟩ stepped
    refine ⟨reached.further stepped, ?_⟩
    obtain ⟨turns, past, ran⟩ := reached
    obtain ⟨⟨deeds, -, present⟩, -⟩ := run_present ran
    obtain ⟨⟨next, events⟩, moved, same⟩ := Option.map_eq_some_iff.mp stepped
    cases same
    exact step_mustered present (run_faring (run_of_recorded ran)).listed mustered moved

end World

end TaskPool
