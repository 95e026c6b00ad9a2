import TaskPool.Proofs.Pool.Bustle

/-!
A pool comes to a standstill only where tasks are held up from outside: a stop never waits for
a worker that waits for the stop.

Nothing is assumed of the sink, so any call and any worker may break off with a message.
-/

namespace TaskPool

namespace Pool

/-- Whether the roster has only places of workers that were created. -/
def Listed (pool : Pool) : Prop := ∀ entry ∈ pool.roster, entry.2 < pool.workers.length

/--
How a call fares: a stop that wakes those that sleep has closed the queue,
and waits only for workers there are.
-/
def Call.Fares (closed : Bool) (staff : Nat) : Call → Prop
  | .queue (.returned _) => False
  | .stop .waking | .stop .parting | .stop .gathering => closed = true
  | .stop (.joining left) | .stop (.lamenting left _) => closed = true ∧
      ∀ index ∈ left, index < staff
  | _ => True

variable {queue after : Queue Thread Task} {pool next : Pool} {events : List Event}
  {caller count : Nat} {call later : Call}

/-- A call fares as it did where the queue is not opened again and no worker is forgotten. -/
theorem Call.Fares.mono {closed closedAfter : Bool} {staff more : Nat}
    (fares : call.Fares closed staff) (shut : closed = true → closedAfter = true)
    (grown : staff ≤ more) : call.Fares closedAfter more := by
  -- One case for each pattern of the definition; only a stop that waits for workers counts them.
  unfold Fares at fares ⊢
  split at fares
  · exact fares
  · exact shut fares
  · exact shut fares
  · exact shut fares
  · exact ⟨shut fares.1, fun index member => Nat.lt_of_lt_of_le (fares.2 index member) grown⟩
  · exact ⟨shut fares.1, fun index member => Nat.lt_of_lt_of_le (fares.2 index member) grown⟩
  · trivial

/-- A caller that tells a message fares as what it was to go on with, or it breaks off. -/
theorem Telling.fares {closed : Bool} {message : Message} {onward : Call}
    (tells : Telling pool caller message onward next later events) (listed : pool.Listed)
    (fares : onward.Fares closed pool.workers.length) :
    later.Fares closed next.workers.length ∧ next.Listed := by
  -- Nothing is demanded of a call that has broken off.
  cases tells with
  | told => exact ⟨fares, listed⟩
  | failed => exact ⟨trivial, listed⟩

/-- A start waits for no workers, and puts on the roster only those that it creates. -/
theorem Starting.Move.fares {phase : Starting} {refusal : Option Trouble} {closed : Bool}
    (move : phase.Move pool caller count refusal next later events) (listed : pool.Listed) :
    later.Fares closed next.workers.length ∧ next.Listed := by
  -- Nothing is demanded of a start, so only what it puts on the roster counts.
  cases move with
  | refuse tells | announce tells | lament tells => exact tells.fares listed trivial
  | hire =>
    refine ⟨trivial, fun entry member => ?_⟩
    -- The new worker stands behind all others, and so does its place.
    show entry.2 < (pool.workers ++ [_]).length
    rw [List.length_append, List.length_singleton]
    rcases List.mem_append.mp member with old | new
    · exact Nat.lt_succ_of_lt (listed entry (List.mem_of_mem_filter old))
    · rw [List.mem_singleton.mp new]
      exact Nat.lt_succ_self _
  | _ => exact ⟨trivial, listed⟩

/--
A stop closes the queue before it takes the workers off the roster, which are
those that it waits for then.
-/
theorem Stopping.Move.fares {phase : Stopping} {timeUp : Bool} {worker : Nat}
    (move : phase.Move queue pool caller timeUp worker after next later events)
    (listed : pool.Listed) (fares : (Call.stop phase).Fares queue.closed pool.workers.length) :
    later.Fares after.closed next.workers.length ∧ next.Listed := by
  cases move with
  | announce tells | warn tells | part tells | lament tells => exact tells.fares listed fares
  | close => exact ⟨rfl, listed⟩
  | wake => exact ⟨fares, listed⟩
  | gather =>
    -- Whom it waits for it has taken off the roster, where there were places of workers only.
    refine ⟨⟨fares, fun index member => ?_⟩, List.forall_mem_nil _⟩
    obtain ⟨entry, among, rfl⟩ := List.mem_map.mp member
    exact listed entry among
  | @join left phase joined =>
    obtain ⟨closed, within⟩ := fares
    -- Whoever is still waited for was waited for before.
    have fewer : ∀ index ∈ left.erase worker, index < pool.workers.length :=
      fun index member => within index (List.mem_of_mem_erase member)
    simp only [Pool.join, Option.ite_none_right_eq_some] at joined
    obtain ⟨-, joined⟩ := joined
    split at joined
    · cases joined
      refine ⟨?_, listed⟩
      split <;> exact ⟨closed, fewer⟩
    · cases joined
  | _ => exact ⟨trivial, listed⟩

/--
Whatever a caller does, it fares like this, and the roster has only places
of workers that were created.
-/
theorem Call.Move.fares {chance : Chance}
    (move : call.Move queue pool caller chance after next later events) (listed : pool.Listed)
    (fares : call.Fares queue.closed pool.workers.length) :
    later.Fares after.closed next.workers.length ∧ next.Listed := by
  cases move with
  | @queue own onward =>
    -- A call of the queue goes on as one, or has ended.
    refine ⟨?_, listed⟩
    cases onward <;> trivial
  | start move => exact move.fares listed
  | stop move => exact move.fares listed fares
  | _ => exact ⟨trivial, listed⟩

end Pool

namespace World

open Pool

variable {world next : World} {events : List Pool.Event}

/--
How a pool fares: its roster has only places of workers that were created,
and each call fares as it should.
-/
structure Faring (world : World) : Prop where
  listed : world.pool.Listed
  calls : ∀ call ∈ world.pool.callers, call.Fares world.queue.closed world.pool.workers.length

/-- What a worker or somebody outside does is nothing that the calls depend on. -/
theorem Faring.beside (faring : world.Faring) {queue : Queue Thread Task} {pool : Pool}
    (same : ∃ workers sink tally, pool =
      { world.pool with workers := workers, sink := sink, tally := tally } ∧
      workers.length = world.pool.workers.length)
    (closed : world.queue.closed = true → queue.closed = true) : Faring ⟨queue, pool⟩ := by
  obtain ⟨workers, sink, tally, rfl, length⟩ := same
  refine ⟨fun entry member => ?_, fun call member => ?_⟩
  · exact Nat.lt_of_lt_of_eq (faring.listed entry member) length.symm
  · exact (faring.calls call member).mono closed (Nat.le_of_eq length.symm)

/-- Every turn keeps up how a pool fares. -/
theorem step_faring {turn : Turn} (faring : world.Faring)
    (stepped : world.step turn = some (next, events)) :
    next.Faring := by
  cases turn with
  | begin caller request =>
    obtain ⟨-, place, callers, rfl, placed, -⟩ := placed_of_step_begin stepped
    -- Nothing is demanded of a call at its beginning.
    refine ⟨faring.listed, fun call member => ?_⟩
    rcases placed.cases_mem member with rfl | ⟨other, -, known⟩
    · rcases request with request | _ | _ | _ | _
      · cases request <;> trivial
      all_goals trivial
    · exact faring.calls call (List.mem_of_getElem? known)
  | caller index chance =>
    obtain ⟨call, queue, pool, later, found, moved, rfl⟩ := step_caller.mp stepped
    have visit := Call.step_visit moved
    obtain ⟨fares, listed⟩ :=
      (Call.step_eq_some_iff.mp moved).fares faring.listed
        (faring.calls call (List.mem_of_getElem? found))
    refine ⟨listed, fun other member => ?_⟩
    rcases List.mem_or_eq_of_mem_set member with old | rfl
    · -- The queue is never opened again, and workers only come.
      refine (faring.calls other (visit.callers ▸ old)).mono (fun closed =>
        visit.path.closed_iff.mpr (.inl closed)) ?_
      rcases visit.workers with same | ⟨name, more⟩
      · exact Nat.le_of_eq (congrArg List.length same).symm
      · show world.pool.workers.length ≤ pool.workers.length
        rw [more, List.length_append]
        exact Nat.le_add_right _ _
    · exact fares
  | worker index chance =>
    obtain ⟨name, duty, queue, pool, later, -, moved, rfl⟩ := step_worker.mp stepped
    have progress := work_progress moved
    rw [progress.same]
    exact faring.beside ⟨_, _, _, rfl, List.length_set⟩
      fun closed => progress.path.closed_iff.mpr (.inl closed)
  | openGate index =>
    obtain ⟨-, name, task, left, -, rfl⟩ := step_openGate stepped
    exact faring.beside ⟨_, _, _, rfl, List.length_set⟩ id
  | resume index broken =>
    obtain ⟨name, task, request, left, later, -, rfl, -⟩ := step_resume stepped
    exact faring.beside ⟨_, _, _, rfl, List.length_set⟩ id
  | refilter filter =>
    cases stepped
    exact faring.beside ⟨_, _, _, rfl, rfl⟩ id

/-- In every run from a new pool, the pool fares as it should. -/
theorem run_faring {number : Nat} {settings : Settings} {sink : Sink} {turns : List Turn}
    (ran : runOf step (fresh number settings sink) turns = some (world, events)) : world.Faring :=
  run_invariant (fun world _ => world.Faring) ⟨List.forall_mem_nil _, List.forall_mem_nil _⟩
    (fun _ _ _ _ _ faring stepped => step_faring faring stepped) ran

/-- No call is left in the middle of what it has come to the end of. -/
theorem Faring.onward (faring : world.Faring) {call : Call} (member : call ∈ world.pool.callers) :
    ∀ task, call ≠ .queue (.returned task) := by
  rintro task rfl
  exact faring.calls _ member

end World

namespace Bustle

open Pool (Call)

variable {bustle : Bustle} {events : List Pool.Event} {number : Nat} {settings : Settings}
  {sink : Sink}

/-- A task that wants something from the pool is about to make a call. -/
theorem wanted?_eq_some {worker : Nat} {wanted : Pool.Request}
    (wants : bustle.wanted? worker = some wanted) :
    ∃ name task request left,
      bustle.world.pool.workers[worker]? = some ⟨name, .working task (.ask request :: left)⟩ := by
  -- Workers want something in no other case.
  obtain ⟨⟨name, duty⟩, found, wants⟩ := Option.bind_eq_some_iff.mp wants
  unfold Duty.wanted? at wants
  split at wants
  · rename_i task request left same
    obtain rfl : duty = .working task (.ask request :: left) := same
    exact ⟨name, task, request, left, found⟩
  · cases wants

/-- A task hears that its call has ended, and goes on behind the call if that has not broken off. -/
theorem answer_step {worker caller : Nat} {name : String} {task : Task} {request : Request}
    {left : List Action} {call : Call} {broken : Option String}
    (found : bustle.world.pool.workers[worker]? = some ⟨name, .working task (.ask request :: left)⟩)
    (member : (worker, caller) ∈ bustle.errands)
    (known : bustle.world.pool.callers[caller]? = some call) (news : call.news? = some broken) :
    ∃ duty new, bustle.step (.answer worker caller) = some
      (⟨{ bustle.world with pool := World.setWorker bustle.world.pool worker ⟨name, duty⟩ },
        bustle.errands.filter fun errand => errand.1 ≠ worker⟩, new) ∧
      (broken = none → duty = .working task left) := by
  -- Either way the worker can go on, behind the call or with a task that has broken off.
  cases broken with
  | none =>
    refine ⟨_, [], step_answer.mpr ⟨member, call, none, _, known, news, ?_, rfl⟩, fun _ => rfl⟩
    simp only [World.step, found, World.resumed, Option.map_some]
  | some text =>
    refine ⟨.counting task (.panicked (.message text)),
      [.ended worker task (.panicked (.message text))], step_answer.mpr ⟨member, call, some text, _,
        known, news, ?_, rfl⟩, fun done => by cases done⟩
    simp only [World.step, found, World.resumed, Option.map_some]

/-- Where nothing moves by itself, nothing moves either with the gates that are shut. -/
theorem Settled.world (settled : bustle.Settled) :
    World.Settled (fun _ => none) (fun _ _ => false) bustle.world := by
  -- Turns of callers and workers are moves of the pool's own, and no gate
  -- is ever opened on this schedule.
  intro turn scheduled
  have still (own : (Move.turn turn).isOwn = true) (free : bustle.allows turn = true) :
      bustle.world.step turn = none := by
    simpa [step, free] using settled (.turn turn) own
  cases turn with
  | caller | worker => exact still rfl rfl
  | openGate index =>
    obtain ⟨name, task, left, -, shut⟩ := scheduled
    cases shut
  | _ => exact scheduled.elim

/--
Where nothing moves by itself, a task waits for nothing from the pool, unless it starts the pool.
-/
theorem Settled.starts {worker : Nat} {wanted : Pool.Request} (settled : bustle.Settled)
    (tied : bustle.Tied) (owned : bustle.world.Owned) (faring : bustle.world.Faring)
    (wants : bustle.wanted? worker = some wanted) :
    ∃ count, wanted = .start count := by
  -- If it wants something else, it can make its call, or hear that the call has ended.
  by_contra other
  obtain ⟨name, task, request, left, found⟩ := wanted?_eq_some wants
  by_cases free : ∀ errand ∈ bustle.errands, errand.1 ≠ worker
  · have none := settled (.ask worker) rfl
    rw [step_ask.mpr ⟨free, wanted, wants, rfl, rfl⟩] at none
    cases none
  · simp only [ne_eq, not_forall, exists_prop, not_not] at free
    obtain ⟨errand, member, rfl⟩ := free
    obtain ⟨own, call, wants', known, serves⟩ := tied errand member
    obtain rfl : wanted = own := Option.some.inj (wants.symm.trans wants')
    -- Its call needs nothing but the lock on the roster, which is free, so it has ended.
    obtain ⟨unlocked, awake, apart⟩ :=
      Call.waits_of_brief (serves.brief fun count same => other ⟨count, same⟩)
    have ended : call.hasEnded = true := by
      rcases Call.stuck (faring.onward (List.mem_of_getElem? known)) (settled.world.call known) with
        ended | ⟨locking, -⟩ | ⟨-, held⟩ | ⟨left, same⟩ | popping
      · exact ended
      · exact absurd (unlocked.symm.trans locking) Bool.false_ne_true
      · exact absurd (settled.world.roster_free owned) held
      · exact absurd same (apart left)
      · exact absurd (awake.symm.trans popping) Bool.false_ne_true
    -- So the task can hear that it has.
    obtain ⟨broken, news⟩ : ∃ broken, call.news? = some broken := by
      cases call with
      | returned | broken => exact ⟨_, rfl⟩
      | _ => cases ended
    obtain ⟨duty, new, heard, -⟩ := answer_step found member known news
    have none := settled (.answer errand.1 errand.2) rfl
    rw [heard] at none
    cases none

/--
Where nothing moves by itself and no task starts the pool, a worker has ended,
or sleeps at an open and empty queue, or its task is held up.
-/
theorem Settled.worker {index : Nat} {worker : Worker} (settled : bustle.Settled)
    (tied : bustle.Tied) (owned : bustle.world.Owned) (faring : bustle.world.Faring)
    (attentive : bustle.world.Attentive) (found : bustle.world.pool.workers[index]? = some worker)
    (other : worker.duty.isStarting bustle.world.pool.number = false) :
    worker.isGone = true ∨
      (worker.duty = .fetching ∧
        ⟨bustle.world.pool.number, .worker index⟩ ∈ bustle.world.queue.asleep ∧
        bustle.world.queue.closed = false ∧ bustle.world.queue.items = []) ∨
      worker.duty.isHeldUp bustle.world.pool.number = true := by
  -- All other duties go on by themselves.
  obtain ⟨name, duty⟩ := worker
  have stuck := settled.world.work found
  cases duty with
  | fetching =>
    exact .inr (.inl ⟨rfl, settled.world.asleep found,
      settled.world.nothing_left attentive (fun _ member => faring.onward member) found⟩)
  | working task left =>
    cases left with
    | nil => cases stuck
    | cons action left =>
      cases action with
      | await => exact .inr (.inr rfl)
      | ask request =>
        -- What is not wanted from this pool holds the task up, and only
        -- a start would be wanted here.
        cases served : request.served? bustle.world.pool.number with
        | none => exact .inr (.inr (by simp [Duty.isHeldUp, served]))
        | some wanted =>
          have wants : bustle.wanted? index = some wanted := by
            simp [wanted?, found, Duty.wanted?, served]
          obtain ⟨count, rfl⟩ := settled.starts tied owned faring wants
          simp [Duty.isStarting, Duty.wanted?, served] at other
      | note | noteThread => cases stuck
  | reporting failure => cases failure <;> cases stuck
  | gone broken => exact .inl rfl
  | _ => cases stuck

/--
Where nothing moves by itself, a stop that has not returned waits for a worker that has
not ended, or for a stop.
-/
theorem Settled.joining {call : Call} (settled : bustle.Settled) (owned : bustle.world.Owned)
    (faring : bustle.world.Faring) (member : call ∈ bustle.world.pool.callers)
    (stop : call.isStop = true) :
    bustle.world.queue.closed = true ∧
    ∃ worker ∈ bustle.world.pool.workers, worker.isGone = false := by
  obtain ⟨caller, found⟩ := List.getElem?_of_mem member
  -- It waits for workers, or for the lock that is held by one that does.
  obtain ⟨joiner, left, waits⟩ : ∃ (joiner : Nat) (left : List Nat),
      bustle.world.pool.callers[joiner]? = some (.stop (.joining left)) := by
    rcases Call.stuck (faring.onward member) (settled.world.call found) with
      ended | ⟨-, taken⟩ | ⟨-, held⟩ | ⟨left, rfl⟩ | popping
    · cases call <;> first | cases stop; done | cases ended
    · obtain ⟨owner, held⟩ := Option.ne_none_iff_exists'.mp taken
      exact ⟨owner, settled.world.life_owner owned held⟩
    · exact absurd (settled.world.roster_free owned) held
    · exact ⟨caller, left, found⟩
    · cases call <;> first | cases stop; done | cases popping
  obtain ⟨closed, within⟩ := faring.calls _ (List.mem_of_getElem? waits)
  refine ⟨closed, ?_⟩
  cases left with
  | nil =>
    -- A stop that has waited for all of them goes on.
    have none := settled.world.call waits ⟨none, none, false, 0, 0⟩ (by simp)
    cases none
  | cons first rest =>
    -- The first of them has not ended, since the stop could go on otherwise.
    have there := within first List.mem_cons_self
    have place := List.getElem?_eq_getElem there
    generalize bustle.world.pool.workers[first] = worker at place
    refine ⟨worker, List.mem_of_getElem? place, ?_⟩
    cases gone : worker.isGone with
    | false => rfl
    | true =>
      have none := settled.world.call waits ⟨none, none, false, first, 0⟩ (by simp)
      obtain ⟨name, duty⟩ := worker
      cases duty <;>
        first | cases gone; done | simp [Call.step, Pool.Stopping.step, Pool.join, place] at none

/-- While a stop has the lock on the life of the pool, nobody has the lock on the roster. -/
theorem roster_free_of_stop {moves : List Move} {stopper : Nat} {phase : Pool.Stopping}
    (ran : runOf step (fresh number settings sink) moves = some (bustle, events))
    (found : bustle.world.pool.callers[stopper]? = some (.stop phase)) (has : phase ≠ .locking) :
    bustle.world.pool.rosterLock = none := by
  obtain ⟨turns, went⟩ := run_world ran
  have holds : (Call.stop phase).stage?.isSome = true := by
    cases phase <;> first | rfl | exact absurd rfl has
  cases taken : bustle.world.pool.rosterLock with
  | none => rfl
  | some owner =>
    -- Only a start has both locks, and the one on the life of the pool is with the stop.
    obtain ⟨call, known, creating⟩ := (World.run_owned went).roster owner taken
    have staged : call.stage?.isSome = true := by
      cases call with
      | start count phase => cases phase <;> first | cases creating; done | rfl
      | _ => cases creating
    have same := (World.run_held went known staged).symm.trans (World.run_held went found holds)
    obtain rfl := Option.some.inj same
    rw [found] at known
    cases known
    cases creating

/-- A task hears what the pool has shown it, and no call changes with that. -/
theorem hear_observer (bustle : Bustle) {index caller : Nat} {name : String} {task : Task}
    {request : Request} {left : List Action} {answer : Pool.Answer}
    (found : bustle.world.pool.workers[index]? = some ⟨name, .working task (.ask request :: left)⟩)
    (member : (index, caller) ∈ bustle.errands)
    (known : bustle.world.pool.callers[caller]? = some (.returned answer)) :
    ∃ later new, runOf step bustle [.answer index caller] = some (later, new) ∧
      later.world.pool.workers[index]? = some ⟨name, .working task left⟩ ∧
      later.world.pool.callers = bustle.world.pool.callers := by
  obtain ⟨duty, new, heard, onward⟩ := answer_step found member known rfl
  obtain rfl := onward rfl
  refine ⟨_, _, runOf_cons.mpr ⟨_, new, [], heard, rfl, (List.append_nil new).symm⟩, ?_, rfl⟩
  exact List.getElem?_set_self (List.getElem?_eq_some_iff.mp found).1

/--
A call that asks what the pool shows of itself has its answer at once while the roster is free.
-/
theorem look_observer (bustle : Bustle) {index caller : Nat} {name : String} {task : Task}
    {request : Request} {left : List Action} (chance : Pool.Chance)
    (found : bustle.world.pool.workers[index]? = some ⟨name, .working task (.ask request :: left)⟩)
    (member : (index, caller) ∈ bustle.errands)
    (known : bustle.world.pool.callers[caller]? = some .observe)
    (free : bustle.world.pool.rosterLock = none) :
    ∃ later new answer, runOf step bustle [.turn (.caller caller chance), .answer index caller] =
      some (later, new) ∧
      later.world.pool.workers[index]? = some ⟨name, .working task left⟩ ∧
      later.world.pool.callers = bustle.world.pool.callers.set caller (.returned answer) := by
  let answered : Bustle := ⟨⟨bustle.world.queue,
    World.setCaller bustle.world.pool caller (.returned (.overview bustle.world.pool.overview))⟩,
    bustle.errands⟩
  have answers : Call.observe.step bustle.world.queue bustle.world.pool caller chance =
    some (bustle.world.queue,
      bustle.world.pool, .returned (.overview bustle.world.pool.overview), []) :=
    Call.step_eq_some_iff.mpr (.observe free)
  have looked : bustle.step (.turn (.caller caller chance)) = some (answered, []) :=
    step_turn.mpr ⟨rfl, _, World.step_caller.mpr ⟨_, _, _, _, known, answers, rfl⟩, rfl⟩
  obtain ⟨later, new, ran, there, same⟩ :=
    hear_observer answered found member (World.Placed.set known).known
  exact ⟨later, new, _, runOf_cons.mpr ⟨_, _, _, looked, ran, rfl⟩, there, same⟩

/--
While the roster is free, a task that asks what the pool shows of itself waits for
nobody, and no stop moves.
-/
theorem Tied.observe {index : Nat} {name : String} {task : Task} {label : Json.Value}
    {left : List Action} (tied : bustle.Tied) (chance : Pool.Chance)
    (free : bustle.world.pool.rosterLock = none)
    (found : bustle.world.pool.workers[index]? =
      some ⟨name, .working task (.ask (.observe bustle.world.pool.number label) :: left)⟩) :
    ∃ caller moves later new,
      moves <:+ [.ask index, .turn (.caller caller chance), .answer index caller] ∧
      runOf step bustle moves = some (later, new) ∧
      later.world.pool.workers[index]? = some ⟨name, .working task left⟩ ∧
      ∀ (stopper : Nat) (phase : Pool.Stopping), bustle.world.pool.callers[stopper]? =
        some (.stop phase) →
        later.world.pool.callers[stopper]? = some (.stop phase) := by
  have wants : bustle.wanted? index = some .observe := by
    simp [wanted?, found, Duty.wanted?, Request.served?]
  by_cases idle : ∀ errand ∈ bustle.errands, errand.1 ≠ index
  · -- The task has not made its call, which will have the place behind all others.
    let asking : Bustle := ⟨{ bustle.world with
      pool := { bustle.world.pool with callers := bustle.world.pool.callers ++ [.observe] } },
      (index, bustle.world.pool.callers.length) :: bustle.errands⟩
    have asked : bustle.step (.ask index) = some (asking, []) :=
      step_ask.mpr ⟨idle, _, wants, rfl, rfl⟩
    obtain ⟨later, new, answer, ran, there, same⟩ :=
      look_observer asking chance found List.mem_cons_self World.Placed.append.known free
    refine ⟨bustle.world.pool.callers.length, _, later, [] ++ new, List.suffix_rfl,
      runOf_cons.mpr ⟨_, _, _, asked, ran, rfl⟩, there, fun stopper phase stops => ?_⟩
    have within := (List.getElem?_eq_some_iff.mp stops).1
    rw [same, List.getElem?_set_ne (Nat.ne_of_gt within), List.getElem?_append_left within]
    exact stops
  · simp only [ne_eq, not_forall, exists_prop, not_not] at idle
    obtain ⟨errand, member, rfl⟩ := idle
    obtain ⟨wanted, call, wants', known, serves⟩ := tied errand member
    obtain rfl : .observe = wanted := Option.some.inj (wants.symm.trans wants')
    rcases serves with rfl | ⟨answer, rfl⟩
    · -- The call is made, and takes its one step.
      obtain ⟨later, new, answer, ran, there, same⟩ :=
        look_observer bustle chance found member known free
      refine ⟨errand.2, _, later, new, List.suffix_cons _ _, ran, there,
        fun stopper phase stops => ?_⟩
      have apart : errand.2 ≠ stopper := by
        intro mine
        rw [mine, stops] at known
        cases known
      rw [same, List.getElem?_set_ne apart]
      exact stops
    · -- The call has its answer, and the task is still to hear it.
      obtain ⟨later, new, ran, there, same⟩ := hear_observer bustle found member known
      refine ⟨errand.2, _, later, new, (List.suffix_cons _ _).trans (List.suffix_cons _ _),
        ran, there, ?_⟩
      exact fun stopper phase stops => same ▸ stops

/--
Any number of threads use a new pool and its queue in any order, its tasks make calls of their own,
and any message may fail whoever tells it.

Where nothing moves by itself, and no task is about to start the pool, each worker has ended,
or sleeps at an open and empty queue, or its task is held up by a gate or by another pool;
and a stop that has not returned finds some task held up. At any time while a stop has the lock
on the life of the pool, a task that asks what the pool shows of itself has its answer after three
moves at most, none of them one of a stop.
-/
theorem stop_waits_only_for_held_up_tasks {moves : List Move}
    (ran : runOf step (fresh number settings sink) moves = some (bustle, events)) :
    (bustle.Settled →
      (∀ worker ∈ bustle.world.pool.workers,
        worker.duty.isStarting bustle.world.pool.number = false) →
      (∀ index worker, bustle.world.pool.workers[index]? = some worker →
        worker.isGone = true ∨
          (worker.duty = .fetching ∧
            ⟨bustle.world.pool.number, .worker index⟩ ∈ bustle.world.queue.asleep ∧
            bustle.world.queue.closed = false ∧ bustle.world.queue.items = []) ∨
          worker.duty.isHeldUp bustle.world.pool.number = true) ∧
      ∀ call ∈ bustle.world.pool.callers, call.isStop = true →
        ∃ worker ∈ bustle.world.pool.workers,
          worker.duty.isHeldUp bustle.world.pool.number = true) ∧
    ∀ (stopper : Nat) (phase : Pool.Stopping) (index : Nat) (name : String) (task : Task)
      (label : Json.Value)
      (left : List Action) (chance : Pool.Chance),
      bustle.world.pool.callers[stopper]? = some (.stop phase) → phase ≠ .locking →
      bustle.world.pool.workers[index]? =
        some ⟨name, .working task (.ask (.observe bustle.world.pool.number label) :: left)⟩ →
      ∃ caller observing later new,
        observing <:+ [.ask index, .turn (.caller caller chance), .answer index caller] ∧
        runOf step bustle observing = some (later, new) ∧
        later.world.pool.workers[index]? = some ⟨name, .working task left⟩ ∧
        later.world.pool.callers[stopper]? = some (.stop phase) := by
  obtain ⟨turns, went⟩ := run_world ran
  have tied := run_tied ran
  have owned := World.run_owned went
  have faring := World.run_faring went
  have attentive := World.run_attentive went
  refine ⟨fun settled other =>
    ?_, fun stopper phase index name task label left chance stops holds found => ?_⟩
  · have resting : ∀ (index : Nat) (worker : Worker), bustle.world.pool.workers[index]? =
        some worker → _ :=
      fun index worker found =>
        settled.worker tied owned faring attentive found (other worker (List.mem_of_getElem? found))
    refine ⟨resting, fun call member stop => ?_⟩
    -- Whoever the stop waits for has not ended, and nobody sleeps at a queue that is closed.
    obtain ⟨closed, worker, there, present⟩ := settled.joining owned faring member stop
    obtain ⟨index, found⟩ := List.getElem?_of_mem there
    rcases resting index worker found with gone | ⟨-, -, open_, -⟩ | held
    · exact absurd (present.symm.trans gone) Bool.false_ne_true
    · exact absurd (open_.symm.trans closed) Bool.false_ne_true
    · exact ⟨worker, there, held⟩
  · obtain ⟨caller, observing, later, new, part, run, there, kept⟩ :=
      tied.observe chance (roster_free_of_stop ran stops holds) found
    exact ⟨caller, observing, later, new, part, run, there, kept stopper phase stops⟩

/-- Whether a call has ended or waits for workers, none of which has ended. -/
def isHalted (pool : Pool) : Call → Bool
  | .stop (.joining (first :: rest)) =>
    (first :: rest).all fun index => (pool.workers[index]?).any fun worker => !worker.isGone
  | call => call.hasEnded

/-- Whether all calls are halted and all tasks of workers wait at gates. -/
def isStill (bustle : Bustle) : Bool :=
  bustle.world.pool.callers.all (isHalted bustle.world.pool) &&
    bustle.world.pool.workers.all fun worker =>
      match worker.duty with
      | .working _ (.await :: _) => true
      | _ => false

/-- A call that has ended or waits for workers that have not ended does nothing. -/
theorem step_of_isHalted {queue : Queue Thread Task} {pool : Pool} {caller : Nat}
    {chance : Pool.Chance} {call : Call} (halted : isHalted pool call = true) :
    call.step queue pool caller chance = none := by
  unfold isHalted at halted
  split at halted
  · rename_i first rest
    -- Whomever the stop would wait for has not ended.
    have stuck : pool.join (first :: rest) chance.joined = none := by
      unfold Pool.join
      split
      · rename_i member
        have present := List.all_eq_true.mp halted _ member
        split
        · rename_i name broken found
          rw [found] at present
          cases present
        · rfl
      · rfl
    simp only [Call.step, Pool.Stopping.step, stuck, Option.map_none]
  · cases call <;> first | cases halted; done | rfl

/--
Nothing moves by itself where all calls have ended or wait for workers whose tasks wait at gates.
-/
theorem settled_of_isStill (still : bustle.isStill = true) : bustle.Settled := by
  simp only [isStill, Bool.and_eq_true, List.all_eq_true] at still
  obtain ⟨calls, workers⟩ := still
  -- A worker whose task waits at a gate does nothing, and wants nothing of the pool.
  have waits : ∀ (index : Nat) (worker : Worker), bustle.world.pool.workers[index]? = some worker →
      ∃ name task left, worker = ⟨name, .working task (.await :: left)⟩ := by
    intro index worker found
    have held := workers worker (List.mem_of_getElem? found)
    obtain ⟨name, duty⟩ := worker
    split at held
    · rename_i task left same
      obtain rfl : duty = .working task (.await :: left) := same
      exact ⟨name, task, left, rfl⟩
    · cases held
  -- Each kind of move of the pool's own needs a call or a worker that goes on.
  intro move own
  cases move with
  | turn turn =>
    cases turn with
    | caller index chance =>
      cases found : bustle.world.pool.callers[index]? with
      | none => simp [step, World.step, found]
      | some call =>
        simp [step, World.step, found, step_of_isHalted (calls call (List.mem_of_getElem? found))]
    | worker index chance =>
      cases found : bustle.world.pool.workers[index]? with
      | none => simp [step, World.step, found]
      | some worker =>
        obtain ⟨name, task, left, rfl⟩ := waits index worker found
        simp [step, World.step, found, Pool.work]
    | _ => cases own
  | ask index =>
    have nothing : bustle.wanted? index = none := by
      cases found : bustle.world.pool.workers[index]? with
      | none => simp [wanted?, found]
      | some worker =>
        obtain ⟨name, task, left, rfl⟩ := waits index worker found
        simp [wanted?, found, Duty.wanted?]
    simp [step, nothing]
  | answer index caller =>
    have nothing (broken : Option String) : bustle.world.step (.resume index broken) = none := by
      cases found : bustle.world.pool.workers[index]? with
      | none => simp [World.step, found]
      | some worker =>
        obtain ⟨name, task, left, rfl⟩ := waits index worker found
        simp [World.step, found, World.resumed]
    simp [step, nothing]

/-- A task that asks what the pool shows of itself, and then waits at a gate. -/
def curiousTask : Task := .mk (.natural 1) [.ask (.observe 0 (.natural 2)), .await] .completed

/--
A stop waits for the one worker of a pool, whose task is about to ask what the pool shows of itself.
-/
def curiousStop : List World.Turn :=
  .begin 0 (.start 1) :: List.replicate 8 (.caller 0 World.hasty) ++
  .begin 1 (.submit curiousTask) :: List.replicate 3 (.caller 1 World.hasty) ++
  List.replicate 2 (.worker 0 World.hasty) ++ .begin 0 .stop ::
  List.replicate 9 (.caller 0 World.hasty)

/-- The task hears its answer. -/
def curiousHearing : List Move := [.ask 0, .turn (.caller 2 World.hasty), .answer 0 2]

/-- Whether the stop waits for the first worker, whose task asks what the pool shows of itself. -/
def isCurious (bustle : Bustle) : Bool :=
  match (bustle.world.pool.callers[0]? : Option Call),
    (bustle.world.pool.workers[0]? : Option Worker), bustle.world.pool.number with
  | some (.stop (.joining _)), some ⟨_, .working _ (.ask (.observe 0 _) :: _)⟩, 0 => true
  | _, _, _ => false

/--
The task has its answer while the stop waits, and then the task is all that holds up the stop.
-/
theorem curious_task_holds_up_stop :
    ∃ bustle events left last all,
      runOf step (fresh 0 .default .keepAll) (curiousStop.map .turn) = some (bustle, events) ∧
      (∃ observing later new, observing.length ≤ 3 ∧
        runOf step bustle observing = some (later, new) ∧
        later.world.pool.callers[0]? = some (.stop (.joining left))) ∧
      runOf step (fresh 0 .default .keepAll) (curiousStop.map .turn ++ curiousHearing) =
      some (last, all) ∧
      last.Settled ∧ last.world.pool.callers.any Call.isStop = true ∧
      ∃ worker ∈ last.world.pool.workers, worker.duty.isHeldUp last.world.pool.number = true := by
  -- The runs are evaluated once, with what is to be known about them, and then taken apart.
  have run : ((runOf step (fresh 0 .default .keepAll) (curiousStop.map .turn)).bind fun run =>
      (runOf step (fresh 0 .default .keepAll) (curiousStop.map .turn ++ curiousHearing)).map
        fun went => (run.1.isCurious, went.1.isStill, went.1.world.pool.callers.any Call.isStop,
          went.1.world.pool.workers.any fun worker =>
            worker.duty.isStarting went.1.world.pool.number)) =
      some (true, true, true, false) := by
    decide +kernel
  simp only [Option.bind_eq_some_iff, Option.map_eq_some_iff, Prod.exists, Prod.mk.injEq] at run
  obtain ⟨bustle, events, ran, last, all, went, curious, still, stops, others⟩ := run
  have settled := settled_of_isStill still
  obtain ⟨-, held⟩ := (stop_waits_only_for_held_up_tasks went).1 settled (by simpa using others)
  obtain ⟨call, member, stop⟩ := List.any_eq_true.mp stops
  unfold isCurious at curious
  split at curious
  · rename_i left name task label rest waits asks home
    obtain ⟨caller, observing, later, new, part, observed, -, kept⟩ :=
      (stop_waits_only_for_held_up_tasks ran).2 0 _ 0 name task label rest World.hasty waits
        (by simp) (by rw [home]; exact asks)
    exact ⟨bustle, events, left, last, all, ran, ⟨observing, later, new, part.length_le,
      observed, kept⟩, went,
      settled, stops, held call member stop⟩
  · cases curious

end Bustle

end TaskPool
