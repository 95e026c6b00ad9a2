import TaskPool.Proofs.Pool.Locks

/-!
Tasks that make calls of their own.

A task that calls the pool of its worker, or their queue, waits for that call, which goes on like
that of any other caller. So a worker and a caller are tied to each other until the call has ended.
-/

namespace TaskPool

/--
What a request of a task wants from the pool with a number or from its queue,
if it wants anything from them.
-/
def Request.served? (number : Nat) : Request → Option Pool.Request
  | .submit target task => if target = number then some (.submit task) else none
  | .push task => some (.queue (.push task))
  | .start target count => if target = number then some (.start count) else none
  | .close => some (.queue .close)
  | .observe target _ => if target = number then some .observe else none

namespace Duty

/-- What the task of a worker wants next from the pool with a number or from its queue. -/
def wanted? (number : Nat) : Duty → Option Pool.Request
  | .working _ (.ask request :: _) => request.served? number
  | _ => none

/-- Whether the task of a worker waits at a gate, or for a pool other than the one with a number. -/
def isHeldUp (number : Nat) : Duty → Bool
  | .working _ (.await :: _) => true
  | .working _ (.ask request :: _) => (request.served? number).isNone
  | _ => false

/-- Whether the task of a worker starts the pool with a number. -/
def isStarting (number : Nat) (duty : Duty) : Bool :=
  (duty.wanted? number).any fun
    | .start _ => true
    | _ => false

end Duty

namespace Pool

namespace Call

/-- Whether a call never waits for a lock on the life of the pool, for workers, or for a task. -/
def isBrief : Call → Bool
  | .queue .popping | .submit .popping | .start .. | .stop _ => false
  | _ => true

/--
What a task hears of a call that has ended: nothing but that it has returned,
or the text that it broke off with.
-/
def news? : Call → Option (Option String)
  | .returned _ => some none
  | .broken text => some (some text)
  | _ => none

/-- Whether a call is one that a task has made for what it wanted. -/
def Serves (wanted : Request) (call : Call) : Prop :=
  match wanted with
  | .start _ => True
  | .observe => call = .observe ∨ ∃ answer, call = .returned answer
  | _ => call.isBrief = true

variable {queue after : Queue Thread Task} {pool next : Pool} {events : List Event} {caller : Nat}
  {chance : Chance} {call later : Call}

/-- A brief call waits at most for the lock on the roster. -/
theorem waits_of_brief (brief : call.isBrief = true) :
    call.isLocking = false ∧ call.isPopping = false ∧ ∀ left, call ≠ .stop (.joining left) := by
  -- Locks on the life of a pool and workers are matters of starts and
  -- stops, and those are not brief.
  cases call with
  | queue own | submit own => cases own <;> first | cases brief; done | exact ⟨rfl, rfl, by simp⟩
  | start | stop => cases brief
  | _ => exact ⟨rfl, rfl, by simp⟩

/-- A call of the queue that does not wait for a task never comes to do so. -/
theorem step_ne_popping {self : Thread} {chosen : Option Thread} {own onward : Queue.Call Task}
    {told : List (Queue.Event Thread Task)} (other : own ≠ .popping)
    (stepped : own.step self chosen queue = some (after, onward, told)) : onward ≠ .popping := by
  -- Only a call that waits for a task goes on waiting for one.
  cases own with
  | popping => exact absurd rfl other
  | notifying =>
    cases chosen <;> simp only [Queue.Call.step, Option.ite_none_right_eq_some, Option.some.injEq,
      Prod.mk.injEq] at stepped <;> obtain ⟨-, -, rfl, -⟩ := stepped <;> simp
  | returned => cases stepped
  | _ =>
    cases stepped
    simp

/-- A brief call stays so. -/
theorem Move.brief (move : call.Move queue pool caller chance after next later events)
    (brief : call.isBrief = true) : later.isBrief = true := by
  -- All that could change is what a call of the queue goes on with.
  cases move with
  | @queue own onward _ _ moved =>
    have other := step_ne_popping (by rintro rfl; cases brief) moved
    cases onward <;> first | rfl | exact absurd rfl other
  | @hand own onward _ _ _ moved =>
    have other := step_ne_popping (by rintro rfl; cases brief) moved
    cases onward <;> first | rfl | exact absurd rfl other
  | start | stop => cases brief
  | _ => rfl

/-- A call that goes on still is one for what was wanted. -/
theorem Move.serves {wanted : Request}
    (move : call.Move queue pool caller chance after next later events)
    (serves : call.Serves wanted) : later.Serves wanted := by
  -- Nothing is demanded of starts.
  cases wanted with
  | start count => trivial
  | observe =>
    -- The observers have answered after one step.
    rcases serves with rfl | ⟨answer, rfl⟩ <;> cases move
    exact .inr ⟨_, rfl⟩
  | _ => exact move.brief serves

/-- The start of a call that a task makes is one for what the task wants. -/
theorem serves_of_served {number : Nat} {request : TaskPool.Request} {wanted : Request}
    (served : request.served? number = some wanted) : wanted.call.Serves wanted := by
  -- A task that uses the queue puts something there or closes it.
  cases request <;>
    simp only [Request.served?, Option.ite_none_right_eq_some, Option.some.injEq] at served
  case submit | start =>
    obtain ⟨-, rfl⟩ := served
    first | rfl | trivial
  case observe =>
    obtain ⟨-, rfl⟩ := served
    exact .inl rfl
  case push | close =>
    subst served
    rfl

/-- Unless it is a start, a call that a task has made is brief. -/
theorem Serves.brief {wanted : Request} (serves : call.Serves wanted)
    (other : ∀ count, wanted ≠ .start count) :
    call.isBrief = true := by
  cases wanted with
  | start count => exact absurd rfl (other count)
  | observe => rcases serves with rfl | ⟨answer, rfl⟩ <;> rfl
  | _ => exact serves

end Call

end Pool

open World (Turn)

/--
A pool and its queue, with the calls of them that tasks have made and wait for:
each worker whose task waits, with the caller that makes the call.
-/
structure Bustle where
  world : World
  errands : List (Nat × Nat)

namespace Bustle

/-- A new pool, where no task has made a call. -/
def fresh (number : Nat) (settings : Settings) (sink : Sink) : Bustle :=
  ⟨.fresh number settings sink, []⟩

/-- What may happen next. -/
inductive Move where
  /-- A turn that has nothing to do with the calls of tasks, or one of a caller that makes one. -/
  | turn (turn : Turn)
  /-- The task of a worker begins a call, with a new caller. -/
  | ask (worker : Nat)
  /-- The task of a worker hears that its call has ended. -/
  | answer (worker caller : Nat)

/-- What the task of a worker wants next from the pool or its queue. -/
def wanted? (bustle : Bustle) (worker : Nat) : Option Pool.Request :=
  (bustle.world.pool.workers[worker]?).bind fun known => known.duty.wanted? bustle.world.pool.number

/--
Whether a turn may be taken: it neither replaces a call that a task waits for nor
lets the task hear of it.
-/
def allows (bustle : Bustle) : Turn → Bool
  | .begin caller _ => bustle.errands.all fun errand => errand.2 ≠ caller
  | .resume worker _ => (bustle.wanted? worker).isNone
  | _ => true

/-- What becomes of a pool and of the calls of tasks; nothing, if the move is not possible. -/
def step (bustle : Bustle) : Move → Option (Bustle × List Pool.Event)
  | .turn turn =>
    if bustle.allows turn then
      (bustle.world.step turn).map fun (world, events) => ({ bustle with world := world }, events)
    else none
  | .ask worker =>
    if bustle.errands.all fun errand => errand.1 ≠ worker then
      (bustle.wanted? worker).bind fun request =>
        let caller := bustle.world.pool.callers.length
        (bustle.world.step (.begin caller request)).map fun (world, events) =>
          (⟨world, (worker, caller) :: bustle.errands⟩, events)
    else none
  | .answer worker caller =>
    if (worker, caller) ∈ bustle.errands then
      ((bustle.world.pool.callers[caller]?).bind Pool.Call.news?).bind fun broken =>
        (bustle.world.step (.resume worker broken)).map fun (world, events) =>
          (⟨world, bustle.errands.filter fun errand => errand.1 ≠ worker⟩, events)
    else none

/--
Whether a move is one that the pool makes by itself; new calls,
gates and other pools are up to others.
-/
def Move.isOwn : Move → Bool
  | .turn (.caller ..) | .turn (.worker ..) | .ask _ | .answer .. => true
  | .turn _ => false

/-- Nothing moves any more by itself, whatever the system and the clock decide. -/
def Settled (bustle : Bustle) : Prop := ∀ move : Move, move.isOwn = true → bustle.step move = none

variable {bustle next : Bustle} {events : List Pool.Event}

/-- A turn is taken where it is allowed, and no task makes or ends a call by it. -/
theorem step_turn {turn : Turn} :
    bustle.step (.turn turn) = some (next, events) ↔
      bustle.allows turn = true ∧
        ∃ world, bustle.world.step turn = some (world, events) ∧
          next = ⟨world, bustle.errands⟩ := by
  simp only [step, Option.ite_none_right_eq_some, Option.map_eq_some_iff, Prod.exists,
    Prod.mk.injEq]
  constructor
  · rintro ⟨allowed, world, _, moved, rfl, rfl⟩
    exact ⟨allowed, world, moved, rfl⟩
  · rintro ⟨allowed, world, moved, rfl⟩
    exact ⟨allowed, world, _, moved, rfl, rfl⟩

/--
A task makes the call that it wants where its worker waits for no call,
and the call is that of a new caller.
-/
theorem step_ask {worker : Nat} :
    bustle.step (.ask worker) = some (next, events) ↔
      (∀ errand ∈ bustle.errands, errand.1 ≠ worker) ∧
        ∃ wanted, bustle.wanted? worker = some wanted ∧ events = [] ∧
        next = ⟨{ bustle.world with
          pool :=
            { bustle.world.pool with callers := bustle.world.pool.callers ++ [wanted.call] } },
          (worker, bustle.world.pool.callers.length) :: bustle.errands⟩ := by
  -- The place behind all callers is that of a new one, so the call can always begin.
  simp only [step, Option.ite_none_right_eq_some, List.all_eq_true, decide_eq_true_eq,
    Option.bind_eq_some_iff, World.step, ↓reduceIte, Option.map_some, Option.some.injEq,
    Prod.mk.injEq]
  constructor
  · rintro ⟨free, wanted, wants, rfl, rfl⟩
    exact ⟨free, wanted, wants, rfl, rfl⟩
  · rintro ⟨free, wanted, wants, rfl, rfl⟩
    exact ⟨free, wanted, wants, rfl, rfl⟩

/--
A task hears of a call that its worker waits for and that has ended, and goes on
or breaks off as the call did.
-/
theorem step_answer {worker caller : Nat} :
    bustle.step (.answer worker caller) = some (next, events) ↔
      (worker, caller) ∈ bustle.errands ∧
        ∃ call broken world, bustle.world.pool.callers[caller]? = some call ∧
          call.news? = some broken ∧
          bustle.world.step (.resume worker broken) = some (world, events) ∧
          next = ⟨world, bustle.errands.filter fun errand => errand.1 ≠ worker⟩ := by
  simp only [step, Option.ite_none_right_eq_some, Option.bind_eq_some_iff,
    Option.map_eq_some_iff, Prod.exists, Prod.mk.injEq]
  constructor
  · rintro ⟨member, broken, ⟨call, found, news⟩, world, _, moved, rfl, rfl⟩
    exact ⟨member, call, broken, world, found, news, moved, rfl⟩
  · rintro ⟨member, call, broken, world, found, news, moved, rfl⟩
    exact ⟨member, broken, ⟨call, found, news⟩, world, _, moved, rfl, rfl⟩

/-- Each move is a turn of the pool. -/
theorem step_world {move : Move} (stepped : bustle.step move = some (next, events)) :
    ∃ turn, bustle.world.step turn = some (next.world, events) := by
  cases move with
  | turn turn =>
    obtain ⟨-, world, moved, rfl⟩ := step_turn.mp stepped
    exact ⟨turn, moved⟩
  | ask worker =>
    obtain ⟨-, wanted, -, rfl, rfl⟩ := step_ask.mp stepped
    exact ⟨.begin bustle.world.pool.callers.length wanted, by simp [World.step]⟩
  | answer worker caller =>
    obtain ⟨-, call, broken, world, -, -, moved, rfl⟩ := step_answer.mp stepped
    exact ⟨_, moved⟩

/-- A run in which tasks make calls is a run of the pool. -/
theorem run_world {number : Nat} {settings : Settings} {sink : Sink} {moves : List Move}
    (ran : runOf step (fresh number settings sink) moves = some (bustle, events)) :
    ∃ turns, runOf World.step (.fresh number settings sink) turns =
      some (bustle.world, events) := by
  -- The turns are put together one after the other, as the moves are made.
  refine run_invariant (fun bustle events =>
    ∃ turns, runOf World.step (.fresh number settings sink) turns = some (bustle.world, events))
      ⟨[], rfl⟩ ?_ ran
  rintro before earlier move after new ⟨turns, went⟩ stepped
  obtain ⟨turn, moved⟩ := step_world stepped
  exact ⟨turns ++ [turn], runOf_concat.mpr ⟨_, _, _, went, moved, rfl⟩⟩

/--
Each worker whose task waits for a call is tied to a caller whose call is what the task wants.
-/
def Tied (bustle : Bustle) : Prop :=
  ∀ errand ∈ bustle.errands, ∃ wanted call, bustle.wanted? errand.1 = some wanted ∧
    bustle.world.pool.callers[errand.2]? = some call ∧ call.Serves wanted

/-- A task wants what it wanted where its worker is as it was. -/
theorem wanted?_congr {worker : Nat} {wanted : Pool.Request}
    (wants : bustle.wanted? worker = some wanted)
    (number : next.world.pool.number = bustle.world.pool.number)
    (workers : ∀ known, bustle.world.pool.workers[worker]? = some known →
      next.world.pool.workers[worker]? = some known) :
    next.wanted? worker = some wanted := by
  obtain ⟨known, found, wants⟩ := Option.bind_eq_some_iff.mp wants
  exact Option.bind_eq_some_iff.mpr ⟨known, workers known found, number ▸ wants⟩

/--
A worker whose task wants nothing from the pool is tied to no caller, so it may go on in any way.
-/
theorem Tied.setWorker {index : Nat} {worker : Worker} {tally : Tally} {queue : Queue Thread Task}
    (tied : bustle.Tied) (idle : bustle.wanted? index = none) :
    Tied ⟨⟨queue, World.setWorker { bustle.world.pool with tally := tally } index worker⟩,
      bustle.errands⟩ := by
  -- Whoever is tied wants something, and so is another worker.
  intro errand member
  obtain ⟨wanted, call, wants, found, serves⟩ := tied errand member
  refine ⟨wanted, call, wanted?_congr wants rfl fun known place => ?_, found, serves⟩
  have apart : index ≠ errand.1 := by
    intro same
    rw [same, wants] at idle
    cases idle
  exact (List.getElem?_set_ne apart).trans place

/-- A turn that is allowed cuts no tie. -/
theorem Tied.turn {turn : Turn} {world : World} (tied : bustle.Tied)
    (allowed : bustle.allows turn = true)
    (stepped : bustle.world.step turn = some (world, events)) : Tied ⟨world, bustle.errands⟩ := by
  -- Callers go on with calls of the same kind, and workers that wait for a call do not go on.
  cases turn with
  | begin caller request =>
    obtain ⟨-, callers, rfl, added⟩ := World.step_begin stepped
    intro errand member
    obtain ⟨wanted, call, wants, found, serves⟩ := tied errand member
    refine ⟨wanted, call, wants, ?_, serves⟩
    rcases added with rfl | ⟨-, -, -, rfl⟩
    · exact (List.getElem?_append_left (List.getElem?_eq_some_iff.mp found).1).trans found
    · -- The call does not take the place of one that a task waits for.
      have apart : errand.2 ≠ caller := by simpa using List.all_eq_true.mp allowed errand member
      exact (List.getElem?_set_ne apart.symm).trans found
  | caller index chance =>
    obtain ⟨call, queue, pool, later, place, moved, rfl⟩ := World.step_caller.mp stepped
    have visit := Pool.Call.step_visit moved
    intro errand member
    obtain ⟨wanted, known, wants, found, serves⟩ := tied errand member
    have kept : (⟨⟨queue, World.setCaller pool index later⟩, bustle.errands⟩ :
      Bustle).wanted? errand.1 =
        some wanted := by
      refine wanted?_congr wants visit.number fun worker place => ?_
      -- A worker that is new stands behind all others.
      rcases visit.workers with same | ⟨name, more⟩
      · exact (congrArg (·[errand.1]?) same).trans place
      · refine (congrArg (·[errand.1]?) more).trans (Eq.trans ?_ place)
        exact List.getElem?_append_left (List.getElem?_eq_some_iff.mp place).1
    have placed : World.Placed bustle.world.pool.callers index later
        (World.setCaller pool index later).callers := by
      rw [World.setCaller, visit.callers]
      exact .set place
    by_cases mine : errand.2 = index
    · -- The call that goes on is the one that the task waits for.
      rw [mine, place] at found
      cases found
      exact ⟨wanted, later, kept, mine ▸ placed.known,
        (Pool.Call.step_eq_some_iff.mp moved).serves serves⟩
    · exact ⟨wanted, known, kept, (placed.others _ mine).trans found, serves⟩
  | worker index chance =>
    obtain ⟨name, duty, queue, pool, later, found, moved, rfl⟩ := World.step_worker.mp stepped
    rw [(Pool.work_progress moved).same]
    refine tied.setWorker ?_
    -- A worker whose task waits for a call does not go on.
    rw [wanted?, found, Option.bind_some]
    cases duty with
    | working task left =>
      cases left with
      | nil => rfl
      | cons action left =>
        cases action with
        | ask request => cases moved
        | _ => rfl
    | _ => rfl
  | openGate index =>
    obtain ⟨-, name, task, left, found, rfl⟩ := World.step_openGate stepped
    exact tied.setWorker (by rw [wanted?, found]; rfl)
  | resume index broken =>
    obtain ⟨name, task, request, left, later, -, rfl, -⟩ := World.step_resume stepped
    exact tied.setWorker (Option.isNone_iff_eq_none.mp allowed)
  | refilter filter =>
    cases stepped
    exact tied

/-- Every move leaves each task that waits tied to the call that it waits for. -/
theorem step_tied {move : Move} (tied : bustle.Tied)
    (stepped : bustle.step move = some (next, events)) :
    next.Tied := by
  -- A tie is made together with its call, and cut when the task hears that the call has ended.
  cases move with
  | turn turn =>
    obtain ⟨allowed, world, moved, rfl⟩ := step_turn.mp stepped
    exact tied.turn allowed moved
  | ask worker =>
    obtain ⟨-, request, wants, rfl, rfl⟩ := step_ask.mp stepped
    intro errand member
    rcases List.mem_cons.mp member with rfl | old
    · -- The new call stands behind all others.
      obtain ⟨known, found, wants'⟩ := Option.bind_eq_some_iff.mp wants
      refine ⟨request, request.call, wants, by simp, ?_⟩
      unfold Duty.wanted? at wants'
      split at wants'
      · exact Pool.Call.serves_of_served wants'
      · cases wants'
    · obtain ⟨wanted, call, wants, found, serves⟩ := tied errand old
      exact ⟨wanted, call, wants,
        (List.getElem?_append_left (List.getElem?_eq_some_iff.mp found).1).trans found, serves⟩
  | answer worker caller =>
    obtain ⟨-, call, broken, world, -, -, moved, rfl⟩ := step_answer.mp stepped
    obtain ⟨name, task, request, left, later, -, rfl, -⟩ := World.step_resume moved
    intro errand member
    obtain ⟨old, apart⟩ := List.mem_filter.mp member
    obtain ⟨wanted, call, wants, found, serves⟩ := tied errand old
    refine ⟨wanted, call, wanted?_congr wants rfl fun known place => ?_, found, serves⟩
    -- The worker that has heard its answer is another one.
    exact (List.getElem?_set_ne (Ne.symm (by simpa using apart))).trans place

/-- In every run, each task that waits for a call is tied to it. -/
theorem run_tied {number : Nat} {settings : Settings} {sink : Sink} {moves : List Move}
    (ran : runOf step (fresh number settings sink) moves = some (bustle, events)) : bustle.Tied :=
  run_invariant (fun bustle _ => bustle.Tied) (List.forall_mem_nil _)
    (fun _ _ _ _ _ tied stepped => step_tied tied stepped) ran

end Bustle

end TaskPool
