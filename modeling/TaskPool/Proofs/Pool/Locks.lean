import TaskPool.Proofs.Pool.Moves
import TaskPool.Proofs.Pool.OneLife
import TaskPool.Proofs.Pool.Script

/-!
Who holds the locks of a pool, and what a call can wait for.

A lock that is taken is held by a call that is in one of the phases between taking it and giving
it up. So where nothing moves any more, a call waits for a sleep to end or for workers,
or for a call that waits for workers.
-/

namespace TaskPool

namespace Pool

/-- Whether a call is creating workers, and so holds the lock on the roster. -/
def Call.isCreating : Call → Bool
  | .start _ (.creating _) | .start _ (.lamenting ..) => true
  | _ => false

/-- Whoever creates workers has the lock on the life of the pool too. -/
theorem Call.staged_of_isCreating {call : Call} (creating : call.isCreating = true) :
    call.stage?.isSome = true := by
  -- A start creates workers between its claim and its end.
  cases call with
  | start count phase => cases phase <;> first | cases creating; done | rfl
  | _ => cases creating

/-- Whether a call can go on only while nobody holds the lock on the roster. -/
def Call.needsRoster : Call → Bool
  | .start _ .reserving | .stop .gathering | .observe => true
  | _ => false

/-- Whether a call is about to take the lock on the life of the pool. -/
def Call.isLocking : Call → Bool
  | .start _ .locking | .stop .locking => true
  | _ => false

/--
A call that holds the lock on the life of the pool goes on by itself,
but for workers and the roster.
-/
theorem Call.onward_of_stage {call : Call} (staged : call.stage?.isSome = true) :
    call.hasEnded = false ∧ call.isLocking = false ∧ call.isPopping = false ∧
      ∀ task, call ≠ .queue (.returned task) := by
  -- The phases without a stage are those before the lock is taken, and those after it was given up.
  cases call with
  | start count phase => cases phase <;> first | cases staged; done | exact ⟨rfl, rfl, rfl, by simp⟩
  | stop phase => cases phase <;> first | cases staged; done | exact ⟨rfl, rfl, rfl, by simp⟩
  | _ => cases staged

/--
Whoever has the lock on the roster after a step has come to create workers,
or had it before and keeps it.
-/
def Handed (lock lockAfter : Option Nat) (caller : Nat) (call later : Call) : Prop :=
  ∀ owner, lockAfter = some owner →
    owner = caller ∧ later.isCreating = true ∨ lock = some owner ∧
    (owner = caller → call.isCreating = false)

variable {queue after : Queue Thread Task} {pool next : Pool} {events : List Event}
  {caller count : Nat} {call later : Call}

/--
A lock that nobody touches stays with its owner, unless that one is the caller and its call held it.
-/
theorem Handed.same {lock : Option Nat} (free : call.isCreating = false) :
    Handed lock lock caller call later :=
  fun _ owned => .inr ⟨owned, fun _ => free⟩

/-- A lock that is free is nobody's. -/
theorem Handed.none {lock : Option Nat} :
    Handed lock none caller call later := fun _ owned => by cases owned

/-- A lock that is held by the call after the step may be where it was, or with the caller. -/
theorem Handed.held {lock lockAfter : Option Nat} (held : later.isCreating = true)
    (kept : lockAfter = lock ∨ lockAfter = some caller) :
    Handed lock lockAfter caller call later := by
  -- Another owner than the caller had the lock before.
  intro owner owned
  by_cases mine : owner = caller
  · exact .inl ⟨mine, held⟩
  · rcases kept with rfl | rfl
    · exact .inr ⟨owned, fun same => absurd same mine⟩
    · exact absurd (Option.some.inj owned).symm mine

/-- A caller that breaks off gives up the lock on the roster. -/
theorem Handed.release :
    Handed pool.rosterLock (pool.release caller).rosterLock caller call later := by
  -- The lock is given up only by a caller that has it.
  intro owner owned
  simp only [Pool.release] at owned
  split at owned
  · cases owned
  · rename_i other
    refine .inr ⟨owned, fun mine => absurd ?_ other⟩
    rw [← mine, owned]

/-- A caller that tells a message leaves the lock on the roster alone, unless it breaks off. -/
theorem Telling.handed {message : Message} {onward : Call}
    (tells : Telling pool caller message onward next later events)
    (kept : call.isCreating = false ∨ onward.isCreating = true) :
    Handed pool.rosterLock next.rosterLock caller call later := by
  -- Whoever goes on keeps what it has, and whoever breaks off keeps nothing.
  cases tells with
  | told => exact kept.elim .same fun held => .held held (.inl rfl)
  | failed => exact .release

/-- A start hands on the lock on the roster while it creates workers. -/
theorem Starting.Move.handed {phase : Starting} {refusal : Option Trouble}
    (move : phase.Move pool caller count refusal next later events) :
    Handed pool.rosterLock next.rosterLock caller (.start count phase) later := by
  -- The lock is taken where the workers are about to be created, and given up where
  -- the start ends or breaks off.
  cases move with
  | refuse tells | announce tells => exact tells.handed (.inl rfl)
  | lament tells => exact tells.handed (.inr rfl)
  | overflow | misname => exact .release
  | reserve => exact .held rfl (.inr rfl)
  | miss | hire => exact .held rfl (.inl rfl)
  | finish => exact .none
  | _ => exact .same rfl

/-- A stop leaves the lock on the roster alone. -/
theorem Stopping.Move.handed {phase : Stopping} {timeUp : Bool} {worker : Nat}
    (move : phase.Move queue pool caller timeUp worker after next later events) :
    Handed pool.rosterLock next.rosterLock caller (.stop phase) later := by
  -- A stop empties the roster in one step, for which it waits until nobody holds the lock.
  cases move with
  | announce tells | warn tells | part tells | lament tells => exact tells.handed (.inl rfl)
  | _ => exact .same rfl

/--
Whatever a caller does, the lock on the roster is handed on from one that
holds it to one that holds it.
-/
theorem Call.Move.handed {chance : Chance}
    (move : call.Move queue pool caller chance after next later events) :
    Handed pool.rosterLock next.rosterLock caller call later := by
  -- Whoever is neither a start nor a stop leaves the locks alone.
  cases move with
  | start move => exact move.handed
  | stop move => exact move.handed
  | _ => exact .same rfl

/-- A lock that is handed on has an owner whose call holds it, if it had one before. -/
theorem Handed.owned {lock lockAfter : Option Nat} {callers : List Call}
    (handed : Handed lock lockAfter caller call later)
    (owned : ∀ owner, lock = some owner → ∃ held, callers[owner]? = some held ∧
      held.isCreating = true)
    (found : callers[caller]? = some call) :
    ∀ owner, lockAfter = some owner →
      ∃ held, (callers.set caller later)[owner]? = some held ∧ held.isCreating = true := by
  intro owner taken
  rcases handed owner taken with ⟨rfl, holding⟩ | ⟨before, free⟩
  · exact ⟨later, (World.Placed.set found).known, holding⟩
  · obtain ⟨held, known, holding⟩ := owned owner before
    -- The owner is another caller, since the call of this one did not hold the lock.
    have apart : owner ≠ caller := by
      intro same
      subst same
      rw [found] at known
      cases known
      rw [free rfl] at holding
      cases holding
    exact ⟨held, ((World.Placed.set found).others owner apart).trans known, holding⟩

/--
What a call waits for that cannot go on, whatever is decided elsewhere but which
threads the system refuses.

It has ended, or it waits for a lock, or for one of some workers, or for a task
while its thread is asleep.
-/
theorem Call.stuck {refuse : Nat → Option Trouble} (onward : ∀ task, call ≠ .queue (.returned task))
    (stuck : ∀ chance : Chance,
      (∀ count number, call = .start count (.creating number) → chance.refusal = refuse number) →
        call.step queue pool caller chance = none) :
    call.hasEnded = true ∨ call.isLocking = true ∧ pool.lifecycle ≠ none ∨
      call.needsRoster = true ∧ pool.rosterLock ≠ none ∨ (∃ left, call = .stop (.joining left)) ∨
      call.isPopping = true := by
  -- A chance on which every phase goes on that can.
  have tried (woken : Option Thread) (refusal : Option Trouble)
      (fits : ∀ count number, call = .start count (.creating number) → refusal = refuse number) :=
    stuck ⟨woken, refusal, true, 0, 0⟩ fits
  -- Somebody can be woken if anybody sleeps, and nobody needs to be if not.
  have wakes : ∃ woken : Option Thread,
      (Queue.Call.notifying : Queue.Call Task).step ⟨pool.number, .caller caller⟩ woken
        queue ≠ none := by
    cases sleepers : queue.asleep with
    | nil => exact ⟨none, by simp [Queue.Call.step, sleepers]⟩
    | cons first rest => exact ⟨some first, by simp [Queue.Call.step, sleepers]⟩
  obtain ⟨woken, goes⟩ := wakes
  cases call with
  | queue call =>
    have none := tried woken none (by simp)
    simp only [step, Option.map_eq_none_iff] at none
    cases call with
    | popping => exact .inr (.inr (.inr (.inr rfl)))
    | notifying => exact absurd none goes
    | returned task => exact absurd rfl (onward task)
    | _ => cases none
  | submit call =>
    have none := tried woken none (by simp)
    cases call with
    | popping => exact .inr (.inr (.inr (.inr rfl)))
    | notifying =>
      simp only [step, Option.map_eq_none_iff] at none
      exact absurd none goes
    | _ => cases none
  | start count phase =>
    cases phase with
    | locking =>
      have none := tried none none (by simp)
      exact .inr (.inl ⟨rfl, fun free => by simp [step, Starting.step, free] at none⟩)
    | reserving =>
      -- With the lock free, the start either reserves the roster or breaks off.
      have none := tried none none (by simp)
      refine .inr (.inr (.inl ⟨rfl, fun free => ?_⟩))
      by_cases many : rosterLimit < count <;> simp [step, Starting.step, free, many] at none
    | creating number =>
      -- The system creates the thread or refuses it, and the start goes on either way.
      have none := tried none (refuse number) (by simp)
      simp only [step, Starting.step] at none
      split at none <;> cases none
    | claiming =>
      have none := tried none none (by simp)
      simp only [step, Starting.step] at none
      split at none <;> cases none
    | _ => cases tried none none (by simp)
  | stop phase =>
    have none := tried none none (by simp)
    cases phase with
    | locking => exact .inr (.inl ⟨rfl, fun free => by simp [step, Stopping.step, free] at none⟩)
    | gathering =>
      exact .inr (.inr (.inl ⟨rfl, fun free => by simp [step, Stopping.step, free] at none⟩))
    | claiming | draining =>
      simp only [step, Stopping.step] at none
      split at none <;> cases none
    | joining left => exact .inr (.inr (.inr (.inl ⟨left, rfl⟩)))
    | _ => cases none
  | observe =>
    have none := tried none none (by simp)
    exact .inr (.inr (.inl ⟨rfl, fun free => by simp [step, free] at none⟩))
  | returned | broken => exact .inl rfl

end Pool

namespace World

open Pool

variable {world next : World} {events : List Pool.Event}

/-- Every lock that is taken is held by a call that will give it up. -/
structure Owned (world : World) : Prop where
  life : ∀ owner, world.pool.lifecycle = some owner →
    ∃ call, world.pool.callers[owner]? = some call ∧ call.stage?.isSome = true
  roster : ∀ owner, world.pool.rosterLock = some owner →
    ∃ call, world.pool.callers[owner]? = some call ∧ call.isCreating = true

/-- Every turn leaves the lock on the roster with a call that creates workers. -/
theorem step_roster_owned {turn : Turn}
    (owned : ∀ owner, world.pool.rosterLock = some owner →
      ∃ call, world.pool.callers[owner]? = some call ∧ call.isCreating = true)
    (stepped : world.step turn = some (next, events)) :
    ∀ owner, next.pool.rosterLock = some owner →
      ∃ call, next.pool.callers[owner]? = some call ∧ call.isCreating = true := by
  cases turn with
  | begin caller request =>
    obtain ⟨-, place, callers, rfl, placed, done⟩ := placed_of_step_begin stepped
    intro owner taken
    obtain ⟨call, found, creating⟩ := owned owner taken
    -- Where the new call stands, nothing goes on that could hold a lock.
    have apart : owner ≠ place := by
      rintro rfl
      have ended := done call found
      cases call <;> first | cases ended; done | cases creating
    exact ⟨call, (placed.others owner apart).trans found, creating⟩
  | caller index chance =>
    obtain ⟨call, queue, pool, later, found, moved, rfl⟩ := step_caller.mp stepped
    have callers := (Call.step_visit moved).callers
    intro owner taken
    simpa [setCaller, callers] using (Call.step_eq_some_iff.mp moved).handed.owned owned
      found owner taken
  | worker index chance =>
    -- Workers touch no lock.
    obtain ⟨name, duty, queue, pool, later, -, moved, rfl⟩ := step_worker.mp stepped
    rw [(work_progress moved).same]
    exact owned
  | openGate index =>
    obtain ⟨-, name, task, left, -, rfl⟩ := step_openGate stepped
    exact owned
  | resume index broken =>
    obtain ⟨name, task, request, left, later, -, rfl, -⟩ := step_resume stepped
    exact owned
  | refilter filter =>
    cases stepped
    exact owned

/-- A run can be watched, with the same world at its end. -/
theorem exists_watched {number : Nat} {settings : Settings} {sink : Sink} {turns : List Turn}
    (ran : runOf step (fresh number settings sink) turns = some (world, events)) :
    ∃ watched moments, runOf recorded (.fresh number settings sink) turns =
      some (watched, moments) ∧
      watched.world = world ∧ moments.flatMap (·.events) = events := by
  have same := runOf_recorded (.fresh number settings sink) turns
  rw [show (Watched.fresh number settings sink).world = fresh number settings sink from rfl, ran,
    Option.map_eq_some_iff] at same
  obtain ⟨⟨watched, moments⟩, kept, same⟩ := same
  cases same
  exact ⟨watched, moments, kept, rfl, rfl⟩

/-- In every run from a new pool the lock on its life is with the one call that has come so far. -/
theorem run_held {number : Nat} {settings : Settings} {sink : Sink} {turns : List Turn}
    {caller : Nat} {call : Call}
    (ran : runOf step (fresh number settings sink) turns = some (world, events))
    (found : world.pool.callers[caller]? = some call) (staged : call.stage?.isSome = true) :
    world.pool.lifecycle = some caller := by
  -- This too is known from what starts and stops have done.
  obtain ⟨watched, moments, kept, rfl, -⟩ := exists_watched ran
  obtain ⟨⟨deeds, -, present⟩, -⟩ := run_present kept
  exact (present.held caller call found staged).1

/-- In every run from a new pool the locks are with calls that will give them up. -/
theorem run_owned {number : Nat} {settings : Settings} {sink : Sink} {turns : List Turn}
    (ran : runOf step (fresh number settings sink) turns = some (world, events)) : world.Owned where
  life := by
    -- Who holds the lock on the life of the pool is known from what starts and stops have done.
    obtain ⟨watched, moments, kept, rfl, -⟩ := exists_watched ran
    obtain ⟨⟨deeds, -, present⟩, -⟩ := run_present kept
    exact present.owned
  roster := run_invariant (fun world _ => ∀ owner, world.pool.rosterLock = some owner →
      ∃ call, world.pool.callers[owner]? = some call ∧ call.isCreating = true)
    (by simp [fresh, Pool.fresh]) (fun _ _ _ _ _ owned stepped =>
      step_roster_owned owned stepped) ran

variable {refuse : Nat → Option Trouble} {gates : Gates}

/-- Where nothing moves any more, no call can go on. -/
theorem Settled.call {caller : Nat} {call : Call} (settled : Settled refuse gates world)
    (found : world.pool.callers[caller]? = some call) (chance : Chance)
    (fits : ∀ count number, call = .start count (.creating number) →
      chance.refusal = refuse number) :
    call.step world.queue world.pool caller chance = none := by
  cases moved : call.step world.queue world.pool caller chance with
  | none => rfl
  | some result =>
    -- A step of the call would be a turn of its caller.
    have stepped := step_caller.mpr ⟨call, result.1, result.2.1, result.2.2.1, found, moved, rfl⟩
    have none := settled (.caller caller chance) fun count number known => by
      rw [found] at known
      exact fits count number (Option.some.inj known)
    rw [none] at stepped
    cases stepped

/-- Where nothing moves any more, nobody holds the lock on the roster. -/
theorem Settled.roster_free (settled : Settled refuse gates world) (owned : world.Owned) :
    world.pool.rosterLock = none := by
  cases taken : world.pool.rosterLock with
  | none => rfl
  | some owner =>
    -- A call that creates workers can always go on.
    obtain ⟨call, found, creating⟩ := owned.roster owner taken
    have stuck := Call.stuck (by rintro task rfl; cases creating) (settled.call found)
    cases call with
    | start count phase =>
      cases phase with
      | creating
          | lamenting => simp [Call.hasEnded, Call.isLocking, Call.needsRoster,
              Call.isPopping] at stuck
      | _ => cases creating
    | _ => cases creating

/--
Where nothing moves any more, whoever holds the lock on the life of the pool waits for its workers.
-/
theorem Settled.life_owner {owner : Nat} (settled : Settled refuse gates world)
    (owned : world.Owned) (taken : world.pool.lifecycle = some owner) :
    ∃ left, world.pool.callers[owner]? = some (.stop (.joining left)) := by
  obtain ⟨call, found, staged⟩ := owned.life owner taken
  have free := settled.roster_free owned
  obtain ⟨going, unlocked, awake, onward⟩ := Call.onward_of_stage staged
  -- It has the lock already, nobody holds that on the roster, and it waits for no task;
  -- so only workers are left.
  rcases Call.stuck onward (settled.call found) with
    ended | ⟨locking, -⟩ | ⟨-, held⟩ | ⟨left, rfl⟩ | popping
  · exact absurd (going.symm.trans ended) Bool.false_ne_true
  · exact absurd (unlocked.symm.trans locking) Bool.false_ne_true
  · exact absurd free held
  · exact ⟨left, found⟩
  · exact absurd (awake.symm.trans popping) Bool.false_ne_true

/-- Where nothing moves any more, no call owes a wake to anybody. -/
theorem Settled.owes_nothing {call : Call} (settled : Settled refuse gates world)
    (onward : ∀ task, call ≠ .queue (.returned task)) (member : call ∈ world.pool.callers) :
    call.owesWake = false ∧ call.owesWakeAll = false := by
  obtain ⟨caller, found⟩ := List.getElem?_of_mem member
  -- A call that owes a wake could give it.
  have stuck := Call.stuck onward (settled.call found)
  cases call with
  | queue own | submit own =>
    cases own with
    | notifying | notifyingAll =>
      simp [Call.hasEnded, Call.isLocking, Call.needsRoster, Call.isPopping] at stuck
    | _ => exact ⟨rfl, rfl⟩
  | stop phase =>
    cases phase with
    | waking => simp [Call.hasEnded, Call.isLocking, Call.needsRoster, Call.isPopping] at stuck
    | _ => exact ⟨rfl, rfl⟩
  | _ => exact ⟨rfl, rfl⟩

/-- A caller that waits for a task can go on unless its thread is asleep. -/
theorem Settled.caller_asleep {caller : Nat} {call : Call} (settled : Settled refuse gates world)
    (found : world.pool.callers[caller]? = some call) (popping : call.isPopping = true) :
    (⟨world.pool.number, .caller caller⟩ : Thread) ∈ world.queue.asleep := by
  by_contra awake
  -- A thread that is awake can look at the queue, whatever it meets there.
  have looks :
      (Queue.Call.popping : Queue.Call Task).step ⟨world.pool.number, .caller caller⟩ none
        world.queue ≠ none := by
    simp only [Queue.Call.step, if_neg awake]
    split <;> simp
  have none := settled.call found ⟨none, none, false, 0, 0⟩
  cases call with
  | queue own | submit own =>
    cases own with
    | popping => exact looks (by simpa [Call.step] using none (by simp))
    | _ => cases popping
  | _ => cases popping

/-- Where nothing moves any more, no worker can go on. -/
theorem Settled.work {index : Nat} {name : String} {duty : Duty}
    (settled : Settled refuse gates world)
    (found : world.pool.workers[index]? = some ⟨name, duty⟩) :
    world.pool.work world.queue index name 0 duty = none := by
  cases moved : world.pool.work world.queue index name 0 duty with
  | none => rfl
  | some result =>
    have none := settled (.worker index ⟨none, none, false, 0, 0⟩) trivial
    simp [step, found, moved] at none

/-- A worker that looks for a task can go on unless it is asleep. -/
theorem Settled.asleep {index : Nat} {name : String} (settled : Settled refuse gates world)
    (found : world.pool.workers[index]? = some ⟨name, .fetching⟩) :
    (⟨world.pool.number, .worker index⟩ : Thread) ∈ world.queue.asleep := by
  -- A worker that is awake can look at the queue, whatever it meets there.
  by_contra awake
  have none := settled.work found
  simp only [Pool.work, if_neg awake] at none
  split at none <;> cases none

/--
Where nothing moves any more, whoever looks for a task sleeps at a queue that is open and empty.
-/
theorem Settled.nothing_left {index : Nat} {name : String} (settled : Settled refuse gates world)
    (attentive : world.Attentive)
    (onward : ∀ call ∈ world.pool.callers, ∀ task, call ≠ .queue (.returned task))
    (found : world.pool.workers[index]? = some ⟨name, .fetching⟩) :
    world.queue.closed = false ∧ world.queue.items = [] := by
  have asleep := settled.asleep found
  -- No call owes a wake, so the worker sleeps with good reason only at an open queue that is empty.
  have owed : world.pool.callers.countP Call.owesWake = 0 ∧
      world.pool.callers.countP Call.owesWakeAll = 0 := by
    refine ⟨List.countP_eq_zero.mpr fun call member =>
      ?_, List.countP_eq_zero.mpr fun call member => ?_⟩
    · rw [(settled.owes_nothing (onward call member) member).1]
      exact Bool.false_ne_true
    · rw [(settled.owes_nothing (onward call member) member).2]
      exact Bool.false_ne_true
  -- Nobody is awake who waits, since whoever is awake could look at the queue.
  have woken : world.queue.woken = [] := by
    refine List.eq_nil_iff_forall_not_mem.mpr fun thread member => ?_
    obtain ⟨home, place⟩ := attentive.waits thread (List.mem_append_right _ member)
    have apart := (List.nodup_append.mp attentive.once).2.2
    obtain ⟨number, seat⟩ := thread
    obtain rfl : number = world.pool.number := home
    cases seat with
    | worker other =>
      obtain ⟨called, known⟩ := place
      exact apart _ (settled.asleep known) _ member rfl
    | caller other =>
      obtain ⟨call, known, popping⟩ := place
      exact apart _ (settled.caller_asleep known popping) _ member rfl
  rcases attentive.attended (List.ne_nil_of_mem asleep) with ⟨open_, served⟩ | all
  · refine ⟨open_, List.eq_nil_of_length_eq_zero ?_⟩
    rw [woken, owed.1] at served
    exact Nat.le_zero.mp served
  · rw [owed.2] at all
    exact absurd all (Nat.lt_irrefl 0)

end World

end TaskPool
