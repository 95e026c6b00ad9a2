import TaskPool.Proofs.Pool.Register

/-!
For which workers a stop has waited.

A stop takes everybody off the roster at once and then waits for one after the other. Since
the roster has each worker once, a stop that comes to its end has waited for each of them once.
-/

namespace TaskPool

namespace Pool

/-- The worker that a call has waited for once it goes on, where it waits for a chosen one. -/
def Call.awaited? (worker : Nat) : Call → Option Nat
  | .stop (.joining (_ :: _)) => some worker
  | _ => none

/--
A stop that has waited for a worker goes on to wait for the others, whether or not it
has to lament the worker.
-/
theorem left_of_join {pool : Pool} {left : List Nat} {worker : Nat} {phase : Stopping}
    (joined : pool.join left worker = some phase) :
    worker ∈ left ∧
      (phase = .joining (left.erase worker) ∨
        ∃ failure, phase = .lamenting (left.erase worker) failure) := by
  obtain ⟨member, joined⟩ := Option.ite_none_right_eq_some.mp joined
  refine ⟨member, ?_⟩
  -- What is left is the same whether the worker has broken off or not. Only the phase tells.
  split at joined
  · rename_i name broken found
    cases broken with
    | true => exact .inr ⟨_, (Option.some.inj joined).symm⟩
    | false => exact .inl (Option.some.inj joined).symm
  · cases joined

/-- The pool ceases to run just where a stop says that it is the one that stops it. -/
theorem Stopping.Move.halts {queue after : Queue Thread Task} {pool next : Pool}
    {events : List Event} {caller worker : Nat} {later : Call} {phase : Stopping} {timeUp : Bool}
    (move : phase.Move queue pool caller timeUp worker after next later events)
    (running : pool.running = true) (halted : next.running = false) :
    phase = .claiming ∧ later = .stop .marking := by
  -- All other moves leave the flag as it was.
  cases move with
  | claim => exact ⟨rfl, rfl⟩
  | announce tells | warn tells | part tells | lament tells =>
    cases tells <;> exact absurd (running.symm.trans halted) Bool.false_ne_true.symm
  | _ => exact absurd (running.symm.trans halted) Bool.false_ne_true.symm

end Pool

namespace World

open Pool (Call Stopping left_of_join)

namespace Moment

/-- The worker that a stop has waited for at a moment, if it has waited for one. -/
def joined? (moment : Moment) : Option Nat :=
  match moment.turn with
  | .caller _ chance => moment.call?.bind (Call.awaited? chance.joined)
  | _ => none

/-- Where nobody waits for a worker, nobody has waited for one. -/
theorem joined?_of_not_joins {moment : Moment} (joins : moment.joins = false) :
    moment.joined? = none := by
  unfold joined?
  split
  · -- A turn of a caller that waits for a worker would be one at which somebody joins.
    rw [Option.bind_eq_none_iff]
    intro call acts
    rw [Moment.joins, acts] at joins
    unfold Call.awaited?
    split
    · cases joins
    · rfl
  · rfl

/-- Who has waited for a worker is a stop that had some left to wait for. -/
theorem joined?_eq_some {moment : Moment} {worker : Nat} (waited : moment.joined? = some worker) :
    ∃ caller chance first rest, moment.turn = .caller caller chance ∧ chance.joined = worker ∧
      moment.before.world.pool.callers[caller]? = some (.stop (.joining (first :: rest))) := by
  unfold joined? at waited
  -- Only a caller waits, and only in a stop with workers left.
  split at waited
  · rename_i caller chance turn
    obtain ⟨call, acts, waited⟩ := Option.bind_eq_some_iff.mp waited
    rw [call?, turn] at acts
    unfold Call.awaited? at waited
    split at waited
    · exact ⟨caller, chance, _, _, turn, Option.some.inj waited, acts⟩
    · cases waited
  · cases waited

end Moment

/-- The workers that stops have waited for at some moments, in this order. -/
def joined (moments : List Moment) : List Nat := moments.filterMap Moment.joined?

/-- The workers that stops have waited for with one more moment. -/
theorem joined_concat (moments : List Moment) (moment : Moment) :
    joined (moments ++ [moment]) = joined moments ++ moment.joined?.toList := by
  rw [joined, List.filterMap_append]
  cases waited : moment.joined? <;> simp [waited, joined]

/--
What the call that has stopped a pool says about whom it has waited for,
where there are so many workers.

It breaks off only where the sink is not quiet.
-/
def Awaits (quiet : Prop) (staff : Nat) (moments : List Moment) : Call → Prop
  -- A stop that has not come so far has stopped nothing.
  | .stop .locking | .stop .claiming => False
  | .stop (.joining left)
      | .stop (.lamenting left _) => (joined moments ++ left).Perm (List.range staff)
  | .stop .unlocking | .returned _ => (joined moments).Perm (List.range staff)
  | .stop _ => ∀ moment ∈ moments, moment.joins = false
  | .broken _ => ¬ quiet
  | _ => False

variable {quiet : Prop} {number staff : Nat} {settings : Settings} {sink : Sink} {watched : Watched}
  {next : World} {turn : Turn} {events : List Pool.Event} {moments : List Moment} {moment : Moment}
  {deeds : Deeds}

/-- Nothing is said anew where nobody waits for a worker. -/
theorem Awaits.keep {call : Call} (awaits : Awaits quiet staff moments call)
    (idle : moment.joins = false) :
    Awaits quiet staff (moments ++ [moment]) call := by
  have same : joined (moments ++ [moment]) = joined moments := by
    rw [joined_concat, Moment.joined?_of_not_joins idle]
    exact List.append_nil _
  -- Up to the roster being taken nobody was waited for, and from then on the list is the same.
  cases call with
  | stop phase =>
    cases phase with
    | joining | lamenting | unlocking => simpa only [Awaits, same] using awaits
    | locking | claiming => exact awaits
    | _ => exact List.forall_mem_append.mpr ⟨awaits, List.forall_mem_singleton.mpr idle⟩
  | returned answer => simpa only [Awaits, same] using awaits
  | _ => exact awaits

/--
A stop that tells a message goes on with what it says, or breaks off and says nothing any more.
-/
theorem Awaits.tells {pool after : Pool} {caller : Nat} {message : Message} {onward later : Call}
    (tells : Pool.Telling pool caller message onward after later events) (fine : quiet → pool.Quiet)
    (awaits : Awaits quiet staff moments onward) : Awaits quiet staff moments later := by
  cases tells with
  | told => exact awaits
  | failed fails => exact fun still => Bool.false_ne_true ((fine still message).symm.trans fails)

/--
A stop that has stopped the pool waits for each worker that it has found on the
roster, and for none twice.
-/
theorem Awaits.goes {queue after : Queue Thread Task} {pool later : Pool} {caller : Nat}
    {chance : Pool.Chance} {phase : Stopping} {onward : Call}
    (awaits : Awaits quiet staff moments (.stop phase))
    (move : phase.Move queue pool caller chance.timeUp chance.joined after later onward events)
    (acts : moment.call? = some (.stop phase))
    (waited : moment.joined? = (Call.stop phase).awaited? chance.joined)
    (roster : phase = .gathering → pool.roster.map (·.2) = List.range staff)
    (fine : quiet → pool.Quiet) :
    Awaits quiet staff (moments ++ [moment]) onward := by
  -- Only where it has found the workers on the roster, or has waited for one,
  -- a stop says something new.
  have idle (other : (Call.stop phase).isJoining = false) : moment.joins = false := by
    rw [Moment.joins, acts]
    exact other
  cases move with
  | lock | claim | skip => exact awaits.elim
  | mark | drained | tire | close | wake =>
    have further : Awaits quiet staff (moments ++ [moment]) (.stop .marking) :=
      Awaits.keep awaits (idle rfl)
    exact further
  | announce tells | warn tells | part tells =>
    have further : Awaits quiet staff (moments ++ [moment]) (.stop .marking) :=
      Awaits.keep awaits (idle rfl)
    exact Awaits.tells tells fine further
  | lament tells => exact Awaits.tells tells fine (awaits.keep (idle rfl))
  | rest =>
    have all : (joined moments ++ []).Perm (List.range staff) := awaits
    rw [List.append_nil] at all
    have waiting : Awaits quiet staff moments (.stop .unlocking) := all
    exact waiting.keep (idle rfl)
  | unlock =>
    have gone : Awaits quiet staff moments (.returned .nothing) := awaits
    exact gone.keep (idle rfl)
  | gather =>
    -- Nobody was waited for so far, and every worker is on the roster.
    have nobody : joined (moments ++ [moment]) = [] := by
      rw [joined_concat, waited]
      refine List.append_eq_nil_iff.mpr ⟨List.filterMap_eq_nil_iff.mpr fun other member => ?_, rfl⟩
      exact Moment.joined?_of_not_joins (awaits other member)
    show (joined (moments ++ [moment]) ++ pool.roster.map (·.2)).Perm (List.range staff)
    rw [nobody, roster rfl]
    exact .refl _
  | @join left phase found =>
    -- One worker goes over from those that are left to those that were waited for.
    obtain ⟨member, goes⟩ := left_of_join found
    have one : joined (moments ++ [moment]) = joined moments ++ [chance.joined] := by
      rw [joined_concat, waited]
      cases left with
      | nil => cases member
      | cons first rest => rfl
    have all : (joined (moments ++ [moment]) ++ left.erase chance.joined).Perm
        (List.range staff) := by
      rw [one, List.append_assoc]
      exact ((List.perm_cons_erase member).symm.append_left _).trans awaits
    rcases goes with rfl | ⟨failure, rfl⟩
    · exact all
    · exact all

/-- What is said of all waits for workers, and by the call that has stopped the pool. -/
structure Awaiting (quiet : Prop) (watched : Watched) (deeds : Deeds)
    (moments : List Moment) : Prop where
  own : ∀ caller call, deeds.stopper = some (caller, watched.begun caller) →
    watched.world.pool.callers[caller]? = some call →
    Awaits quiet watched.world.pool.workers.length moments call
  once : (joined moments).Nodup
  known : ∀ worker ∈ joined moments, worker < watched.world.pool.workers.length

/-- There are as many workers as before where nobody does what only a start does. -/
theorem Registers.length_eq (registers : Registers settings moment)
    (starts : moment.starts = false) :
    moment.next.pool.workers.length = moment.before.world.pool.workers.length := by
  -- A worker enters by what only a start does.
  have names : moment.next.pool.staffNames = moment.before.world.pool.staffNames := by
    cases registers with
    | keeps _ _ _ names | clears _ _ _ names => exact names
    | enters _ _ hired =>
      exact absurd (starts.symm.trans (Moment.starts_of_hired hired)) Bool.false_ne_true
  simpa [Pool.staffNames] using congrArg List.length names

/-- There are never fewer workers than before. -/
theorem Registers.length_le (registers : Registers settings moment) :
    moment.before.world.pool.workers.length ≤ moment.next.pool.workers.length := by
  -- Names are kept, or one is put behind them.
  have names : moment.before.world.pool.staffNames.length ≤ moment.next.pool.staffNames.length := by
    cases registers with
    | keeps _ _ _ names | clears _ _ _ names => exact names ▸ Nat.le_refl _
    | enters _ _ _ _ _ names => simp [names]
  simpa [Pool.staffNames] using names

/-- As long as nobody is taken off it, the roster has the places of all workers in order. -/
theorem Enrolment.places (enrolment : Enrolment settings watched.world.pool moments)
    (idle : ∀ other ∈ moments, other.joins = false) :
    watched.world.pool.roster.map (·.2) = List.range watched.world.pool.workers.length := by
  -- Who clears the roster joins, so nobody has cleared it.
  have kept : ∀ other ∈ moments, other.gathers = false := by
    intro other member
    rw [Bool.eq_false_iff]
    intro gathers
    exact absurd ((idle other member).symm.trans (Moment.joins_of_gathers gathers))
      Bool.false_ne_true
  rw [enrolment.roster kept, List.zipIdx_map_snd]
  simp [Pool.staffNames, List.range_eq_range']

/-- As long as nobody has stopped the pool, nobody has waited for a worker. -/
theorem Annals.idle (annals : Annals moments deeds) (nobody : deeds.stopper = none) :
    ∀ other ∈ moments, other.joins = false := by
  intro other member
  rw [Bool.eq_false_iff]
  intro joins
  -- A moment at which somebody joins is one of the stop, and the annals know whose.
  have someone := (annals.stops other member (by simp [Moment.stops, joins])).1
  rw [nobody] at someone
  cases someone

/-- The call that stops the pool says so at the moment at which it does. -/
theorem Awaits.halts {queue after : Queue Thread Task} {pool later : Pool} {caller worker : Nat}
    {timeUp : Bool} {phase : Stopping} {onward : Call}
    (move : phase.Move queue pool caller timeUp worker after later onward events)
    (acts : moment.call? = some (.stop phase)) (running : pool.running = true)
    (halted : later.running = false) (idle : ∀ other ∈ moments, other.joins = false) :
    Awaits quiet staff (moments ++ [moment]) onward := by
  -- The stop goes from claiming to marking there, and has waited for nobody yet.
  obtain ⟨rfl, rfl⟩ := move.halts running halted
  have unjoined : moment.joins = false := by
    rw [Moment.joins, acts]
    rfl
  exact List.forall_mem_append.mpr ⟨idle, List.forall_mem_singleton.mpr unjoined⟩

/--
Once somebody has stopped the pool no worker is created, and nobody else does what a stop does.
-/
theorem Deeds.Admits.alone {caller : Nat} (admits : deeds.Admits ⟨watched, turn, next, events⟩)
    (stopper : deeds.stopper = some (caller, watched.begun caller)) :
    (⟨watched, turn, next, events⟩ : Moment).starts = false ∧
      (turn.isBy caller = false → (⟨watched, turn, next, events⟩ : Moment).joins = false) := by
  constructor
  · rw [Bool.eq_false_iff]
    intro starts
    have nobody := (admits.starts starts).2.1
    rw [stopper] at nobody
    cases nobody
  · intro other
    rw [Bool.eq_false_iff]
    -- A stop that joins either halts the pool, which is over, or is the one that has stopped it.
    intro joins
    obtain ⟨halts | ⟨-, same⟩, -⟩ := admits.stops (by simp [Moment.stops, joins])
    · have nobody := (admits.halts halts).1
      rw [stopper] at nobody
      cases nobody
    · exact absurd (other.symm.trans (actor_eq (same.trans stopper)).2.2.1) Bool.false_ne_true

/-- A worker that a stop has waited for is one that nobody has waited for before. -/
theorem Awaiting.joined_concat (awaiting : Awaiting quiet watched deeds moments)
    (present : Present watched deeds) (registers : Registers settings ⟨watched, turn, next, events⟩)
    (stepped : watched.world.step turn = some (next, events)) :
    (joined (moments ++ [⟨watched, turn, next, events⟩])).Nodup ∧
      ∀ worker ∈ joined (moments ++ [⟨watched, turn, next, events⟩]), worker <
      next.pool.workers.length := by
  have grown : watched.world.pool.workers.length ≤ next.pool.workers.length := registers.length_le
  have known : ∀ worker ∈ joined moments, worker < next.pool.workers.length := fun worker member =>
    Nat.lt_of_lt_of_le (awaiting.known worker member) grown
  rw [World.joined_concat]
  cases waited : (⟨watched, turn, next, events⟩ : Moment).joined? with
  | none => simpa using ⟨awaiting.once, known⟩
  | some worker =>
    obtain ⟨caller, chance, first, rest, rfl, rfl, there⟩ := Moment.joined?_eq_some waited
    obtain ⟨call, queue, pool, after, found, moved, rfl⟩ := step_caller.mp stepped
    obtain rfl := Option.some.inj (found.symm.trans there)
    -- Those that are left and those that were waited for are all workers, each of them once.
    have stopper := (present.held caller _ there rfl).2.1
    have all : (joined moments ++ first :: rest).Perm
        (List.range watched.world.pool.workers.length) :=
      awaiting.own caller _ stopper there
    obtain ⟨-, -, apart⟩ := List.nodup_append.mp (all.nodup_iff.mpr List.nodup_range)
    cases Pool.Call.step_eq_some_iff.mp moved with
    | stop move =>
      cases move with
      | join found =>
        obtain ⟨member, -⟩ := left_of_join found
        have within := List.mem_range.mp (all.mem_iff.mp (List.mem_append_right _ member))
        refine ⟨List.nodup_append.mpr ⟨awaiting.once, List.nodup_singleton _, ?_⟩, ?_⟩
        · intro earlier there other new
          exact List.mem_singleton.mp new ▸ apart earlier there _ member
        · exact List.forall_mem_append.mpr ⟨known, List.forall_mem_singleton.mpr
            (Nat.lt_of_lt_of_le within grown)⟩

end World

end TaskPool
