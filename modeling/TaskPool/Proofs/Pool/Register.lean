import TaskPool.Proofs.Pool.Recruiting
import TaskPool.Proofs.Pool.Muster

/-!
The register of a pool: under which names the workers that a start has created stand on
the roster, and in which order.

A start asks for its workers in the order of their numbers and passes over those that the system
refuses. Nothing is assumed of the sink, so the start may break off between any two of them.
-/

namespace TaskPool

namespace Pool

variable {queue after : Queue Thread Task} {pool next : Pool} {events : List Event}
  {caller count : Nat} {later : Call}

/--
A caller that tells a message leaves the roster and the workers alone, also where it breaks off.
-/
theorem Telling.staff {message : Message} {onward : Call}
    (tells : Telling pool caller message onward next later events) :
    next.roster = pool.roster ∧ next.workers = pool.workers := by
  -- A caller that breaks off gives up locks only.
  cases tells <;> exact ⟨rfl, rfl⟩

/-- A start creates the worker that it has come to, or leaves the roster and the workers alone. -/
theorem Starting.Move.staff {phase : Starting} {refusal : Option Trouble}
    (move : phase.Move pool caller count refusal next later events) :
    (∃ number, phase = .creating number ∧ number < count ∧
      next = pool.employ (pool.settings.workerName number)) ∨
      next.roster = pool.roster ∧ next.workers = pool.workers := by
  cases move with
  | refuse tells | announce tells | lament tells => exact .inr tells.staff
  | hire more => exact .inl ⟨_, rfl, more, rfl⟩
  | _ => exact .inr ⟨rfl, rfl⟩

/--
A stop takes all workers off the roster at one point, and before and after
it leaves the roster alone.
-/
theorem Stopping.Move.staff {phase : Stopping} {timeUp : Bool} {worker : Nat}
    (move : phase.Move queue pool caller timeUp worker after next later events) :
    next.workers = pool.workers ∧
      (phase = .gathering ∧ next.roster = [] ∨ phase ≠ .gathering ∧ next.roster = pool.roster) := by
  cases move with
  | announce tells | warn tells | part tells | lament tells =>
    exact ⟨tells.staff.2, .inr ⟨by simp, tells.staff.1⟩⟩
  | gather => exact ⟨rfl, .inl ⟨rfl, rfl⟩⟩
  | _ => exact ⟨rfl, .inr ⟨by simp, rfl⟩⟩

/-- Only a start of so many workers comes to a start of so many workers. -/
theorem Call.Move.start_of_later {chance : Chance} {call : Call} {phase : Starting}
    (move : call.Move queue pool caller chance after next (.start count phase) events) :
    ∃ earlier, call = .start count earlier := by
  -- The move is taken apart by what it is a move of, and not by what it comes to.
  generalize same : Call.start count phase = later at move
  cases move with
  | @queue own onward => cases onward <;> cases same
  | start move =>
    cases move with
    | refuse tells | announce tells | lament tells => cases tells <;> cases same; exact ⟨_, rfl⟩
    | _ => cases same <;> exact ⟨_, rfl⟩
  | stop move =>
    cases move with
    | announce tells | warn tells | part tells | lament tells => cases tells <;> cases same
    | _ => cases same
  | _ => cases same

end Pool

namespace World

open Pool (Call SameLife Stage Starting Stopping)

namespace Moment

/-- The number of the worker that is created at a moment, if one is. -/
def hired? (moment : Moment) :
    Option Nat := if moment.hires then moment.attempt?.map (·.1) else none

/-- Whether a stop takes the workers off the roster. -/
def gathers (moment : Moment) : Bool :=
  match moment.call? with
  | some (.stop .gathering) => true
  | _ => false

variable {moment : Moment}

/-- Whoever takes the workers off the roster is about to wait for them. -/
theorem joins_of_gathers (gathers : moment.gathers = true) : moment.joins = true := by
  unfold Moment.gathers at gathers
  split at gathers
  · rename_i acts
    simp [joins, acts, Call.isJoining]
  · cases gathers

/-- Whoever creates a worker does what only a start does. -/
theorem starts_of_hired {number : Nat} (hired : moment.hired? = some number) :
    moment.starts = true := by
  unfold hired? at hired
  split at hired
  · rename_i hires
    simp [starts, hires]
  · cases hired

end Moment

/-- The numbers of the workers that were created at some moments. -/
def created (moments : List Moment) : List Nat := moments.filterMap Moment.hired?

/-- The workers that were created with one more moment. -/
theorem created_concat (moments : List Moment) (moment : Moment) :
    created (moments ++ [moment]) = created moments ++ moment.hired?.toList := by
  rw [created, List.filterMap_append]
  cases hired : moment.hired? <;> simp [hired, created]

/-- What becomes of the roster and of the names of all workers at a moment. -/
inductive Registers (settings : Settings) (moment : Moment) : Prop where
  /-- The roster stays as it is. -/
  | keeps (nobody : moment.hired? = none) (stays : moment.gathers = false)
    (roster : moment.next.pool.roster = moment.before.world.pool.roster)
    (names : moment.next.pool.staffNames = moment.before.world.pool.staffNames)
  /--
  A worker is created, and comes behind all others on the roster, where no name is of
  its number or a later one.
  -/
  | enters {count number : Nat} (acts : moment.call? = some (.start count (.creating number)))
      (more : number < count)
    (hired : moment.hired? = some number) (named : moment.before.world.pool.NamedBelow number)
    (roster : moment.next.pool.roster = moment.before.world.pool.roster ++
      [(settings.workerName number, moment.before.world.pool.workers.length)])
    (names : moment.next.pool.staffNames = moment.before.world.pool.staffNames ++
      [settings.workerName number])
  /-- A stop takes all workers off the roster. -/
  | clears (nobody : moment.hired? = none) (gathers : moment.gathers = true)
    (roster : moment.next.pool.roster = [])
    (names : moment.next.pool.staffNames = moment.before.world.pool.staffNames)

variable {number : Nat} {settings : Settings} {sink : Sink} {watched : Watched} {next : World}
  {turn : Turn} {events : List Pool.Event}

/-- Where there is no new worker, none is created. -/
theorem hired?_of_length {moment : Moment}
    (same : moment.next.pool.workers.length = moment.before.world.pool.workers.length) :
    moment.hired? = none := by
  simp [Moment.hired?, Moment.hires, same]

/-- A turn that leaves the life of the pool alone leaves the roster as it is. -/
theorem IsAside.registers (aside : IsAside watched.world turn next) :
    Registers settings ⟨watched, turn, next, events⟩ := by
  refine .keeps (hired?_of_length aside.same.length) ?_ aside.same.roster aside.same.names
  -- Whoever takes the workers off the roster goes on with a stop.
  rw [Bool.eq_false_iff]
  intro gathers
  unfold Moment.gathers at gathers
  split at gathers
  · rename_i acts
    cases turn with
    | caller index chance => cases (aside.actor index chance _ rfl acts).2
    | _ => cases acts
  · cases gathers

/--
What the workers of a pool are called, and that the roster has all of them until
a stop takes them off it.
-/
structure Enrolment (settings : Settings) (pool : Pool) (moments : List Moment) : Prop where
  names : pool.staffNames = (created moments).map settings.workerName
  /-- Numbers come in order, whichever are passed over. -/
  rising : (created moments).Pairwise (· < ·)
  roster : (∀ moment ∈ moments, moment.gathers = false) → pool.roster = pool.staffNames.zipIdx

/--
The workers stay enrolled with one more moment, as long as none is created
after a stop has taken effect.
-/
theorem Enrolment.concat {moments : List Moment} {moment : Moment}
    (enrolment : Enrolment settings moment.before.world.pool moments)
    (registers : Registers settings moment) (same : moment.before.world.pool.settings = settings)
    (early : moment.starts = true → ∀ earlier ∈ moments, earlier.gathers = false) :
    Enrolment settings moment.next.pool (moments ++ [moment]) := by
  have past (stay : ∀ other ∈ moments ++ [moment], other.gathers = false) : ∀ other ∈ moments,
      other.gathers = false :=
    fun other member => stay other (List.mem_append_left _ member)
  cases registers with
  | keeps nobody stays roster names =>
    have still : created (moments ++ [moment]) = created moments := by simp [created_concat, nobody]
    refine ⟨?_, still ▸ enrolment.rising, fun stay => ?_⟩
    · rw [still, names, enrolment.names]
    · rw [roster, names, enrolment.roster (past stay)]
  | clears nobody gathers roster names =>
    have still : created (moments ++ [moment]) = created moments := by simp [created_concat, nobody]
    refine ⟨?_, still ▸ enrolment.rising, fun stay => ?_⟩
    · rw [still, names, enrolment.names]
    · exact absurd ((stay moment (by simp)).symm.trans gathers) Bool.false_ne_true
  | @enters count number acts more hired named roster names =>
    have listed := enrolment.roster (early (Moment.starts_of_hired hired))
    have grown : created (moments ++ [moment]) = created moments ++ [number] := by
      simp [created_concat, hired]
    refine ⟨?_, ?_, fun _ => ?_⟩
    · rw [grown, names, enrolment.names, List.map_append]
      rfl
    · -- Every worker that was created before has its name on the roster, and so a lower number.
      rw [grown, List.pairwise_append]
      refine ⟨enrolment.rising, List.pairwise_singleton _ _, fun earlier member later new => ?_⟩
      obtain rfl := List.mem_singleton.mp new
      have known : settings.workerName earlier ∈ moment.before.world.pool.roster.map (·.1) := by
        rw [listed, List.zipIdx_map_fst, enrolment.names]
        exact List.mem_map_of_mem member
      obtain ⟨entry, there, called⟩ := List.mem_map.mp known
      obtain ⟨lower, below, name⟩ := named entry there
      rw [same, called] at name
      exact settings.workerName_injective name ▸ below
    · rw [roster, names, listed, List.zipIdx_append]
      simp [Pool.staffNames]

/-- Nobody is taken off the roster before the last moment at which a start does anything. -/
theorem Annals.kept {moments : List Moment} {moment : Moment} {deeds : Deeds}
    (annals : Annals (moments ++ [moment]) deeds) (starts : moment.starts = true) :
    ∀ earlier ∈ moments, earlier.gathers = false := by
  intro earlier member
  rw [Bool.eq_false_iff]
  intro gathers
  have stops : earlier.stops = true := by simp [Moment.stops, Moment.joins_of_gathers gathers]
  have barred := (List.pairwise_append.mp annals.order).2.2 earlier member moment (by simp) stops
  exact absurd (barred.symm.trans starts) Bool.false_ne_true

/-- Whoever goes on has begun the call that it goes on with. -/
theorem actor_eq {caller nth : Nat}
    (actor : (⟨watched, turn, next, events⟩ : Moment).actor? = some (caller, nth)) :
    nth = watched.begun caller ∧ turn.begins caller = false ∧ turn.isBy caller = true ∧
      (⟨watched, turn, next, events⟩ : Moment).call? = watched.world.pool.callers[caller]? := by
  cases turn with
  | caller index chance =>
    cases actor
    exact ⟨rfl, rfl, by simp [Turn.isBy], rfl⟩
  | _ => cases actor

/-- A caller that begins a call has begun one more. -/
theorem count_eq (watched : Watched) (turn : Turn) (caller : Nat) :
    watched.count turn caller = watched.begun caller + (turn.begins caller).toNat := by
  cases turn with
  | begin other request =>
    by_cases same : caller = other
    · simp [Watched.count, Turn.begins, same]
    · simp [Watched.count, Turn.begins, same, Ne.symm same]
  | _ => rfl

/-- Whether a call that is known by its caller has begun. -/
def Dated (watched : Watched) (who : Option (Nat × Nat)) : Prop :=
  ∀ caller nth, who = some (caller, nth) → nth ≤ watched.begun caller

/-- A call that has begun has begun for good, and so has the one that goes on. -/
theorem Dated.after {who : Option (Nat × Nat)} (dated : Dated watched who) (done : Bool) :
    Dated ⟨next, watched.count turn⟩
      (if done then (⟨watched, turn, next, events⟩ : Moment).actor? else who) := by
  intro caller nth known
  show nth ≤ watched.count turn caller
  rw [count_eq]
  cases done with
  | true => exact (actor_eq known).1 ▸ Nat.le_add_right _ _
  | false => exact Nat.le_trans (dated caller nth known) (Nat.le_add_right _ _)

/--
A deed is that of a caller's present call if the call does it now,
or has done it before and goes on.
-/
theorem Dated.present {who : Option (Nat × Nat)} {caller : Nat} {done : Bool}
    (dated : Dated watched who)
    (known : (if done then (⟨watched, turn, next, events⟩ : Moment).actor? else who) =
      some (caller, watched.count turn caller)) :
    turn.begins caller = false ∧
      (done = true ∧ turn.isBy caller = true ∨ done = false ∧
        who = some (caller, watched.begun caller)) := by
  cases done with
  | true =>
    obtain ⟨-, alone, mine, -⟩ := actor_eq known
    exact ⟨alone, .inl ⟨rfl, mine⟩⟩
  | false =>
    -- A call that begins now has done nothing before.
    have earlier := dated caller _ known
    rw [count_eq] at earlier known
    cases begins : turn.begins caller with
    | true =>
      rw [begins] at earlier
      exact absurd earlier (Nat.not_succ_le_self _)
    | false =>
      rw [begins] at known
      exact ⟨rfl, .inr ⟨rfl, known⟩⟩

/-- Whether all that starts have done was done by a start of so many workers. -/
structure Bidden (count : Nat) (watched : Watched) (deeds : Deeds)
    (moments : List Moment) : Prop where
  asked : ∀ moment ∈ moments, moment.starts = true →
    ∃ phase, moment.call? = some (.start count phase)
  own : ∀ caller many phase, deeds.starter = some (caller, watched.begun caller) →
    watched.world.pool.callers[caller]? = some (.start many phase) → many = count

/-- The start that claims a pool says for all later moments how many workers there are to be. -/
theorem Bidden.concat {count : Nat} {deeds : Deeds} {moments : List Moment}
    (bidden : Bidden count watched deeds moments) (annals : Annals moments deeds)
    (dated : Dated watched deeds.starter) (admits : deeds.Admits ⟨watched, turn, next, events⟩)
    (stepped : watched.world.step turn = some (next, events)) :
    ∃ count, Bidden count ⟨next, watched.count turn⟩ (deeds.after ⟨watched, turn, next, events⟩)
      (moments ++ [⟨watched, turn, next, events⟩]) := by
  -- What a caller has come to is a start of as many workers as the call before, if it is a start.
  have before {caller many : Nat} {phase : Starting} (mine : turn.isBy caller = true)
      (found : next.pool.callers[caller]? = some (.start many phase)) :
      ∃ earlier, watched.world.pool.callers[caller]? = some (.start many earlier) ∧
        (⟨watched, turn, next, events⟩ : Moment).call? = some (.start many earlier) ∧
        (⟨watched, turn, next, events⟩ : Moment).actor? = some (caller, watched.begun caller) := by
    obtain ⟨chance, call, queue, pool, later, rfl, there, moved, -, after⟩ :=
      goes_of_isBy mine stepped
    cases after.symm.trans found
    obtain ⟨earlier, rfl⟩ := (Pool.Call.step_eq_some_iff.mp moved).start_of_later
    exact ⟨earlier, there, there, rfl⟩
  cases claims : (⟨watched, turn, next, events⟩ : Moment).claims with
  | true =>
    -- Nobody has started the pool before, so the number is that of the call that does so now.
    have starts : (⟨watched, turn, next, events⟩ : Moment).starts = true := by
      simp [Moment.starts, claims]
    obtain ⟨-, -, many, phase, acts⟩ := admits.starts starts
    refine ⟨many, fun moment member again => ?_, fun caller other later known found => ?_⟩
    · rcases List.mem_append.mp member with earlier | new
      · have someone := (annals.starts moment earlier again).1
        rw [(admits.claims claims).1] at someone
        cases someone
      · exact List.mem_singleton.mp new ▸ ⟨phase, acts⟩
    · obtain ⟨-, ⟨-, mine⟩ | ⟨no, -⟩⟩ := dated.present known
      · obtain ⟨_, -, goes, -⟩ := before mine found
        cases goes.symm.trans acts
        rfl
      · rw [claims] at no
        cases no
  | false =>
    refine ⟨count, fun moment member again => ?_, fun caller many phase known found => ?_⟩
    · rcases List.mem_append.mp member with earlier | new
      · exact bidden.asked moment earlier again
      · obtain rfl := List.mem_singleton.mp new
        obtain ⟨yes | ⟨someone, same⟩, -, many, phase, acts⟩ := admits.starts again
        · exact absurd (claims.symm.trans yes) Bool.false_ne_true
        · obtain ⟨⟨caller, nth⟩, known⟩ := Option.isSome_iff_exists.mp someone
          obtain ⟨rfl, -, -, there⟩ := actor_eq (same.trans known)
          obtain rfl := bidden.own caller many phase known (there.symm.trans acts)
          exact ⟨phase, acts⟩
    · obtain ⟨alone, ⟨yes, -⟩ | ⟨-, known⟩⟩ := dated.present known
      · exact absurd (claims.symm.trans yes) Bool.false_ne_true
      · cases mine : turn.isBy caller with
        | true =>
          obtain ⟨earlier, there, -⟩ := before mine found
          exact bidden.own caller many earlier known there
        | false =>
          exact bidden.own caller many phase known
            ((callers_of_others alone mine stepped).symm.trans found)

/--
Every worker that is created has a number below that of the workers that the start was asked for.
-/
theorem Registers.below {moment : Moment} {count number : Nat}
    (registers : Registers settings moment)
    (asked : moment.starts = true → ∃ phase, moment.call? = some (.start count phase))
    (hired : moment.hired? = some number) : number < count := by
  cases registers with
  | keeps nobody | clears nobody => cases nobody.symm.trans hired
  | enters acts more same =>
    cases same.symm.trans hired
    -- The call that creates the worker is the one that was asked.
    obtain ⟨phase, known⟩ := asked (Moment.starts_of_hired hired)
    cases acts.symm.trans known
    exact more

end World

end TaskPool
