import TaskPool.Proofs.Pool.Shutdown

/-!
The deeds of starts and stops: at most one start and one stop of a pool ever
take effect, in this order.

Each turn of a run is kept with the worlds before and after it, so that a deed is read
off what has changed. Nothing is assumed of the sink, so a start or a stop may break off
wherever it tells something.
-/

namespace TaskPool

namespace Pool.Call

/-- Whether a call is a stop. -/
def isStop : Call → Bool
  | .stop _ => true
  | _ => false

/-- Whether a call is about to take the workers off the roster, or waits for one of them. -/
def isJoining : Call → Bool
  | .stop .gathering | .stop (.joining (_ :: _)) => true
  | _ => false

/-- Only a stop waits for workers. -/
theorem isStop_of_isJoining {call : Call} (joining : call.isJoining = true) :
    call.isStop = true := by
  cases call with
  | stop phase => rfl
  | _ => cases joining

end Pool.Call

namespace World

open Pool (Call Starting Stopping queueEvents)

/-- A world, and how many calls each caller has begun in it. -/
structure Watched where
  world : World
  begun : Nat → Nat

/-- A new world, where nobody has begun a call. -/
def Watched.fresh (number : Nat) (settings : Settings) (sink : Sink) : Watched :=
  ⟨.fresh number settings sink, fun _ => 0⟩

/-- A turn that was taken, with all that could be seen of it. -/
structure Moment where
  before : Watched
  turn : Turn
  next : World
  events : List Pool.Event

/-- How many calls each caller has begun after a turn. -/
def Watched.count (watched : Watched) : Turn → Nat → Nat
  | .begin caller _ => fun other => watched.begun other + if other = caller then 1 else 0
  | _ => watched.begun

/-- The step of a world, where the moment is kept. -/
def recorded (watched : Watched) (turn : Turn) : Option (Watched × List Moment) :=
  (watched.world.step turn).map fun (next, events) =>
    (⟨next, watched.count turn⟩, [⟨watched, turn, next, events⟩])

namespace Moment

variable (moment : Moment)

/-- The call whose turn it is, known by its caller and how many calls that one has begun. -/
def actor? : Option (Nat × Nat) :=
  match moment.turn with
  | .caller caller _ => some (caller, moment.before.begun caller)
  | _ => none

/-- How far the call has come whose turn it is. -/
def call? : Option Call :=
  match moment.turn with
  | .caller caller _ => moment.before.world.pool.callers[caller]?
  | _ => none

/-- Whether the pool begins to run. -/
def claims : Bool := !moment.before.world.pool.running && moment.next.pool.running

/-- Whether a line tells that the pool begins to create its workers. -/
def announces : Bool :=
  moment.events.any fun
    | .logged _ (.starting _) => true
    | _ => false

/-- Whether there is a new worker. -/
def hires : Bool := moment.before.world.pool.workers.length < moment.next.pool.workers.length

/-- Whether something happens that only a start does that takes effect. -/
def starts : Bool := moment.claims || moment.announces || moment.hires

/-- Whether the pool ceases to run. -/
def halts : Bool := moment.before.world.pool.running && !moment.next.pool.running

/-- Whether a stop closes the queue. -/
def closes : Bool :=
  moment.call?.any Call.isStop && moment.events.any fun
    | .queue (.closed _) => true
    | _ => false

/--
Whether a stop takes the workers off the roster, or comes to the end of its wait for one of them.
-/
def joins : Bool := moment.call?.any Call.isJoining

/-- Whether something happens that only a stop does that takes effect. -/
def stops : Bool := moment.halts || moment.closes || moment.joins

/-- Whether the queue is closed, or something leaves it. -/
def Spends : Prop :=
  (∃ thread, .queue (.closed thread) ∈ moment.events) ∨
    Queue.removedItems (queueEvents moment.events) ≠ []


end Moment

/--
What the moments of a run amount to: who has started and stopped the pool,
and how often they told or closed.
-/
structure Deeds where
  starter : Option (Nat × Nat)
  announced : Nat
  stopper : Option (Nat × Nat)
  closed : Nat

namespace Deeds

/-- Nobody has done anything. -/
def none : Deeds := ⟨.none, 0, .none, 0⟩

/-- The deeds after one more moment. -/
def after (deeds : Deeds) (moment : Moment) : Deeds where
  starter := if moment.claims then moment.actor? else deeds.starter
  announced := deeds.announced + moment.announces.toNat
  stopper := if moment.halts then moment.actor? else deeds.stopper
  closed := deeds.closed + moment.closes.toNat

/-- Whether a moment goes with what was done before it. -/
structure Admits (deeds : Deeds) (moment : Moment) : Prop where
  claims : moment.claims = true → deeds.starter = .none ∧ moment.actor?.isSome = true
  /-- Only the call that claims the pool starts it, and not once somebody has stopped it. -/
  starts : moment.starts = true →
    (moment.claims = true ∨ deeds.starter.isSome = true ∧ moment.actor? = deeds.starter) ∧
      deeds.stopper = .none ∧ ∃ count phase, moment.call? = some (.start count phase)
  announces : moment.announces = true → deeds.announced = 0
  halts : moment.halts = true →
    deeds.stopper = .none ∧ deeds.starter.isSome = true ∧ moment.actor?.isSome = true
  /-- Only the call that halts the pool stops it. -/
  stops : moment.stops = true →
    (moment.halts = true ∨ deeds.stopper.isSome = true ∧ moment.actor? = deeds.stopper) ∧
      ∃ phase, moment.call? = some (.stop phase)
  closes : moment.closes = true → deeds.closed = 0
  spends : deeds.starter = .none → moment.Spends → ∃ call, moment.call? = some (.queue call)

variable {deeds : Deeds} {moment : Moment}

/-- A moment without deeds adds none. -/
theorem after_idle (starts : moment.starts = false) (stops : moment.stops = false) :
    deeds.after moment = deeds := by
  -- Each part of the deeds is only added to by a deed of its own.
  simp only [Moment.starts, Moment.stops, Bool.or_eq_false_iff] at starts stops
  obtain ⟨⟨claims, announces⟩, -⟩ := starts
  obtain ⟨⟨halts, closes⟩, -⟩ := stops
  simp [after, claims, announces, halts, closes]

/--
A moment without deeds goes with any that were done before, as long as it leaves the queue alone.
-/
theorem Admits.idle (starts : moment.starts = false) (stops : moment.stops = false)
    (spends : deeds.starter = .none → moment.Spends → ∃ call, moment.call? = some (.queue call)) :
    deeds.Admits moment := by
  have nothing := starts
  have nothingElse := stops
  simp only [Moment.starts, Moment.stops, Bool.or_eq_false_iff] at nothing nothingElse
  refine ⟨?_, ?_, ?_, ?_, ?_, ?_, spends⟩ <;> intro done
  · simp [nothing] at done
  · simp [starts] at done
  · simp [nothing] at done
  · simp [nothingElse] at done
  · simp [stops] at done
  · simp [nothingElse] at done

end Deeds

/-- What is true of all moments of a run, given what they amount to. -/
structure Annals (moments : List Moment) (deeds : Deeds) : Prop where
  starts : ∀ moment ∈ moments, moment.starts = true →
    deeds.starter.isSome = true ∧ moment.actor? = deeds.starter ∧
      ∃ count phase, moment.call? = some (.start count phase)
  stops : ∀ moment ∈ moments, moment.stops = true →
    deeds.stopper.isSome = true ∧ moment.actor? = deeds.stopper ∧
    ∃ phase, moment.call? = some (.stop phase)
  claims : moments.countP Moment.claims = deeds.starter.isSome.toNat
  announces : moments.countP Moment.announces = deeds.announced
  halts : moments.countP Moment.halts = deeds.stopper.isSome.toNat
  closes : moments.countP Moment.closes = deeds.closed
  /-- No start takes any effect after a stop has taken one. -/
  order : moments.Pairwise fun earlier later => earlier.stops = true → later.starts = false
  told : deeds.announced ≤ 1 ∧ deeds.closed ≤ 1
  spends : deeds.starter = none → ∀ moment ∈ moments, moment.Spends →
    ∃ call, moment.call? = some (.queue call)

/-- Nothing has happened and nothing was done. -/
theorem Annals.nil : Annals [] .none where
  starts _ := by simp
  stops _ := by simp
  claims := rfl
  announces := rfl
  halts := rfl
  closes := rfl
  order := .nil
  told := ⟨Nat.zero_le 1, Nat.zero_le 1⟩
  spends _ _ := by simp

/-- A moment that goes with what was done before it continues the annals. -/
theorem Annals.concat {moments : List Moment} {deeds : Deeds} {moment : Moment}
    (annals : Annals moments deeds) (admits : deeds.Admits moment) :
    Annals (moments ++ [moment]) (deeds.after moment) := by
  -- Who has started or stopped the pool stays the one, since nobody does so twice.
  have starter : deeds.starter.isSome = true → (deeds.after moment).starter = deeds.starter := by
    intro known
    refine if_neg fun claims => ?_
    rw [(admits.claims claims).1] at known
    cases known
  have stopper : deeds.stopper.isSome = true → (deeds.after moment).stopper = deeds.stopper := by
    intro known
    refine if_neg fun halts => ?_
    rw [(admits.halts halts).1] at known
    cases known
  refine ⟨?starts, ?stops, ?claims, ?announces, ?halts, ?closes, ?order, ⟨?told, ?closed⟩, ?spends⟩
  case starts =>
    intro other member starts
    rcases List.mem_append.mp member with earlier | new
    · obtain ⟨known, same, call⟩ := annals.starts other earlier starts
      exact ⟨starter known ▸ known, same.trans (starter known).symm, call⟩
    · obtain rfl := List.mem_singleton.mp new
      obtain ⟨claims | ⟨known, same⟩, -, call⟩ := admits.starts starts
      · have mine : (deeds.after other).starter = other.actor? := if_pos claims
        exact ⟨mine ▸ (admits.claims claims).2, mine.symm, call⟩
      · exact ⟨starter known ▸ known, same.trans (starter known).symm, call⟩
  case stops =>
    intro other member stops
    rcases List.mem_append.mp member with earlier | new
    · obtain ⟨known, same, call⟩ := annals.stops other earlier stops
      exact ⟨stopper known ▸ known, same.trans (stopper known).symm, call⟩
    · obtain rfl := List.mem_singleton.mp new
      obtain ⟨halts | ⟨known, same⟩, call⟩ := admits.stops stops
      · have mine : (deeds.after other).stopper = other.actor? := if_pos halts
        exact ⟨mine ▸ (admits.halts halts).2.2, mine.symm, call⟩
      · exact ⟨stopper known ▸ known, same.trans (stopper known).symm, call⟩
  case claims =>
    rw [List.countP_append, annals.claims]
    cases claims : moment.claims with
    | true =>
      obtain ⟨nobody, someone⟩ := admits.claims claims
      simp [Deeds.after, claims, nobody, someone]
    | false => simp [Deeds.after, claims]
  case announces =>
    rw [List.countP_append, annals.announces]
    cases announces : moment.announces <;> simp [Deeds.after, announces]
  case halts =>
    rw [List.countP_append, annals.halts]
    cases halts : moment.halts with
    | true =>
      obtain ⟨nobody, -, someone⟩ := admits.halts halts
      simp [Deeds.after, halts, nobody, someone]
    | false => simp [Deeds.after, halts]
  case closes =>
    rw [List.countP_append, annals.closes]
    cases closes : moment.closes <;> simp [Deeds.after, closes]
  case order =>
    -- A stop that has taken effect would be known by its call.
    refine List.pairwise_append.mpr ⟨annals.order, List.pairwise_singleton _ _,
      fun earlier member later new => ?_⟩
    obtain rfl := List.mem_singleton.mp new
    intro stops
    have known := (annals.stops earlier member stops).1
    cases starts : later.starts with
    | true =>
      rw [(admits.starts starts).2.1] at known
      cases known
    | false => rfl
  case told =>
    have told := annals.told.1
    cases announces : moment.announces with
    | true => simp [Deeds.after, announces, admits.announces announces]
    | false => simpa [Deeds.after, announces] using told
  case closed =>
    have closed := annals.told.2
    cases closes : moment.closes with
    | true => simp [Deeds.after, closes, admits.closes closes]
    | false => simpa [Deeds.after, closes] using closed
  case spends =>
    intro nobody other member
    -- Nobody has started the pool before either.
    have before : deeds.starter = none := by
      cases known : deeds.starter with
      | none => rfl
      | some someone =>
        rw [starter (by rw [known]; rfl), known] at nobody
        cases nobody
    rcases List.mem_append.mp member with earlier | new
    · exact annals.spends before other earlier
    · obtain rfl := List.mem_singleton.mp new
      exact admits.spends before

end World

end TaskPool
