import TaskPool.Proofs.Pool.Frame
import TaskPool.Proofs.Pool.Phases

/-!
A pool lives once: its flags and the lock on its life allow one start,
then one stop, and nothing after that.
-/

namespace TaskPool.World

open Pool (Call Orderly Resting SameLife Starting Stopping queueEvents)

variable {queue after : Queue Thread Task} {pool next : Pool} {begun : Nat → Nat}
  {caller count : Nat} {chance : Pool.Chance} {call later : Call} {events : List Pool.Event}
  {deeds : Deeds}

/--
A pool is as its deeds say, and whoever holds the lock on its life has come as far as they say.
-/
structure Present (watched : Watched) (deeds : Deeds) : Prop where
  flags : Flags watched.world.pool deeds
  held : ∀ caller call, watched.world.pool.callers[caller]? = some call →
    call.stage?.isSome = true →
    watched.world.pool.lifecycle = some caller ∧
    Fits watched.world.pool deeds (caller, watched.begun caller) call
  owned : ∀ caller, watched.world.pool.lifecycle = some caller →
    ∃ call, watched.world.pool.callers[caller]? = some call ∧ call.stage?.isSome = true
  free : watched.world.pool.lifecycle = none → Marked watched.world.pool deeds

variable {watched : Watched} {world : World}

/-- What a phase says is about the flags only. -/
theorem Fits.congr {self : Nat × Nat} (running : next.running = pool.running)
    (stopped : next.stopped = pool.stopped) (fits : Fits pool deeds self call) :
    Fits next deeds self call := by
  have marked : Marked next deeds = Marked pool deeds := by rw [Marked, Marked, stopped]
  unfold Fits at fits ⊢
  split <;> simp_all

/-- A new pool, where nothing was done. -/
theorem Present.fresh (number : Nat) (settings : Settings) (sink : Sink) :
    Present (.fresh number settings sink) .none where
  flags :=
    ⟨rfl, fun on => absurd on Bool.false_ne_true, fun on => absurd on Bool.false_ne_true,
      fun _ => rfl, fun _ => rfl, fun _ => rfl⟩
  held caller call found := by simp [Watched.fresh, World.fresh, Pool.fresh] at found
  owned caller held := by cases held
  free _ stopped := by cases stopped

/-- Where the flags, the lock and who holds it stay the same, all stays as the deeds say. -/
theorem Present.frame (present : Present watched deeds) {later : Nat → Nat}
    (running : world.pool.running = watched.world.pool.running)
    (stopped : world.pool.stopped = watched.world.pool.stopped)
    (lifecycle : world.pool.lifecycle = watched.world.pool.lifecycle)
    (workers : watched.world.pool.workers = [] → world.pool.workers = [])
    (callers : ∀ (caller : Nat) (call : Call), call.stage?.isSome = true →
      (world.pool.callers[caller]? = some call ↔ watched.world.pool.callers[caller]? = some call))
    (begun : ∀ (caller : Nat) (call : Call), watched.world.pool.callers[caller]? = some call →
      call.stage?.isSome = true → later caller = watched.begun caller) :
    Present ⟨world, later⟩ deeds where
  flags :=
    ⟨running.trans present.flags.running, fun marked => present.flags.stopped (stopped ▸ marked),
      present.flags.sequence, fun nobody => workers (present.flags.unstaffed nobody),
      present.flags.untold, present.flags.unclosed⟩
  held caller call found reached := by
    -- A call that has come to a stage is in its place before and after.
    have before := (callers caller call reached).mp found
    obtain ⟨held, fits⟩ := present.held caller call before reached
    rw [← begun caller call before reached] at fits
    exact ⟨lifecycle.trans held, fits.congr running stopped⟩
  owned caller held := by
    obtain ⟨call, found, reached⟩ := present.owned caller (lifecycle.symm.trans held)
    exact ⟨call, (callers caller call reached).mpr found, reached⟩
  free open_ := by
    intro someone
    exact stopped.trans (present.free (lifecycle.symm.trans open_) someone)

/-- A turn of the one call that may hold the lock leaves the pool as the deeds then say. -/
theorem Present.stand {moment : Moment} (present : Present watched deeds)
    (alone : watched.world.pool.lifecycle = none ∨ watched.world.pool.lifecycle = some caller)
    (within : caller < watched.world.pool.callers.length)
    (callers : next.callers = watched.world.pool.callers)
    (turned : Turned deeds moment (caller, watched.begun caller) next later) :
    Present ⟨⟨after, setCaller next caller later⟩, watched.begun⟩ (deeds.after moment) := by
  have place : (setCaller next caller later).callers[caller]? = some later := by
    simp [setCaller, callers, within]
  have stands := turned.stands
  refine ⟨⟨turned.flags.1, turned.flags.2, turned.flags.3, turned.flags.4, turned.flags.5,
    turned.flags.6⟩,
    fun other call found reached => ?_, fun other held => ?_, fun open_ => ?_⟩
  · by_cases self : caller = other
    · subst self
      obtain rfl : later = call := Option.some.inj (place.symm.trans found)
      rw [Stands, if_pos reached] at stands
      exact ⟨stands.1, stands.2.congr rfl rfl⟩
    · -- Nobody else can hold the lock, since it was free or held by this very caller.
      have before : watched.world.pool.callers[other]? = some call := by
        simpa [setCaller, callers, self] using found
      have held := (present.held other call before reached).1
      rcases alone with free | mine
      · rw [free] at held
        cases held
      · exact absurd (Option.some.inj (mine.symm.trans held)) self
  · -- Only the caller itself can have the lock now.
    unfold Stands at stands
    split at stands
    · rename_i reached
      obtain rfl : caller = other := Option.some.inj (stands.1.symm.trans held)
      exact ⟨later, place, reached⟩
    · rw [show next.lifecycle = some other from held] at stands
      cases stands.1
  · unfold Stands at stands
    split at stands
    · rw [show next.lifecycle = none from open_] at stands
      cases stands.1
    · exact stands.2

/-- The step of a caller that has nothing to do with the life of the pool. -/
structure Aside (pool : Pool) (call : Call) (next : Pool) (later : Call)
    (events : List Pool.Event) : Prop where
  before : call.stage? = none := by rfl
  after : later.stage? = none := by rfl
  still : call.isStop = false := by rfl
  running : next.running = pool.running := by rfl
  stopped : next.stopped = pool.stopped := by rfl
  lifecycle : next.lifecycle = pool.lifecycle := by rfl
  roster : next.roster = pool.roster := by rfl
  workers : next.workers = pool.workers := by rfl
  callers : next.callers = pool.callers := by rfl
  announces : ∀ seat count, .logged seat (.starting count) ∉ events
  /-- Only a call of the queue itself closes it or takes something off it. -/
  spends : (∃ own, call = .queue own) ∨
    (∀ thread, .queue (.closed thread) ∉ events) ∧ Queue.removedItems (queueEvents events) = []

/--
Whether a call, if it goes through the pool, does nothing at the queue but put
a task there and tell so.
-/
def OnlyPushes : Call → Prop
  | .submit (.pushing _) | .submit .notifying | .submit (.returned _) => True
  | .submit _ => False
  | _ => True

/--
A push through the pool neither closes the queue nor takes anything off it, and goes on as a push.
-/
theorem submit_aside {own : Queue.Call Task} (pushes : OnlyPushes (.submit own))
    (stepped : Call.step queue pool caller chance (.submit own) =
      some (after, next, later, events)) :
    Aside pool (.submit own) next later events ∧ OnlyPushes later := by
  cases own with
  | pushing task =>
    cases stepped
    exact ⟨{ announces := by simp, spends := .inr ⟨by simp, rfl⟩ }, trivial⟩
  | notifying =>
    obtain ⟨⟨_, onward, told⟩, moved, same⟩ := Option.map_eq_some_iff.mp stepped
    cases same
    -- Whoever is told, the push has returned then.
    obtain ⟨rfl, rfl⟩ : onward = .returned none ∧ told = [] := by
      cases woken : chance.woken <;>
        simp only [woken, Queue.Call.step, Option.ite_none_right_eq_some,
        Option.some.injEq, Prod.mk.injEq] at moved <;> exact ⟨moved.2.2.1.symm, moved.2.2.2.symm⟩
    exact ⟨{ announces := fun _ _ => by simp, spends := .inr ⟨fun _ => by simp, rfl⟩ }, trivial⟩
  | returned task =>
    cases stepped
    exact ⟨{ announces := fun _ _ => by simp, spends := .inr ⟨fun _ => by simp, rfl⟩ }, trivial⟩
  | _ => cases pushes

/--
A caller takes a step of a start, or of a stop, or one that has nothing to do
with the life of the pool.
-/
theorem Call.step_aside (pushes : OnlyPushes call)
    (stepped : call.step queue pool caller chance = some (after, next, later, events)) :
    (∃ count phase, call = .start count phase) ∨ (∃ phase, call = .stop phase) ∨
      Aside pool call next later events := by
  cases call with
  | start count phase => exact .inl ⟨count, phase, rfl⟩
  | stop phase => exact .inr (.inl ⟨phase, rfl⟩)
  | queue own =>
    -- A call on the queue alone leaves the pool as it is, and may take tasks away.
    obtain ⟨⟨_, onward, told⟩, -, same⟩ := Option.map_eq_some_iff.mp stepped
    cases same
    refine .inr
      (.inr { after := Call.stage?_ofQueue onward, announces := ?_, spends := .inl ⟨own, rfl⟩ })
    simp
  | submit own => exact .inr (.inr (submit_aside pushes stepped).1)
  | observe =>
    simp only [Call.step, Option.ite_none_right_eq_some] at stepped
    obtain ⟨-, same⟩ := stepped
    cases same
    exact .inr (.inr { announces := fun _ _ => by simp, spends := .inr ⟨fun _ => by simp, rfl⟩ })
  | returned answer => cases stepped
  | broken text => cases stepped

/--
A start comes to a phase of a start, or to its end, and neither marks the pool as
stopped nor takes the mark off.
-/
theorem Starting.step_stays {phase : Starting} {refusal : Option Trouble}
    (stepped : phase.step pool caller count refusal = some (next, later, events)) :
    OnlyPushes later ∧ next.stopped = pool.stopped := by
  cases phase <;> simp only [Starting.step, Pool.tell, Pool.create] at stepped <;>
    (repeat' split at stepped) <;> cases stepped <;> exact ⟨trivial, rfl⟩

/--
A stop comes to a phase of a stop, or to its end, and never takes back that the pool was stopped.
-/
theorem Stopping.step_stays {phase : Stopping} {timeUp : Bool} {worker : Nat}
    (stepped : phase.step queue pool caller timeUp worker = some (after, next, later, events)) :
    OnlyPushes later ∧ (pool.stopped = true → next.stopped = true) := by
  cases phase with
  | marking =>
    -- This is where a stop marks the pool. Nothing takes the mark off again.
    cases stepped
    exact ⟨trivial, fun _ => rfl⟩
  | joining left =>
    cases left with
    | nil =>
      cases stepped
      exact ⟨trivial, id⟩
    | cons first rest =>
      obtain ⟨phase, -, same⟩ := Option.map_eq_some_iff.mp stepped
      cases same
      exact ⟨trivial, id⟩
  | _ =>
    simp only [Stopping.step, Pool.tell, Pool.besideQueue] at stepped
    (repeat' split at stepped) <;> cases stepped <;> exact ⟨trivial, id⟩

/-- Whatever a call comes to, it only pushes if it goes through the pool. -/
theorem Call.step_pushes (pushes : OnlyPushes call)
    (stepped : call.step queue pool caller chance = some (after, next, later, events)) :
    OnlyPushes later := by
  cases call with
  | submit own => exact (submit_aside pushes stepped).2
  | queue own =>
    obtain ⟨⟨_, onward, _⟩, -, same⟩ := Option.map_eq_some_iff.mp stepped
    cases same
    -- A call on the queue comes to one on the queue, or to an end.
    cases onward <;> trivial
  | start count phase =>
    obtain ⟨⟨_, _, _⟩, moved, same⟩ := Option.map_eq_some_iff.mp stepped
    cases same
    exact (Starting.step_stays moved).1
  | stop phase => exact (Stopping.step_stays stepped).1
  | observe =>
    simp only [Call.step, Option.ite_none_right_eq_some] at stepped
    obtain ⟨-, same⟩ := stepped
    cases same
    trivial
  | returned answer => cases stepped
  | broken text => cases stepped

/-- Every caller's call only pushes if it goes through the pool, whatever turn is taken. -/
theorem step_pushes {turn : Turn} {world next : World} {events : List Pool.Event}
    (pushes : ∀ call ∈ world.pool.callers, OnlyPushes call)
    (stepped : world.step turn = some (next, events)) :
    ∀ call ∈ next.pool.callers, OnlyPushes call := by
  cases turn with
  | begin caller request =>
    obtain ⟨-, callers, rfl, added⟩ := step_begin stepped
    -- What is begun is a request, and each of them pushes at most.
    have new : OnlyPushes request.call := by cases request <;> trivial
    rcases added with rfl | ⟨before, -, -, rfl⟩
    · intro call member
      rcases List.mem_append.mp member with old | last
      · exact pushes call old
      · exact List.mem_singleton.mp last ▸ new
    · intro call member
      rcases List.mem_or_eq_of_mem_set member with old | rfl
      · exact pushes call old
      · exact new
  | caller index chance =>
    obtain ⟨call, queue, pool, after, found, moved, rfl⟩ := step_caller.mp stepped
    have callers := (Pool.Call.step_visit moved).callers
    intro other member
    rcases List.mem_or_eq_of_mem_set member with old | rfl
    · exact pushes other (callers ▸ old)
    · exact Call.step_pushes (pushes call (List.mem_of_getElem? found)) moved
  | worker index chance =>
    obtain ⟨name, duty, queue, pool, after, found, moved, rfl⟩ := step_worker.mp stepped
    rw [(Pool.work_progress moved).same]
    exact pushes
  | openGate index =>
    obtain ⟨-, name, task, left, found, rfl⟩ := step_openGate stepped
    exact pushes
  | resume index broken =>
    obtain ⟨name, task, request, left, after, found, rfl, -⟩ := step_resume stepped
    exact pushes
  | refilter filter =>
    cases stepped
    exact pushes

/-- No worker tells that the pool starts. -/
theorem work_announces {index : Nat} {name : String} {micros : UInt64} {duty later : Duty}
    {seat : Seat}
    (worked : Pool.work queue pool index name micros duty = some (after, next, later, events)) :
    .logged seat (.starting count) ∉ events := by
  -- What a worker tells is about itself or its task.
  have other (message : Message) (own : ∀ count, message ≠ .starting count) :
      .logged seat (.starting count) ∉ pool.kept (.worker index) message :=
        (Uneventful.kept pool _ own).announces _ _
  cases duty with
  | opening | closing =>
    cases worked
    exact other _ fun _ => by simp
  | fetching =>
    simp only [Pool.work] at worked
    split at worked
    · cases worked
    · split at worked <;> cases worked <;> simp
  | working task left =>
    cases left with
    | nil =>
      cases worked
      simp
    | cons action left => cases action <;> cases worked <;> simp
  | reporting failure =>
    cases failure with
    | none =>
      cases worked
      exact List.not_mem_nil
    | some failure =>
      cases worked
      exact other _ fun _ => by simp
  | counting | timing =>
    cases worked
    exact List.not_mem_nil
  | gone => cases worked

/-- A turn that nobody takes whose call has to do with the life of the pool has no deeds. -/
theorem admits_aside (moment : Moment)
    (running : moment.next.pool.running = moment.before.world.pool.running)
    (workers : moment.next.pool.workers.length = moment.before.world.pool.workers.length)
    (still : moment.call?.any Call.isStop = false)
    (announces : ∀ seat count, .logged seat (.starting count) ∉ moment.events)
    (spends : deeds.starter = none → moment.Spends → ∃ call, moment.call? = some (.queue call)) :
    deeds.Admits moment ∧ deeds.after moment = deeds := by
  -- None of the events by which starts and stops are known has happened.
  have silent : moment.announces = false := by
    rw [Moment.announces, List.any_eq_false]
    intro event member told
    split at told
    · exact announces _ _ member
    · cases told
  have starts : moment.starts = false := by
    simp [Moment.starts, Moment.claims, Moment.hires, silent, running, workers]
  have joins : moment.joins = false := by
    rw [Moment.joins, Option.any_eq_false]
    intro call found
    rw [found] at still
    cases joining : call.isJoining with
    | true => simp [Call.isStop_of_isJoining joining] at still
    | false => simp
  have stops : moment.stops = false := by
    simp [Moment.stops, Moment.halts, Moment.closes, still, joins, running]
  exact ⟨.idle starts stops spends, Deeds.after_idle starts stops⟩

/-- After a turn beside the life of the pool that leaves the callers alone, all is as it was. -/
theorem Present.beside {turn : Turn} {events : List Pool.Event} (present : Present watched deeds)
    (same : ∃ workers sink tally, world.pool =
      { watched.world.pool with workers := workers, sink := sink, tally := tally } ∧
      workers.length = watched.world.pool.workers.length)
    (nobody : (⟨watched, turn, world, events⟩ : Moment).call? = none)
    (uncounted : watched.count turn = watched.begun)
    (announces : ∀ seat count, .logged seat (.starting count) ∉ events)
    (spends : deeds.starter = none → Queue.removedItems (queueEvents events) = [] ∧
      ∀ thread, .queue (.closed thread) ∉ events) :
    deeds.Admits ⟨watched, turn, world, events⟩ ∧
      Present ⟨world, watched.count turn⟩ (deeds.after ⟨watched, turn, world, events⟩) := by
  obtain ⟨workers, sink, tally, same, length⟩ := same
  have staff : world.pool.workers.length = watched.world.pool.workers.length := by
    rw [same]; exact length
  -- Before a start only calls on the queue take tasks away or close it.
  have kept : deeds.starter = none → (⟨watched, turn, world, events⟩ : Moment).Spends →
      ∃ call, (⟨watched, turn, world, events⟩ : Moment).call? = some (.queue call) := by
    intro unstarted spent
    obtain ⟨keeps, closes⟩ := spends unstarted
    rcases spent with ⟨thread, member⟩ | removed
    · exact absurd member (closes thread)
    · exact absurd keeps removed
  obtain ⟨admits, still⟩ := admits_aside _ (by rw [same]) staff (by rw [nobody]; rfl) announces kept
  refine ⟨admits, ?_⟩
  rw [still, uncounted]
  refine present.frame (by rw [same]) (by rw [same]) (by rw [same]) (fun none => ?_)
    (fun _ _ _ => by rw [same])
    (fun _ _ _ _ => rfl)
  rw [none] at staff
  exact List.eq_nil_of_length_eq_zero staff

/-- Where an entry is replaced, the places of any third one stay as they are. -/
theorem getElem?_set_third {α : Type} {all : List α} {place other : Nat} {old new known : α}
    (found : all[place]? = some old) (gone : old ≠ known) (fresh : new ≠ known) :
    (all.set place new)[other]? = some known ↔ all[other]? = some known := by
  obtain ⟨within, rfl⟩ := List.getElem?_eq_some_iff.mp found
  -- In the place of the entry itself neither the old nor the new one is the third.
  by_cases same : place = other
  · subst same
    simp [within, gone, fresh]
  · simp [same]

/-- A call that has ended holds no lock. -/
theorem stage?_of_hasEnded (ended : call.hasEnded = true) : call.stage? = none := by
  cases call with
  | returned | broken => rfl
  | _ => cases ended

/-- A new call holds no lock, and neither does the one in whose place it comes. -/
theorem Present.begin {request : Pool.Request} {callers : List Call}
    (present : Present watched deeds)
    (added : callers = watched.world.pool.callers ++ [request.call] ∨
      ∃ call, watched.world.pool.callers[caller]? = some call ∧ call.hasEnded = true ∧
        callers = watched.world.pool.callers.set caller request.call)
    (done : ∀ call, watched.world.pool.callers[caller]? = some call → call.hasEnded = true) :
    Present ⟨⟨watched.world.queue, { watched.world.pool with callers := callers }⟩,
      watched.count (.begin caller request)⟩ deeds := by
  -- So whoever holds the lock is somebody else, whose call goes on.
  have fresh : ∀ known : Call, known.stage?.isSome = true → request.call ≠ known := by
    rintro known reached rfl
    rw [request.stage?_call] at reached
    cases reached
  refine present.frame rfl rfl rfl id (fun other known reached => ?_)
    fun other known found reached => ?_
  · rcases added with rfl | ⟨ended, found, done, rfl⟩
    · rw [List.getElem?_append]
      split
      · exact Iff.rfl
      · rename_i beyond
        rw [List.getElem?_eq_none (l := watched.world.pool.callers) (by omega)]
        simp only [reduceCtorEq, iff_false]
        intro last
        exact fresh known reached (List.mem_singleton.mp (List.mem_of_getElem? last)).symm
    · refine getElem?_set_third found ?_ (fresh known reached)
      rintro rfl
      rw [stage?_of_hasEnded done] at reached
      cases reached
  · -- The caller that begins has no call that goes on.
    have apart : other ≠ caller := by
      rintro rfl
      rw [stage?_of_hasEnded (done known found)] at reached
      cases reached
    simp [Watched.count, apart]

/-- Every turn goes with what was done before it, and leaves the pool as the deeds then say. -/
theorem step_present {turn : Turn} {events : List Pool.Event} (present : Present watched deeds)
    (pushes : ∀ call ∈ watched.world.pool.callers, OnlyPushes call)
    (stepped : watched.world.step turn = some (world, events)) :
    deeds.Admits ⟨watched, turn, world, events⟩ ∧
      Present ⟨world, watched.count turn⟩ (deeds.after ⟨watched, turn, world, events⟩) := by
  cases turn with
  | begin caller request =>
    obtain ⟨rfl, callers, rfl, added⟩ := step_begin stepped
    obtain ⟨admits, still⟩ := admits_aside
      ⟨watched, .begin caller request,
        ⟨watched.world.queue, { watched.world.pool with callers := callers }⟩, []⟩
      rfl rfl rfl (fun _ _ => by simp) fun _ spent =>
        absurd spent (Moment.not_spends_of_uneventful .nil)
    refine ⟨admits, ?_⟩
    rw [still]
    exact present.begin added fun _ found => ended_of_step_begin stepped found
  | caller index chance =>
    obtain ⟨call, queue, pool, after, found, moved, rfl⟩ := step_caller.mp stepped
    have within := (List.getElem?_eq_some_iff.mp found).1
    have callers := (Pool.Call.step_visit moved).callers
    rcases Call.step_aside (pushes call (List.mem_of_getElem? found)) moved with
      ⟨count, phase, rfl⟩ | ⟨phase, rfl⟩ | aside
    · obtain ⟨⟨_, _, _⟩, started, same⟩ := Option.map_eq_some_iff.mp moved
      cases same
      have turned : Turned deeds (callerMoment watched.world.queue watched.world.queue
        watched.world.pool pool
          watched.begun index chance after events) (index, watched.begun index) pool after :=
        Starting.step_deeds found started present.flags present.free (present.held index _ found)
      refine ⟨turned.admits, present.stand ?_ within callers turned⟩
      cases phase with
      | locking =>
        simp only [Starting.step, Option.ite_none_right_eq_some] at started
        exact .inl started.1
      | _ => exact .inr (present.held index _ found rfl).1
    · have turned : Turned deeds (callerMoment watched.world.queue queue watched.world.pool pool
          watched.begun index chance after events) (index, watched.begun index) pool after :=
        Stopping.step_deeds found moved present.flags present.free (present.held index _ found)
      refine ⟨turned.admits, present.stand ?_ within callers turned⟩
      cases phase with
      | locking =>
        simp only [Call.step, Stopping.step, Option.ite_none_right_eq_some] at moved
        exact .inl moved.1
      | _ => exact .inr (present.held index _ found rfl).1
    · have acted : (⟨watched, .caller index chance, ⟨queue, setCaller pool index after⟩, events⟩ :
        Moment).call? =
          some call := found
      have spends : deeds.starter = none →
          (⟨watched, .caller index chance, ⟨queue, setCaller pool index after⟩, events⟩ :
            Moment).Spends →
          ∃ own, (⟨watched, .caller index chance, ⟨queue, setCaller pool index after⟩, events⟩ :
            Moment).call? =
            some (.queue own) := by
        intro _ spent
        rcases aside.spends with ⟨own, rfl⟩ | ⟨closes, keeps⟩
        · exact ⟨own, acted⟩
        · rcases spent with ⟨thread, member⟩ | removed
          · exact absurd member (closes thread)
          · exact absurd keeps removed
      obtain ⟨admits, still⟩ := admits_aside _ aside.running (congrArg List.length aside.workers)
        (by rw [acted]; exact aside.still) aside.announces spends
      refine ⟨admits, ?_⟩
      rw [still]
      refine present.frame aside.running aside.stopped aside.lifecycle (fun none =>
        aside.workers.trans none)
        (fun other known reached => ?_) fun _ _ _ _ => rfl
      -- Neither the call that goes on nor what it comes to holds the lock.
      rw [show (setCaller pool index after).callers =
        watched.world.pool.callers.set index after from
        congrArg (List.set · index after) callers]
      refine getElem?_set_third found ?_ ?_
      · rintro rfl
        rw [aside.before] at reached
        cases reached
      · rintro rfl
        rw [aside.after] at reached
        cases reached
  | worker index chance =>
    obtain ⟨name, duty, queue, pool, after, found, moved, rfl⟩ := step_worker.mp stepped
    have same := (Pool.work_progress moved).same
    refine present.beside ⟨pool.workers.set index ⟨name, after⟩, watched.world.pool.sink,
      pool.tally, ?_, ?_⟩ rfl rfl
      (fun seat count => work_announces moved) fun unstarted => ?_
    · rw [same]
      rfl
    · rw [same]
      exact List.length_set
    · -- In a pool that nobody has started there is no worker.
      rw [present.flags.unstaffed unstarted] at found
      cases found
  | openGate index =>
    obtain ⟨rfl, name, task, left, found, rfl⟩ := step_openGate stepped
    exact present.beside ⟨_, _, _, rfl, List.length_set⟩ rfl rfl (fun _ _ => by simp) fun _ =>
      ⟨rfl, fun _ => by simp⟩
  | resume index broken =>
    obtain ⟨name, task, request, left, after, found, rfl, moved⟩ := step_resume stepped
    refine present.beside ⟨_, _, _, rfl, List.length_set⟩ rfl rfl ?_ ?_
    · rcases moved with ⟨-, rfl⟩ | ⟨text, -, rfl⟩ <;> simp
    · rcases moved with ⟨-, rfl⟩ | ⟨text, -, rfl⟩
      · exact fun _ => ⟨rfl, fun _ => by simp⟩
      · exact fun _ => ⟨rfl, by simp⟩
  | refilter filter =>
    cases stepped
    exact present.beside ⟨_, _, _, rfl, rfl⟩ rfl rfl (fun _ _ => by simp) fun _ =>
      ⟨rfl, fun _ => by simp⟩

/-- A moment of a run is one turn of the world, and keeping it changes nothing. -/
theorem runOf_recorded (start : Watched) (turns : List Turn) :
    (runOf recorded start turns).map (fun (watched, moments) =>
      (watched.world, moments.flatMap (·.events))) =
      runOf step start.world turns := by
  induction turns using List.reverseRecOn with
  | nil => rfl
  | append_singleton turns turn ih =>
    rw [runOf, runOf, List.foldl_append, List.foldl_append, ← runOf, ← runOf, ← ih]
    -- The last turn is taken in the world that the others have led to.
    cases runOf recorded start turns with
    | none => rfl
    | some reached =>
      obtain ⟨watched, moments⟩ := reached
      cases stepped : watched.world.step turn <;> simp [recorded, stepped]

/-- Whether a call is a stop that has taken effect and has left the roster as it was. -/
def keepsRoster : Call → Bool
  | .stop .announcing | .stop .draining | .stop .warning | .stop .closing | .stop .waking
      | .stop .parting
  | .stop .gathering => true
  | _ => false

/-- In a pool that was stopped the roster is empty, or the stop has not come to it. -/
def Cleared (pool : Pool) : Prop :=
  pool.stopped = true → pool.roster = [] ∨ ∃ call ∈ pool.callers, keepsRoster call = true

/-- A step of a start leaves the roster as it is, unless nobody has stopped the pool. -/
theorem Starting.step_roster {phase : Starting} {refusal : Option Trouble}
    (own : ∀ stage, (Call.start count phase).stage? = some stage → stage.Holds pool)
    (stepped : phase.step pool caller count refusal = some (next, later, events))
    (stopped : pool.stopped = true) :
    next.roster = pool.roster := by
  cases phase with
  | creating index =>
    -- A start that creates workers holds the lock of a pool that nobody has stopped.
    have open_ : pool.stopped = false := (own _ rfl).2.1
    rw [stopped] at open_
    cases open_
  | _ =>
    simp only [Starting.step, Pool.tell] at stepped
    (repeat' split at stepped) <;> cases stepped <;> rfl

/-- A stop keeps the roster as it is until it empties it. -/
theorem Stopping.step_roster {phase : Stopping} {timeUp : Bool} {worker : Nat} (quiet : pool.Quiet)
    (stepped : phase.step queue pool caller timeUp worker = some (after, next, later, events))
    (stopped : next.stopped = true) :
    next.roster = [] ∨ keepsRoster later = true ∨
      next.roster = pool.roster ∧ pool.stopped = true ∧ keepsRoster (.stop phase) = false := by
  cases phase with
  | joining left =>
    cases left with
    | nil =>
      cases stepped
      exact .inr (.inr ⟨rfl, stopped, rfl⟩)
    | cons first rest =>
      obtain ⟨phase, -, same⟩ := Option.map_eq_some_iff.mp stepped
      cases same
      exact .inr (.inr ⟨rfl, stopped, rfl⟩)
  | gathering =>
    simp only [Stopping.step, Option.ite_none_right_eq_some] at stepped
    obtain ⟨-, same⟩ := stepped
    cases same
    -- Here the roster is emptied. All phases before keep it, and all later ones find it so.
    exact .inl rfl
  | announcing | warning | parting =>
    simp only [Stopping.step, Pool.tell_quiet quiet] at stepped
    cases stepped
    exact .inr (.inl rfl)
  | marking | closing | waking =>
    cases stepped
    exact .inr (.inl rfl)
  | draining =>
    simp only [Stopping.step] at stepped
    (repeat' split at stepped) <;> cases stepped <;> exact .inr (.inl rfl)
  | locking | claiming | unlocking | lamenting =>
    simp only [Stopping.step, Pool.tell_quiet quiet] at stepped
    (repeat' split at stepped) <;> cases stepped <;> exact .inr (.inr ⟨rfl, stopped, rfl⟩)

/-- Where another call is replaced, one that keeps the roster is still there. -/
theorem keepsRoster_of_set {callers : List Call} (found : callers[caller]? = some call)
    (other : keepsRoster call = false) (keeps : ∃ call ∈ callers, keepsRoster call = true) :
    ∃ call ∈ callers.set caller later, keepsRoster call = true := by
  obtain ⟨keeper, member, kept⟩ := keeps
  obtain ⟨place, known⟩ := List.getElem?_of_mem member
  -- The call that is replaced keeps no roster, so it is another one that does.
  have apart : caller ≠ place := by
    rintro rfl
    obtain rfl : call = keeper := Option.some.inj (found.symm.trans known)
    rw [other] at kept
    cases kept
  exact ⟨keeper, List.mem_of_getElem? ((List.getElem?_set_ne apart).trans known), kept⟩

/--
Every turn of a pool whose sink fails nobody leaves a stopped pool with an empty
roster, or its stop on the way.
-/
theorem step_cleared {turn : Turn} {next : World} (orderly : world.pool.Orderly)
    (quiet : world.pool.Quiet) (pushes : ∀ call ∈ world.pool.callers, OnlyPushes call)
    (cleared : Cleared world.pool) (stepped : world.step turn = some (next, events)) :
    Cleared next.pool := by
  cases turn with
  | begin caller request =>
    obtain ⟨-, callers, rfl, added⟩ := step_begin stepped
    intro stopped
    refine (cleared stopped).imp_right fun keeps => ?_
    rcases added with rfl | ⟨call, found, ended, rfl⟩
    · obtain ⟨keeper, member, kept⟩ := keeps
      exact ⟨keeper, List.mem_append_left _ member, kept⟩
    · refine keepsRoster_of_set found ?_ keeps
      cases call <;> first | rfl | cases ended
  | caller index chance =>
    obtain ⟨call, queue, pool, after, found, moved, rfl⟩ := step_caller.mp stepped
    have callers := (Pool.Call.step_visit moved).callers
    have within := (List.getElem?_eq_some_iff.mp found).1
    -- If the roster is what it was and the call did not keep it, whoever kept it still does.
    have rest (roster : pool.roster = world.pool.roster) (stopped : world.pool.stopped = true)
        (other : keepsRoster call = false) : (setCaller pool index after).roster = [] ∨
          ∃ call ∈ (setCaller pool index after).callers, keepsRoster call = true := by
      refine (cleared stopped).imp (fun empty => roster.trans empty) fun keeps => ?_
      rw [show (setCaller pool index after).callers = world.pool.callers.set index after from
        congrArg (List.set · index after) callers]
      exact keepsRoster_of_set found other keeps
    intro stopped
    rcases Call.step_aside (pushes call (List.mem_of_getElem? found)) moved with
      ⟨count, phase, rfl⟩ | ⟨phase, rfl⟩ | aside
    · obtain ⟨⟨_, _, _⟩, started, same⟩ := Option.map_eq_some_iff.mp moved
      cases same
      have before : world.pool.stopped = true := (Starting.step_stays started).2.symm.trans stopped
      exact rest (Starting.step_roster (fun stage reached =>
        (orderly.held index _ stage found reached).2)
        started before) before rfl
    · rcases Stopping.step_roster quiet moved stopped with empty | keeps | ⟨roster, before, other⟩
      · exact .inl empty
      · refine .inr ⟨after, ?_, keeps⟩
        exact List.mem_of_getElem? (i := index) (by simp [setCaller, callers, within])
      · exact rest roster before other
    · refine rest aside.roster (aside.stopped.symm.trans stopped) ?_
      cases call with
      | stop phase => exact absurd aside.still (by simp [Call.isStop])
      | _ => rfl
  | worker index chance =>
    obtain ⟨name, duty, queue, pool, after, -, moved, rfl⟩ := step_worker.mp stepped
    rw [(Pool.work_progress moved).same]
    exact cleared
  | openGate index =>
    obtain ⟨-, name, task, left, -, rfl⟩ := step_openGate stepped
    exact cleared
  | resume index broken =>
    obtain ⟨name, task, request, left, after, -, rfl, -⟩ := step_resume stepped
    exact cleared
  | refilter filter =>
    cases stepped
    exact cleared

/-- In every run of a new pool the annals continue, and the pool is as its deeds say. -/
theorem run_present {number : Nat} {settings : Settings} {sink : Sink} {turns : List Turn}
    {moments : List Moment}
    (ran : runOf recorded (.fresh number settings sink) turns = some (watched, moments)) :
    (∃ deeds, Annals moments deeds ∧ Present watched deeds) ∧
      ∀ call ∈ watched.world.pool.callers, OnlyPushes call := by
  refine run_invariant (fun watched moments =>
    (∃ deeds, Annals moments deeds ∧ Present watched deeds) ∧
      ∀ call ∈ watched.world.pool.callers, OnlyPushes call) ?_ ?_ ran
  · exact ⟨⟨.none, .nil, .fresh number settings sink⟩, List.forall_mem_nil _⟩
  · -- A turn adds its deeds to the annals, if it does any.
    rintro before moments turn watched new ⟨⟨deeds, annals, present⟩, pushes⟩ stepped
    obtain ⟨⟨next, events⟩, moved, same⟩ := Option.map_eq_some_iff.mp stepped
    cases same
    obtain ⟨admits, later⟩ := step_present present pushes moved
    exact ⟨⟨_, annals.concat admits, later⟩, step_pushes pushes moved⟩

/-- In every run of a new pool whose sink fails nobody, the roster is cleared by a stop. -/
theorem run_cleared {number : Nat} {settings : Settings} {sink : Sink} {turns : List Turn}
    {moments : List Moment} (quiet : ∀ message : Message, sink.failsAt message.line = false)
    (ran : runOf recorded (.fresh number settings sink) turns = some (watched, moments)) :
    watched.world.pool.Orderly ∧ watched.world.pool.Quiet ∧ Cleared watched.world.pool := by
  -- That the sink stays quiet and the pool orderly is kept along with what they are for.
  have kept := run_invariant (fun watched (_ : List Moment) =>
    (watched.world.pool.Orderly ∧ watched.world.pool.Quiet ∧ Cleared watched.world.pool) ∧
      ∀ call ∈ watched.world.pool.callers, OnlyPushes call) ?_ ?_ ran
  · exact kept.1
  · exact ⟨⟨.fresh number settings sink, quiet, fun stopped => by cases stopped⟩,
      List.forall_mem_nil _⟩
  · rintro before moments turn watched new ⟨⟨orderly, quiet, cleared⟩, pushes⟩ stepped
    obtain ⟨⟨next, events⟩, moved, same⟩ := Option.map_eq_some_iff.mp stepped
    cases same
    exact ⟨⟨(step_orderly orderly quiet moved).1, step_quiet quiet moved,
      step_cleared orderly quiet pushes cleared moved⟩, step_pushes pushes moved⟩

end TaskPool.World
