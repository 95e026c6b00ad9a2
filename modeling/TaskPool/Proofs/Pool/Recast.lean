import TaskPool.Proofs.Pool.Moves
import TaskPool.Proofs.Queue.Ledger

/-!
What the steps of a pool never look at: which lines the sink keeps, what the other callers
and the other workers are doing, and what was counted.

A pool can be recast with any of these, and each step comes out as before, but for the lines
that the other filter lets through.
-/

namespace TaskPool

namespace Pool

/-- What is left of some events where the sink keeps lines by a filter. -/
def hearing (filter : Filter) (events : List Event) : List Event :=
  events.filter fun
    | .logged _ message => filter.admits message.severity
    | _ => true

/-- What is kept of a message is what is left where everything is told to the sink. -/
theorem kept_eq_hearing (pool : Pool) (seat : Seat) (message : Message) :
    pool.kept seat message = hearing pool.sink.filter [.logged seat message] := by
  -- Both test the one line against the filter.
  simp [kept, hearing, List.filter_cons]

/-- A filter has nothing to say about what happens at the queue. -/
@[simp] theorem hearing_queue (filter : Filter) (events : List (Queue.Event Thread Task)) :
    hearing filter (events.map .queue) = events.map .queue := by
  simp [hearing, List.filter_eq_self]

/-- A pool with another filter, other workers, other callers and other counters. -/
def recast (pool : Pool) (filter : Filter) (workers : List Worker) (callers : List Call)
    (tally : Tally) : Pool :=
  { pool with sink :=
    { pool.sink with filter := filter }, workers := workers, callers := callers, tally := tally }

/--
Workers that a stop cannot tell from others: they are as many, and the same threads have ended.
-/
structure Standin (workers others : List Worker) : Prop where
  length : others.length = workers.length
  gone : ∀ (index : Nat) (name : String) (broken : Bool), workers[index]? =
    some ⟨name, .gone broken⟩ →
    others[index]? = some ⟨name, .gone broken⟩

/-- Workers stand in for themselves. -/
theorem Standin.refl (workers : List Worker) : Standin workers workers where
  length := rfl
  gone _ _ _ known := known

/--
A move comes out the same way at a pool that is recast.

What happens is what is left of `full`, and new workers come behind the others.
-/
def Recasts (move : Pool → Pool → List Event → Prop) (pool next : Pool)
    (events : List Event) : Prop :=
  ∃ full new, events = hearing pool.sink.filter full ∧ next.workers = pool.workers ++ new ∧
    ∀ filter workers callers tally, Standin pool.workers workers →
      move (pool.recast filter workers callers tally)
        (next.recast filter (workers ++ new) callers tally) (hearing filter full)

variable {queue after : Queue Thread Task} {pool next : Pool} {events : List Event}
  {caller count : Nat} {call later : Call}

/-- A move that nothing is told in, and that creates no worker, is shown at one recast pool. -/
theorem Recasts.plain {move : Pool → Pool → List Event → Prop} (same : next.workers = pool.workers)
    (moves : ∀ filter workers callers tally, Standin pool.workers workers →
      move (pool.recast filter workers callers tally)
        (next.recast filter workers callers tally) []) :
    Recasts move pool next [] := by
  refine ⟨[], [], rfl, by simp [same], fun filter workers callers tally standin => ?_⟩
  rw [List.append_nil]
  exact moves filter workers callers tally standin

/-- Telling a message comes out the same way, whatever the sink keeps of it. -/
theorem Telling.recasts {message : Message} {onward : Call}
    (tells : Telling pool caller message onward next later events) :
    Recasts (fun pool next events => Telling pool caller message onward next later events) pool
      next events := by
  refine ⟨[.logged (.caller caller) message], [], ?_, ?_,
    fun filter workers callers tally standin => ?_⟩
  · -- The line is kept in either case, also where the caller breaks off.
    cases tells <;> exact kept_eq_hearing ..
  · cases tells <;> exact (List.append_nil _).symm
  · -- What a sink fails on does not depend on what it keeps.
    have heard : (pool.recast filter workers callers tally).kept (.caller caller) message =
        hearing filter [.logged (.caller caller) message] := kept_eq_hearing ..
    rw [List.append_nil, ← heard]
    cases tells with
    | told fine => exact .told fine
    | failed fails => exact .failed fails

/-- What tells a message recasts as the message does. -/
theorem Recasts.imp {one other : Pool → Pool → List Event → Prop}
    (recasts : Recasts one pool next events)
    (imp : ∀ pool next events, one pool next events → other pool next events) :
    Recasts other pool next events := by
  obtain ⟨full, new, heard, grown, moves⟩ := recasts
  exact ⟨full, new, heard, grown, fun filter workers callers tally standin =>
    imp _ _ _ (moves filter workers callers tally standin)⟩

/-- A start looks at nothing that a pool can be recast with. -/
theorem Starting.Move.recasts {phase : Starting} {refusal : Option Trouble}
    (move : phase.Move pool caller count refusal next later events) :
    Recasts (fun pool next events => phase.Move pool caller count refusal next later events) pool
      next events := by
  cases move with
  | lock free => exact .plain rfl fun _ _ _ _ _ => .lock free
  | bar stopped => exact .plain rfl fun _ _ _ _ _ => .bar stopped
  | pass open_ => exact .plain rfl fun _ _ _ _ _ => .pass open_
  | refuse tells => exact tells.recasts.imp fun _ _ _ => .refuse
  | skip running => exact .plain rfl fun _ _ _ _ _ => .skip running
  | claim idle => exact .plain rfl fun _ _ _ _ _ => .claim idle
  | announce tells => exact tells.recasts.imp fun _ _ _ => .announce
  | overflow free many => exact .plain rfl fun _ _ _ _ _ => .overflow free many
  | reserve free few => exact .plain rfl fun _ _ _ _ _ => .reserve free few
  | misname more unusable => exact .plain rfl fun _ _ _ _ _ => .misname more unusable
  | miss more usable refused => exact .plain rfl fun _ _ _ _ _ => .miss more usable refused
  | @hire number more usable granted =>
    -- The new worker has the place behind all others, which are as many as before.
    refine ⟨[], [⟨pool.settings.workerName number, .opening⟩], rfl, rfl,
      fun filter workers callers tally standin => ?_⟩
    have hired : (pool.recast filter workers callers tally).employ
      (pool.settings.workerName number) =
        (pool.employ (pool.settings.workerName number)).recast filter
          (workers ++ [⟨pool.settings.workerName number, .opening⟩]) callers tally := by
      simp [employ, enlist, recast, standin.length]
    rw [← hired]
    exact .hire more usable granted
  | finish done => exact .plain rfl fun _ _ _ _ _ => .finish done
  | lament tells => exact tells.recasts.imp fun _ _ _ => .lament
  | unlock => exact .plain rfl fun _ _ _ _ _ => .unlock

/-- Of the items on the queue, a stop sees only whether there are any. -/
theorem Stopping.Move.recasts {phase : Stopping} {timeUp : Bool} {worker : Nat}
    (move : phase.Move queue pool caller timeUp worker after next later events) :
    after.items = queue.items ∧ ∀ items, (items = [] ↔ queue.items = []) →
      Recasts (fun pool next events => phase.Move { queue with items := items } pool
        caller timeUp worker
        { after with items := items } next later events) pool next events := by
  cases move with
  | lock free => exact ⟨rfl, fun _ _ => .plain rfl fun _ _ _ _ _ => .lock free⟩
  | claim running => exact ⟨rfl, fun _ _ => .plain rfl fun _ _ _ _ _ => .claim running⟩
  | skip idle => exact ⟨rfl, fun _ _ => .plain rfl fun _ _ _ _ _ => .skip idle⟩
  | mark => exact ⟨rfl, fun _ _ => .plain rfl fun _ _ _ _ _ => .mark⟩
  | announce tells => exact ⟨rfl, fun _ _ => tells.recasts.imp fun _ _ _ => .announce⟩
  | drained empty => exact ⟨rfl, fun _ same => .plain rfl fun _ _ _ _ _ =>
    .drained (same.mpr empty)⟩
  | tire waiting late => exact ⟨rfl, fun _ same => .plain rfl fun _ _ _ _ _ =>
    .tire (mt same.mp waiting) late⟩
  | warn tells => exact ⟨rfl, fun _ _ => tells.recasts.imp fun _ _ _ => .warn⟩
  | close =>
    -- The one event of a stop that is no line is kept by every filter.
    refine ⟨rfl, fun items _ => ⟨[.queue (.closed ⟨pool.number, .caller caller⟩)], [], rfl,
      (List.append_nil _).symm, fun filter workers callers tally _ => ?_⟩⟩
    rw [List.append_nil]
    exact .close
  | wake => exact ⟨rfl, fun _ _ => .plain rfl fun _ _ _ _ _ => .wake⟩
  | part tells => exact ⟨rfl, fun _ _ => tells.recasts.imp fun _ _ _ => .part⟩
  | gather free => exact ⟨rfl, fun _ _ => .plain rfl fun _ _ _ _ _ => .gather free⟩
  | rest => exact ⟨rfl, fun _ _ => .plain rfl fun _ _ _ _ _ => .rest⟩
  | @join left phase joined =>
    refine ⟨rfl, fun _ _ => .plain rfl fun filter workers callers tally standin => .join ?_⟩
    -- The thread that is waited for has ended, so it has among the other workers as well.
    simp only [Pool.join, Option.ite_none_right_eq_some] at joined ⊢
    obtain ⟨waited, joined⟩ := joined
    refine ⟨waited, ?_⟩
    split at joined
    · rename_i name broken found
      rw [show (pool.recast filter workers callers tally).workers[worker]? = _ from
        standin.gone worker name broken found]
      exact joined
    · cases joined
  | lament tells => exact ⟨rfl, fun _ _ => tells.recasts.imp fun _ _ _ => .lament⟩
  | unlock => exact ⟨rfl, fun _ _ => .plain rfl fun _ _ _ _ _ => .unlock⟩

/-- A caller looks at nothing that a pool can be recast with. -/
theorem Call.Move.recasts {chance : Chance}
    (move : call.Move queue pool caller chance after next later events) :
    Recasts (fun pool next events => call.Move queue pool caller chance after next later events)
      pool next events := by
  cases move with
  | @queue own onward after told moved =>
    refine ⟨told.map .queue, [], (hearing_queue ..).symm, (List.append_nil _).symm,
      fun _ _ _ _ _ => ?_⟩
    rw [hearing_queue, List.append_nil]
    exact .queue moved
  | @push task =>
    refine ⟨[.queue (.pushed ⟨pool.number, .caller caller⟩ task), .submitted caller task], [], rfl,
      (List.append_nil _).symm, fun _ _ _ _ _ => ?_⟩
    rw [List.append_nil]
    exact .push
  | @hand own onward after told put moved =>
    refine ⟨told.map .queue, [], (hearing_queue ..).symm, (List.append_nil _).symm,
      fun _ _ _ _ _ => ?_⟩
    rw [hearing_queue, List.append_nil]
    exact .hand put moved
  | count => exact .plain rfl fun _ _ _ _ _ => .count
  | start move => exact move.recasts.imp fun _ _ _ => .start
  | stop move =>
    obtain ⟨kept, recasts⟩ := move.recasts
    -- The queue after the move has the items that it had before.
    have whole : { after with items := queue.items } = after := by rw [← kept]
    have same := recasts queue.items Iff.rfl
    rw [whole] at same
    exact same.imp fun _ _ _ => .stop
  | observe free => exact .plain rfl fun _ _ _ _ _ => .observe free

/-- What a worker goes on with once it has looked at the queue. -/
def dutyAfter : Queue.Met Task → Duty
  | .item task => .working task task.actions
  | .ended => .closing
  | .nothing => .fetching

/--
A worker that is awake looks at the queue, and what it meets there is all that its step depends on.
-/
theorem work_fetching_iff {index : Nat} {name : String} {micros : UInt64} {duty : Duty} :
    pool.work queue index name micros .fetching = some (after, next, duty, events) ↔
      (⟨pool.number, .worker index⟩ : Thread) ∉ queue.asleep ∧
        ∃ met, queue.take ⟨pool.number, .worker index⟩ = (met, after) ∧ next = pool ∧
          duty = dutyAfter met ∧
          events = (met.events ⟨pool.number, .worker index⟩).map .queue := by
  simp only [work]
  split
  · rename_i sleeps
    simp [sleeps]
  · rename_i awake
    -- Each of the three things that a worker may meet is one way to go on.
    split <;> rename_i looked
    all_goals
      simp only [awake, looked, Option.some.injEq, Prod.mk.injEq, not_false_eq_true, true_and]
      constructor
      · rintro ⟨rfl, rfl, rfl, rfl⟩
        exact ⟨_, ⟨rfl, rfl⟩, rfl, rfl, rfl⟩
      · rintro ⟨_, ⟨rfl, rfl⟩, rfl, rfl, rfl⟩
        exact ⟨rfl, rfl, rfl, rfl⟩

/--
A worker that does not look at the queue sees nothing of it, nor of what a pool can be recast with.
-/
theorem work_recasts {index : Nat} {name : String} {micros : UInt64} {duty onward : Duty}
    (busy : duty ≠ .fetching)
    (worked : pool.work queue index name micros duty = some (after, next, onward, events)) :
    after = queue ∧ ∃ (full : List Event) (ticks : List Tick), events =
      hearing pool.sink.filter full ∧
      next = { pool with tally := ticks.foldl .add pool.tally } ∧
      ∀ queue filter workers callers tally,
        (pool.recast filter workers callers tally).work queue index name micros duty =
          some (queue, pool.recast filter workers callers (ticks.foldl .add tally), onward,
            hearing filter full) := by
  -- A worker that tells something is failed or not by the text,
  -- and the filter decides what is kept.
  have utters (message : Message) (meant : Duty) (filter : Filter) (workers : List Worker)
    (callers : List Call)
      (tally : Tally) : (pool.recast filter workers callers tally).utter index message meant =
        ((pool.utter index message meant).1, hearing filter [.logged (.worker index) message]) :=
    congrArg (Prod.mk _) (kept_eq_hearing (pool.recast filter workers callers tally)
      (.worker index) message)
  cases duty with
  | opening | closing =>
    cases worked
    refine ⟨rfl, [.logged (.worker index) _], [], kept_eq_hearing .., rfl,
      fun queue filter workers callers tally => ?_⟩
    simp only [work, utters]
    rfl
  | fetching => exact absurd rfl busy
  | working task left =>
    cases left with
    | nil =>
      cases worked
      exact ⟨rfl, [.ended index task task.outcome], [], rfl, rfl, fun _ _ _ _ _ => rfl⟩
    | cons action left =>
      cases action with
      | note value =>
        cases worked
        exact ⟨rfl, [.noted value], [], rfl, rfl, fun _ _ _ _ _ => rfl⟩
      | noteThread label =>
        cases worked
        exact ⟨rfl, [.noted (.list [label, .text name])], [], rfl, rfl, fun _ _ _ _ _ => rfl⟩
      | await => cases worked
      | ask request => cases worked
  | counting task outcome =>
    cases worked
    exact ⟨rfl, [], [outcome.tick], rfl, rfl, fun _ _ _ _ _ => rfl⟩
  | reporting failure =>
    cases failure with
    | none =>
      cases worked
      exact ⟨rfl, [], [], rfl, rfl, fun _ _ _ _ _ => rfl⟩
    | some failure =>
      cases worked
      refine ⟨rfl, [.logged (.worker index) _], [], kept_eq_hearing .., rfl,
        fun queue filter workers callers tally => ?_⟩
      simp only [work, utters]
      rfl
  | timing =>
    cases worked
    exact ⟨rfl, [], [.micros micros], rfl, rfl, fun _ _ _ _ _ => rfl⟩
  | gone broken => cases worked

end Pool

end TaskPool
