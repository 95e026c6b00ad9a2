import Mathlib.Algebra.Group.Prod
import TaskPool.Proofs.Pool.Diary
import TaskPool.Proofs.Pool.Recast
import TaskPool.Proofs.Queue.Swap

/-!
Failures are isolated: a task that ends in another way changes nothing but its own end,
its own unit in the counters and its own line.

Two runs are taken side by side that differ in the outcome of one task. Where the task is in its
course is where they differ, so the course is kept in numbers that always have the same sum.
-/

namespace TaskPool

open Queue (Swap)

namespace Pool

variable (own new : Task)

/--
Two calls are the same, or they are about the two tasks.

The two numbers count the calls that are about to push the tasks, and those
that have brought them back.
-/
inductive Call.Swap : Nat × Nat → Call → Call → Prop where
  | same (call : Call) : Swap (0, 0) call call
  | queue {count : Nat × Nat} {call partner : Queue.Call Task}
      (swap : Queue.Call.Swap own new count call partner) :
    Swap count (.queue call) (.queue partner)
  | submit {count : Nat × Nat} {call partner : Queue.Call Task}
      (swap : Queue.Call.Swap own new count call partner) :
    Swap count (.submit call) (.submit partner)
  -- Somebody from outside took the task off the queue and has it now.
  | answered : Swap (0, 1) (.returned (.task (some own))) (.returned (.task (some new)))

/--
Two duties are the same, or they are about the two tasks.

The four numbers count the tasks that are run, those that are about to be counted,
those that were counted and are about to be told of, and those that broke off with a call and are
about to be counted for that, in either run alike.
-/
inductive Duty.Swap (name : String) : Nat × Nat × Nat × Nat → Duty → Duty → Prop where
  | same (duty : Duty) : Swap name (0, 0, 0, 0) duty duty
  | held (left : List Action) : Swap name (1, 0, 0, 0) (.working own left) (.working new left)
  -- From here on the two outcomes show, and they are all that differs.
  | due : Swap name (0, 1, 0, 0) (.counting own own.outcome) (.counting new new.outcome)
  | untold : Swap name (0, 0, 1, 0) (.reporting (own.outcome.trouble? name))
      (.reporting (new.outcome.trouble? name))
  -- A call that breaks off leaves its own outcome, which is the same in either run.
  | broken (outcome : Outcome) : Swap name (0, 0, 0, 1) (.counting own outcome)
      (.counting new outcome)

/-- Two workers of one name, whose duties are the same or about the two tasks. -/
inductive Worker.Swap : Nat × Nat × Nat × Nat → Worker → Worker → Prop where
  | of {name : String} {count : Nat × Nat × Nat × Nat} {duty partner : Duty}
    (swap : Duty.Swap own new name count duty partner) : Swap count ⟨name, duty⟩ ⟨name, partner⟩

/--
Two executions are the same, or one worker has executed the two tasks.

The two numbers count the tasks that ended with their own outcomes, and those
that broke off with a call.
-/
inductive Execution.Swap : Nat × Nat → Nat × Task × Outcome → Nat × Task × Outcome → Prop where
  | same (execution : Nat × Task × Outcome) : Swap (0, 0) execution execution
  | ended (worker : Nat) : Swap (1, 0) (worker, own, own.outcome) (worker, new, new.outcome)
  | broken (worker : Nat) (outcome : Outcome) : Swap (0, 1) (worker, own, outcome)
      (worker, new, outcome)

/--
What is kept of the report of a worker about a task that ended in some way: a line, or nothing.
-/
def report (filter : Filter) (worker : Nat) (name : String) (outcome : Outcome) : List Event :=
  hearing filter ((outcome.trouble? name).toList.map fun failure =>
    .logged (.worker worker) (.troubled name failure))

/--
Two lists of lines are the same, but that some reports about the one task are
reports about the other one.
-/
inductive Retold : Nat → List Event → List Event → Prop where
  | nil : Retold 0 [] []
  | same {count : Nat} {told retold : List Event} (line : Event) (rest : Retold count told retold) :
    Retold count (line :: told) (line :: retold)
  | report {count : Nat} {told retold : List Event} (filter : Filter) (worker : Nat) (name : String)
    (rest : Retold count told retold) :
    Retold (count + 1) (report filter worker name own.outcome ++ told)
      (report filter worker name new.outcome ++ retold)

/--
Two tallies are the same, but that the one task was counted in the one and
the other task in the other.
-/
def Shifted (count : Nat) (tally shifted : Tally) : Prop :=
  -- What else was counted is the same, and since the order does not matter it
  -- can be taken to come first.
  ∃ base : Tally, tally = (List.replicate count own.outcome.tick).foldl .add base ∧
    shifted = (List.replicate count new.outcome.tick).foldl .add base

/-- The notes that tasks have left. -/
def noted (events : List Event) : List Json.Value :=
  events.filterMap fun
    | .noted value => some value
    | _ => none

/--
What happens in two runs is the same, but for the ends of the two tasks and what is told of them.
-/
structure Effect (ended broken told : Nat) (events others : List Event) : Prop where
  executions : Matched (Execution.Swap own new) (ended, broken) (executions events)
    (executions others)
  lines : Retold own new told (events.filter Event.isLine) (others.filter Event.isLine)
  notes : noted others = noted events

variable {own new}

/-- Calls of the queue that are swapped go on as swapped calls. -/
theorem Call.Swap.ofQueue {count : Nat × Nat} {call partner : Queue.Call Task}
    (swap : Queue.Call.Swap own new count call partner) :
    Call.Swap own new count (.ofQueue call) (.ofQueue partner) := by
  cases swap with
  | same => exact .same _
  | pushing => exact .queue .pushing
  | returned => exact .answered

/--
A call that has come to its end is the partner of one that has, and is not about to push anything.
-/
theorem Call.Swap.ended {count : Nat × Nat} {call partner : Call}
    (swap : Call.Swap own new count call partner) :
    partner.hasEnded = call.hasEnded ∧ (call.hasEnded = true → count.1 = 0) := by
  cases swap with
  | same => exact ⟨rfl, fun _ => rfl⟩
  | queue | submit => exact ⟨rfl, nofun⟩
  | answered => exact ⟨rfl, fun _ => rfl⟩

/-- A worker that is gone is its own partner, so a stop sees the same workers. -/
theorem standin_of_swap {count : Nat × Nat × Nat × Nat} {workers others : List Worker}
    (swaps : Matched (Worker.Swap own new) count workers others) : Standin workers others where
  length := swaps.length_eq
  gone index name broken known := by
    obtain ⟨other, here, rest, found, mark, -, -⟩ := swaps.exchange known
    -- Every other mark is about a worker that has one of the two tasks, which is not gone.
    cases mark with
    | of swap =>
      cases swap with
      | same => exact found

/-- What is told at two times is told anew at each of them. -/
theorem Retold.append {count more : Nat} {told retold later relater : List Event}
    (first : Retold own new count told retold) (second : Retold own new more later relater) :
    Retold own new (count + more) (told ++ later) (retold ++ relater) := by
  induction first with
  | nil => simpa using second
  | same line _ ih => exact .same line ih
  | report filter worker name _ ih =>
    -- The report is told before all that comes at the second time.
    rw [List.append_assoc, List.append_assoc, Nat.add_right_comm]
    exact .report filter worker name ih

/-- Lines are the same as themselves. -/
theorem Retold.refl (lines : List Event) : Retold own new 0 lines lines := by
  induction lines with
  | nil => exact .nil
  | cons line rest ih => exact .same line ih

namespace Effect

variable {ended broken told : Nat} {events others : List Event}

/-- The same events have nothing to do with the two tasks. -/
theorem refl (events : List Event) : Effect own new 0 0 0 events events where
  executions := .refl (.same ·) _
  lines := .refl _
  notes := rfl

/-- What happens at the queue is no end of a task, and neither a line nor a note. -/
theorem queue (happened partners : List (Queue.Event Thread Task)) :
    Effect own new 0 0 0 (happened.map .queue) (partners.map .queue) where
  executions := by
    rw [executions_queue, executions_queue]
    exact .nil
  lines := by simpa only [filter_isLine_queue] using Retold.nil
  notes := by simp [noted, List.filterMap_map]

/-- What happens at two times adds up. -/
theorem append {endedLater brokenLater toldLater : Nat} {more partners : List Event}
    (first : Effect own new ended broken told events others)
    (second : Effect own new endedLater brokenLater toldLater more partners) :
    Effect own new (ended + endedLater) (broken + brokenLater) (told + toldLater) (events ++ more)
      (others ++ partners) where
  executions := by
    rw [executions_append, executions_append]
    exact first.executions.append second.executions
  lines := by
    rw [List.filter_append, List.filter_append]
    exact first.lines.append second.lines
  notes := by
    rw [noted, noted, List.filterMap_append, List.filterMap_append]
    exact congrArg₂ _ first.notes second.notes

end Effect

variable {queue after : Queue Thread Task} {pool next : Pool} {events : List Event}
  {items : List Task} {workers : List Worker} {count : Nat}

/--
A call goes the same way in either run, whatever the workers are doing and whatever was counted.

A swapped task that leaves the queue here goes to somebody from outside, or is discarded.
-/
theorem call_swap {call partner later : Call} {caller asked answered : Nat} {chance : Chance}
    (callers : List Call) (tally : Tally) (swap : Call.Swap own new (asked, answered) call partner)
    (swaps : Matched (Swap own new) count queue.items items)
    (standin : Standin pool.workers workers)
    (stepped : call.step queue pool caller chance = some (after, next, later, events)) :
    ∃ left onward others calling returned queued gone fresh,
      partner.step { queue with items := items }
          (pool.recast pool.sink.filter workers callers tally) caller chance =
        some ({ after with items := left },
          next.recast pool.sink.filter (workers ++ fresh) callers tally, onward, others) ∧
      next.workers = pool.workers ++ fresh ∧ Call.Swap own new (calling, returned) later onward ∧
      Matched (Swap own new) queued after.items left ∧ Effect own new 0 0 0 events others ∧
      asked + count = calling + queued + gone ∧ returned ≤ answered + gone := by
  -- A call of the queue has its partner there, and any other call has itself.
  have asks {ask : Queue.Call Task} {count : Nat × Nat} {partner : Call}
      (swap : Call.Swap own new count (.queue ask) partner) :
      ∃ other, partner = .queue other ∧ Queue.Call.Swap own new count ask other := by
    cases swap with
    | same => exact ⟨ask, rfl, .same ask⟩
    | queue swap => exact ⟨_, rfl, swap⟩
  have hands {ask : Queue.Call Task} {count : Nat × Nat} {partner : Call}
      (swap : Call.Swap own new count (.submit ask) partner) :
      ∃ other, partner = .submit other ∧ Queue.Call.Swap own new count ask other := by
    cases swap with
    | same => exact ⟨ask, rfl, .same ask⟩
    | submit swap => exact ⟨_, rfl, swap⟩
  have move := Call.step_eq_some_iff.mp stepped
  cases move with
  | @queue ask asked' after told moved =>
    obtain ⟨other, rfl, mark⟩ := asks swap
    obtain ⟨left, onward, others, calling, returned, queued, gone, goes, matched,
        swapped, sum, back⟩ :=
      Queue.Call.step_swap mark swaps moved
    refine ⟨left, .ofQueue onward, others.map .queue, calling, returned, queued, gone, [], ?_,
      (List.append_nil _).symm, .ofQueue matched, swapped, .queue .., sum, by omega⟩
    rw [List.append_nil]
    exact Call.step_eq_some_iff.mpr (.queue goes)
  | @push task =>
    obtain ⟨other, rfl, mark⟩ := hands swap
    cases mark with
    | same =>
      refine ⟨items ++ [task], .submit .notifying, _, 0, 0, count + 0, 0, [], ?_,
        (List.append_nil _).symm, .same _, swaps.append (.single (.same task)), .refl _, by omega,
        Nat.zero_le _⟩
      rw [List.append_nil]
      exact Call.step_eq_some_iff.mpr .push
    | pushing =>
      -- The two tasks come behind all others.
      refine ⟨items ++ [new], .submit .notifying,
        [.queue (.pushed ⟨pool.number, .caller caller⟩ new), .submitted caller new], 0, 0,
        count + 1, 0, [], ?_, (List.append_nil _).symm, .same _, swaps.append (.single .swapped),
        { executions := .nil, lines := .nil, notes := rfl }, by omega, Nat.zero_le _⟩
      rw [List.append_nil]
      exact Call.step_eq_some_iff.mpr .push
  | @hand ask asked' after told put moved =>
    obtain ⟨other, rfl, mark⟩ := hands swap
    obtain ⟨left, onward, others, calling, returned, queued, gone, goes, matched,
        swapped, sum, back⟩ :=
      Queue.Call.step_swap mark swaps moved
    have put' : ∀ task, other ≠ .pushing task := by
      cases mark with
      | same => exact put
      | pushing => exact absurd rfl (put own)
      | returned => exact nofun
    refine ⟨left, .submit onward, others.map .queue, calling, returned, queued, gone, [], ?_,
      (List.append_nil _).symm, .submit matched, swapped, .queue .., sum, by omega⟩
    rw [List.append_nil]
    exact Call.step_eq_some_iff.mpr (.hand put' goes)
  | @count task =>
    obtain ⟨other, rfl, mark⟩ := hands swap
    refine ⟨items, .returned .nothing, [], 0, 0, count, 0, [], ?_, (List.append_nil _).symm,
      .same _, swaps, .refl _, ?_, Nat.zero_le _⟩
    · rw [List.append_nil]
      -- What the call of the queue has brought back is of no use.
      cases mark <;> exact Call.step_eq_some_iff.mpr .count
    · cases mark <;> omega
  | @start number phase next later events move =>
    cases swap with
    | same =>
      obtain ⟨full, fresh, heard, grown, moves⟩ := move.recasts
      refine ⟨items, later, _, 0, 0, count, 0, fresh, Call.step_eq_some_iff.mpr
        (.start (moves pool.sink.filter workers callers tally standin)), grown, .same _,
        swaps, ?_, by omega, Nat.zero_le _⟩
      rw [← heard]
      exact .refl _
  | @stop phase after next later events move =>
    cases swap with
    | same =>
      obtain ⟨kept, recasts⟩ := move.recasts
      obtain ⟨full, fresh, heard, grown, moves⟩ := recasts items swaps.nil_iff
      refine ⟨items, later, _, 0, 0, count, 0, fresh, Call.step_eq_some_iff.mpr
        (.stop (moves pool.sink.filter workers callers tally standin)), grown, .same _, kept ▸
        swaps, ?_, by omega,
        Nat.zero_le _⟩
      rw [← heard]
      exact .refl _
  | observe free =>
    cases swap with
    | same =>
      refine ⟨items, _, [], 0, 0, count, 0, [], ?_, (List.append_nil _).symm, .same _, swaps,
        .refl _, by omega, Nat.zero_le _⟩
      rw [List.append_nil]
      exact Call.step_eq_some_iff.mpr (.observe free)

/-- It does not matter in which order things are counted. -/
theorem add_comm_tick (tally : Tally) (tick other : Tick) :
    (tally.add tick).add other = (tally.add other).add tick := by
  cases tick <;> cases other <;> simp [Tally.add]
  ac_rfl

namespace Shifted

variable {tally shifted : Tally}

/-- What is counted in either run is counted besides the two tasks. -/
theorem add (shift : Shifted own new count tally shifted) (ticks : List Tick) :
    Shifted own new count (ticks.foldl .add tally) (ticks.foldl .add shifted) := by
  obtain ⟨base, rfl, rfl⟩ := shift
  -- The ticks can be counted first, and the two tasks after them.
  have swap (first second : List Tick) :
      second.foldl Tally.add (first.foldl .add base) =
      first.foldl .add (second.foldl .add base) := by
    have perm : (first ++ second).Perm (second ++ first) := List.perm_append_comm
    rw [← List.foldl_append, ← List.foldl_append]
    exact perm.foldl_eq' (fun tick _ other _ tally => add_comm_tick tally tick other) base
  exact ⟨ticks.foldl .add base, swap _ ticks, swap _ ticks⟩

/-- The one task is counted in the one run and the other one in the other. -/
theorem tick (shift : Shifted own new count tally shifted) :
    Shifted own new (count + 1) (tally.add own.outcome.tick) (shifted.add new.outcome.tick) := by
  obtain ⟨base, rfl, rfl⟩ := shift
  exact ⟨base, by simp [List.replicate_succ'], by simp [List.replicate_succ']⟩

end Shifted

/-- What is kept of a report is a line or nothing. -/
theorem report_cases (filter : Filter) (worker : Nat) (name : String) (outcome : Outcome) :
    report filter worker name outcome = [] ∨
      ∃ message, report filter worker name outcome = [.logged (.worker worker) message] := by
  unfold report
  cases outcome.trouble? name with
  | none => exact .inl rfl
  | some failure =>
    -- The filter lets the one line through, or it does not.
    cases passes : filter.admits (Message.troubled name failure).severity with
    | false => exact .inl (by simp [hearing, passes])
    | true => exact .inr ⟨.troubled name failure, by simp [hearing, passes]⟩

/-- Reports about the two tasks are lines only. -/
theorem Effect.report (filter : Filter) (worker : Nat) (name : String) :
    Effect own new 0 0 1 (report filter worker name own.outcome)
      (report filter worker name new.outcome) := by
  -- Neither report holds anything but its line.
  have plain (outcome : Outcome) : Pool.executions (Pool.report filter worker name outcome) = [] ∧
      (Pool.report filter worker name outcome).filter Event.isLine =
      Pool.report filter worker name outcome ∧
      noted (Pool.report filter worker name outcome) = [] := by
    rcases report_cases filter worker name outcome with same | ⟨message, same⟩ <;> rw [same] <;>
      exact ⟨rfl, rfl, rfl⟩
  constructor
  case executions =>
    rw [(plain own.outcome).1, (plain new.outcome).1]
    exact .nil
  case lines =>
    rw [(plain own.outcome).2.1, (plain new.outcome).2.1]
    have none : Retold own new 0 [] [] := .nil
    simpa using none.report filter worker name
  case notes => rw [(plain own.outcome).2.2, (plain new.outcome).2.2]

/-- A worker that is not failed by the sink reports what there is to report, and goes on. -/
theorem work_reporting {index : Nat} {name : String} {micros : UInt64} {outcome : Outcome}
    (heard : ∀ failure, outcome.trouble? name = some failure →
      pool.failsAt (.troubled name failure) = false) :
    pool.work queue index name micros (.reporting (outcome.trouble? name)) =
      some (queue, pool, .timing, report pool.sink.filter index name outcome) := by
  unfold report
  cases trouble : outcome.trouble? name with
  | none => rfl
  | some failure =>
    -- The sink takes the line, so the worker does not break off with it.
    simp only [work, utter, heard failure trouble, Bool.false_eq_true, if_false, kept_eq_hearing]
    rfl

/--
A worker goes on in the same way in either run, whatever the others are doing
and whatever was counted.

A swapped task moves on in its course: it is taken, or ended, or counted, or told of.
-/
theorem work_swap {index : Nat} {name : String} {micros : UInt64} {duty partner later : Duty}
    {shifted : Tally} {held due untold fallen counted : Nat} (workers : List Worker)
    (callers : List Call) (same : new.actions = own.actions) (mild : own.outcome.isDeadly = false)
    (mildElse : new.outcome.isDeadly = false)
    (heard : ∀ outcome failure, outcome = own.outcome ∨ outcome = new.outcome →
      outcome.trouble? name = some failure → pool.failsAt (.troubled name failure) = false)
    (swap : Duty.Swap own new name (held, due, untold, fallen) duty partner)
    (swaps : Matched (Swap own new) count queue.items items)
    (shift : Shifted own new counted pool.tally shifted)
    (worked : pool.work queue index name micros duty = some (after, next, later, events)) :
    ∃ left sum onward others held' due' untold' fallen' counted' queued ended broken told,
      (pool.recast pool.sink.filter workers callers shifted).work { queue with items := items }
        index name micros
          partner =
        some ({ after with items := left }, pool.recast pool.sink.filter workers callers sum,
          onward, others) ∧
      next = { pool with tally := next.tally } ∧
      Duty.Swap own new name (held', due', untold', fallen') later onward ∧
      Matched (Swap own new) queued after.items left ∧
      Shifted own new counted' next.tally sum ∧ Effect own new ended broken told events others ∧
      count + held = queued + held' + ended + broken ∧ due + ended + counted = due' + counted' ∧
      untold + counted' = untold' + counted + told ∧ fallen' ≤ fallen := by
  have whole := (work_progress worked).same
  cases swap with
  | same =>
    by_cases looks : duty = .fetching
    · -- The worker may take the one task in this run and the other one in the other.
      subst looks
      obtain ⟨awake, met, looked, rfl, rfl, rfl⟩ := work_fetching_iff.mp worked
      obtain ⟨other, left, here, others, looks, mark, matched, sum⟩ := Queue.take_swap swaps looked
      refine ⟨left, shifted, dutyAfter other, _, here, 0, 0, 0, counted, others, 0, 0, 0,
        work_fetching_iff.mpr ⟨awake, other, looks, rfl, rfl, rfl⟩, whole, ?_, matched, shift,
        .queue .., by omega, by omega, by omega, Nat.le_refl 0⟩
      cases mark with
      | same => exact .same _
      | item =>
        rw [dutyAfter, dutyAfter, same]
        exact .held _
    · obtain ⟨rfl, full, ticks, heard, rfl, works⟩ := work_recasts looks worked
      refine ⟨items, _, later, _, 0, 0, 0, 0, counted, count, 0, 0, 0,
        works { after with items := items } pool.sink.filter workers callers shifted, rfl,
        .same _, swaps, shift.add ticks, ?_, by omega, by omega, by omega, Nat.le_refl 0⟩
      rw [← heard]
      exact .refl _
  | held left =>
    cases left with
    | nil =>
      -- Each of the two tasks ends with its own outcome.
      cases worked
      exact ⟨items, shifted, .counting new new.outcome, [.ended index new new.outcome], 0, 1, 0, 0,
        counted, count, 1, 0, 0, rfl, rfl, .due, swaps, shift,
        { executions := .single (.ended index), lines := .nil, notes := rfl }, by omega,
        by omega, by omega, Nat.le_refl 0⟩
    | cons action left =>
      -- The two tasks do the same before they end.
      cases action <;> cases worked
      all_goals
        exact ⟨items, shifted, .working new left, _, 1, 0, 0, 0, counted, count, 0, 0, 0, rfl,
          rfl, .held left, swaps, shift, .refl _, by omega, by omega, by omega, Nat.le_refl 0⟩
  | due =>
    -- Neither task takes its worker with it, so both are about to be told of.
    simp only [work, mild, Bool.false_eq_true, if_false, Option.some.injEq, Prod.mk.injEq] at worked
    obtain ⟨rfl, rfl, rfl, rfl⟩ := worked
    exact ⟨items, shifted.add new.outcome.tick, .reporting (new.outcome.trouble? name), [], 0, 0, 1,
      0, counted + 1, count, 0, 0, 0, by simp [work, mildElse, recast], rfl, .untold, swaps,
      shift.tick, .refl _, by omega, by omega, by omega, Nat.le_refl 0⟩
  | broken outcome =>
    -- The task broke off with its call in either run, and is counted and told of alike.
    cases worked
    exact ⟨items, shifted.add outcome.tick, _, [], 0, 0, 0, 0, counted, count, 0, 0, 0, rfl, rfl,
      .same _, swaps, shift.add [outcome.tick], .refl _, by omega, by omega, by omega,
      Nat.zero_le 1⟩
  | untold =>
    rw [work_reporting fun failure => heard own.outcome failure (.inl rfl)] at worked
    cases worked
    exact ⟨items, shifted, .timing, _, 0, 0, 0, 0, counted, count, 0, 0, 1, work_reporting
      fun failure => heard new.outcome failure (.inr rfl), rfl, .same _, swaps, shift,
        .report .., by omega, by omega,
      by omega, Nat.le_refl 0⟩

end Pool

namespace World

open Pool (Shifted Effect Standin)

/--
Where a task is in its course, as numbers of which one is one.

It is pushed by a call, stands on the queue, is run by a worker, and ends; then it is due to be
counted, and after that it is untold until it is told of. It may also break off with a call that it
made, or be taken off by somebody else.
-/
structure Whereabouts where
  /-- Calls that are about to push the task. -/
  called : Nat
  /-- Places on the queue. -/
  queued : Nat
  /-- Workers that run it. -/
  held : Nat
  /-- Workers that are about to count it. -/
  due : Nat
  /-- Workers that have counted it and are about to tell of it. -/
  untold : Nat
  /-- How often it was told of. -/
  told : Nat
  /-- How often it broke off with a call that it made. -/
  broken : Nat
  /-- How often it was taken off the queue from outside, or discarded. -/
  apart : Nat

namespace Whereabouts

/-- How often a task is anywhere. -/
def total (place : Whereabouts) : Nat :=
  place.called + place.queued + place.held + place.due + place.untold + place.told +
  place.broken + place.apart

/-- How often a task was counted for its own outcome. -/
def counted (place : Whereabouts) : Nat := place.untold + place.told

/-- How often a task has ended with its own outcome. -/
def ended (place : Whereabouts) : Nat := place.due + place.counted

end Whereabouts

/-- A world with other items on the queue, other workers, other callers and other counters. -/
def recast (world : World) (items : List Task) (workers : List Worker) (callers : List Pool.Call)
    (tally : Tally) :
    World :=
  ⟨{ world.queue with items := items }, world.pool.recast world.pool.sink.filter workers
    callers tally⟩

/--
Two worlds, with what has happened in them, that differ only in one task and by
where it is in its course.

All that can be recast is compared place by place, and everything else is the same in both worlds.
-/
structure Twins (own new : Task) (place : Whereabouts) (world : World) (events : List Pool.Event)
    (other : World) (others : List Pool.Event) : Prop where
  same : other = world.recast other.queue.items other.pool.workers other.pool.callers
    other.pool.tally
  /-- A caller may still have what it was given of the two tasks. -/
  calls : ∃ answered ≤ place.apart,
    Matched (Pool.Call.Swap own new) (place.called, answered) world.pool.callers other.pool.callers
  /-- The queues have the same items in the same order, but for the two tasks. -/
  items : Matched (Queue.Swap own new) place.queued world.queue.items other.queue.items
  /-- A worker may not have counted the task yet that broke off with a call. -/
  workers : ∃ fallen ≤ place.broken,
    Matched (Pool.Worker.Swap own new) (place.held, place.due, place.untold, fallen)
      world.pool.workers
      other.pool.workers
  /-- The unit of the task goes to another counter. -/
  tally : Shifted own new place.counted world.pool.tally other.pool.tally
  /-- All else that was executed, told and noted is the same, in the same order. -/
  effect : Effect own new place.ended place.broken place.told events others

variable {own new : Task} {place : Whereabouts} {world next other : World}
  {events others more : List Pool.Event}

/-- Two calls that begin at the same place are the same, or push the two tasks. -/
theorem begin_swap {caller count : Nat} {request partner : Pool.Request}
    (twins : Twins own new place world events other others)
    (swap : Pool.Call.Swap own new (count, 0) request.call partner.call)
    (stepped : world.step (.begin caller request) = some (next, more)) :
    ∃ onward, other.step (.begin caller partner) = some (onward, []) ∧ more = [] ∧
      Twins own new { place with called := place.called + count } next events onward others := by
  obtain ⟨same, ⟨answered, few, calls⟩, items, workers, tally, effect⟩ := twins
  -- There are as many callers in either world.
  have many := calls.length_eq
  simp only [step] at stepped
  split at stepped <;> rename_i fresh
  · cases stepped
    refine ⟨_, if_pos (fresh.trans many.symm), rfl, ?_⟩
    exact { same := by rw [same]; rfl, calls := ⟨answered, few, calls.append (.single swap)⟩, items,
            workers, tally, effect }
  · split at stepped <;> rename_i found
    · obtain ⟨ended, turned⟩ := Option.ite_none_right_eq_some.mp stepped
      cases turned
      -- A call that has come to its end has a partner that has, and neither
      -- is about to push anything.
      obtain ⟨before, ⟨pushing, here⟩, ⟨rest, others⟩, known, mark, sum, moves⟩ :=
        calls.exchange found
      obtain ⟨alike, idle⟩ := mark.ended
      obtain rfl : pushing = 0 := idle ended
      simp only [Prod.mk_add_mk, Prod.mk.injEq] at sum
      have apart : caller ≠ other.pool.callers.length := fun same => fresh (same.trans many)
      refine ⟨{ other with pool := setCaller other.pool caller partner.call }, ?_, rfl, ?_⟩
      · refine (if_neg apart).trans ?_
        rw [known]
        exact if_pos (alike.trans ended)
      · have total : place.called + count = count + rest := by omega
        exact { same := by rw [same]; rfl
                calls :=
                  ⟨0 + others, by show 0 + others ≤ place.apart; omega, total ▸
                    moves (count, 0) _ _ swap⟩
                items, workers, tally, effect }
    · cases stepped

/--
A worker whose task comes back from a call goes on in the same way in either run,
or the task breaks off in both.
-/
theorem resumed_swap {index : Nat} {broken : Option String} {name : String}
    {duty partner later : Duty} {held due untold fallen : Nat}
    (swap : Pool.Duty.Swap own new name (held, due, untold, fallen) duty partner)
    (resumes : resumed index broken duty = some (later, more)) :
    ∃ onward partners held' fell, resumed index broken partner = some (onward, partners) ∧
      Pool.Duty.Swap own new name (held', due, untold, fell) later onward ∧
      Effect own new 0 fell 0 more partners ∧
      held = held' + fell := by
  cases swap with
  | same => exact ⟨later, more, 0, 0, resumes, .same later, .refl more, rfl⟩
  | held left =>
    cases left with
    | nil => cases resumes
    | cons action left =>
      cases action with
      | ask request =>
        cases broken with
        | none =>
          cases resumes
          exact ⟨.working new left, [], 1, 0, rfl, .held left, .refl [], rfl⟩
        | some text =>
          -- The end is that of the call, and not the task's own.
          cases resumes
          exact ⟨_, _, 0, 1, rfl, .broken _,
            { executions := .single (.broken index _), lines := .nil, notes := rfl }, rfl⟩
      | _ => cases resumes
  | due | broken | untold => cases resumes

/--
A caller goes on with its call, or with the partner of its call, and the two worlds stay alike.
-/
theorem caller_swap {index : Nat} {chance : Pool.Chance}
    (twins : Twins own new place world events other others)
    (stepped : world.step (.caller index chance) = some (next, more)) :
    ∃ onward partners place', other.step (.caller index chance) = some (onward, partners) ∧
      Twins own new place' next (events ++ more) onward (others ++ partners) ∧
      place'.total = place.total := by
  obtain ⟨call, queue, pool, later, found, moved, rfl⟩ := step_caller.mp stepped
  obtain ⟨answered, few, calls⟩ := twins.calls
  obtain ⟨fallen, fewer, workers⟩ := twins.workers
  obtain ⟨partner, ⟨asked, here⟩, ⟨rest, elsewhere⟩, known, mark, sum, moves⟩ :=
    calls.exchange found
  simp only [Prod.mk_add_mk, Prod.mk.injEq] at sum
  obtain ⟨left, onward, effects, calling, returned, queued, gone, fresh, goes, grown, call, swaps,
    effect, balance, back⟩ :=
    Pool.call_swap other.pool.callers other.pool.tally mark twins.items
      (Pool.standin_of_swap workers) moved
  have visit := Pool.Call.step_visit moved
  have counted := (Pool.Call.step_submission moved).tally
  have went := step_caller.mpr ⟨partner, _, _, onward, known,
    (congrArg (fun world => partner.step world.queue world.pool index chance)
      twins.same).trans goes, rfl⟩
  refine ⟨_, effects, { place with
      called := calling + rest
      queued := queued
      apart := place.apart + gone }, went, ?_, ?_⟩
  · constructor
    case same => simp [setCaller, Pool.recast, recast, visit.sink]
    case calls =>
      have calls := moves (calling, returned) later onward call
      rw [← visit.callers] at calls
      exact ⟨returned + elsewhere, by show returned + elsewhere ≤ place.apart + gone; omega, calls⟩
    case items => exact swaps
    case workers =>
      -- A new worker has nothing to do with either task.
      have alike : Matched (Pool.Worker.Swap own new) 0 fresh fresh :=
        .refl (fun worker => .of (.same worker.duty)) _
      have hired := workers.append alike
      rw [← grown] at hired
      exact ⟨fallen, fewer, hired⟩
    case tally =>
      show Shifted own new place.counted pool.tally other.pool.tally
      rw [counted]
      exact twins.tally
    case effect => exact twins.effect.append effect
  · simp only [Whereabouts.total]
    omega

/--
A worker goes on in either world, perhaps with its own one of the two tasks,
and the two worlds stay alike.
-/
theorem worker_swap {index : Nat} {chance : Pool.Chance} (same : new.actions = own.actions)
    (mild : own.outcome.isDeadly = false) (mildElse : new.outcome.isDeadly = false)
    (heard : ∀ outcome worker failure, outcome = own.outcome ∨ outcome = new.outcome →
      outcome.trouble? worker = some failure →
      world.pool.failsAt (.troubled worker failure) = false)
    (twins : Twins own new place world events other others)
    (stepped : world.step (.worker index chance) = some (next, more)) :
    ∃ onward partners place', other.step (.worker index chance) = some (onward, partners) ∧
      Twins own new place' next (events ++ more) onward (others ++ partners) ∧
      place'.total = place.total := by
  obtain ⟨name, duty, queue, pool, later, found, moved, rfl⟩ := step_worker.mp stepped
  obtain ⟨fallen, few, workers⟩ := twins.workers
  obtain ⟨_, ⟨held, due, untold, falls⟩, ⟨heldElse, dueElse, untoldElse, fallenElse⟩, known, mark,
      sum, moves⟩ :=
    workers.exchange found
  simp only [Prod.mk_add_mk, Prod.mk.injEq] at sum
  cases mark with
  | @of _ _ _ partner swap =>
    obtain ⟨left, tally, onward, effects, held', due', untold', falls', counted, queued, ended,
      broken, told, goes, whole, swap, swaps, shift, effect, running, counting, telling, falling⟩ :=
      Pool.work_swap other.pool.workers other.pool.callers same mild mildElse
        (fun outcome failure => heard outcome name failure)
        swap twins.items twins.tally moved
    have went := step_worker.mpr ⟨name, partner, _, _, onward, known,
      (congrArg (fun world => Pool.work world.queue world.pool index name chance.micros partner)
        twins.same).trans
        goes, rfl⟩
    simp only [Whereabouts.counted] at counting telling
    refine ⟨_, effects, { place with
        queued := queued
        held := held' + heldElse
        due := due' + dueElse
        untold := untold' + untoldElse
        told := place.told + told
        broken := place.broken + broken }, went, ?_, ?_⟩
    · constructor
      case same =>
        rw [whole]
        rfl
      case calls =>
        rw [whole]
        exact twins.calls
      case items => exact swaps
      case workers =>
        rw [whole]
        exact ⟨falls' + fallenElse, by show falls' + fallenElse ≤ place.broken + broken; omega,
          moves (held', due', untold', falls') _ _ (.of swap)⟩
      case tally =>
        -- Whoever was counted is untold or told of now.
        have total : counted = untold' + untoldElse + (place.told + told) := by omega
        rw [total] at shift
        exact shift
      case effect =>
        have total : place.ended + ended = due' + dueElse +
            (untold' + untoldElse + (place.told + told)) := by
          simp only [Whereabouts.ended, Whereabouts.counted]
          omega
        have appended := twins.effect.append effect
        rw [total] at appended
        exact appended
    · simp only [Whereabouts.total]
      omega

/-- A gate is opened for a worker in either world, and the two worlds stay alike. -/
theorem gate_swap {index : Nat} (twins : Twins own new place world events other others)
    (stepped : world.step (.openGate index) = some (next, more)) :
    ∃ onward partners place', other.step (.openGate index) = some (onward, partners) ∧
      Twins own new place' next (events ++ more) onward (others ++ partners) ∧
      place'.total = place.total := by
  obtain ⟨rfl, name, task, left, found, rfl⟩ := step_openGate stepped
  obtain ⟨fallen, few, workers⟩ := twins.workers
  obtain ⟨_, here, rest, known, mark, sum, moves⟩ := workers.exchange found
  -- Either task waits at its gate, and goes on behind it.
  have opens : ∃ partner, other.pool.workers[index]? =
    some ⟨name, .working partner (.await :: left)⟩ ∧
      Pool.Duty.Swap own new name here (.working task left) (.working partner left) := by
    cases mark with
    | of swap =>
      cases swap with
      | same => exact ⟨task, known, .same _⟩
      | held => exact ⟨new, known, .held left⟩
  obtain ⟨partner, waits, swap⟩ := opens
  refine ⟨{ other with pool := setWorker other.pool index ⟨name, .working partner left⟩ }, [],
    place, by simp [step, waits], ?_, rfl⟩
  have turned := moves here ⟨name, .working task left⟩ ⟨name, .working partner left⟩ (.of swap)
  rw [← sum] at turned
  rw [List.append_nil, List.append_nil]
  exact { twins with same := by rw [twins.same]; rfl, workers := ⟨fallen, few, turned⟩ }

/-- A worker comes back from a call of its task in either world, and the two worlds stay alike. -/
theorem resume_swap {index : Nat} {broken : Option String}
    (twins : Twins own new place world events other others)
    (stepped : world.step (.resume index broken) = some (next, more)) :
    ∃ onward partners place', other.step (.resume index broken) = some (onward, partners) ∧
      Twins own new place' next (events ++ more) onward (others ++ partners) ∧
      place'.total = place.total := by
  obtain ⟨name, task, request, left, -, found, -, -⟩ := step_resume stepped
  obtain ⟨fallen, few, workers⟩ := twins.workers
  obtain ⟨_, ⟨held, due, untold, falls⟩, ⟨heldElse, dueElse, untoldElse, fallenElse⟩, known, mark,
      sum, moves⟩ :=
    workers.exchange found
  simp only [Prod.mk_add_mk, Prod.mk.injEq] at sum
  simp only [step, found] at stepped
  obtain ⟨⟨later, happened⟩, moved, turned⟩ := Option.map_eq_some_iff.mp stepped
  cases turned
  cases mark with
  | @of _ _ _ partner swap =>
    -- If the task breaks off with its call, it is not held any more but broken, in either world.
    obtain ⟨onward, effects, held', fell, goes, swap, effect, balance⟩ := resumed_swap swap moved
    refine ⟨{ other with pool := setWorker other.pool index ⟨name, onward⟩ }, effects,
      { place with held := held' + heldElse, broken := place.broken + fell }, by simp [step, known,
        goes], ?_, ?_⟩
    · have turned := moves (held', due, untold, fell) _ _ (.of swap)
      simp only [Prod.mk_add_mk] at turned
      rw [← sum.2.1, ← sum.2.2.1] at turned
      exact { twins with
        same := by rw [twins.same]; rfl
        workers :=
          ⟨fell + fallenElse, by show fell + fallenElse ≤ place.broken + fell; omega, turned⟩
        effect := twins.effect.append effect }
    · simp only [Whereabouts.total]
      omega

/--
Where no worker is lost with one of the two tasks or its report, each turn
keeps the two worlds alike.
-/
theorem step_swap {turn : Turn} (same : new.actions = own.actions)
    (mild : own.outcome.isDeadly = false) (mildElse : new.outcome.isDeadly = false)
    (heard : ∀ outcome worker failure, outcome = own.outcome ∨ outcome = new.outcome →
      outcome.trouble? worker = some failure →
      world.pool.failsAt (.troubled worker failure) = false)
    (twins : Twins own new place world events other others)
    (stepped : world.step turn = some (next, more)) :
    ∃ onward partners place', other.step turn = some (onward, partners) ∧
      Twins own new place' next (events ++ more) onward (others ++ partners) ∧
      place'.total = place.total := by
  cases turn with
  | begin caller request =>
    -- The call that begins is the same in both worlds.
    obtain ⟨onward, went, rfl, kept⟩ := begin_swap twins (.same request.call) stepped
    exact ⟨onward, [], _, went, by simpa using kept, rfl⟩
  | caller index chance => exact caller_swap twins stepped
  | worker index chance => exact worker_swap same mild mildElse heard twins stepped
  | openGate index => exact gate_swap twins stepped
  | resume index broken => exact resume_swap twins stepped
  | refilter filter =>
    cases stepped
    refine ⟨_, [], place, rfl, ?_, rfl⟩
    rw [List.append_nil, List.append_nil]
    exact { twins with same := by rw [twins.same]; rfl }

/-- A pool with one worker is started, and nothing was submitted yet. -/
def started :
    List Turn := .begin 0 (.start 1) :: List.replicate 8 (.caller 0 plain) ++ [.worker 0 plain]

end World

end TaskPool
