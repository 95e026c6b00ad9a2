import Mathlib.Algebra.BigOperators.Group.Multiset.Basic
import TaskPool.Proofs.Exchange
import TaskPool.Proofs.Number.Words
import TaskPool.Proofs.Run
import TaskPool.Tally

/-!
Shared counters add up in any order, up to the size of a word.

Any number of threads add to the same counters, each one thing after the other. An addition is one
step that nothing comes between, so all that differs from run to run is which thread is next.
-/

namespace TaskPool

/-- The counters by kind. -/
inductive Counter where
  | completed
  | failed
  | panicked
  | micros
deriving DecidableEq, Repr

/-- What a counter shows. -/
def Tally.count (tally : Tally) : Counter → UInt64
  | .completed => tally.completed
  | .failed => tally.failed
  | .panicked => tally.panicked
  | .micros => tally.micros

/-- The counter that a thing is added to. -/
def Tick.counter : Tick → Counter
  | .completed => .completed
  | .failed => .failed
  | .panicked => .panicked
  | .micros _ => .micros

/-- How much a thing adds to its counter. -/
def Tick.amount : Tick → Nat
  | .micros spent => spent.toNat
  | _ => 1

/-- How much a thing adds to a counter, which is nothing for every counter but its own. -/
def Tick.share (tick : Tick) (counter : Counter) : Nat :=
  if tick.counter = counter then tick.amount else 0

/-- The exact sum of what some things add to a counter. -/
def due (counter : Counter) (ticks : Multiset Tick) : Nat := (ticks.map (·.share counter)).sum

/-- How many tasks ran, as the exact sum of the three counters of outcomes. -/
def Tally.exactTotal (tally : Tally) : Nat :=
  tally.completed.toNat + tally.failed.toNat + tally.panicked.toNat

/-- Counters, and the threads that add to them. -/
structure Crowd where
  tally : Tally
  /-- What each thread has yet to add, in its own order. -/
  left : List (List Tick)
deriving DecidableEq, Repr

namespace Crowd

/--
The counters after the next addition of a thread, with what it added; nothing,
if the thread has nothing left.
-/
def step (crowd : Crowd) (thread : Nat) : Option (Crowd × List Tick) :=
  match crowd.left[thread]? with
  | some (tick :: later) => some (⟨crowd.tally.add tick, crowd.left.set thread later⟩, [tick])
  | _ => none

/-- Everything that the threads have yet to add. -/
def pending (crowd : Crowd) : List Tick := crowd.left.flatten

end Crowd

namespace Tally

/-- Tallies with the same counts are the same. -/
theorem ext_count {tally other : Tally}
    (same : ∀ counter, (tally.count counter).toNat = (other.count counter).toNat) :
    tally = other := by
  have word (counter : Counter) : tally.count counter = other.count counter :=
    UInt64.toNat_inj.mp (same counter)
  obtain ⟨completed, failed, panicked, micros⟩ := tally
  -- Each counter is one field.
  congr 1
  · exact word .completed
  · exact word .failed
  · exact word .panicked
  · exact word .micros

/--
One more thing goes to its own counter, which wraps around, and leaves the others as they are.
-/
theorem add_count (tally : Tally) (tick : Tick) (counter : Counter) :
    ((tally.add tick).count counter).toNat = ((tally.count counter).toNat + tick.share counter) %
      UInt64.size := by
  -- A counter that the thing does not belong to is below the size of its word already.
  have kept (word : UInt64) : word.toNat = (word.toNat + 0) % UInt64.size :=
    (Nat.mod_eq_of_lt word.toNat_lt).symm
  cases tick with
  | completed => cases counter <;> first | exact kept _ | exact UInt64.toNat_add _ 1
  | failed => cases counter <;> first | exact kept _ | exact UInt64.toNat_add _ 1
  | panicked => cases counter <;> first | exact kept _ | exact UInt64.toNat_add _ 1
  | micros spent => cases counter <;> first | exact kept _ | exact UInt64.toNat_add _ spent

/-- The tally with some more things, each counter taken once for all of them. -/
def plus (tally : Tally) (ticks : Multiset Tick) : Tally where
  completed := tally.completed + UInt64.ofNat (due .completed ticks)
  failed := tally.failed + UInt64.ofNat (due .failed ticks)
  panicked := tally.panicked + UInt64.ofNat (due .panicked ticks)
  micros := tally.micros + UInt64.ofNat (due .micros ticks)

theorem plus_count (tally : Tally) (ticks : Multiset Tick) (counter : Counter) :
    ((tally.plus ticks).count counter).toNat =
      ((tally.count counter).toNat + due counter ticks) % UInt64.size := by
  have word (before : UInt64) (sum : Nat) :
      (before + UInt64.ofNat sum).toNat = (before.toNat + sum) % UInt64.size := by
    rw [UInt64.toNat_add, UInt64.toNat_ofNat']
    exact Nat.add_mod_mod ..
  cases counter <;> exact word ..

/-- A sum is given exactly if it is the sum of the two numbers. -/
theorem checkedSum_eq_some {a b sum : UInt64} :
    checkedSum a b = some sum ↔ a.toNat + b.toNat = sum.toNat := by
  have wrapped : (a + b).toNat = (a.toNat + b.toNat) % UInt64.size := UInt64.toNat_add a b
  have short : sum.toNat < UInt64.size := sum.toNat_lt
  unfold checkedSum
  constructor
  · intro given
    split at given
    · -- A sum that fits is not wrapped.
      rename_i fits
      cases given
      rw [wrapped, Nat.mod_eq_of_lt fits]
    · cases given
  · intro exact'
    have same : a + b = sum := by
      apply UInt64.toNat_inj.mp
      rw [wrapped, exact', Nat.mod_eq_of_lt short]
    rw [if_pos (by omega), same]

/-- The number of tasks is given exactly if it is the exact sum, so it is never wrapped. -/
theorem executed_eq_some {tally : Tally} {count : UInt64} :
    tally.executed? = some count ↔ count.toNat = tally.exactTotal := by
  have short : count.toNat < UInt64.size := count.toNat_lt
  simp only [executed?, exactTotal, Option.bind_eq_some_iff, checkedSum_eq_some]
  constructor
  · rintro ⟨first, good, all⟩
    omega
  · intro exact'
    -- The sum of the first two counters is no more than all of it, so it fits as well.
    have fits : tally.completed.toNat + tally.failed.toNat < UInt64.size := by omega
    refine ⟨UInt64.ofNat (tally.completed.toNat + tally.failed.toNat), ?_, ?_⟩
    · exact (UInt64.toNat_ofNat_of_lt' fits).symm
    · rw [UInt64.toNat_ofNat_of_lt' fits, exact']

/-- The number of tasks is missing exactly if the exact sum leaves the word. -/
theorem executed_eq_none {tally : Tally} :
    tally.executed? = none ↔ UInt64.size ≤ tally.exactTotal := by
  rw [Option.eq_none_iff_forall_ne_some]
  constructor
  · intro missing
    -- A sum that fits would have been given.
    apply Nat.le_of_not_lt
    intro fits
    exact missing _ (executed_eq_some.mpr (UInt64.toNat_ofNat_of_lt' fits))
  · intro large count given
    have short : count.toNat < UInt64.size := count.toNat_lt
    rw [executed_eq_some.mp given] at short
    omega

/--
Where the number of tasks is given, so is the average: it is zero,
or a quotient by a number above zero.
-/
theorem average_of_executed {tally : Tally} {count : UInt64} (ran : tally.executed? = some count) :
    (count = 0 ∧ tally.average? = some 0) ∨
      (0 < count.toFloat ∧ tally.average? = some (tally.micros.toFloat / count.toFloat)) := by
  rw [average?, ran]
  -- A number of tasks that is not zero is not rounded to zero either.
  by_cases some' : 0 < count
  · right
    exact ⟨Number.toFloat_pos some', congrArg some (if_pos some')⟩
  · left
    have none' : count = 0 := UInt64.le_zero_iff.mp (UInt64.not_lt.mp some')
    exact ⟨none', congrArg some (if_neg some')⟩

end Tally

namespace Crowd

variable {start crowd next last : Crowd} {thread : Nat} {turns : List Nat} {told : List Tick}

/-- A turn is the next addition of a thread that has something left. -/
theorem step_eq_some : crowd.step thread = some (next, told) ↔
    ∃ tick later, crowd.left[thread]? = some (tick :: later) ∧
      next = ⟨crowd.tally.add tick, crowd.left.set thread later⟩ ∧ told = [tick] := by
  unfold step
  constructor
  · intro stepped
    split at stepped
    · rename_i tick later found
      cases stepped
      exact ⟨tick, later, found, rfl, rfl⟩
    · cases stepped
  · rintro ⟨tick, later, found, rfl, rfl⟩
    rw [found]

/-- After any run each counter is ahead by what was added to it, whoever has added it. -/
theorem run_counts (ran : runOf step start turns = some (last, told)) (counter : Counter) :
    (last.tally.count counter).toNat = ((start.tally.count counter).toNat + due counter told) %
      UInt64.size := by
  -- The run is followed turn by turn, and each turn adds its own share.
  refine run_invariant (fun crowd told => (crowd.tally.count counter).toNat =
    ((start.tally.count counter).toNat + due counter told) % UInt64.size) ?_ ?_ ran
  · exact (Nat.mod_eq_of_lt (start.tally.count counter).toNat_lt).symm
  · intro crowd told thread next new counts stepped
    obtain ⟨tick, later, -, rfl, rfl⟩ := step_eq_some.mp stepped
    -- What the turn adds is one more part of the exact sum, and both wrap around together.
    have more : due counter (told ++ [tick] : List Tick) = due counter told +
        tick.share counter := by
      simp [due]
    show ((crowd.tally.add tick).count counter).toNat = _
    rw [crowd.tally.add_count, counts, more, Nat.mod_add_mod, Nat.add_assoc]

/-- What was added and what is left to add is all that there was to add. -/
theorem run_keeps (ran : runOf step start turns = some (last, told)) :
    start.pending.Perm (told ++ last.pending) := by
  refine run_invariant (fun crowd told => start.pending.Perm (told ++ crowd.pending))
    (.refl _) ?_ ran
  intro crowd told thread next new kept stepped
  obtain ⟨tick, later, found, rfl, rfl⟩ := step_eq_some.mp stepped
  -- The thread lets go of the first thing that it has left.
  have moved := flatMap_set id found later
  simp only [List.flatMap_id] at moved
  have exchange : (tick :: later) ++ [] = [tick] ++ later := List.append_nil _
  have exchanged := perm_of_exchange kept exchange moved
  rwa [List.append_nil] at exchanged

/-- Threads can always go on until nothing is left to add. -/
theorem can_finish (crowd : Crowd) :
    ∃ turns last told, runOf step crowd turns = some (last, told) ∧ last.pending = [] := by
  -- The induction is on the number of things that are left.
  generalize size : crowd.pending.length = count
  induction count generalizing crowd with
  | zero => exact ⟨[], crowd, [], rfl, List.length_eq_zero_iff.mp size⟩
  | succ count ih =>
    obtain ⟨tick, member⟩ : ∃ tick, tick ∈ crowd.pending := List.exists_mem_of_length_pos (by omega)
    obtain ⟨own, known, inside⟩ := List.mem_flatten.mp member
    obtain ⟨thread, found⟩ := List.mem_iff_getElem?.mp known
    -- A thread that has something left can take its turn, and one thing less is left then.
    cases own with
    | nil => cases inside
    | cons first later =>
      obtain ⟨next, stepped⟩ : ∃ next, crowd.step thread = some (next, [first]) :=
        ⟨_, step_eq_some.mpr ⟨first, later, found, rfl, rfl⟩⟩
      have turned : runOf step crowd [thread] = some (next, [first]) := by
        simpa [runOf] using stepped
      have fewer := (run_keeps turned).length_eq
      rw [List.length_append, List.length_singleton] at fewer
      obtain ⟨turns, last, told, ran, done⟩ := ih next (by omega)
      exact ⟨thread :: turns, last, [first] ++ told,
        runOf_cons.mpr ⟨_, _, _, stepped, ran, rfl⟩, done⟩

/--
When nothing is left to add, the counters show what the threads had to add,
in whatever order they did.
-/
theorem finished_tally (ran : runOf step start turns = some (last, told))
    (done : last.pending = []) :
    last.tally = start.tally.plus start.pending := by
  apply Tally.ext_count
  intro counter
  -- The same things were added as there were to add, and the exact sum does
  -- not depend on their order.
  have all : start.pending.Perm told := by
    have kept := run_keeps ran
    rwa [done, List.append_nil] at kept
  rw [run_counts ran, Tally.plus_count, Multiset.coe_eq_coe.mpr all]

end Crowd

/--
Any things are added to the counters, divided in any way among any number
of threads that go on in any order.

The additions can always be brought to their end, and all such runs end with one and the same tally,
in which each counter is what it was at the start and the exact sum of what was added to it,
up to the size of the word. Of every tally, also of one whose counters were looked at one after
the other in the middle of a run, the number of tasks is given exactly if the exact sum of its three
counters fits into a word, and then it is that sum. The average is given exactly if the number
of tasks is: it is zero if no task ran, and a quotient by a number above zero if one did.
-/
theorem counters_add_up_in_any_order (start : Tally) (ticks : Multiset Tick) :
    (∃ final : Tally,
      (∀ counter, (final.count counter).toNat = ((start.count counter).toNat + due counter ticks) %
        UInt64.size) ∧
      ∀ threads : List (List Tick), (threads.flatten : Multiset Tick) = ticks →
        (∃ turns last told, runOf Crowd.step ⟨start, threads⟩ turns = some (last, told) ∧
          last.pending = []) ∧
        ∀ turns last told, runOf Crowd.step ⟨start, threads⟩ turns = some (last, told) →
          last.pending = [] →
          last.tally = final) ∧
    ∀ tally : Tally,
      (∀ count, tally.executed? = some count ↔ count.toNat = tally.exactTotal) ∧
      (tally.executed? = none ↔ UInt64.size ≤ tally.exactTotal) ∧
      (tally.average? = none ↔ tally.executed? = none) ∧
      ∀ count, tally.executed? = some count →
        (count = 0 ∧ tally.average? = some 0) ∨
          (0 < count.toFloat ∧ tally.average? = some (tally.micros.toFloat / count.toFloat)) := by
  constructor
  · -- The final tally is known before any thread begins.
    refine ⟨start.plus ticks, start.plus_count ticks, ?_⟩
    rintro threads rfl
    refine ⟨Crowd.can_finish _, ?_⟩
    intro turns last told ran done
    exact Crowd.finished_tally ran done
  · intro tally
    refine ⟨fun count => Tally.executed_eq_some, Tally.executed_eq_none, ?_, fun count =>
      Tally.average_of_executed⟩
    exact Option.map_eq_none_iff

/-- Counters of which two are about to leave their words. -/
def crowdedTally : Tally := ⟨UInt64.ofNat (UInt64.size - 1), 0, 7, UInt64.ofNat (UInt64.size - 2)⟩

/-- What the two threads add: three good ends, a failure and some time. -/
def crowdedThreads : List (List Tick) :=
  [[.completed, .micros 5, .completed], [.failed, .micros 1, .completed]]

/--
Taken in turns or one after the other, they end with the same tally, in which two
counters have wrapped around.

The ten tasks that it shows have an average.
-/
theorem two_threads_add_up :
    ∃ last last' told told',
      runOf Crowd.step ⟨crowdedTally, crowdedThreads⟩ [0, 1, 0, 1, 0, 1] = some (last, told) ∧
      runOf Crowd.step ⟨crowdedTally, crowdedThreads⟩ [1, 1, 1, 0, 0, 0] = some (last', told') ∧
      told ≠ told' ∧ last.tally = last'.tally ∧ last.tally = ⟨2, 1, 7, 4⟩ ∧
      last.tally.executed? = some 10 ∧
      0 < (10 : UInt64).toFloat ∧
      last.tally.average? = some ((4 : UInt64).toFloat / (10 : UInt64).toFloat) := by
  obtain ⟨⟨final, -, same⟩, tallies⟩ :=
    counters_add_up_in_any_order crowdedTally crowdedThreads.flatten
  have agrees := (same crowdedThreads rfl).2
  refine ⟨_, _, _, _, rfl, rfl, by decide, ?_, rfl, rfl, ?_⟩
  · rw [agrees [0, 1, 0, 1, 0, 1] _ _ rfl rfl, agrees [1, 1, 1, 0, 0, 0] _ _ rfl rfl]
  · obtain ⟨nobody, -⟩ | average := (tallies ⟨2, 1, 7, 4⟩).2.2.2 10 rfl
    · exact absurd nobody (by decide)
    · exact average

end TaskPool
