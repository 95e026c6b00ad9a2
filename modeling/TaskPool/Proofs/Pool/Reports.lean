import TaskPool.Proofs.Pool.Plan

/-!
What workers do with the tasks of a script: they pass only gates that are open, they take what
leaves the queue, and they report each failure once, in the same words whoever of them reports it.
-/

namespace TaskPool

open Queue (removedItems)

/-- What a worker reports of a task that ended like this, without its own name. -/
def Outcome.report? (outcome : Outcome) : Option String := (outcome.trouble? "").map Failure.display

/-- A report does not tell which worker makes it. -/
theorem Outcome.trouble?_display (outcome : Outcome) (worker : String) :
    (outcome.trouble? worker).map Failure.display = outcome.report? := by
  cases outcome with
  | completed | failed | unspeakable => rfl
  | panicked payload => cases payload <;> rfl

/-- What a worker has seen of a task that ended badly and has not reported. -/
def Duty.untold : Duty → List String
  | .counting _ outcome => outcome.report?.toList
  | .reporting (some failure) => [failure.display]
  | _ => []

/-- Whether a worker has passed only gates that are open. -/
def Duty.HasPassed (gates : Gates) : Duty → Prop
  | .working task left =>
    ∀ rest, .await :: rest <:+ task.actions → left.length ≤ rest.length → gates task rest = true
  | _ => True

/-- A worker that has just taken a task has not passed any gate of it. -/
theorem Duty.hasPassed_taken (gates : Gates) (task : Task) :
    (Duty.working task task.actions).HasPassed gates := by
  -- A gate of the task has less behind it than the whole task.
  intro rest part long
  have short := part.length_le
  rw [List.length_cons] at short
  omega

/-- A worker passes whatever comes next in its task, if that is no gate that is shut. -/
theorem Duty.HasPassed.further {gates : Gates} {task : Task} {action : Action} {left : List Action}
    (passed : (Duty.working task (action :: left)).HasPassed gates)
    (onTrack : action :: left <:+ task.actions) (opens : action = .await → gates task left = true) :
    (Duty.working task left).HasPassed gates := by
  intro rest part long
  rcases Nat.lt_or_ge left.length rest.length with earlier | same
  · exact passed rest part earlier
  · -- Two parts of one length are the same part, so the gate is the one that comes next.
    obtain ⟨rfl, rfl⟩ : Action.await = action ∧ rest = left := by
      refine List.cons.inj ((List.suffix_of_suffix_length_le part onTrack ?_).eq_of_length ?_) <;>
        simp only [List.length_cons] <;> omega
    exact opens rfl

/-- A task that was done to its end has no gate that is shut. -/
theorem Duty.HasPassed.unblocked {gates : Gates} {task : Task}
    (passed : (Duty.working task []).HasPassed gates) :
    task.isBlocked gates = false := by
  rw [Bool.eq_false_iff]
  intro blocked
  -- The gate that would block it was passed.
  obtain ⟨rest, part, shut⟩ := Task.isBlocked_iff.mp blocked
  rw [passed rest part (Nat.zero_le _)] at shut
  cases shut

/-- Gates that were open when they were passed are open still. -/
theorem Duty.HasPassed.mono {gates more : Gates} {duty : Duty} (passed : duty.HasPassed gates)
    (open_ : ∀ task left, gates task left = true → more task left = true) :
    duty.HasPassed more := by
  cases duty with
  | working task left =>
    intro rest part long
    exact open_ task rest (passed rest part long)
  | _ => trivial

/-- A task that is not blocked stays so where more gates are open. -/
theorem Task.isBlocked_mono {gates more : Gates} {task : Task}
    (open_ : ∀ task left, gates task left = true → more task left = true)
    (blocked : task.isBlocked more = true) :
    task.isBlocked gates = true := by
  obtain ⟨left, part, shut⟩ := isBlocked_iff.mp blocked
  refine isBlocked_iff.mpr ⟨left, part, ?_⟩
  cases still : gates task left with
  | false => rfl
  | true =>
    rw [open_ task left still] at shut
    cases shut

namespace Pool

/-- The texts of the failures that workers have reported, without the names of the workers. -/
def failureTexts (events : List Event) : List String :=
  events.filterMap fun
    | .logged _ (.troubled _ failure) => some failure.display
    | _ => none

/-- What workers have reported they have reported earlier, and then later. -/
theorem failureTexts_append (events more : List Event) :
    failureTexts (events ++ more) = failureTexts events ++ failureTexts more :=
      List.filterMap_append

/-- What happens at the queue is no report. -/
@[simp] theorem failureTexts_map (events : List (Queue.Event Thread Task)) :
    failureTexts (events.map .queue) = [] := by
  simp [failureTexts, List.filterMap_map]

/-- The reports that are due for tasks that have come to an end. -/
def reportsOf (entries : List (Task × Outcome)) :
    List String := entries.filterMap fun entry => entry.2.report?

variable {queue after : Queue Thread Task} {pool next : Pool} {events : List Event} {gates : Gates}

/-- A message that is kept is a report just if it is one of a failure of a task. -/
theorem failureTexts_kept {seat : Seat} {message : Message}
    (other : ∀ worker failure, message ≠ .troubled worker failure) :
    failureTexts (pool.kept seat message) = [] := by
  unfold kept
  split
  · cases message <;> first | rfl | exact absurd rfl (other _ _)
  · rfl

/--
What a worker does to its task and to what it has to report, where it may
or may not keep such a line.
-/
structure Errand (gates : Gates) (pool : Pool) (duty later : Duty)
    (events : List Event) : Prop where
  byWorker : taken pool.number events = removedItems (queueEvents events) := by rfl
  passed : duty.HasPassed gates → later.HasPassed gates := by exact fun _ => trivial
  /-- A task that ends has passed all its gates. -/
  ended : duty.HasPassed gates → ∀ entry ∈ endings events, entry.1.isBlocked gates = false := by
    exact fun _ => List.forall_mem_nil _
  /--
  What was to be reported and what has become so is reported now, or it is to be reported still.
  -/
  told : pool.sink.filter.admits .error = true →
    duty.untold ++ reportsOf (endings events) = failureTexts events ++ later.untold := by
      exact fun _ => rfl
  untold : pool.sink.filter.admits .error = false →
    failureTexts events = [] := by exact fun _ => rfl

/-- A worker that tells something about itself reports nothing. -/
theorem Errand.utter {index : Nat} {message : Message} {duty onward : Duty} (quiet : pool.Quiet)
    (other : ∀ worker failure, message ≠ .troubled worker failure) (before : duty.untold = [])
    (behind : onward.untold = []) (passed : onward.HasPassed gates) :
    Errand gates pool duty (pool.utter index message onward).1
      (pool.utter index message onward).2 := by
  -- All that may happen is that a line is kept.
  have nothing := kept_counts_nothing pool pool.number (.worker index) message
  simp only [Pool.utter, quiet message, Bool.false_eq_true, if_false]
  refine ⟨?_, fun _ => passed, ?_, fun _ => ?_, fun _ => failureTexts_kept other⟩
  · rw [nothing.1, queueEvents_kept]
    rfl
  · rw [nothing.2.1]
    exact fun _ => List.forall_mem_nil _
  · rw [nothing.2.1, failureTexts_kept other, before, behind]
    rfl

/-- A worker reports a failure if its sink keeps such lines, and goes on either way. -/
theorem Errand.report {index : Nat} {name : String} {failure : Failure} (quiet : pool.Quiet) :
    Errand gates pool (.reporting (some failure))
      (pool.utter index (.troubled name failure) .timing).1
      (pool.utter index (.troubled name failure) .timing).2 := by
  -- Whether the line is kept is decided by the filter alone, as that of an error.
  have nothing := kept_counts_nothing pool pool.number (.worker index) (.troubled name failure)
  simp only [Pool.utter, quiet _, Bool.false_eq_true, if_false]
  refine ⟨?_, fun _ => trivial, ?_, fun admits => ?_, fun admits => ?_⟩
  · rw [nothing.1, queueEvents_kept]
    rfl
  · rw [nothing.2.1]
    exact fun _ => List.forall_mem_nil _
  · rw [nothing.2.1, kept, Message.severity, if_pos admits]
    rfl
  · rw [kept, Message.severity, admits]
    rfl

/-- Whatever a worker does, it goes about its task like this. -/
theorem work_errand {index : Nat} {name : String} {micros : UInt64} {duty later : Duty}
    (quiet : pool.Quiet) (onTrack : duty.OnTrack)
    (worked : pool.work queue index name micros duty = some (after, next, later, events)) :
    Errand gates pool duty later events := by
  cases duty with
  | opening | closing =>
    cases worked
    exact .utter quiet (by simp) rfl rfl trivial
  | fetching =>
    simp only [work] at worked
    split at worked
    · cases worked
    · -- A worker that takes a task stands in front of all gates of it.
      split at worked <;> cases worked
      · exact { byWorker := by simp [taken, queueEvents, Queue.removals, Queue.Event.removals,
          byWorker, removedItems],
                passed := fun _ => Duty.hasPassed_taken gates _ }
      · exact {}
      · exact {}
  | working task left =>
    cases left with
    | nil =>
      -- The task ends, and with a bad end it has become something to report.
      cases worked
      refine { ended := fun passed entry member => ?_, told := fun _ => ?_ }
      · obtain rfl : entry = (task, task.outcome) := List.mem_singleton.mp member
        exact passed.unblocked
      · show reportsOf [(task, task.outcome)] = task.outcome.report?.toList
        cases reported : task.outcome.report? <;> simp [reportsOf, reported]
    | cons action left =>
      cases action with
      | note | noteThread =>
        -- What comes next in the task is no gate.
        cases worked
        exact { passed := fun passed => passed.further onTrack (by simp) }
      | await | ask => cases worked
  | counting task outcome =>
    -- The worker turns to reporting, under its own name, what was to be reported without one.
    cases worked
    cases deadly : outcome.isDeadly with
    | true =>
      -- Of a task that takes its worker with it there is nothing to be reported.
      refine { told := fun _ => ?_ }
      rw [Duty.untold, ← outcome.trouble?_display name, outcome.trouble?_deadly deadly]
      rfl
    | false =>
      refine { told := fun _ => ?_ }
      rw [Duty.untold, ← outcome.trouble?_display name]
      cases outcome.trouble? name <;> rfl
  | reporting failure =>
    cases failure with
    | none =>
      cases worked
      exact {}
    | some failure =>
      cases worked
      exact .report quiet
  | timing =>
    cases worked
    exact {}
  | gone broken => cases worked

end Pool

end TaskPool
