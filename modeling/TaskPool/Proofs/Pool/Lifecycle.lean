import TaskPool.Proofs.Pool.Books

/-!
The life of a pool: only one start or stop goes on at a time, and its phase tells
how far the pool has come.

Everyone else leaves the life of the pool alone, except that workers come to their end.
-/

namespace TaskPool

/-- Workers with different numbers have different names. -/
theorem Settings.workerName_injective (settings : Settings) :
    Function.Injective settings.workerName := by
  -- The names begin alike, so their numbers are written alike.
  intro first second same
  have digits : Nat.repr first = Nat.repr second := (String.append_right_inj _).mp same
  -- The digits of a number are read back as that number.
  have read := congrArg (fun text : String => Nat.ofDigitChars 10 text.toList 0) digits
  simpa [Nat.toList_repr, Nat.ofDigitChars_ten_toDigits] using read

namespace Pool

/-- The names of all workers that were ever created, in this order. -/
def staffNames (pool : Pool) : List String := pool.workers.map (·.name)

/-- A worker that goes on keeps its name. -/
theorem staffNames_setWorker {pool : Pool} {index : Nat} {name : String} {duty : Duty}
    (found : pool.workers[index]? = some ⟨name, duty⟩) (later : Duty) :
    (World.setWorker pool index ⟨name, later⟩).staffNames = pool.staffNames := by
  have known : pool.staffNames[index]? = some name := by simp [staffNames, found]
  -- What is put at its place among the names is the name that stands there.
  rw [staffNames, World.setWorker, List.map_set]
  refine List.ext_getElem? fun other => ?_
  by_cases same : index = other
  · rw [← same]
    exact (List.getElem?_set_self
      (by simpa [staffNames] using (List.getElem?_eq_some_iff.mp found).1)).trans known.symm
  · exact List.getElem?_set_ne same

/-- Whether every worker is on the roster. -/
def Enrolled (pool : Pool) : Prop := ∀ index < pool.workers.length, index ∈ pool.roster.map (·.2)

/-- Whether the roster has only names of workers below a number. -/
def NamedBelow (pool : Pool) (number : Nat) : Prop :=
  ∀ entry ∈ pool.roster, ∃ earlier < number, entry.1 = pool.settings.workerName earlier

/-- Whether all workers but some have ended. -/
def GoneBut (pool : Pool) (left : List Nat) : Prop :=
  ∀ index worker, pool.workers[index]? = some worker → index ∈ left ∨ worker.isGone = true

/-- Whether a pool was stopped, and all its workers have ended. -/
def Retired (pool : Pool) : Prop := pool.stopped = true ∧ pool.GoneBut []

/-- How far the call that holds the lock on the life of a pool has brought it. -/
inductive Stage where
  /-- The life of the pool is as if nobody held the lock. -/
  | resting
  /-- The same, and the pool was never stopped. -/
  | startable
  /--
  The pool was started, and its workers below a number have been created where that was possible.
  -/
  | growing (number : Nat)
  /-- The pool runs no more, and is not yet marked as stopped. -/
  | halting
  /-- The pool is marked as stopped, and its workers are still on the roster. -/
  | stopping
  /-- The pool is stopped, and only some workers are still to be waited for. -/
  | leaving (left : List Nat)

/-- What is true of a pool whose life nobody is changing. -/
structure Resting (pool : Pool) : Prop where
  /-- A stop has waited for all workers. -/
  gone : pool.stopped = true → pool.running = false ∧ pool.GoneBut []
  enrolled : pool.stopped = false → pool.Enrolled
  /-- A pool that was never started has no workers. -/
  empty : pool.stopped = false → pool.running = false → pool.roster = []

/-- What is true of a pool at a stage. -/
def Stage.Holds (pool : Pool) : Stage → Prop
  | .resting => pool.Resting
  -- The flag is looked at under the lock, so it stays as it was seen.
  | .startable => pool.Resting ∧ pool.stopped = false
  -- Numbers come in order, so a name with the next number is not taken.
  | .growing number => pool.running = true ∧ pool.stopped = false ∧ pool.Enrolled ∧
      pool.NamedBelow number
  | .halting => pool.running = false ∧ pool.Enrolled
  | .stopping => pool.running = false ∧ pool.stopped = true ∧ pool.Enrolled
  | .leaving left => pool.running = false ∧ pool.stopped = true ∧ pool.GoneBut left

/-- The stage of a call, if it holds the lock on the life of its pool. -/
def Call.stage? : Call → Option Stage
  | .start _ .locking | .stop .locking => none
  | .start _ .claiming => some .startable
  | .start _ .announcing | .start _ .reserving => some (.growing 0)
  | .start _ (.creating number) | .start _ (.lamenting number _) => some (.growing number)
  | .stop .marking => some .halting
  | .stop .announcing | .stop .draining | .stop .warning | .stop .closing | .stop .waking
      | .stop .parting
  | .stop .gathering => some .stopping
  | .stop (.joining left) | .stop (.lamenting left _) => some (.leaving left)
  | .start .. | .stop _ => some .resting
  | _ => none

/-- A new call holds no lock. -/
theorem Request.stage?_call (request : Request) : request.call.stage? = none := by
  -- A start or a stop begins by asking for the lock.
  cases request <;> rfl

/-- A call of the queue never holds the lock on the life of a pool. -/
theorem Call.stage?_ofQueue (call : Queue.Call Task) : (ofQueue call).stage? = none := by
  -- Such a call goes on at the queue or has returned.
  cases call <;> rfl

/-- The life of a pool is the same as before, except that workers may have ended. -/
structure SameLife (pool next : Pool) : Prop where
  -- Most steps touch nothing of this, and then it holds by itself.
  settings : next.settings = pool.settings := by rfl
  running : next.running = pool.running := by rfl
  stopped : next.stopped = pool.stopped := by rfl
  lifecycle : next.lifecycle = pool.lifecycle := by rfl
  roster : next.roster = pool.roster := by rfl
  length : next.workers.length = pool.workers.length := by rfl
  names : next.staffNames = pool.staffNames := by rfl
  gone : ∀ (index : Nat) (worker : Worker), next.workers[index]? = some worker →
    ∃ before : Worker, pool.workers[index]? = some before ∧
      (before.isGone = true → worker.isGone = true) := by
      exact fun _ worker found => ⟨worker, found, id⟩

namespace SameLife

variable {pool next : Pool}

/-- A worker that has not ended may go on in any way, and count what it likes. -/
theorem setWorker {index : Nat} {name : String} {duty : Duty} (later : Duty) (tally : Tally)
    (found : pool.workers[index]? = some ⟨name, duty⟩)
    (present : (⟨name, duty⟩ : Worker).isGone = false) :
    SameLife pool (World.setWorker { pool with tally := tally } index ⟨name, later⟩) where
  length := by simp [World.setWorker]
  names := staffNames_setWorker found later
  gone other worker known := by
    by_cases same : index = other
    · -- The worker that goes on had not ended before, so there is nothing to keep.
      subst same
      exact ⟨_, found, fun gone => by rw [present] at gone; cases gone⟩
    · exact ⟨worker, by simpa [World.setWorker, same] using known, id⟩

/-- What becomes of a call is no part of the life of its pool. -/
theorem setCaller (same : SameLife pool next) (caller : Nat) (call : Call) :
    SameLife pool (World.setCaller next caller call) :=
  ⟨same.settings, same.running, same.stopped, same.lifecycle, same.roster, same.length,
    same.names, same.gone⟩

/-- All workers are still on the roster. -/
theorem enrolled (same : SameLife pool next) (enrolled : pool.Enrolled) : next.Enrolled := by
  -- There are as many workers as before, and the roster is the same.
  intro index within
  rw [same.roster]
  exact enrolled index (same.length ▸ within)

/-- The roster still has only names of workers below a number. -/
theorem namedBelow {number : Nat} (same : SameLife pool next) (named : pool.NamedBelow number) :
    next.NamedBelow number := by
  -- Neither the roster nor the stem of the names has changed.
  unfold NamedBelow
  rw [same.roster, same.settings]
  exact named

/-- Workers that have ended have still ended. -/
theorem goneBut {left : List Nat} (same : SameLife pool next) (gone : pool.GoneBut left) :
    next.GoneBut left := by
  -- A worker that had ended before is the same worker now, and has still ended.
  intro index worker found
  obtain ⟨before, known, kept⟩ := same.gone index worker found
  exact (gone index before known).imp id kept

/-- What has ended in a stopped pool has ended for good. -/
theorem retired (same : SameLife pool next) (retired : pool.Retired) : next.Retired :=
  ⟨same.stopped.trans retired.1, same.goneBut retired.2⟩

/-- A pool whose life nobody changes goes on resting. -/
theorem resting (same : SameLife pool next) (resting : pool.Resting) : next.Resting where
  -- The flags and the roster are as they were, and who has ended has still ended.
  gone stopped := by
    rw [same.stopped] at stopped
    exact ⟨same.running.trans (resting.gone stopped).1, same.goneBut (resting.gone stopped).2⟩
  enrolled open_ := same.enrolled (resting.enrolled (same.stopped ▸ open_))
  empty open_ idle := same.roster.trans (resting.empty (same.stopped ▸ open_) (same.running ▸ idle))

/-- What is true at a stage stays true. -/
theorem holds {stage : Stage} (same : SameLife pool next) (holds : stage.Holds pool) :
    stage.Holds next := by
  -- Each stage speaks of flags, the roster and the workers only.
  cases stage with
  | resting => exact same.resting holds
  | startable => exact ⟨same.resting holds.1, same.stopped.trans holds.2⟩
  | growing number =>
    obtain ⟨running, open_, enrolled, named⟩ := holds
    exact ⟨same.running.trans running, same.stopped.trans open_, same.enrolled enrolled,
      same.namedBelow named⟩
  | halting => exact ⟨same.running.trans holds.1, same.enrolled holds.2⟩
  | stopping =>
    exact ⟨same.running.trans holds.1, same.stopped.trans holds.2.1, same.enrolled holds.2.2⟩
  | leaving left =>
    exact ⟨same.running.trans holds.1, same.stopped.trans holds.2.1, same.goneBut holds.2.2⟩

end SameLife

/--
What is true of a pool where a caller has come to some call: only the caller
itself can hold the lock.
-/
def Standing (pool : Pool) (caller : Nat) (call : Call) : Prop :=
  match call.stage? with
  | some stage => pool.lifecycle = some caller ∧ stage.Holds pool
  | none => pool.lifecycle = none ∧ pool.Resting

variable {queue after : Queue Thread Task} {pool next : Pool} {events : List Event}
  {caller count : Nat}

/-- Whoever holds the locks, a pool whose life nobody changes rests. -/
theorem Resting.locked (resting : pool.Resting) (life roster : Option Nat) :
    Resting { pool with lifecycle := life, rosterLock := roster } :=
  ⟨resting.gone, resting.enrolled, resting.empty⟩

/-- A start may end as soon as all workers that it has created are on the roster. -/
theorem Stage.resting_of_growing {number : Nat} (growing : (Stage.growing number).Holds pool) :
    pool.Resting := by
  -- The pool runs and was never stopped, so only the roster counts.
  obtain ⟨running, open_, enrolled, -⟩ := growing
  exact ⟨by simp [open_], fun _ => enrolled, by simp [running]⟩

/-- Names of workers below a number are names of workers below the next number. -/
theorem NamedBelow.succ {number : Nat} (named : pool.NamedBelow number) :
    pool.NamedBelow (number + 1) := by
  -- Each name keeps the number that it has.
  intro entry member
  obtain ⟨earlier, below, same⟩ := named entry member
  exact ⟨earlier, by omega, same⟩

/-- A caller that breaks off gives up the lock on the life of the pool. -/
theorem Standing.release (held : pool.lifecycle = some caller) (resting : pool.Resting)
    (text : String) :
    Standing (pool.release caller) caller (.broken text) :=
  ⟨if_pos held, resting.locked _ _⟩

/-- Telling a message that fails nobody changes nothing. -/
theorem tell_quiet (quiet : pool.Quiet) (caller : Nat) (message : Message) (onward : Call) :
    pool.tell caller message onward = (pool, onward, pool.kept (.caller caller) message) := by
  -- The one that tells does not break off.
  simp [tell, quiet message]

/-- A name that is not on the roster goes behind all others. -/
theorem enlist_roster {name : String} (free : ∀ entry ∈ pool.roster, entry.1 ≠ name) (index : Nat) :
    (pool.enlist name index).roster = pool.roster ++ [(name, index)] := by
  -- There is no equal name whose place the new one could take.
  have kept : pool.roster.filter (·.1 ≠ name) = pool.roster :=
    List.filter_eq_self.mpr (by simpa using free)
  simp only [enlist, kept]

/--
A name with a new number is new, so nobody is pushed off the roster by the worker that gets it.
-/
theorem NamedBelow.employ_roster {number : Nat} (named : pool.NamedBelow number) :
    (pool.employ (pool.settings.workerName number)).roster =
      pool.roster ++ [(pool.settings.workerName number, pool.workers.length)] := by
  refine enlist_roster (fun entry member same => ?_) pool.workers.length
  -- All names on the roster are of lower numbers.
  obtain ⟨earlier, below, called⟩ := named entry member
  have equal : earlier = number := pool.settings.workerName_injective (called.symm.trans same)
  omega

/-- The worker with the next number joins those that are on the roster. -/
theorem Stage.growing_employ {number : Nat} (growing : (Stage.growing number).Holds pool) :
    (Stage.growing (number + 1)).Holds (pool.employ (pool.settings.workerName number)) := by
  obtain ⟨running, open_, enrolled, named⟩ := growing
  refine ⟨running, open_, fun index within => ?_, fun entry member => ?_⟩
  · -- A worker that was there before keeps its place on the roster, and the new one has the last.
    rw [named.employ_roster, List.map_append, List.mem_append]
    rcases Nat.lt_or_ge index pool.workers.length with old | new
    · exact .inl (enrolled index old)
    · have within : index < (pool.workers ++ [_]).length := within
      rw [List.length_append, List.length_singleton] at within
      exact .inr (by simp; omega)
  · rw [named.employ_roster, List.mem_append, List.mem_singleton] at member
    rcases member with old | rfl
    · exact named.succ entry old
    · exact ⟨number, by omega, rfl⟩

/-- What a start makes of the life of a pool fits the phase that it has come to. -/
theorem Starting.step_standing {phase : Starting} {refusal : Option Trouble} {call : Call}
    (quiet : pool.Quiet)
    (stepped : phase.step pool caller count refusal = some (next, call, events))
    (idle : pool.lifecycle = none → pool.Resting)
    (own : ∀ stage, (Call.start count phase).stage? = some stage →
      pool.lifecycle = some caller ∧ stage.Holds pool) : Standing next caller call := by
  -- Each phase finds the pool as its stage says, and leaves it as the stage of the next phase says.
  cases phase with
  | locking =>
    -- The lock is taken only where nobody holds it, and there the pool rests.
    simp only [step, Option.ite_none_right_eq_some] at stepped
    obtain ⟨free, same⟩ := stepped
    cases same
    exact ⟨rfl, (idle free).locked _ _⟩
  | checking =>
    -- The look at the flag decides whether the start may go on.
    obtain ⟨held, resting⟩ := own _ rfl
    cases stepped
    cases open_ : pool.stopped with
    | true => exact ⟨held, resting⟩
    | false => exact ⟨held, resting, open_⟩
  | refusing =>
    simp only [step, tell_quiet quiet] at stepped
    cases stepped
    exact own _ rfl
  | claiming =>
    obtain ⟨held, resting, open_⟩ := own _ rfl
    simp only [step] at stepped
    split at stepped <;> cases stepped
    · exact ⟨held, resting⟩
    · -- The pool was never started, so nobody is on the roster, and no name is taken.
      rename_i idle
      have empty : pool.roster = [] := resting.empty open_ (by simpa using idle)
      exact ⟨held, rfl, open_, resting.enrolled open_, by simp [NamedBelow, empty]⟩
  | announcing =>
    simp only [step, tell_quiet quiet] at stepped
    cases stepped
    exact own _ rfl
  | reserving =>
    obtain ⟨held, growing⟩ := own _ rfl
    simp only [step, Option.ite_none_right_eq_some] at stepped
    obtain ⟨-, stepped⟩ := stepped
    split at stepped <;> cases stepped
    · -- No roster is large enough, and the start breaks off before it has created anyone.
      exact .release held (Stage.resting_of_growing growing) _
    · exact ⟨held, growing⟩
  | creating number =>
    obtain ⟨held, growing⟩ := own _ rfl
    simp only [step, create] at stepped
    split at stepped
    · -- The name is of no use, or the system refuses, or there is one more worker.
      split at stepped <;> cases stepped
      · exact .release held (Stage.resting_of_growing growing) _
      · exact ⟨held, growing⟩
      · exact ⟨held, Stage.growing_employ growing⟩
    · -- All workers have been asked for, so the roster is complete.
      cases stepped
      exact ⟨held, (Stage.resting_of_growing growing).locked _ _⟩
  | lamenting number failure =>
    -- A worker that could not be created leaves its number unused.
    obtain ⟨held, running, open_, enrolled, named⟩ := own _ rfl
    simp only [step, tell_quiet quiet] at stepped
    cases stepped
    exact ⟨held, running, open_, enrolled, named.succ⟩
  | unlocking =>
    obtain ⟨-, resting⟩ := own _ rfl
    cases stepped
    exact ⟨rfl, Resting.locked resting _ _⟩

/-- The wait for a worker is over only for one that has ended. -/
theorem GoneBut.join {left : List Nat} {worker : Nat} {phase : Stopping} (gone : pool.GoneBut left)
    (joined : pool.join left worker = some phase) :
    ∃ fewer, (Call.stop phase).stage? = some (.leaving fewer) ∧ pool.GoneBut fewer := by
  -- The worker is taken off those to be waited for, and it has ended.
  simp only [Pool.join, Option.ite_none_right_eq_some] at joined
  obtain ⟨-, joined⟩ := joined
  split at joined
  · rename_i name broken found
    have erased : pool.GoneBut (left.erase worker) := by
      intro index other known
      by_cases same : index = worker
      · subst same
        rw [found] at known
        cases known
        exact .inr rfl
      · -- Whoever else was waited for is waited for still.
        exact (gone index other known).imp_left fun member => (List.mem_erase_of_ne same).mpr member
    cases joined
    exact ⟨left.erase worker, by split <;> rfl, erased⟩
  · cases joined

/-- What a stop makes of the life of a pool fits the phase that it has come to. -/
theorem Stopping.step_standing {phase : Stopping} {timeUp : Bool} {worker : Nat} {call : Call}
    (quiet : pool.Quiet)
    (stepped : phase.step queue pool caller timeUp worker = some (after, next, call, events))
    (idle : pool.lifecycle = none → pool.Resting)
    (own : ∀ stage, (Call.stop phase).stage? = some stage → pool.lifecycle = some caller ∧
      stage.Holds pool) :
    Standing next caller call := by
  -- Each phase finds the pool as its stage says, and leaves it as the stage of the next phase says.
  cases phase with
  | locking =>
    simp only [step, Option.ite_none_right_eq_some] at stepped
    obtain ⟨free, same⟩ := stepped
    cases same
    exact ⟨rfl, (idle free).locked _ _⟩
  | claiming =>
    obtain ⟨held, resting⟩ := own _ rfl
    simp only [step] at stepped
    split at stepped <;> cases stepped
    · rename_i running
      -- A pool that was stopped does not run, so this one was not, and everyone is on the roster.
      have open_ : pool.stopped = false := by
        cases stopped : pool.stopped with
        | true => simp [(resting.gone stopped).1] at running
        | false => rfl
      exact ⟨held, rfl, resting.enrolled open_⟩
    · exact ⟨held, resting⟩
  | marking =>
    obtain ⟨held, ended, enrolled⟩ := own _ rfl
    cases stepped
    exact ⟨held, ended, rfl, enrolled⟩
  | announcing | warning | parting | lamenting =>
    simp only [step, tell_quiet quiet] at stepped
    cases stepped
    exact own _ rfl
  | draining =>
    -- The wait ends where the queue is empty or the time is up, and tells
    -- nothing about the workers.
    simp only [step] at stepped
    split at stepped
    · cases stepped
      exact own _ rfl
    · obtain ⟨-, same⟩ := Option.ite_none_right_eq_some.mp stepped
      cases same
      exact own _ rfl
  | closing | waking =>
    cases stepped
    exact own _ rfl
  | gathering =>
    -- Every worker was on the roster, so every worker is waited for.
    obtain ⟨held, ended, stopped, enrolled⟩ := own _ rfl
    simp only [step, Option.ite_none_right_eq_some] at stepped
    obtain ⟨-, same⟩ := stepped
    cases same
    refine ⟨held, ended, stopped, fun index worker found => .inl ?_⟩
    exact enrolled index (List.getElem?_eq_some_iff.mp found).1
  | joining left =>
    obtain ⟨held, ended, stopped, gone⟩ := own _ rfl
    cases left with
    | nil =>
      -- Nobody is left to be waited for, so all have ended.
      cases stepped
      exact ⟨held, fun _ => ⟨ended, gone⟩, by simp [stopped], by simp [stopped]⟩
    | cons first rest =>
      obtain ⟨phase, joined, same⟩ := Option.map_eq_some_iff.mp stepped
      cases same
      obtain ⟨fewer, reached, gone⟩ := gone.join joined
      rw [Standing, reached]
      exact ⟨held, ended, stopped, gone⟩
  | unlocking =>
    obtain ⟨-, resting⟩ := own _ rfl
    cases stepped
    exact ⟨rfl, Resting.locked resting _ _⟩

/-- A start creates no worker in a pool that was stopped. -/
theorem Starting.step_retired {phase : Starting} {refusal : Option Trouble} {call : Call}
    (quiet : pool.Quiet)
    (own : ∀ stage, (Call.start count phase).stage? = some stage → stage.Holds pool)
    (stepped : phase.step pool caller count refusal = some (next, call, events))
    (retired : pool.Retired) :
    next.Retired := by
  -- Only a start in a pool that was never stopped gets beyond the look at that flag.
  cases phase with
  | refusing | announcing | lamenting =>
    simp only [step, tell_quiet quiet] at stepped
    cases stepped
    exact retired
  | reserving | creating =>
    -- Only a pool that was never stopped has come so far.
    have open_ : pool.stopped = false := (own _ rfl).2.1
    simp [retired.1] at open_
  | checking | unlocking =>
    cases stepped
    exact retired
  | locking | claiming =>
    simp only [step] at stepped
    split at stepped <;> cases stepped
    all_goals exact retired

/-- A stop leaves the workers as they are, and never takes back that the pool was stopped. -/
theorem Stopping.step_retired {phase : Stopping} {timeUp : Bool} {worker : Nat} {call : Call}
    (quiet : pool.Quiet)
    (stepped : phase.step queue pool caller timeUp worker = some (after, next, call, events))
    (retired : pool.Retired) : next.Retired := by
  -- Of the whole pool, a stop changes the roster, the locks and the two flags.
  cases phase with
  | announcing | warning | parting | lamenting =>
    simp only [step, tell_quiet quiet] at stepped
    cases stepped
    exact retired
  | marking =>
    cases stepped
    exact ⟨rfl, retired.2⟩
  | closing | waking | unlocking =>
    cases stepped
    exact retired
  | locking | claiming | gathering =>
    simp only [step] at stepped
    split at stepped <;> cases stepped
    all_goals exact retired
  | draining =>
    simp only [step] at stepped
    split at stepped
    · cases stepped
      exact retired
    · obtain ⟨-, same⟩ := Option.ite_none_right_eq_some.mp stepped
      cases same
      exact retired
  | joining left =>
    cases left with
    | nil =>
      cases stepped
      exact retired
    | cons first rest =>
      obtain ⟨phase, -, same⟩ := Option.map_eq_some_iff.mp stepped
      cases same
      exact retired

/--
A step of a caller leaves the life of the pool alone, or it is one of the call
that holds the lock on it.
-/
theorem Call.step_life {call later : Call} {chance : Chance} (quiet : pool.Quiet)
    (stepped : call.step queue pool caller chance = some (after, next, later, events))
    (idle : pool.lifecycle = none → pool.Resting)
    (own : ∀ stage, call.stage? = some stage → pool.lifecycle = some caller ∧ stage.Holds pool) :
    SameLife pool next ∧ later.stage? = none ∨
      (pool.lifecycle = none ∨ pool.lifecycle = some caller) ∧ Standing next caller later ∧
        (pool.Retired → next.Retired) := by
  -- Only starts and stops have to do with the life of the pool.
  cases call with
  | queue call =>
    obtain ⟨⟨_, _, _⟩, -, same⟩ := Option.map_eq_some_iff.mp stepped
    cases same
    exact .inl ⟨{}, stage?_ofQueue _⟩
  | submit call =>
    refine .inl ?_
    cases call with
    | pushing | returned =>
      cases stepped
      exact ⟨{}, rfl⟩
    | _ =>
      simp only [step, Option.map_eq_some_iff, Prod.exists, Prod.mk.injEq] at stepped
      obtain ⟨_, _, _, -, -, rfl, rfl, -⟩ := stepped
      exact ⟨{}, rfl⟩
  | start count phase =>
    -- A start either waits for the lock or holds it already.
    obtain ⟨⟨_, _, _⟩, moved, same⟩ := Option.map_eq_some_iff.mp stepped
    cases same
    refine .inr ⟨?_, Starting.step_standing quiet moved idle own,
      Starting.step_retired quiet (fun stage reached => (own stage reached).2) moved⟩
    cases phase with
    | locking =>
      simp only [Starting.step, Option.ite_none_right_eq_some] at moved
      exact .inl moved.1
    | _ => exact .inr (own _ rfl).1
  | stop phase =>
    -- A stop either waits for the lock or holds it already.
    refine .inr ⟨?_, Stopping.step_standing quiet stepped idle own,
      Stopping.step_retired quiet stepped⟩
    cases phase with
    | locking =>
      simp only [step, Stopping.step, Option.ite_none_right_eq_some] at stepped
      exact .inl stepped.1
    | _ => exact .inr (own _ rfl).1
  | observe =>
    simp only [step, Option.ite_none_right_eq_some] at stepped
    obtain ⟨-, same⟩ := stepped
    cases same
    exact .inl ⟨{}, rfl⟩
  | returned answer => cases stepped
  | broken text => cases stepped

/--
At most one call holds the lock on the life of a pool, and the pool is as
the phase of that call says.
-/
structure Orderly (pool : Pool) : Prop where
  held : ∀ caller call stage, pool.callers[caller]? = some call → call.stage? = some stage →
    pool.lifecycle = some caller ∧ stage.Holds pool
  idle : pool.lifecycle = none → pool.Resting

namespace Orderly

/-- A new pool is in order. -/
theorem fresh (number : Nat) (settings : Settings) (sink : Sink) :
    Orderly (.fresh number settings sink) where
  held caller call stage found := by simp [Pool.fresh] at found
  idle _ := ⟨nofun, fun _ index within => absurd within (Nat.not_lt_zero index), fun _ _ => rfl⟩

/-- Order is kept where the life of the pool stays the same and no call takes the lock on it. -/
theorem frame (orderly : pool.Orderly) (same : SameLife pool next)
    (calls : ∀ (caller : Nat) (call : Call) (stage : Stage), next.callers[caller]? = some call →
      call.stage? = some stage → pool.callers[caller]? = some call) : next.Orderly where
  held caller call stage found reached := by
    obtain ⟨held, holds⟩ :=
      orderly.held caller call stage (calls caller call stage found reached) reached
    exact ⟨same.lifecycle.trans held, same.holds holds⟩
  idle free := same.resting (orderly.idle (same.lifecycle ▸ free))

/-- A call that may hold the lock and stands as its phase says keeps the order. -/
theorem stand {call : Call} (orderly : pool.Orderly) (callers : next.callers = pool.callers)
    (alone : pool.lifecycle = none ∨ pool.lifecycle = some caller)
    (standing : Standing next caller call) :
    Orderly (World.setCaller next caller call) := by
  -- Nobody else can be at a stage, since the lock is free or held by this very caller.
  have others : ∀ other before stage, other ≠ caller → next.callers[other]? = some before →
      before.stage? ≠ some stage := by
    intro other before stage apart found reached
    have held := (orderly.held other before stage (callers ▸ found) reached).1
    rcases alone with free | mine
    · simp [free] at held
    · exact apart (Option.some.inj (held.symm.trans mine))
  have same : SameLife next (World.setCaller next caller call) :=
    SameLife.setCaller {} caller call
  refine ⟨fun other before stage found reached => ?_, fun free => ?_⟩
  · by_cases self : caller = other
    · -- The caller that has gone on stands as it was said to.
      subst self
      have within : caller < next.callers.length := by
        simpa [World.setCaller] using (List.getElem?_eq_some_iff.mp found).1
      obtain rfl : call = before := by simpa [World.setCaller, within] using found
      rw [Standing, reached] at standing
      exact ⟨standing.1, same.holds standing.2⟩
    · have found : next.callers[other]? = some before := by
        simpa [World.setCaller, self] using found
      exact absurd reached (others other before stage (Ne.symm self) found)
  · -- Where the lock is free, the caller has given it up.
    unfold Standing at standing
    split at standing
    · exact absurd (standing.1.symm.trans free) (by simp)
    · exact same.resting standing.2

end Orderly

end Pool

end TaskPool
