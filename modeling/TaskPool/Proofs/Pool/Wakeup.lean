import TaskPool.Proofs.Pool.Balance

/-!
No worker sleeps at a queue that is closed or has something to take,
unless somebody is about to wake it.

What holds of threads that do nothing but use the queue also holds where workers take
from it and a stop closes it.
-/

namespace TaskPool

namespace Pool

/-- Whether a call has put a task on the queue and has told nobody yet. -/
def Call.owesWake : Call → Bool
  | .queue call | .submit call => call.owesWake
  | _ => false

/-- Whether a call has closed the queue and has told nobody yet. -/
def Call.owesWakeAll : Call → Bool
  | .queue call | .submit call => call.owesWakeAll
  | .stop .waking => true
  | _ => false

/-- Whether a call waits for a task. -/
def Call.isPopping : Call → Bool
  | .queue .popping | .submit .popping => true
  | _ => false

/-- Whether a call neither owes a wake nor waits for one. -/
def Call.IsBeside (call : Call) : Prop :=
  call.owesWake = false ∧ call.owesWakeAll = false ∧ call.isPopping = false

/-- Whether a thread is a worker that looks for a task, or a caller whose call waits for one. -/
def Waits (pool : Pool) (thread : Thread) : Prop :=
  thread.pool = pool.number ∧
    match thread.seat with
    | .worker index => ∃ name, pool.workers[index]? = some ⟨name, .fetching⟩
    | .caller index => ∃ call, pool.callers[index]? = some call ∧ call.isPopping = true

variable {queue after : Queue Thread Task} {pool next : Pool} {events : List Event} {later : Call}

/-- A caller that tells a message owes no wake afterwards. -/
theorem tell_owes {caller : Nat} {message : Message} {onward : Call}
    (told : pool.tell caller message onward = (next, later, events))
    (beside : onward.IsBeside) : later.IsBeside := by
  -- A caller whose sink fails it breaks off, and so it neither owes a wake nor waits for one.
  unfold tell at told
  split at told <;> cases told
  · exact ⟨rfl, rfl, rfl⟩
  · exact beside

/-- A start never owes a wake. -/
theorem Starting.step_owes {phase : Starting} {caller count : Nat} {refusal : Option Trouble}
    (stepped : phase.step pool caller count refusal = some (next, later, events)) :
    later.IsBeside := by
  -- Whether it goes on, ends or breaks off, what follows is no call of the queue.
  cases phase with
  | refusing | announcing | lamenting => exact tell_owes (Option.some.inj stepped) ⟨rfl, rfl, rfl⟩
  | checking | unlocking =>
    cases stepped
    exact ⟨rfl, rfl, rfl⟩
  | locking | claiming =>
    simp only [step] at stepped
    split at stepped <;> cases stepped
    all_goals exact ⟨rfl, rfl, rfl⟩
  | reserving =>
    simp only [step] at stepped
    split at stepped
    · split at stepped <;> cases stepped <;> exact ⟨rfl, rfl, rfl⟩
    · cases stepped
  | creating index =>
    simp only [step, create] at stepped
    split at stepped
    · split at stepped <;> cases stepped <;> exact ⟨rfl, rfl, rfl⟩
    · cases stepped
      exact ⟨rfl, rfl, rfl⟩

/--
What a step of a call does for those that sleep at the queue, where its own
thread may be one that waits.
-/
structure Attends (queue : Queue Thread Task) (own : Thread) (call : Call)
    (after : Queue Thread Task) (later : Call) : Prop where
  attended : ∀ wakes wakesOfAll,
    queue.Attended (wakes + call.owesWake.toNat) (wakesOfAll + call.owesWakeAll.toNat) →
      after.Attended (wakes + later.owesWake.toNat) (wakesOfAll + later.owesWakeAll.toNat)
  waiting : (own ∈ queue.waiting → call.isPopping = true) → queue.waiting.Nodup →
    after.waiting.Nodup ∧ ∀ thread ∈ after.waiting,
      thread = own ∧ later.isPopping = true ∨ thread ≠ own ∧ thread ∈ queue.waiting

/--
A step that leaves the queue alone leaves the sleepers alone, if nothing
is owed before and after it.
-/
theorem Attends.beside {self : Thread} {call : Call} (before : call.IsBeside)
    (behind : later.IsBeside) :
    Attends queue self call queue later where
  attended wakes wakesOfAll attended := by
    rw [before.1, before.2.1] at attended
    rw [behind.1, behind.2.1]
    exact attended
  waiting own once := by
    refine ⟨once, fun thread member => .inr ⟨?_, member⟩⟩
    -- Its own thread does not wait, since its call is none that waits.
    intro same
    subst same
    rw [before.2.2] at own
    cases own member

/-- A step of a call of the queue attends to those that sleep there. -/
theorem Attends.ofQueue {self : Thread} {chosen : Option Thread} {before call : Queue.Call Task}
    {told : List (Queue.Event Thread Task)} {whole : Call}
    (stepped : before.step self chosen queue = some (after, call, told))
    (owes : whole.owesWake = before.owesWake ∧ whole.owesWakeAll = before.owesWakeAll ∧
      (whole.isPopping = true → before = .popping))
    (behind : later.owesWake = call.owesWake ∧ later.owesWakeAll = call.owesWakeAll ∧
      (call = .popping → later.isPopping = true)) :
    Attends queue self whole after later where
  -- The call of the pool owes what the call of the queue owes, so this is a
  -- fact about the queue alone.
  attended wakes wakesOfAll attended := by
    rw [owes.1, owes.2.1] at attended
    rw [behind.1, behind.2.1]
    exact Queue.Call.step_attended attended stepped
  waiting own once := by
    obtain ⟨still, others⟩ :=
      Queue.Call.step_waiting (fun member => owes.2.2 (own member)) once stepped
    exact ⟨still, fun thread member => (others thread member).imp_left fun mine =>
      ⟨mine.1, behind.2.2 mine.2⟩⟩

/--
A step of a stop attends to those that sleep at the queue: it wakes all of them
once it has closed the queue.
-/
theorem Stopping.step_attends {phase : Stopping} {self : Thread} {caller worker : Nat}
    {timeUp : Bool}
    (stepped : phase.step queue pool caller timeUp worker = some (after, next, later, events)) :
    Attends queue self (.stop phase) after later := by
  cases phase with
  | announcing | warning | parting | lamenting =>
    simp only [step, besideQueue, Option.some.injEq, Prod.mk.injEq] at stepped
    obtain ⟨rfl, rfl, rfl, rfl⟩ := stepped
    exact .beside ⟨rfl, rfl, rfl⟩ (tell_owes rfl ⟨rfl, rfl, rfl⟩)
  | closing =>
    -- Closing and waking are those of a call that closes the queue.
    cases stepped
    have same : Queue.Call.step self none queue (.closing : Queue.Call Task) =
      some (queue.close, .notifyingAll, [.closed self]) := rfl
    exact .ofQueue same ⟨rfl, rfl, by simp [Call.isPopping]⟩ ⟨rfl, rfl, by simp⟩
  | waking =>
    cases stepped
    have same : Queue.Call.step self none queue (.notifyingAll : Queue.Call Task) =
      some (queue.wakeAll, .returned none, []) := rfl
    exact .ofQueue same ⟨rfl, rfl, by simp [Call.isPopping]⟩ ⟨rfl, rfl, by simp⟩
  | marking | unlocking =>
    cases stepped
    exact .beside ⟨rfl, rfl, rfl⟩ ⟨rfl, rfl, rfl⟩
  | locking | claiming | gathering =>
    simp only [step] at stepped
    split at stepped <;> cases stepped
    all_goals exact .beside ⟨rfl, rfl, rfl⟩ ⟨rfl, rfl, rfl⟩
  | draining =>
    simp only [step] at stepped
    split at stepped
    · cases stepped
      exact .beside ⟨rfl, rfl, rfl⟩ ⟨rfl, rfl, rfl⟩
    · split at stepped <;> cases stepped
      exact .beside ⟨rfl, rfl, rfl⟩ ⟨rfl, rfl, rfl⟩
  | joining left =>
    cases left with
    | nil =>
      cases stepped
      exact .beside ⟨rfl, rfl, rfl⟩ ⟨rfl, rfl, rfl⟩
    | cons first rest =>
      obtain ⟨phase, joined, same⟩ := Option.map_eq_some_iff.mp stepped
      cases same
      refine .beside ⟨rfl, rfl, rfl⟩ ?_
      simp only [join] at joined
      split at joined
      · split at joined
        · cases joined
          split <;> exact ⟨rfl, rfl, rfl⟩
        · cases joined
      · cases joined

/-- Whatever a caller does, it attends to those that sleep at the queue. -/
theorem Call.step_attends {call : Call} {caller : Nat} {chance : Chance}
    (stepped : call.step queue pool caller chance = some (after, next, later, events)) :
    Attends queue ⟨pool.number, .caller caller⟩ call after later := by
  cases call with
  | queue call =>
    -- What the call of the queue owes, it owes inside the call of the pool as well.
    obtain ⟨⟨_, onward, _⟩, moved, same⟩ := Option.map_eq_some_iff.mp stepped
    cases same
    refine .ofQueue moved ⟨rfl, rfl, ?_⟩ ?_
    · cases call <;> simp [Call.isPopping]
    · cases onward <;> exact ⟨rfl, rfl, by simp [ofQueue, Call.isPopping]⟩
  | submit call =>
    cases call with
    | pushing task =>
      -- A submission puts its task on the queue just as any thread would.
      cases stepped
      have same : Queue.Call.step ⟨pool.number, .caller caller⟩ none queue (.pushing task) =
        some (queue.append task, .notifying, [.pushed ⟨pool.number, .caller caller⟩ task]) := rfl
      exact .ofQueue same ⟨rfl, rfl, by simp [Call.isPopping]⟩ ⟨rfl, rfl, by simp⟩
    | returned task =>
      cases stepped
      exact .beside ⟨rfl, rfl, rfl⟩ ⟨rfl, rfl, rfl⟩
    | _ =>
      simp only [step, Option.map_eq_some_iff, Prod.exists, Prod.mk.injEq] at stepped
      obtain ⟨_, onward, _, moved, rfl, -, rfl, -⟩ := stepped
      refine .ofQueue moved ⟨rfl, rfl, by simp [Call.isPopping]⟩ ⟨rfl, rfl, ?_⟩
      rintro rfl
      rfl
  | start count phase =>
    obtain ⟨⟨_, _, _⟩, moved, same⟩ := Option.map_eq_some_iff.mp stepped
    cases same
    exact .beside ⟨rfl, rfl, rfl⟩ (Starting.step_owes moved)
  | stop phase => exact Stopping.step_attends stepped
  | observe =>
    simp only [step] at stepped
    split at stepped <;> cases stepped
    exact .beside ⟨rfl, rfl, rfl⟩ ⟨rfl, rfl, rfl⟩
  | returned answer => cases stepped
  | broken text => cases stepped

/--
A worker that does not look at the queue leaves it alone, and one that does
looks only while it is awake.
-/
theorem work_looks {index : Nat} {name : String} {micros : UInt64} {duty onward : Duty}
    (worked : pool.work queue index name micros duty = some (after, next, onward, events)) :
    after = queue ∧ duty ≠ .fetching ∨
      duty = .fetching ∧ ⟨pool.number, .worker index⟩ ∉ queue.asleep ∧
        after = (queue.take (⟨pool.number, .worker index⟩ : Thread)).2 ∧
        ((queue.take (⟨pool.number, .worker index⟩ : Thread)).1 = .nothing →
          onward = .fetching) := by
  cases duty with
  | fetching =>
    simp only [work] at worked
    split at worked
    · -- A worker that is asleep does nothing.
      cases worked
    · rename_i awake
      refine .inr ⟨rfl, awake, ?_⟩
      split at worked <;> rename_i looked <;> cases worked <;> simp [looked]
  | working task left =>
    cases left with
    | nil =>
      cases worked
      exact .inl ⟨rfl, by simp⟩
    | cons action left => cases action <;> cases worked <;> exact .inl ⟨rfl, by simp⟩
  | reporting failure =>
    cases failure <;> cases worked <;> exact .inl ⟨rfl, by simp⟩
  | gone broken => cases worked
  | _ =>
    cases worked
    exact .inl ⟨rfl, by simp⟩

end Pool

namespace World

open Pool

variable {world next : World} {events : List Pool.Event}

/--
Who waits at the queue is in the middle of that, and whoever sleeps there does so with good reason.
-/
structure Attentive (world : World) : Prop where
  once : world.queue.waiting.Nodup
  waits : ∀ thread ∈ world.queue.waiting, Waits world.pool thread
  attended : world.queue.Attended (world.pool.callers.countP Call.owesWake)
    (world.pool.callers.countP Call.owesWakeAll)

/--
Whoever waited before still waits where the pool keeps its number, its workers and the other calls.
-/
theorem waits_of_kept {pool later : Pool} {thread : Thread} (waits : Waits pool thread)
    (number : later.number = pool.number)
    (workers : ∀ index name, thread.seat = .worker index →
      pool.workers[index]? = some ⟨name, .fetching⟩ →
      later.workers[index]? = some ⟨name, .fetching⟩)
    (callers : ∀ index call, thread.seat = .caller index → pool.callers[index]? = some call →
      call.isPopping = true → later.callers[index]? = some call) :
    Waits later thread := by
  obtain ⟨own, place⟩ := waits
  obtain ⟨home, seat⟩ := thread
  refine ⟨own.trans number.symm, ?_⟩
  cases seat with
  | worker index =>
    obtain ⟨name, found⟩ := place
    exact ⟨name, workers index name rfl found⟩
  | caller index =>
    obtain ⟨call, found, popping⟩ := place
    exact ⟨call, callers index call rfl found popping, popping⟩

/-- A new call owes no wake, and no call that waits is changed by it. -/
theorem Attentive.begin {caller : Nat} {request : Pool.Request} (attentive : world.Attentive)
    (stepped : world.step (.begin caller request) = some (next, events)) : next.Attentive := by
  obtain ⟨-, callers, rfl, added⟩ := step_begin stepped
  have owes : request.call.owesWake = false ∧ request.call.owesWakeAll = false := by
    rcases request with request | _ | _ | _ | _
    · cases request <;> exact ⟨rfl, rfl⟩
    all_goals exact ⟨rfl, rfl⟩
  rcases added with rfl | ⟨ended, found, left, rfl⟩
  · -- A caller that is new has the last place, so nobody's place has changed.
    refine ⟨attentive.once, fun thread member => ?_, by simpa [owes] using attentive.attended⟩
    refine waits_of_kept (attentive.waits thread member) rfl (fun _ _ _ found => found) ?_
    intro index call _ found _
    rw [← found]
    exact List.getElem?_append_left (List.getElem?_eq_some_iff.mp found).1
  · have idle : ended.owesWake = false ∧ ended.owesWakeAll = false ∧ ended.isPopping = false := by
      cases ended <;> simp [Call.hasEnded] at left <;> exact ⟨rfl, rfl, rfl⟩
    refine ⟨attentive.once, fun thread member => ?_, ?_⟩
    · -- Who waits has not come to an end, so its call is another one.
      refine waits_of_kept (attentive.waits thread member) rfl (fun _ _ _ found => found) ?_
      intro index call _ held popping
      have apart : caller ≠ index := by
        rintro rfl
        rw [found] at held
        cases held
        rw [idle.2.2] at popping
        cases popping
      exact (List.getElem?_set_ne apart).trans held
    · -- The call that has ended owed nothing, and neither does the new one.
      obtain ⟨wakes, before, after⟩ := Queue.countP_set_frame Call.owesWake found
      obtain ⟨all, beforeAll, afterAll⟩ := Queue.countP_set_frame Call.owesWakeAll found
      have attended := attentive.attended
      rw [before, beforeAll, idle.1, idle.2.1] at attended
      show world.queue.Attended ((world.pool.callers.set caller request.call).countP Call.owesWake)
        ((world.pool.callers.set caller request.call).countP Call.owesWakeAll)
      rw [after, afterAll, owes.1, owes.2]
      exact attended

/-- A step of a caller keeps everybody's sleep in order. -/
theorem Attentive.caller {index : Nat} {chance : Chance} (attentive : world.Attentive)
    (stepped : world.step (.caller index chance) = some (next, events)) : next.Attentive := by
  obtain ⟨call, queue, pool, later, found, moved, rfl⟩ := step_caller.mp stepped
  have visit := Call.step_visit moved
  have attends := Call.step_attends moved
  -- The caller's own thread waits at the queue only while its call does.
  have own : ⟨world.pool.number, .caller index⟩ ∈ world.queue.waiting → call.isPopping = true := by
    intro member
    obtain ⟨-, held, known, popping⟩ := attentive.waits _ member
    rw [found] at known
    cases known
    exact popping
  obtain ⟨once, waiting⟩ := attends.waiting own attentive.once
  refine ⟨once, fun thread member => ?_, ?_⟩
  · rcases waiting thread member with ⟨rfl, popping⟩ | ⟨apart, earlier⟩
    · -- The caller itself waits now.
      refine ⟨visit.number.symm, later, ?_, popping⟩
      have within := (List.getElem?_eq_some_iff.mp found).1
      simp [setCaller, visit.callers, within]
    · refine waits_of_kept (attentive.waits thread earlier) visit.number ?_ ?_
      · -- A new worker comes behind all others.
        intro place name _ held
        rcases visit.workers with same | ⟨hired, more⟩
        · exact (congrArg (·[place]?) same).trans held
        · refine (congrArg (·[place]?) more).trans (Eq.trans ?_ held)
          exact List.getElem?_append_left (List.getElem?_eq_some_iff.mp held).1
      · intro place held seat known _
        have other : index ≠ place := by
          rintro rfl
          obtain ⟨home, -⟩ := attentive.waits thread earlier
          exact apart (by obtain ⟨_, _⟩ := thread; cases seat; cases home; rfl)
        simpa [setCaller, visit.callers, List.getElem?_set_ne other] using known
  · -- What the calls of others owe is split off.
    obtain ⟨wakes, before, after⟩ := Queue.countP_set_frame Call.owesWake found
    obtain ⟨all, beforeAll, afterAll⟩ := Queue.countP_set_frame Call.owesWakeAll found
    have attended := attentive.attended
    rw [before, beforeAll] at attended
    show queue.Attended ((pool.callers.set index later).countP Call.owesWake)
      ((pool.callers.set index later).countP Call.owesWakeAll)
    rw [visit.callers, after, afterAll]
    exact attends.attended _ _ attended

/-- A worker that goes on in any way but looking at the queue does not wait there. -/
theorem Attentive.setWorker {index : Nat} {name : String} {duty later : Duty} {tally : Tally}
    (attentive : world.Attentive) (found : world.pool.workers[index]? = some ⟨name, duty⟩)
    (busy : duty ≠ .fetching) :
    Attentive ⟨world.queue, setWorker { world.pool with tally := tally } index ⟨name, later⟩⟩ := by
  refine ⟨attentive.once, fun thread member => ?_, attentive.attended⟩
  refine waits_of_kept (attentive.waits thread member) rfl ?_ (fun _ _ _ found _ => found)
  -- A worker that waits is another one, since this one does something else.
  intro place called _ held
  have apart : index ≠ place := by
    rintro rfl
    rw [found] at held
    cases held
    exact busy rfl
  exact (List.getElem?_set_ne apart).trans held

/-- A step of a worker keeps everybody's sleep in order. -/
theorem Attentive.worker {index : Nat} {chance : Chance} (attentive : world.Attentive)
    (stepped : world.step (.worker index chance) = some (next, events)) : next.Attentive := by
  obtain ⟨name, duty, queue, pool, later, found, moved, rfl⟩ := step_worker.mp stepped
  -- But for the counters, the pool is what it was.
  have same := (work_progress moved).same
  rw [same]
  rcases work_looks moved with ⟨rfl, busy⟩ | ⟨rfl, awake, rfl, asleep⟩
  · exact attentive.setWorker found busy
  · -- A worker that looks at the queue is a consumer like any other.
    obtain ⟨once, waiting⟩ := Queue.take_waiting awake attentive.once
    refine ⟨once, fun thread member => ?_, Queue.take_attended attentive.attended _⟩
    rcases waiting thread member with ⟨rfl, nothing⟩ | ⟨apart, earlier⟩
    · -- The worker has met nothing, so it still looks for a task.
      have within := (List.getElem?_eq_some_iff.mp found).1
      exact ⟨rfl, name, by simp [World.setWorker, within, asleep nothing]⟩
    · refine waits_of_kept (attentive.waits thread earlier) rfl ?_ (fun _ _ _ found _ => found)
      intro place called seat held
      have other : index ≠ place := by
        rintro rfl
        obtain ⟨home, -⟩ := attentive.waits thread earlier
        exact apart (by obtain ⟨_, _⟩ := thread; cases seat; cases home; rfl)
      exact (List.getElem?_set_ne other).trans held

/-- Every turn keeps everybody's sleep in order. -/
theorem step_attentive {turn : Turn} (attentive : world.Attentive)
    (stepped : world.step turn = some (next, events)) : next.Attentive := by
  -- Only callers and workers come to the queue.
  cases turn with
  | begin caller request => exact attentive.begin stepped
  | caller index chance => exact attentive.caller stepped
  | worker index chance => exact attentive.worker stepped
  | openGate index =>
    obtain ⟨-, name, task, left, found, rfl⟩ := step_openGate stepped
    exact attentive.setWorker found (by simp)
  | resume index broken =>
    obtain ⟨name, task, request, left, after, found, rfl, -⟩ := step_resume stepped
    exact attentive.setWorker found (by simp)
  | refilter filter =>
    cases stepped
    exact ⟨attentive.once, attentive.waits, attentive.attended⟩

/-- In every run from a new pool, everybody's sleep is in order. -/
theorem run_attentive {number : Nat} {settings : Settings} {sink : Sink} {turns : List Turn}
    (ran : runOf step (fresh number settings sink) turns = some (world, events)) :
    world.Attentive := by
  refine run_invariant (fun world _ => world.Attentive) ?_ ?_ ran
  · -- Nobody waits at a new queue.
    refine ⟨List.nodup_nil, List.forall_mem_nil _, fun sleepers => absurd rfl sleepers⟩
  · intro before told turn after new attentive stepped
    exact step_attentive attentive stepped

end World

end TaskPool
