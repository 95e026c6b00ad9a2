import TaskPool.Proofs.Pool.Fulfilment

/-!
What a pool has come to once its workers are at rest: what was begun is what its plan says,
and what is in a hand waits at a gate that is shut.
-/

namespace TaskPool.World

open Pool
open Queue (Contents pushedItems removedItems)

variable {number : Nat} {sink : Sink} {gates : Gates} {refuse : Nat → Option Trouble}
  {plan onward : Plan} {queue after : Queue Thread Task} {pool next : Pool}
  {events new : List Pool.Event}

/-- What workers have done with the tasks of a script and reported of them. -/
structure Faithful (number : Nat) (sink : Sink) (gates : Gates) (pool : Pool)
    (events : List Pool.Event) : Prop where
  home : pool.number = number
  keeps : pool.sink = sink
  byWorkers : taken number events = removedItems (queueEvents events)
  plain : ∀ task ∈ pushedItems (queueEvents events), task.IsPlain
  passed : ∀ worker ∈ pool.workers, worker.duty.HasPassed gates
  ended : ∀ entry ∈ endings events, entry.1.isBlocked gates = false
  told : sink.filter.admits .error = true →
    (reportsOf (endings events)).Perm (failureTexts events ++ pool.workers.flatMap (·.duty.untold))
  untold : sink.filter.admits .error = false → failureTexts events = []

namespace Faithful

/-- Nobody has done anything. -/
theorem fresh (settings : Settings) :
    Faithful number sink gates (World.fresh number settings sink).pool [] where
  home := rfl
  keeps := rfl
  byWorkers := rfl
  plain := List.forall_mem_nil _
  passed := List.forall_mem_nil _
  ended := List.forall_mem_nil _
  told _ := .refl _
  untold _ := rfl

/-- What workers have done does not depend on what callers are doing. -/
theorem withCallers (faithful : Faithful number sink gates pool events) (callers : List Call) :
    Faithful number sink gates { pool with callers := callers } events where
  home := faithful.home
  keeps := faithful.keeps
  byWorkers := faithful.byWorkers
  plain := faithful.plain
  passed := faithful.passed
  ended := faithful.ended
  told := faithful.told
  untold := faithful.untold

/-- What was done was done as well where more gates are open. -/
theorem mono {more : Gates} (faithful : Faithful number sink gates pool events)
    (open_ : ∀ task left, gates task left = true → more task left = true) :
    Faithful number sink more pool events where
  home := faithful.home
  keeps := faithful.keeps
  byWorkers := faithful.byWorkers
  plain := faithful.plain
  passed worker member := (faithful.passed worker member).mono open_
  ended entry member := by
    rw [Bool.eq_false_iff]
    intro blocked
    -- With fewer gates open it would have been blocked as well.
    have before := Task.isBlocked_mono open_ blocked
    rw [faithful.ended entry member] at before
    cases before
  told := faithful.told
  untold := faithful.untold

/-- A step of a caller takes, ends and reports nothing, and puts plain tasks on the queue only. -/
theorem shift {call later : Call} (faithful : Faithful number sink gates pool events)
    (visit : Visit queue pool after next new) (submission : Submission pool call next later new)
    (stride : Stride refuse plan queue pool call after next later new onward) :
    Faithful number sink gates next (events ++ new) := by
  -- At most there is a new worker, and it has nothing in its hand and nothing to report.
  have kept : ∀ holds : Worker → Prop, (∀ name, holds ⟨name, .opening⟩) →
      (∀ worker ∈ pool.workers, holds worker) →
      ∀ worker ∈ next.workers, holds worker := by
    intro holds fresh before worker member
    rcases visit.workers with same | ⟨name, hired⟩
    · exact before worker (same ▸ member)
    · rw [hired, List.mem_append, List.mem_singleton] at member
      rcases member with old | rfl
      · exact before worker old
      · exact fresh name
  have untold : next.workers.flatMap (·.duty.untold) = pool.workers.flatMap (·.duty.untold) := by
    rcases visit.workers with same | ⟨name, hired⟩
    · rw [same]
    · simp [hired, Duty.untold]
  have ended : endings (events ++ new) = endings events := by
    rw [endings_append, submission.ended, List.append_nil]
  have silent : failureTexts (events ++ new) = failureTexts events := by
    rw [failureTexts_append, stride.silent, List.append_nil]
  refine ⟨visit.number.trans faithful.home, visit.sink.trans faithful.keeps, ?_, ?_, ?_, ?_, ?_, ?_⟩
  · have took : taken number new = [] := by
      rw [← faithful.home]
      exact taken_eq_nil visit.got
    rw [taken_append, took, queueEvents_append, Queue.removedItems_append,
      removed_of_shift visit stride.shift, faithful.byWorkers]
  · intro task member
    rw [queueEvents_append, Queue.pushedItems_append, List.mem_append] at member
    rcases member with old | member
    · exact faithful.plain task old
    · -- Only one kind of step puts a task on the queue.
      cases stride.shift with
      | beside items closed workers shown pushed =>
        rw [pushed] at member
        cases member
      | hire workers shown => cases member
      | put pushing plain pushed =>
        rw [pushed, List.mem_singleton] at member
        exact member ▸ plain
  · exact kept (·.duty.HasPassed gates) (fun _ => trivial) faithful.passed
  · rw [ended]
    exact faithful.ended
  · rw [ended, silent, untold]
    exact faithful.told
  · rw [silent]
    exact faithful.untold

/-- A step of a worker keeps what workers do. -/
theorem work {index : Nat} {name : String} {duty later : Duty} {tally : Tally}
    (faithful : Faithful number sink gates pool events)
    (found : pool.workers[index]? = some ⟨name, duty⟩) (pushed : pushedItems (queueEvents new) = [])
    (errand : Errand gates pool duty later new) :
    Faithful number sink gates (setWorker { pool with tally := tally } index ⟨name, later⟩)
      (events ++ new) := by
  have passed := faithful.passed _ (List.mem_of_getElem? found)
  refine ⟨faithful.home, faithful.keeps, ?_, ?_, ?_, ?_, ?_, ?_⟩
  · -- What the worker takes goes to what workers have taken.
    rw [taken_append, queueEvents_append, Queue.removedItems_append, faithful.byWorkers,
      ← faithful.home, errand.byWorker]
  · intro task member
    rw [queueEvents_append, Queue.pushedItems_append, pushed, List.append_nil] at member
    exact faithful.plain task member
  · intro worker member
    rcases List.mem_or_eq_of_mem_set member with old | rfl
    · exact faithful.passed worker old
    · exact errand.passed passed
  · intro entry member
    rw [endings_append, List.mem_append] at member
    rcases member with old | new
    · exact faithful.ended entry old
    · exact errand.ended passed entry new
  · intro admits
    -- What it has yet to tell of what it ended is told, or is still in its hand.
    have exchange := errand.told (by rw [faithful.keeps]; exact admits)
    rw [endings_append, reportsOf, List.filterMap_append, failureTexts_append]
    exact perm_of_exchange (faithful.told admits) exchange
      (flatMap_set (fun worker => worker.duty.untold) found _)
  · intro admits
    rw [failureTexts_append, faithful.untold admits,
      errand.untold (by rw [faithful.keeps]; exact admits)]
    rfl

/-- A task goes on behind a gate that is open. -/
theorem openGate {index : Nat} {name : String} {task : Task} {left : List Action}
    (faithful : Faithful number sink gates pool events)
    (balanced : Balanced number queue pool events)
    (found : pool.workers[index]? = some ⟨name, .working task (.await :: left)⟩)
    (open_ : gates task left = true) :
    Faithful number sink gates (setWorker pool index ⟨name, .working task left⟩) events := by
  have onTrack := balanced.onTrack _ (List.mem_of_getElem? found)
  -- The gate is the only one that is passed, and it is open.
  have errand : Errand gates pool (.working task (.await :: left)) (.working task left) [] :=
    { passed := fun passed => passed.further onTrack fun _ => open_ }
  have moved : Faithful number sink gates
      (setWorker { pool with tally := pool.tally } index ⟨name, .working task left⟩)
        (events ++ []) :=
    faithful.work found rfl errand
  rwa [List.append_nil] at moved

/-- What workers have taken is plain, since it was put on the queue. -/
theorem plain_taken (faithful : Faithful number sink gates pool events)
    (balanced : Balanced number queue pool events) :
    ∀ task ∈ taken number events, task.IsPlain := by
  intro task took
  rw [faithful.byWorkers] at took
  refine faithful.plain task ?_
  rw [balanced.ledger]
  exact List.mem_append_left _ took

/-- What is in a hand is plain, since it was taken. -/
theorem plain_hands (faithful : Faithful number sink gates pool events)
    (balanced : Balanced number queue pool events) :
    ∀ worker ∈ pool.workers, ∀ task ∈ worker.duty.inHand, task.IsPlain := by
  intro worker member task held
  have inHand : task ∈ pool.workers.flatMap (·.duty.inHand) :=
    List.mem_flatMap.mpr ⟨worker, member, held⟩
  exact faithful.plain_taken balanced task
    (balanced.hands.symm.subset (List.mem_append_right _ inHand))

/-- Every task that has come to an end did so with its own outcome. -/
theorem ends_own (faithful : Faithful number sink gates pool events)
    (balanced : Balanced number queue pool events) :
    ∀ entry ∈ endings events, entry.1.IsPlain ∧ entry.2 = entry.1.outcome := by
  intro entry member
  -- The task is plain, so it cannot have broken off with a call.
  have plain := faithful.plain_taken balanced entry.1
    (balanced.hands.symm.subset (List.mem_append_left _ (List.mem_map_of_mem member)))
  refine ⟨plain, ?_⟩
  rcases balanced.ends entry member with own | ⟨request, text, asked, -⟩
  · exact own
  · exact absurd asked (plain.asks request)

/-- No task has come to a deadly end. -/
theorem mild (faithful : Faithful number sink gates pool events)
    (balanced : Balanced number queue pool events) :
    Mild events := by
  intro event happened
  cases event with
  | ended worker task outcome =>
    -- A task ends with its own outcome, and a plain one has none that is deadly.
    obtain ⟨plain, own⟩ :=
      faithful.ends_own balanced (task, outcome) (List.mem_filterMap.mpr ⟨_, happened, rfl⟩)
    rw [Event.isMild, show outcome = task.outcome from own, plain.mild]
    rfl
  | _ => rfl

/-- Of the tasks that were begun, those that are blocked are in a hand. -/
theorem blocked_in_hands (faithful : Faithful number sink gates pool events)
    (balanced : Balanced number queue pool events) :
    (removedItems (queueEvents events)).countP (·.isBlocked gates) =
      (pool.workers.flatMap (·.duty.inHand)).countP (·.isBlocked gates) := by
  -- Whatever was begun has ended or is in a hand, and what has ended is not blocked.
  have ended : ((endings events).map (·.1)).countP (·.isBlocked gates) = 0 := by
    rw [List.countP_map, List.countP_eq_zero]
    intro entry member blocked
    exact Bool.false_ne_true ((faithful.ended entry member).symm.trans blocked)
  rw [← faithful.byWorkers, balanced.hands.countP_eq, List.countP_append, ended, Nat.zero_add]

/-- While a worker looks for a task, fewer tasks are blocked than there are workers. -/
theorem room {index staff : Nat} {name : String} (faithful : Faithful number sink gates pool events)
    (balanced : Balanced number queue pool events)
    (found : pool.workers[index]? = some ⟨name, .fetching⟩)
    (staffed : pool.workers.countP Worker.stays ≤ staff) :
    (removedItems (queueEvents events)).countP (·.isBlocked gates) < staff := by
  -- The worker itself is free, and the tasks that are blocked are in the hands of others.
  have free : 0 < pool.workers.countP Worker.isFree :=
    List.countP_pos_iff.mpr ⟨_, List.mem_of_getElem? found, rfl⟩
  have hands := hands_length pool.workers
  have held : (pool.workers.flatMap (·.duty.inHand)).countP (·.isBlocked gates) ≤
      (pool.workers.flatMap (·.duty.inHand)).length := List.countP_le_length
  rw [faithful.blocked_in_hands balanced]
  omega

end Faithful

/-- Whether no worker can do anything more by itself. -/
def AtRest (gates : Gates) (queue : Queue Thread Task) (pool : Pool) : Prop :=
  ∀ worker ∈ pool.workers, worker.duty.Rests gates queue.contents

namespace AtRest

/-- Where the workers are at rest, whatever is in a hand is blocked. -/
theorem blocked (rest : AtRest gates queue pool)
    (onTrack : ∀ worker ∈ pool.workers, worker.duty.OnTrack) :
    ∀ task ∈ pool.workers.flatMap (·.duty.inHand), task.isBlocked gates = true := by
  intro task member
  obtain ⟨worker, place, held⟩ := List.mem_flatMap.mp member
  have rests := rest worker place
  have part := onTrack worker place
  obtain ⟨name, duty⟩ := worker
  cases duty with
  | working other left =>
    obtain rfl : task = other := List.mem_singleton.mp held
    cases left with
    | nil => exact rests.elim
    | cons action left =>
      -- Of all actions a worker at rest can only be held up by a wait.
      cases action with
      | await => exact Task.isBlocked_iff.mpr ⟨left, part, rests⟩
      | _ => exact rests.elim
  | _ => cases held

/-- Where the workers are at rest, they look for tasks only at a queue that is open and empty. -/
theorem nobody_free (rest : AtRest gates queue pool)
    (sound : ∀ worker ∈ pool.workers, worker.duty ≠ .gone true)
    (busy : queue.closed = true ∨ queue.items ≠ []) : pool.workers.countP Worker.isFree = 0 := by
  refine List.countP_eq_zero.mpr fun worker member free => ?_
  have rests := rest worker member
  have well := sound worker member
  obtain ⟨name, duty⟩ := worker
  cases duty with
  | fetching =>
    -- A worker that looks for a task would find one, or would find the queue closed.
    rcases busy with closed | some
    · exact Bool.false_ne_true (rests.1.symm.trans closed)
    · exact some rests.2
  | working task left => cases free
  | gone broken =>
    cases broken with
    | true => exact well rfl
    | false => cases free
  | _ => exact rests.elim

/-- Where the workers are at rest, what was begun is what the plan says. -/
theorem begun (rest : AtRest plan.gates queue pool) (fulfils : Fulfils plan queue pool events)
    (faithful : Faithful number sink plan.gates pool events)
    (balanced : Balanced number queue pool events)
    (sound : ∀ worker ∈ pool.workers, worker.duty ≠ .gone true) :
    removedItems (queueEvents events) = plan.begun := by
  obtain ⟨more, split⟩ := fulfils.sealed
  have ledger := balanced.ledger
  -- Behind what was set apart, some tasks were begun and the others are on the queue.
  have waiting : plan.waiting = more ++ queue.items := by
    rw [fulfils.pushed, ← split, List.append_assoc] at ledger
    exact List.append_cancel_left ledger
  rw [Plan.begun, ← split]
  congr 1
  refine eq_reach (waiting ▸ List.prefix_append ..) (fun early task last => ?_) ?_
  · have served := fulfils.served early task (by rw [← split, last, List.append_assoc])
    rw [List.countP_append] at served
    omega
  · by_cases none : queue.items = []
    · exact .inl (by rw [waiting, none, List.append_nil])
    · -- With something left to begin, every worker has a task in its hand,
      -- and all of these are blocked.
      right
      have free := rest.nobody_free sound (.inr none)
      have hands := hands_length pool.workers
      have blocked := faithful.blocked_in_hands balanced
      rw [List.countP_eq_length.mpr (rest.blocked balanced.onTrack)] at blocked
      have enough : plan.staff ≤ pool.workers.countP Worker.stays := by
        by_contra few
        exact none (fulfils.drained (Nat.lt_of_not_le few)).2
      have total : plan.sealed.countP plan.blocks + more.countP plan.blocks =
          (removedItems (queueEvents events)).countP plan.blocks := by
            rw [← split, List.countP_append]
      have same : (removedItems (queueEvents events)).countP plan.blocks =
          (removedItems (queueEvents events)).countP (·.isBlocked plan.gates) := rfl
      omega

/-- Where the workers are at rest at a closed queue, those that have not left are blocked. -/
theorem left_blocked (rest : AtRest gates queue pool)
    (faithful : Faithful number sink gates pool events)
    (balanced : Balanced number queue pool events)
    (sound : ∀ worker ∈ pool.workers, worker.duty ≠ .gone true) (closed : queue.closed = true) :
    pool.workers.countP Worker.stays = (removedItems (queueEvents events)).countP
      (·.isBlocked gates) := by
  -- Nobody is free at a closed queue, so everybody who stays has one task in its hand.
  have free := rest.nobody_free sound (.inl closed)
  have hands := hands_length pool.workers
  rw [faithful.blocked_in_hands balanced, List.countP_eq_length.mpr (rest.blocked balanced.onTrack)]
  omega

end AtRest

variable {world : World}

/-- Where nothing moves any more, no call will change anything. -/
theorem Settled.idle (settled : Settled refuse gates world) (owned : world.Owned)
    (orderly : world.pool.Orderly) (usual : ∀ call ∈ world.pool.callers, call.IsUsual) :
    ∀ call ∈ world.pool.callers, call.IsIdle (faceOf world.queue world.pool) := by
  intro call member
  obtain ⟨caller, found⟩ := List.getElem?_of_mem member
  obtain ⟨awake, onward⟩ := (usual call member).awake
  have free := settled.roster_free owned
  -- Whoever holds the lock on the life of the pool waits for its workers, so the pool was stopped.
  have dead : world.pool.lifecycle ≠ none → (faceOf world.queue world.pool).IsDead := by
    intro taken
    obtain ⟨owner, held⟩ := Option.ne_none_iff_exists'.mp taken
    obtain ⟨left, waits⟩ := settled.life_owner owned held
    obtain ⟨-, ended, stopped, -⟩ := orderly.held owner _ _ waits rfl
    exact ⟨stopped, ended⟩
  rcases Call.stuck onward (settled.call found) with
    ended | ⟨locking, taken⟩ | ⟨-, held⟩ | ⟨left, rfl⟩ | popping
  · cases call with
    | returned | broken => trivial
    | _ => cases ended
  · cases call with
    | start count phase =>
      cases phase with
      | locking => exact dead taken
      | _ => cases locking
    | stop phase =>
      cases phase with
      | locking => exact dead taken
      | _ => cases locking
    | _ => cases locking
  · exact absurd free held
  · trivial
  · exact absurd (awake.symm.trans popping) Bool.false_ne_true

/-- Where nothing moves any more and tasks ask nobody for anything, the workers are at rest. -/
theorem Settled.atRest (settled : Settled refuse gates world) (attentive : world.Attentive)
    (usual : ∀ call ∈ world.pool.callers, call.IsUsual)
    (onTrack : ∀ worker ∈ world.pool.workers, worker.duty.OnTrack)
    (plain : ∀ worker ∈ world.pool.workers, ∀ task ∈ worker.duty.inHand, task.IsPlain) :
    AtRest gates world.queue world.pool := by
  -- Whoever could do anything could be given a turn.
  intro worker member
  obtain ⟨index, found⟩ := List.getElem?_of_mem member
  have part := onTrack worker member
  have alone := plain worker member
  obtain ⟨name, duty⟩ := worker
  have stuck := settled.work found
  cases duty with
  | fetching => exact settled.nothing_left attentive (fun call member =>
    (usual call member).awake.2) found
  | working task left =>
    cases left with
    | nil => cases stuck
    | cons action left =>
      cases action with
      | note | noteThread => cases stuck
      | await =>
        show gates task left = false
        rw [Bool.eq_false_iff]
        intro open_
        -- The gate could be opened for the worker.
        have none := settled (.openGate index) ⟨name, task, left, found, open_⟩
        simp [step, found] at none
      | ask request =>
        -- A plain task asks nothing.
        exact absurd (part.subset List.mem_cons_self)
          ((alone task (List.mem_singleton_self task)).asks request)
  | reporting failure => cases failure <;> cases stuck
  | gone broken => trivial
  | _ => cases stuck

end TaskPool.World
