import TaskPool.Pool.World

/-! What one turn of a pool and its queue can do, told by who takes it. -/

namespace TaskPool.World

variable {world next : World} {events : List Pool.Event}

/-- A call begins at a new place or where the last call has ended, and nothing happens. -/
theorem step_begin {caller : Nat} {request : Pool.Request}
    (stepped : world.step (.begin caller request) = some (next, events)) :
    events = [] ∧ ∃ callers, next = { world with pool := { world.pool with callers := callers } } ∧
      (callers = world.pool.callers ++ [request.call] ∨
        ∃ call, world.pool.callers[caller]? = some call ∧ call.hasEnded = true ∧
          callers = world.pool.callers.set caller request.call) := by
  -- A call begins at a place that nobody has, or at one whose last call has ended.
  simp only [step] at stepped
  split at stepped
  · obtain ⟨rfl, rfl⟩ : _ ∧ _ := by simpa using stepped
    exact ⟨rfl, _, rfl, .inl rfl⟩
  · cases found : world.pool.callers[caller]? with
    | none => simp [found] at stepped
    | some call =>
      simp only [found, Option.ite_none_right_eq_some, Option.some.injEq, Prod.mk.injEq] at stepped
      obtain ⟨ended, rfl, rfl⟩ := stepped
      exact ⟨rfl, _, rfl, .inr ⟨call, rfl, ended, rfl⟩⟩

/-- A call stands at one place among the calls, and at all other places everything is as it was. -/
structure Placed (before : List Pool.Call) (place : Nat) (call : Pool.Call)
    (after : List Pool.Call) : Prop where
  known : after[place]? = some call
  others : ∀ other, other ≠ place → after[other]? = before[other]?

namespace Placed

variable {before after : List Pool.Call} {place : Nat} {call : Pool.Call}

/-- A call stands where the call before it stood. -/
theorem set {earlier : Pool.Call} (found : before[place]? = some earlier) :
    Placed before place call (before.set place call) where
  known := by
    rw [List.getElem?_set_self]
    exact (List.getElem?_eq_some_iff.mp found).1
  others other apart := List.getElem?_set_ne (Ne.symm apart)

/-- A call stands behind all others. -/
theorem append : Placed before before.length call (before ++ [call]) where
  known := by simp
  others other apart := by
    rcases Nat.lt_or_gt_of_ne apart with within | beyond
    · exact List.getElem?_append_left within
    · -- Beyond the new call there is nothing, as there was nothing beyond the last one.
      rw [List.getElem?_eq_none (by simp; omega), List.getElem?_eq_none (Nat.le_of_lt beyond)]

/-- Each call is the one that has its place now, or one that stood elsewhere before. -/
theorem cases_mem (placed : Placed before place call after) {other : Pool.Call}
    (member : other ∈ after) :
    other = call ∨ ∃ index, index ≠ place ∧ before[index]? = some other := by
  -- Every call stands somewhere, and it is the new one just if it stands at its place.
  obtain ⟨index, found⟩ := List.getElem?_of_mem member
  by_cases here : index = place
  · rw [here, placed.known] at found
    exact .inl (Option.some.inj found).symm
  · exact .inr ⟨index, here, (placed.others index here).symm.trans found⟩

end Placed

/-- A call that begins takes a place of its own, where nothing goes on. -/
theorem placed_of_step_begin {caller : Nat} {request : Pool.Request}
    (stepped : world.step (.begin caller request) = some (next, events)) :
    events = [] ∧
      ∃ place callers, next = { world with pool := { world.pool with callers := callers } } ∧
      Placed world.pool.callers place request.call callers ∧
      ∀ call, world.pool.callers[place]? = some call → call.hasEnded = true := by
  obtain ⟨nothing, callers, same, added⟩ := step_begin stepped
  rcases added with rfl | ⟨earlier, found, ended, rfl⟩
  · -- Behind all calls there was none.
    refine ⟨nothing, world.pool.callers.length, _, same, .append, fun call known => ?_⟩
    exact absurd (List.getElem?_eq_some_iff.mp known).1 (Nat.lt_irrefl _)
  · refine ⟨nothing, caller, _, same, .set found, fun call known => ?_⟩
    rw [found] at known
    cases known
    exact ended

/-- Nobody begins a call in the middle of another one. -/
theorem ended_of_step_begin {caller : Nat} {request : Pool.Request} {call : Pool.Call}
    (stepped : world.step (.begin caller request) = some (next, events))
    (found : world.pool.callers[caller]? = some call) : call.hasEnded = true := by
  -- A place that is behind the last caller has no call.
  have within := (List.getElem?_eq_some_iff.mp found).1
  simp only [step, if_neg (Nat.ne_of_lt within), found, Option.ite_none_right_eq_some] at stepped
  exact stepped.1

/-- A caller that goes on takes one step of its call. -/
theorem step_caller {caller : Nat} {chance : Pool.Chance} :
    world.step (.caller caller chance) = some (next, events) ↔
      ∃ call queue pool after, world.pool.callers[caller]? = some call ∧
        call.step world.queue world.pool caller chance = some (queue, pool, after, events) ∧
        next = ⟨queue, setCaller pool caller after⟩ := by
  -- The turn is possible where there is such a caller and its call can go on.
  simp only [step]
  cases found : world.pool.callers[caller]? with
  | none => simp
  | some call =>
    simp only [Option.map_eq_some_iff, Prod.exists, Prod.mk.injEq, Option.some.injEq]
    constructor
    · rintro ⟨queue, pool, after, new, stepped, same, rfl⟩
      exact ⟨call, queue, pool, after, rfl, stepped, same.symm⟩
    · rintro ⟨_, queue, pool, after, rfl, stepped, same⟩
      exact ⟨queue, pool, after, events, stepped, same.symm, rfl⟩

/-- A worker that goes on takes one step of its duty. -/
theorem step_worker {index : Nat} {chance : Pool.Chance} :
    world.step (.worker index chance) = some (next, events) ↔
      ∃ name duty queue pool after, world.pool.workers[index]? = some ⟨name, duty⟩ ∧
        Pool.work world.queue world.pool index name chance.micros duty =
        some (queue, pool, after, events) ∧
        next = ⟨queue, setWorker pool index ⟨name, after⟩⟩ := by
  -- The turn is possible where there is such a worker and its duty can go on.
  simp only [step]
  cases found : world.pool.workers[index]? with
  | none => simp
  | some worker =>
    obtain ⟨name, duty⟩ := worker
    simp only [Option.map_eq_some_iff, Prod.exists, Prod.mk.injEq, Option.some.injEq,
      Worker.mk.injEq]
    constructor
    · rintro ⟨queue, pool, after, new, stepped, same, rfl⟩
      exact ⟨name, duty, queue, pool, after, ⟨rfl, rfl⟩, stepped, same.symm⟩
    · rintro ⟨_, _, queue, pool, after, ⟨rfl, rfl⟩, stepped, same⟩
      exact ⟨queue, pool, after, events, stepped, same.symm, rfl⟩

/--
A gate is opened only for a worker whose task waits at one, and then the task goes on behind it.
-/
theorem step_openGate {index : Nat} (stepped : world.step (.openGate index) = some (next, events)) :
    events = [] ∧ ∃ name task left, world.pool.workers[index]? =
      some ⟨name, .working task (.await :: left)⟩ ∧
      next = { world with pool := setWorker world.pool index ⟨name, .working task left⟩ } := by
  -- A worker with any other duty waits at no gate.
  simp only [step] at stepped
  split at stepped
  · rename_i name task left found
    obtain ⟨rfl, rfl⟩ : _ ∧ _ := by simpa using stepped
    exact ⟨rfl, name, task, left, found, rfl⟩
  · cases stepped

/--
A worker comes back from a call of its task and goes on with the task, or the task has
broken off with the call.
-/
theorem step_resume {index : Nat} {broken : Option String}
    (stepped : world.step (.resume index broken) = some (next, events)) :
    ∃ name task request left after,
      world.pool.workers[index]? = some ⟨name, .working task (.ask request :: left)⟩ ∧
      next = { world with pool := setWorker world.pool index ⟨name, after⟩ } ∧
      (after = .working task left ∧ events = [] ∨
        ∃ text, after = .counting task (.panicked (.message text)) ∧
          events = [.ended index task (.panicked (.message text))]) := by
  -- A worker with any other duty waits for no call.
  simp only [step] at stepped
  split at stepped
  · rename_i name duty found
    obtain ⟨⟨after, new⟩, moved, same⟩ := Option.map_eq_some_iff.mp stepped
    obtain ⟨rfl, rfl⟩ : _ ∧ _ := by simpa using same
    simp only [resumed] at moved
    split at moved
    · rename_i task request left
      cases broken with
      | none =>
        obtain ⟨rfl, rfl⟩ : _ ∧ _ := by simpa using moved
        exact ⟨name, task, request, left, _, found, rfl, .inl ⟨rfl, rfl⟩⟩
      | some text =>
        obtain ⟨rfl, rfl⟩ : _ ∧ _ := by simpa using moved
        exact ⟨name, task, request, left, _, found, rfl, .inr ⟨_, rfl, rfl⟩⟩
    · cases moved
  · cases stepped

end TaskPool.World
