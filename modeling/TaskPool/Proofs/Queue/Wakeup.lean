import Mathlib.Data.List.Nodup
import TaskPool.Proofs.Queue.Turn
import TaskPool.Proofs.Run

/-!
Nobody sleeps at a queue that is closed or has something to take,
unless somebody is about to be woken.
-/

namespace TaskPool.Queue

variable {κ α : Type}

/-- Whether a call has put an item on the queue and has told nobody yet. -/
def Call.owesWake : Call α → Bool
  | .notifying => true
  | _ => false

/-- Whether a call has closed the queue and has told nobody yet. -/
def Call.owesWakeAll : Call α → Bool
  | .notifyingAll => true
  | _ => false

/--
Whoever sleeps at the queue sleeps with good reason, where so many wakes of one
and of all are still owed.

For every item some consumer is awake or will be woken, unless everybody is about to be.
-/
def Attended (queue : Queue κ α) (wakes wakesOfAll : Nat) : Prop :=
  queue.asleep ≠ [] →
    queue.closed = false ∧ queue.items.length ≤ queue.woken.length + wakes ∨ 0 < wakesOfAll

/--
Sleepers stay attended where no more of them sleep, and items gained are made up
for by wakes owed or given.
-/
theorem Attended.transfer {queue after : Queue κ α} {wakes wakesAfter wakesOfAll : Nat}
    (attended : Attended queue wakes wakesOfAll) (asleep : after.asleep ≠ [] → queue.asleep ≠ [])
    (closed : after.closed = queue.closed)
    (enough : queue.items.length ≤ queue.woken.length + wakes →
      after.items.length ≤ after.woken.length + wakesAfter) :
    Attended after wakesAfter wakesOfAll := by
  -- Whoever sleeps now slept before, so there was a reason before, and it is still one.
  intro sleepers
  rcases attended (asleep sleepers) with ⟨still, served⟩ | all
  · exact .inl ⟨closed.trans still, enough served⟩
  · exact .inr all

/-- A try takes at most one item, and changes nothing else. -/
theorem tryTake_rest (queue : Queue κ α) :
    ∃ items : List α, items.length ≤ queue.items.length ∧
      queue.tryTake.2 = { queue with items := items } := by
  -- Only an open queue with an item in it loses something to a try.
  obtain ⟨items, closed, asleep, woken⟩ := queue
  cases closed with
  | true => exact ⟨items, Nat.le_refl _, rfl⟩
  | false =>
    cases items with
    | nil => exact ⟨[], Nat.le_refl _, rfl⟩
    | cons item rest => exact ⟨rest, Nat.le_succ _, rfl⟩

/-- Who waits at the queue, asleep or awake again. -/
def waiting (queue : Queue κ α) : List κ := queue.asleep ++ queue.woken

variable [DecidableEq κ] {self : κ} {chosen : Option κ} {queue after : Queue κ α}
  {call next : Call α} {events : List (Event κ α)}

/--
A consumer that looks at the queue takes its own wake with it, but then it has taken
an item or there is none.
-/
theorem take_attended {wakes wakesOfAll : Nat} (attended : Attended queue wakes wakesOfAll)
    (consumer : κ) :
    Attended (queue.take consumer).2 wakes wakesOfAll := by
  -- A consumer that was woken counts for one item, and takes one if there is any.
  obtain ⟨items, closed, asleep, woken⟩ := queue
  cases items with
  | cons item rest =>
    -- One item less makes up for the one consumer that is not awake any more.
    have fewer : woken.length ≤ (woken.erase consumer).length + 1 := by
      have := List.le_length_erase (l := woken) (a := consumer)
      omega
    refine attended.transfer id rfl fun enough => ?_
    simp [take] at enough ⊢
    omega
  | nil =>
    cases closed with
    | true => exact attended.transfer id rfl fun _ => Nat.zero_le _
    -- Here the consumer itself falls asleep, but the queue is open and has no items.
    | false => exact fun _ => .inl ⟨rfl, Nat.zero_le _⟩

/--
A step of one call leaves nobody asleep without reason, whatever the calls of others still owe.
-/
theorem Call.step_attended {wakes wakesOfAll : Nat}
    (attended : Attended queue (wakes + call.owesWake.toNat) (wakesOfAll + call.owesWakeAll.toNat))
    (stepped : call.step self chosen queue = some (after, next, events)) :
    Attended after (wakes + next.owesWake.toNat) (wakesOfAll + next.owesWakeAll.toNat) := by
  -- Each kind of step pays for the items and sleepers that it leaves behind.
  cases call with
  | pushing item =>
    -- The new item comes with a wake that is owed for it.
    obtain ⟨rfl, rfl, -⟩ : _ ∧ _ ∧ _ := by simpa [step] using stepped
    refine attended.transfer id rfl fun enough => ?_
    simp [append, owesWake] at enough ⊢
    omega
  | notifying =>
    cases chosen with
    | none =>
      -- Nobody is chosen only where nobody sleeps.
      obtain ⟨nobody, rfl, -, -⟩ : _ ∧ _ ∧ _ ∧ _ := by simpa [step] using stepped
      exact fun asleep => absurd nobody asleep
    | some consumer =>
      -- What was owed is now a consumer that is awake.
      obtain ⟨member, rfl, rfl, -⟩ : _ ∧ _ ∧ _ ∧ _ := by simpa [step] using stepped
      refine attended.transfer (fun _ => List.ne_nil_of_mem member) rfl fun enough => ?_
      simp [wake, owesWake] at enough ⊢
      omega
  | popping =>
    have looked := take_attended attended self
    simp only [step] at stepped
    split at stepped
    · cases stepped
    · split at stepped <;> rename_i met <;> rw [met] at looked <;>
        obtain ⟨rfl, rfl, -⟩ : _ ∧ _ ∧ _ := by simpa using stepped
      all_goals exact looked
  | trying =>
    obtain ⟨rfl, rfl, -⟩ : _ ∧ _ ∧ _ := by simpa [step] using stepped
    obtain ⟨items, shorter, same⟩ := queue.tryTake_rest
    rw [same]
    exact attended.transfer id rfl fun enough => Nat.le_trans shorter enough
  | clearing =>
    -- No items are left that anybody could be woken for.
    obtain ⟨rfl, rfl, -⟩ : _ ∧ _ ∧ _ := by simpa [step] using stepped
    exact attended.transfer id rfl fun _ => Nat.zero_le _
  | closing =>
    -- Whoever sleeps at the closed queue will be woken by this very call.
    obtain ⟨rfl, rfl, -⟩ : _ ∧ _ ∧ _ := by simpa [step] using stepped
    exact fun _ => .inr (Nat.succ_pos _)
  | notifyingAll =>
    -- Nobody sleeps any more.
    obtain ⟨rfl, rfl, -⟩ : _ ∧ _ ∧ _ := by simpa [step] using stepped
    exact fun sleepers => absurd rfl sleepers
  | returned item => cases stepped

omit [DecidableEq κ] in
/-- Waking everybody changes nobody's place in the list of those who wait. -/
theorem wakeAll_waiting (queue : Queue κ α) : queue.wakeAll.waiting.Perm queue.waiting := by
  simpa [waiting, wakeAll] using List.perm_append_comm

/-- Waking a sleeping consumer only moves it. -/
theorem wake_waiting {consumer : κ} (member : consumer ∈ queue.asleep) :
    (queue.wake consumer).waiting.Perm queue.waiting := by
  -- The consumer leaves the sleepers and goes behind those that are awake again.
  have moved : (queue.asleep.erase consumer ++ (queue.woken ++ [consumer])).Perm
      (consumer :: (queue.asleep.erase consumer ++ queue.woken)) := by
    rw [← List.append_assoc]
    exact List.perm_append_singleton ..
  exact moved.trans ((List.perm_cons_erase member).symm.append_right queue.woken)

/-- A consumer that looks at the queue does not wait any more, unless it falls asleep. -/
theorem take_waiting {consumer : κ} (awake : consumer ∉ queue.asleep) (once : queue.waiting.Nodup) :
    (queue.take consumer).2.waiting.Nodup ∧
      ∀ thread ∈ (queue.take consumer).2.waiting,
        thread = consumer ∧ (queue.take consumer).1 = .nothing ∨
          thread ≠ consumer ∧ thread ∈ queue.waiting := by
  -- Whatever the consumer meets, it gives up the place that it had among those awake.
  obtain ⟨items, closed, asleep, woken⟩ := queue
  have others : (asleep ++ woken.erase consumer).Nodup :=
    once.sublist (List.Sublist.append_left List.erase_sublist asleep)
  have gone : consumer ∉ asleep ++ woken.erase consumer := by
    -- It had at most one place, so it has none left.
    have single : woken.Nodup := (List.nodup_append.mp once).2.1
    simpa [single.mem_erase_iff] using awake
  have earlier : ∀ thread ∈ asleep ++ woken.erase consumer,
      thread ≠ consumer ∧ thread ∈ asleep ++ woken := by
    intro thread member
    refine ⟨fun same => gone (same ▸ member), ?_⟩
    exact (List.Sublist.append_left List.erase_sublist asleep).subset member
  cases items with
  | cons item rest => exact ⟨others, fun thread member => .inr (earlier thread member)⟩
  | nil =>
    cases closed with
    | true => exact ⟨others, fun thread member => .inr (earlier thread member)⟩
    | false =>
      -- Only here the consumer is among the waiting again.
      have moved : (asleep ++ [consumer] ++ woken.erase consumer).Perm
          (consumer :: (asleep ++ woken.erase consumer)) := by
        rw [List.append_assoc]
        exact List.perm_middle
      refine ⟨moved.symm.nodup (List.nodup_cons.mpr ⟨gone, others⟩), fun thread member => ?_⟩
      rcases List.mem_cons.mp (moved.mem_iff.mp member) with same | member
      · exact .inl ⟨same, rfl⟩
      · exact .inr (earlier thread member)

/--
Only a call that would wait for an item, and has not got any answer,
puts its thread among the waiting.
-/
theorem Call.step_waiting (own : self ∈ queue.waiting → call = .popping)
    (once : queue.waiting.Nodup)
    (stepped : call.step self chosen queue = some (after, next, events)) :
    after.waiting.Nodup ∧
      ∀ thread ∈ after.waiting,
        thread = self ∧ next = .popping ∨ thread ≠ self ∧ thread ∈ queue.waiting := by
  -- A call of another kind leaves the waiting as they are, and its own thread is not one of them.
  have same (other : call ≠ .popping) (moved : after.waiting.Perm queue.waiting) :
      after.waiting.Nodup ∧ ∀ thread ∈ after.waiting,
        thread = self ∧ next = .popping ∨ thread ≠ self ∧ thread ∈ queue.waiting := by
    refine ⟨moved.symm.nodup once, fun thread member => .inr ?_⟩
    have before := moved.mem_iff.mp member
    exact ⟨fun same => other (own (same ▸ before)), before⟩
  cases call with
  | popping =>
    simp only [step] at stepped
    split at stepped
    · cases stepped
    · -- The thread is awake, and what it meets decides whether it waits on.
      rename_i awake
      have looked := take_waiting awake once
      split at stepped <;> rename_i met <;> rw [met] at looked <;>
        obtain ⟨rfl, rfl, -⟩ : _ ∧ _ ∧ _ := by simpa using stepped
      all_goals simpa using looked
  | notifying =>
    cases chosen with
    | none =>
      obtain ⟨-, rfl, -, -⟩ : _ ∧ _ ∧ _ ∧ _ := by simpa [step] using stepped
      exact same (by simp) (.refl _)
    | some consumer =>
      obtain ⟨member, rfl, -, -⟩ : _ ∧ _ ∧ _ ∧ _ := by simpa [step] using stepped
      exact same (by simp) (wake_waiting member)
  | trying =>
    obtain ⟨rfl, -, -⟩ : _ ∧ _ ∧ _ := by simpa [step] using stepped
    obtain ⟨items, -, left⟩ := queue.tryTake_rest
    exact same (by simp) (by rw [left]; exact .refl _)
  | notifyingAll =>
    obtain ⟨rfl, -, -⟩ : _ ∧ _ ∧ _ := by simpa [step] using stepped
    exact same (by simp) queue.wakeAll_waiting
  | returned item => cases stepped
  | _ =>
    obtain ⟨rfl, -, -⟩ : _ ∧ _ ∧ _ := by simpa [step] using stepped
    exact same (by simp) (.refl _)

/-- Where one entry of a list is replaced, the count of the others stays the same. -/
theorem countP_set_frame {β : Type} (counts : β → Bool) {entries : List β} {place : Nat} {entry : β}
    (found : entries[place]? = some entry) :
    ∃ others, entries.countP counts = others + (counts entry).toNat ∧
      ∀ new, (entries.set place new).countP counts = others + (counts new).toNat := by
  -- The entry that is replaced counts for itself, and the rest of the count is that of the others.
  obtain ⟨within, rfl⟩ := List.getElem?_eq_some_iff.mp found
  have enough : (counts entries[place]).toNat ≤ entries.countP counts := by
    cases counted : counts entries[place] with
    | false => exact Nat.zero_le _
    | true => exact List.countP_pos_iff.mpr ⟨_, List.getElem_mem within, counted⟩
  refine ⟨entries.countP counts - (counts entries[place]).toNat, by omega, fun new => ?_⟩
  rw [List.countP_set within]
  cases counts entries[place] <;> cases counts new <;> simp

namespace Traffic

variable {traffic next : Traffic α} {turn : Turn α}

/--
Who waits at the queue is in the middle of a call, and whoever sleeps there
does so with good reason.
-/
structure Attentive (traffic : Traffic α) : Prop where
  once : traffic.queue.waiting.Nodup
  popping : ∀ thread ∈ traffic.queue.waiting, traffic.calls[thread]? = some .popping
  attended : traffic.queue.Attended (traffic.calls.countP Call.owesWake)
    (traffic.calls.countP Call.owesWakeAll)

/-- A new call owes no wake, and no other call is changed by it. -/
theorem Attentive.begin {thread : Nat} {request : Request α} {events : List (Event Nat α)}
    (attentive : traffic.Attentive)
    (stepped : traffic.step (.begin thread request) = some (next, events)) :
    next.Attentive := by
  -- A call begins where nobody waits, so who waits and what is owed to them stay the same.
  obtain ⟨-, queue, calls⟩ := step_begin stepped
  have owes : request.call.owesWake = false ∧ request.call.owesWakeAll = false := by
    cases request <;> exact ⟨rfl, rfl⟩
  rcases calls with calls | ⟨item, found, calls⟩
  · -- A thread that is new has the last place, so nobody's place has changed.
    refine ⟨by rw [queue]; exact attentive.once, fun waiter member => ?_, ?_⟩
    · have old := attentive.popping waiter (queue ▸ member)
      rw [calls, List.getElem?_append_left (List.getElem?_eq_some_iff.mp old).1, old]
    · simpa [queue, calls, owes] using attentive.attended
  · refine ⟨by rw [queue]; exact attentive.once, fun waiter member => ?_, ?_⟩
    · -- Who waits has not returned, so its call is another one.
      have old := attentive.popping waiter (queue ▸ member)
      have other : thread ≠ waiter := by
        rintro rfl
        simp [found] at old
      rw [calls, List.getElem?_set_ne other, old]
    · -- Neither the call that has returned nor the new one owes anything.
      obtain ⟨wakes, before, after⟩ := countP_set_frame Call.owesWake found
      obtain ⟨all, beforeAll, afterAll⟩ := countP_set_frame Call.owesWakeAll found
      have attended := attentive.attended
      rw [before, beforeAll] at attended
      rw [queue, calls, after, afterAll, owes.1, owes.2]
      exact attended

/-- A step of a call keeps everybody's sleep in order. -/
theorem Attentive.advance {thread : Nat} {chosen : Option Nat} {events : List (Event Nat α)}
    (attentive : traffic.Attentive)
    (stepped : traffic.step (.advance thread chosen) = some (next, events)) :
    next.Attentive := by
  -- What the calls of others owe is split off, so that the step is one of a single call.
  obtain ⟨call, queue, after, found, moved, rfl⟩ := step_advance.mp stepped
  have within := (List.getElem?_eq_some_iff.mp found).1
  have own : thread ∈ traffic.queue.waiting → call = .popping := fun member =>
    Option.some.inj (found.symm.trans (attentive.popping thread member))
  obtain ⟨once, waiting⟩ := Call.step_waiting own attentive.once moved
  refine ⟨once, fun waiter member => ?_, ?_⟩
  · -- Who waits now is the thread of this call, or waited before in a call that has not changed.
    rcases waiting waiter member with ⟨rfl, rfl⟩ | ⟨other, earlier⟩
    · simp [within]
    · simpa [List.getElem?_set_ne other.symm] using attentive.popping waiter earlier
  · obtain ⟨wakes, before, later⟩ := countP_set_frame Call.owesWake found
    obtain ⟨all, beforeAll, laterAll⟩ := countP_set_frame Call.owesWakeAll found
    have attended := attentive.attended
    rw [before, beforeAll] at attended
    rw [later, laterAll]
    exact Call.step_attended attended moved

/-- In every run from a new queue, everybody's sleep is in order. -/
theorem run_attentive {turns : List (Turn α)} {events : List (Event Nat α)}
    (ran : runOf step (.empty : Traffic α) turns = some (traffic, events)) : traffic.Attentive := by
  -- Nobody sleeps at a new queue, and each turn keeps the order.
  refine run_invariant (fun traffic _ => traffic.Attentive) ?_ ?_ ran
  · exact ⟨List.nodup_nil, by simp [empty, Queue.empty, waiting], fun sleepers =>
      absurd rfl sleepers⟩
  · intro state _ turn next new attentive stepped
    cases turn with
    | begin thread request => exact attentive.begin stepped
    | advance thread chosen => exact attentive.advance stepped

/-- Nothing moves any more: no thread can go on with its call. -/
def Settled (traffic : Traffic α) : Prop :=
  ∀ thread chosen, traffic.step (.advance thread chosen) = none

/-- Where nothing moves any more, no call is at a point from which it can always go on. -/
theorem Settled.blocked {thread : Nat} {call : Call α} (settled : traffic.Settled)
    (found : traffic.calls[thread]? = some call) (chosen : Option Nat) :
    call.step thread chosen traffic.queue = none := by
  -- A step of the call would be a turn of its thread.
  cases moved : call.step thread chosen traffic.queue with
  | none => rfl
  | some result =>
    have stepped := step_advance.mpr ⟨call, result.1, result.2.1, found, moved, rfl⟩
    rw [settled thread chosen] at stepped
    cases stepped

/-- A call that would wait can go on unless its thread is asleep. -/
theorem Settled.asleep {thread : Nat} (settled : traffic.Settled)
    (found : traffic.calls[thread]? = some .popping) : thread ∈ traffic.queue.asleep := by
  -- An awake thread would get an item, or learn that there is none left, or fall asleep.
  by_contra awake
  have blocked := settled.blocked found none
  simp only [Call.step, if_neg awake] at blocked
  split at blocked <;> cases blocked

/--
No wake is ever lost, whatever any number of threads do at a new queue and whichever
sleeper each wake goes to.

If some consumer is asleep, then the queue is open and for each of its items
some consumer is awake again or will be woken by a call that has brought an item,
or else a call that has closed the queue is about to wake everybody. So once nothing moves any more,
a consumer still waits only at a queue that is open and empty.
-/
theorem no_wake_is_lost {turns : List (Turn α)} {events : List (Event Nat α)}
    (ran : runOf step (.empty : Traffic α) turns = some (traffic, events)) :
    (∀ sleeper ∈ traffic.queue.asleep,
      traffic.calls[sleeper]? = some .popping ∧
      (traffic.queue.closed = false ∧
          traffic.queue.items.length ≤
            traffic.queue.woken.length + traffic.calls.countP Call.owesWake ∨
        .notifyingAll ∈ traffic.calls)) ∧
    (traffic.Settled → ∀ thread : Nat, traffic.calls[thread]? = some .popping →
      traffic.queue.closed = false ∧ traffic.queue.items = []) := by
  -- The counts hold in every state, and in a settled one nothing is left to be counted but items.
  have attentive := run_attentive ran
  have reason : traffic.queue.asleep ≠ [] →
      traffic.queue.closed = false ∧
          traffic.queue.items.length ≤
            traffic.queue.woken.length + traffic.calls.countP Call.owesWake ∨
        .notifyingAll ∈ traffic.calls := by
    intro sleepers
    rcases attentive.attended sleepers with served | all
    · exact .inl served
    · -- Only one kind of call owes a wake of everybody.
      obtain ⟨call, member, owes⟩ := List.countP_pos_iff.mp all
      cases call <;> simp [Call.owesWakeAll] at owes
      exact .inr member
  refine ⟨fun sleeper member => ?_, fun settled thread found => ?_⟩
  · exact ⟨attentive.popping sleeper (List.mem_append_left _ member),
      reason (List.ne_nil_of_mem member)⟩
  · have asleep := settled.asleep found
    -- A consumer that is awake could look at the queue.
    have woken : traffic.queue.woken = [] := by
      refine List.eq_nil_iff_forall_not_mem.mpr fun waiter member => ?_
      have apart := (List.nodup_append.mp attentive.once).2.2
      have popping := attentive.popping waiter (List.mem_append_right _ member)
      exact apart waiter (settled.asleep popping) waiter member rfl
    -- A wake that is owed could be given to the sleeper.
    have paid : traffic.calls.countP Call.owesWake = 0 := by
      refine List.countP_eq_zero.mpr fun call member owes => ?_
      obtain ⟨caller, place⟩ := List.getElem?_of_mem member
      cases call <;> simp [Call.owesWake] at owes
      simpa [Call.step, asleep] using settled.blocked place (some thread)
    -- A wake of everybody needs nobody to go to, so a call that owes one could always go on.
    have allPaid : .notifyingAll ∉ traffic.calls := by
      intro member
      obtain ⟨caller, place⟩ := List.getElem?_of_mem member
      simpa [Call.step] using settled.blocked place none
    rcases reason (List.ne_nil_of_mem asleep) with ⟨open_, served⟩ | all
    · -- With nobody awake and nothing owed, there is no room for an item.
      refine ⟨open_, List.eq_nil_of_length_eq_zero ?_⟩
      simpa [woken, paid] using served
    · exact absurd all allPaid

/-- A sleeper is woken for an item that a try takes first. -/
def stolenItem : List (Turn Nat) :=
  [.begin 0 .pop, .advance 0 none, .begin 1 (.push 7), .advance 1 none, .begin 2 .tryPop,
    .advance 1 (some 0), .advance 2 none, .advance 0 none]

/-- The sleeper whose item was stolen sleeps again, at a queue that is open and empty. -/
theorem no_wake_is_lost_to_a_try :
    ∃ traffic events, runOf step (.empty : Traffic Nat) stolenItem = some (traffic, events) ∧
      traffic.queue.asleep = [0] ∧ traffic.Settled ∧
      traffic.queue.closed = false ∧ traffic.queue.items = [] := by
  refine ⟨_, _, rfl, rfl, ?settled, (@no_wake_is_lost Nat _ stolenItem _ rfl).2 ?settled 0 rfl⟩
  intro thread chosen
  match thread with
  | 0 | 1 | 2 | _ + 3 => rfl

end Traffic

end TaskPool.Queue
