import Mathlib.Algebra.Group.Basic
import Mathlib.Algebra.Group.Nat.Defs
import TaskPool.Queue.Call

/-!
Two queues that differ in one item: the calls of the queue go the same way at both,
and the item moves on alike.

Where the two differ is counted, since the same item may stand on the queue several times,
and only one of its places is another one's.
-/

namespace TaskPool

/-- Two lists agree place by place but for marked places, and the marks of all places add up. -/
inductive Matched {μ α : Type} [AddCommMonoid μ] (mark : μ → α → α → Prop) :
    μ → List α → List α → Prop where
  | nil : Matched mark 0 [] []
  | cons {m n : μ} {x y : α} {xs ys : List α} (here : mark m x y) (rest : Matched mark n xs ys) :
    Matched mark (m + n) (x :: xs) (y :: ys)

namespace Matched

variable {μ α : Type} [AddCommMonoid μ] {mark : μ → α → α → Prop} {m n : μ} {xs ys us vs : List α}

/-- A list agrees with itself, and has no marks then. -/
theorem refl (same : ∀ x, mark 0 x x) (xs : List α) : Matched mark 0 xs xs := by
  induction xs with
  | nil => exact .nil
  | cons x xs ih => simpa using Matched.cons (same x) ih

/-- One place is a list with its own mark. -/
theorem single {x y : α} (here : mark m x y) : Matched mark m [x] [y] := by
  simpa using Matched.cons here .nil

/-- The marks of two lists behind each other add up. -/
theorem append (first : Matched mark m xs ys) (second : Matched mark n us vs) :
    Matched mark (m + n) (xs ++ us) (ys ++ vs) := by
  induction first with
  | nil => simpa using second
  | cons here _ ih =>
    rw [add_assoc]
    exact .cons here ih

theorem length_eq (matched : Matched mark m xs ys) : ys.length = xs.length := by
  induction matched with
  | nil => rfl
  | cons _ _ ih => exact congrArg (· + 1) ih

/-- Either list is empty if the other is. -/
theorem nil_iff (matched : Matched mark m xs ys) : ys = [] ↔ xs = [] := by
  rw [← List.length_eq_zero_iff, ← List.length_eq_zero_iff, matched.length_eq]

/--
At each place the lists have entries with a mark, and other entries there
bring their own mark instead.
-/
theorem exchange {place : Nat} {x : α} (matched : Matched mark n xs ys)
    (found : xs[place]? = some x) :
    ∃ y here others, ys[place]? = some y ∧ mark here x y ∧ n = here + others ∧
      ∀ m x' y', mark m x' y' → Matched mark (m + others) (xs.set place x') (ys.set place y') := by
  -- The induction goes along the lists until it comes to the place.
  induction matched generalizing place with
  | nil => cases found
  | @cons m n first other xs ys here rest ih =>
    cases place with
    | zero =>
      cases found
      exact ⟨other, m, n, rfl, here, rfl, fun _ _ _ new => .cons new rest⟩
    | succ place =>
      obtain ⟨y, own, others, known, there, sum, moves⟩ := ih found
      refine ⟨y, own, m + others, known, there, by rw [sum]; exact add_left_comm ..,
        fun k x' y' new => ?_⟩
      rw [add_left_comm]
      exact .cons here (moves k x' y' new)

end Matched

namespace Queue

variable {κ α : Type} (own new : α)

/-- Two items are the same, or they are the two that are swapped for each other. -/
inductive Swap : Nat → α → α → Prop where
  | same (item : α) : Swap 0 item item
  | swapped : Swap 1 own new

/--
Two calls are the same, or the one is about the one item and the other about the other one.

The two numbers count the calls that are about to push the items, and those
that have brought them back.
-/
inductive Call.Swap : Nat × Nat → Call α → Call α → Prop where
  | same (call : Call α) : Swap (0, 0) call call
  | pushing : Swap (1, 0) (.pushing own) (.pushing new)
  | returned : Swap (0, 1) (.returned (some own)) (.returned (some new))

/-- What two consumers meet is the same, or they get the two items. -/
inductive Met.Swap : Nat → Met α → Met α → Prop where
  | same (met : Met α) : Swap 0 met met
  | item : Swap 1 (.item own) (.item new)

variable {own new} {queue after : Queue κ α} {items : List α} {count : Nat}

/-- A swapped item may be the first one, and otherwise it stays on the queue. -/
theorem Swap.uncons {item : α} {rest : List α}
    (swaps : Matched (Swap own new) count (item :: rest) items) :
    ∃ other left here others, items = other :: left ∧ Swap own new here item other ∧
      Matched (Swap own new) others rest left ∧ count = here + others := by
  cases swaps with
  | @cons here others _ other _ left mark rest =>
    exact ⟨other, left, here, others, rfl, mark, rest, rfl⟩

/-- A consumer that waits for an item meets the same at both queues, or gets the two items. -/
theorem take_swap [DecidableEq κ] {self : κ} {met : Met α}
    (swaps : Matched (Swap own new) count queue.items items)
    (taken : queue.take self = (met, after)) :
    ∃ other left here others, ({ queue with items := items }).take self =
      (other, { after with items := left }) ∧
      Met.Swap own new here met other ∧ Matched (Swap own new) others after.items left ∧
      count = here + others := by
  obtain ⟨known, closed, asleep, woken⟩ := queue
  cases known with
  | nil =>
    -- Where one queue is empty the other one is, and a closed queue is closed at both.
    obtain rfl := swaps.nil_iff.mpr rfl
    cases closed <;> cases taken
    · exact ⟨.nothing, [], 0, count, rfl, .same _, swaps, (Nat.zero_add _).symm⟩
    · exact ⟨.ended, [], 0, count, rfl, .same _, swaps, (Nat.zero_add _).symm⟩
  | cons item rest =>
    cases taken
    obtain ⟨other, left, here, others, rfl, mark, matched, sum⟩ := Swap.uncons swaps
    refine ⟨.item other, left, here, others, rfl, ?_, matched, sum⟩
    cases mark with
    | same => exact .same _
    | swapped => exact .item

/-- A consumer that does not wait gets the same at both queues, or the two items. -/
theorem tryTake_swap (swaps : Matched (Swap own new) count queue.items items) :
    ∃ other left here others,
      ({ queue with items := items }).tryTake = (other, { queue.tryTake.2 with items := left }) ∧
      Call.Swap own new (0, here) (.returned queue.tryTake.1) (.returned other) ∧
      Matched (Swap own new) others queue.tryTake.2.items left ∧ count = here + others := by
  obtain ⟨known, closed, asleep, woken⟩ := queue
  cases closed with
  | true =>
    -- A closed queue gives nothing to those who do not wait.
    exact ⟨none, items, 0, count, rfl, .same _, swaps, (Nat.zero_add _).symm⟩
  | false =>
    cases known with
    | nil =>
      obtain rfl := swaps.nil_iff.mpr rfl
      exact ⟨none, [], 0, count, rfl, .same _, swaps, (Nat.zero_add _).symm⟩
    | cons item rest =>
      obtain ⟨other, left, here, others, rfl, mark, matched, sum⟩ := Swap.uncons swaps
      refine ⟨some other, left, here, others, rfl, ?_, matched, sum⟩
      cases mark with
      | same => exact .same _
      | swapped => exact .returned

/--
A call goes the same way at both queues, and the swapped item is pushed, or stays where
it is, or leaves the queue.

How often it leaves with a consumer from outside, or is discarded, is counted as well.
-/
theorem Call.step_swap [DecidableEq κ] {self : κ} {chosen : Option κ} {call partner onward : Call α}
    {own new : α} {asked answered : Nat} {told : List (Event κ α)}
    (swap : Call.Swap own new (asked, answered) call partner)
    (swaps : Matched (Queue.Swap own new) count queue.items items)
    (stepped : call.step self chosen queue = some (after, onward, told)) :
    ∃ left later others calling returned queued gone,
      partner.step self chosen { queue with items := items } =
      some ({ after with items := left }, later, others) ∧
      Call.Swap own new (calling, returned) onward later ∧
      Matched (Queue.Swap own new) queued after.items left ∧
      asked + count = calling + queued + gone ∧ returned ≤ gone := by
  cases swap with
  | pushing =>
    -- The two items come behind all others.
    cases stepped
    exact ⟨items ++ [new], .notifying, [.pushed self new], 0, 0, count + 1, 0, rfl, .same _,
      swaps.append (.single .swapped), by omega, Nat.le_refl 0⟩
  | returned => cases stepped
  | same =>
    cases call with
    | pushing item =>
      cases stepped
      exact ⟨items ++ [item], .notifying, [.pushed self item], 0, 0, count + 0, 0, rfl, .same _,
        swaps.append (.single (.same item)), by omega, Nat.le_refl 0⟩
    | notifying =>
      -- Whom the call wakes does not depend on the items.
      cases chosen <;>
        simp only [step, Option.ite_none_right_eq_some, Option.some.injEq,
          Prod.mk.injEq] at stepped <;>
        obtain ⟨fine, rfl, rfl, rfl⟩ := stepped
      · exact ⟨items, .returned none, [], 0, 0, count, 0, if_pos fine, .same _, swaps, by omega,
          Nat.le_refl 0⟩
      · exact ⟨items, .returned none, [], 0, 0, count, 0, if_pos fine, .same _, swaps, by omega,
          Nat.le_refl 0⟩
    | popping =>
      simp only [step] at stepped
      split at stepped <;> rename_i sleeps
      · cases stepped
      · have awake : self ∉ ({ queue with items := items } : Queue κ α).asleep := sleeps
        split at stepped <;> rename_i met <;> cases stepped <;>
          obtain ⟨other, left, here, others, looks, mark, matched, sum⟩ := take_swap swaps met
        · -- The item that is brought back has left the queue.
          cases mark with
          | same =>
            exact ⟨left, _, _, 0, 0, others, 0, by rw [step, if_neg awake, looks], .same _,
              matched, by omega, Nat.le_refl 0⟩
          | item =>
            exact ⟨left, _, _, 0, 1, others, 1, by rw [step, if_neg awake, looks], .returned,
              matched, by omega, Nat.le_refl 1⟩
        · cases mark
          exact ⟨left, _, _, 0, 0, others, 0, by rw [step, if_neg awake, looks], .same _,
            matched, by omega, Nat.le_refl 0⟩
        · cases mark
          exact ⟨left, _, _, 0, 0, others, 0, by rw [step, if_neg awake, looks], .same _,
            matched, by omega, Nat.le_refl 0⟩
    | trying =>
      obtain ⟨rfl, rfl, rfl⟩ : _ ∧ _ ∧ _ := by simpa [step] using stepped
      obtain ⟨other, left, here, others, takes, mark, matched, sum⟩ := tryTake_swap swaps
      exact ⟨left, .returned other, [.tried self other], 0, here, others,
        here, by simp only [step, takes], mark, matched, by omega, Nat.le_refl here⟩
    | clearing =>
      -- All that stands on the queue is discarded.
      cases stepped
      exact ⟨[], .returned none, [.cleared self items], 0, 0, 0, count, rfl, .same _,
        .nil, by omega, Nat.zero_le count⟩
    | closing =>
      cases stepped
      exact ⟨items, .notifyingAll, [.closed self], 0, 0, count, 0, rfl, .same _, swaps, by omega,
        Nat.le_refl 0⟩
    | notifyingAll =>
      cases stepped
      exact ⟨items, .returned none, [], 0, 0, count, 0, rfl, .same _, swaps, by omega,
        Nat.le_refl 0⟩
    | returned item => cases stepped

end Queue

end TaskPool
