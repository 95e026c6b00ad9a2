import TaskPool.Failure

/-! What the system makes of the stacks that threads are to have. -/

namespace TaskPool.Pool

/-- The unit in which the system hands out memory. -/
def pageSize : Nat := 4096

/-- The size from which on the system has no memory for a stack. -/
def stackCeiling : Nat := 68719476736

/--
Why the system does not create a thread with a stack of the given size, if it does not.

A page that guards the stack comes on top of the size, which is invalid if it then leaves its word,
and too much for the system if there could never be as much memory.
-/
def stackTrouble? : Option UInt64 → Option Trouble
  | none => none
  | some bytes =>
    if UInt64.size - pageSize ≤ bytes.toNat then some (.coded 22)
    else if stackCeiling ≤ bytes.toNat then some (.coded 11)
    else none

end TaskPool.Pool
