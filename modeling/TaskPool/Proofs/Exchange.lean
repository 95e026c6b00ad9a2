import Mathlib.Data.List.Perm.Basic

/-!
Lists whose entries hold things of their own, and what becomes of all those things
when one entry is replaced.
-/

namespace TaskPool

/--
Where one entry of a list is replaced, what all entries hold changes by what the two entries hold.
-/
theorem flatMap_set {α β : Type} (holds : α → List β) {entries : List α} {place : Nat} {entry : α}
    (found : entries[place]? = some entry) (new : α) :
    ((entries.set place new).flatMap holds ++ holds entry).Perm (entries.flatMap holds ++
      holds new) := by
  obtain ⟨within, rfl⟩ := List.getElem?_eq_some_iff.mp found
  -- The entries before and behind the place stay, and the two that differ change places.
  have split : entries.flatMap holds = (entries.take place).flatMap holds ++ holds entries[place] ++
      (entries.drop (place + 1)).flatMap holds := by
    conv_lhs => rw [← List.take_append_drop place entries]
    rw [List.flatMap_append, List.drop_eq_getElem_cons within, List.flatMap_cons, List.append_assoc]
  rw [List.set_eq_take_append_cons_drop, if_pos within, split, List.flatMap_append,
    List.flatMap_cons]
  simp only [List.append_assoc]
  refine List.Perm.append_left _ ?_
  refine List.perm_append_comm.trans ?_
  rw [List.append_assoc]
  exact List.perm_append_comm_assoc ..

/--
Where one entry lets go of something and takes something new, all of it is still let go of or held.
-/
theorem perm_of_exchange {α : Type} {all gone held heldAfter new lost own ownAfter : List α}
    (sum : all.Perm (gone ++ held)) (exchange : own ++ new = lost ++ ownAfter)
    (moved : (heldAfter ++ own).Perm (held ++ ownAfter)) :
    (all ++ new).Perm (gone ++ lost ++ heldAfter) := by
  -- What the entry held before is put on both sides, where it makes up for
  -- what the entry holds now.
  refine (List.perm_append_right_iff own).mp ?_
  calc (all ++ new ++ own).Perm (all ++ (own ++ new)) := by
        rw [List.append_assoc]
        exact List.perm_append_comm.append_left all
    _ = all ++ (lost ++ ownAfter) := by rw [exchange]
    (all ++ (lost ++ ownAfter)).Perm (gone ++ held ++ (lost ++ ownAfter)) := sum.append_right _
    (gone ++ held ++ (lost ++ ownAfter)).Perm (gone ++ lost ++ (held ++ ownAfter)) := by
        simp only [List.append_assoc]
        exact (List.perm_append_comm_assoc ..).append_left gone
    (gone ++ lost ++ (held ++ ownAfter)).Perm (gone ++ lost ++ heldAfter ++ own) := by
        rw [List.append_assoc (gone ++ lost)]
        exact moved.symm.append_left _

end TaskPool
