import TaskPool.Proofs.Settings.Decided

/-!
The place that a failure to read settings names is the place that decides it.

The readers count characters and the place is counted in bytes, so the two counts are
compared first. Then texts with the same bytes as far as that place have been read alike,
and what follows it was not looked at.
-/

namespace TaskPool

namespace Json

/-- The line at which a text goes on behind some bytes, counted from one. -/
def lineBehind (before : List UInt8) : Nat := 1 + before.count 10

/--
The column at which a text goes on behind some bytes: how many of them follow the last new line.
-/
def columnBehind (before : List UInt8) : Nat := (before.reverse.takeWhile (· ≠ 10)).length

/-- One more byte begins a new line or goes on with the same one. -/
def advance (place : Nat × Nat) (byte : UInt8) : Nat × Nat :=
  if byte = 10 then (place.1 + 1, 0) else (place.1, place.2 + 1)

/-- Byte by byte the line and the column are those behind the bytes. -/
theorem foldl_advance (before : List UInt8) :
    before.foldl advance (1, 0) = (lineBehind before, columnBehind before) := by
  -- The induction takes the last byte off, which is the one that decides the column.
  induction before using List.reverseRecOn with
  | nil => rfl
  | append_singleton before byte ih =>
    rw [List.foldl_append, ih, List.foldl_cons, List.foldl_nil, advance, lineBehind,
      lineBehind, columnBehind, columnBehind]
    by_cases feed : byte = 10
    · simp [feed, Nat.add_assoc]
    · simp [feed]

/-- Bytes without a new line only make the column larger. -/
theorem foldl_advance_plain {before : List UInt8} (plain : ∀ byte ∈ before, byte ≠ 10)
    (line column : Nat) :
    before.foldl advance (line, column) = (line, column + before.length) := by
  induction before generalizing column with
  | nil => rfl
  | cons byte before ih =>
    -- Each of them is one more column.
    rw [List.foldl_cons, advance, if_neg (plain byte List.mem_cons_self),
      ih (fun other member => plain other (List.mem_cons_of_mem byte member)), List.length_cons]
    congr 1
    omega

/-- The bytes of a character hold a new line only if it is one. -/
theorem plain_of_ne_newline {c : Char} (other : c ≠ '\n') :
    ∀ byte ∈ String.utf8EncodeChar c, byte ≠ 10 := by
  rintro byte member rfl
  exact other ((ascii_mem_utf8EncodeChar (e := '\n') (by decide)).mp member)

/-- The place in a text is counted as its bytes pass. -/
theorem lineColumn_eq_foldl (text : List Char) (line column : Nat) {passed : Nat}
    (inside : passed ≤ (bytes text).length) :
    lineColumn line column text passed = ((bytes text).take passed).foldl advance
      (line, column) := by
  induction text generalizing line column passed with
  | nil =>
    obtain rfl : passed = 0 := Nat.le_zero.mp inside
    rfl
  | cons c rest ih =>
    -- The counting goes by characters and the bytes come one by one, so a character is a run
    -- of bytes, of which the last one counted may be cut off.
    have size : (String.utf8EncodeChar c).length = c.utf8Size := String.length_utf8EncodeChar c
    have split : (bytes (c :: rest)).take passed =
        (String.utf8EncodeChar c).take passed ++ (bytes rest).take (passed - c.utf8Size) := by
      rw [bytes_cons, List.take_append, size]
    have rest_inside : passed - c.utf8Size ≤ (bytes rest).length := by
      rw [bytes_cons, List.length_append, size] at inside
      exact Nat.sub_le_of_le_add (Nat.add_comm _ _ ▸ inside)
    rw [lineColumn, split, List.foldl_append]
    by_cases feed : c = '\n'
    · subst feed
      have single : String.utf8EncodeChar '\n' = [10] := rfl
      have one : '\n'.utf8Size = 1 := rfl
      cases passed with
      | zero => rfl
      | succ passed =>
        rw [one] at rest_inside ⊢
        rw [if_neg (Nat.not_lt.mpr (Nat.le_add_left 1 passed)), if_pos rfl, single,
          List.take_of_length_le (Nat.le_add_left 1 passed)]
        exact ih _ _ rest_inside
    · have plain (byte : UInt8) (member : byte ∈ (String.utf8EncodeChar c).take passed) :
          byte ≠ 10 :=
        plain_of_ne_newline feed byte (List.mem_of_mem_take member)
      rw [foldl_advance_plain plain, List.length_take, size]
      split_ifs with few
      · rw [Nat.min_eq_left (Nat.le_of_lt few), Nat.sub_eq_zero_of_le (Nat.le_of_lt few)]
        rfl
      · rw [Nat.min_eq_right (Nat.le_of_not_lt few)]
        exact ih _ _ rest_inside

/-- What a fault says names the line and the column behind the bytes in front of its place. -/
theorem Fault.describe_eq {input : List Char} {fault : Fault} {before : List UInt8}
    (inside : fault.index input ≤ (bytes input).length)
    (front : (bytes input).take (fault.index input) = before) :
    fault.describe input = fault.cause.describe ++ " at line " ++
      toString (lineBehind before) ++ " column " ++
      toString (columnBehind before) := by
  rw [Fault.describe, lineColumn_eq_foldl input 1 0 inside, front, foldl_advance]

/--
The place of a fault lies behind what was read, by as many bytes as count as read and are there.
-/
theorem Fault.index_append (fault : Fault) (read : List Char) :
    fault.index (read ++ fault.rest) = (bytes read).length +
    min fault.ahead (bytes fault.rest).length := by
  rw [Fault.index, byteLength_eq, byteLength_eq, bytes_append, List.length_append]
  exact congrArg (· + _) (Nat.add_sub_cancel ..)

/-- The place of a fault lies in the text. -/
theorem Fault.index_le (fault : Fault) (read : List Char) :
    fault.index (read ++ fault.rest) ≤ (bytes (read ++ fault.rest)).length := by
  rw [Fault.index_append, bytes_append, List.length_append]
  exact Nat.add_le_add_left (Nat.min_le_right ..) _

/--
The bytes in front of the place of a fault are those of what was read and those that count as read.
-/
theorem Fault.take_index (fault : Fault) (read : List Char) :
    (bytes (read ++ fault.rest)).take (fault.index (read ++ fault.rest)) =
      bytes read ++ (bytes fault.rest).take fault.ahead := by
  rw [Fault.index_append, bytes_append, List.take_length_add_append, ← List.take_take,
    List.take_length]

/-- A fault says the same in front of another text that is seen to begin like the one behind it. -/
theorem Fault.describe_of_sees {read rest : List Char} {fault : Fault}
    (sees : Sees (fault.ahead + 1) fault.rest rest) :
    ({ fault with rest := rest } : Fault).describe (read ++ rest) =
    fault.describe (read ++ fault.rest) := by
  have same : (bytes fault.rest).take fault.ahead = (bytes rest).take fault.ahead :=
    sees.mono (Nat.le_succ _)
  have told (fault : Fault) := Fault.describe_eq (fault.index_le read) (fault.take_index read)
  rw [told fault, same]
  exact told { fault with rest := rest }

/--
Texts with the same bytes up to the place of a fault, and there too, have read
alike and are seen alike.
-/
theorem sees_of_index {other read : List Char} {fault : Fault}
    (agree : ∀ i ≤ fault.index (read ++ fault.rest), (bytes other)[i]? =
      (bytes (read ++ fault.rest))[i]?) :
    ∃ rest, other = read ++ rest ∧ Sees (fault.ahead + 1) fault.rest rest := by
  rw [Fault.index_append, bytes_append] at agree
  have front : (bytes other).take (bytes read).length = bytes read := by
    refine List.ext_getElem? fun i => ?_
    rw [List.getElem?_take]
    split_ifs with within
    · rw [agree i (by omega), List.getElem?_append_left within]
    · exact (List.getElem?_eq_none (Nat.le_of_not_lt within)).symm
  obtain ⟨rest, rfl⟩ := prefix_of_bytes (List.prefix_iff_eq_take.mpr front.symm)
  refine ⟨rest, rfl, ?_⟩
  have behind (j : Nat) (within : j ≤ min fault.ahead (bytes fault.rest).length) :
      (bytes rest)[j]? = (bytes fault.rest)[j]? := by
    have same := agree ((bytes read).length + j) (Nat.add_le_add_left within _)
    rwa [bytes_append, List.getElem?_append_right (Nat.le_add_right ..),
      List.getElem?_append_right (Nat.le_add_right ..), Nat.add_sub_cancel_left] at same
  refine List.ext_getElem? fun j => ?_
  rw [List.getElem?_take, List.getElem?_take]
  split_ifs with within
  · rcases Nat.lt_or_ge (bytes fault.rest).length j with beyond | inside
    · -- Both texts end where the first one does.
      have ends := behind (bytes fault.rest).length (by omega)
      rw [List.getElem?_eq_none (Nat.le_refl _)] at ends
      have short := List.getElem?_eq_none_iff.mp ends
      rw [List.getElem?_eq_none (Nat.le_of_lt beyond),
        List.getElem?_eq_none (Nat.le_trans short (Nat.le_of_lt beyond))]
    · exact (behind j (by omega)).symm
  · rfl

end Json

namespace Settings

open Json

/-- Whether a failure to read a text names a place in it and is decided there. -/
structure DecidedIn (text : String) (failure : Failure) (place : Nat) : Prop where
  inside : place ≤ text.toUTF8.toList.length
  /-- The message ends in the line and the column behind the bytes in front of the place. -/
  named : ∃ cause : Cause, failure = .setting "json" (cause.describe ++
    " at line " ++ toString (lineBehind (text.toUTF8.toList.take place)) ++
    " column " ++ toString (columnBehind (text.toUTF8.toList.take place)))
  /--
  Every text with the same bytes as far as the place, and with the same byte or the
  same end there, fails alike.
  -/
  firm : ∀ other : String, (∀ i ≤ place, other.toUTF8.toList[i]? = text.toUTF8.toList[i]?) →
    parse other = .error failure ∧ ofJson other = .error failure

/--
A fault that is found in a text is found in every text that is seen to begin
like it, and is named alike.
-/
theorem read_error_of_sees {text : List Char} {fault : Fault} (failed : read text = .error fault) :
    ∃ front, text = front ++ fault.rest ∧ ∀ rest, Sees (fault.ahead + 1) fault.rest rest →
      read (front ++ rest) = .error { fault with rest := rest } := by
  -- What the reader comes to is decided by what it has read and sees ahead.
  obtain ⟨front, split, firm⟩ := decisive_read text
  beta_reduce at split firm
  rw [failed] at split firm
  refine ⟨front, split, fun rest sees => ?_⟩
  have again := firm rest sees
  cases found : read (front ++ rest) with
  | error other =>
    rw [found] at again
    exact congrArg _ (Except.error.inj again)
  | ok settings =>
    rw [found] at again
    cases again

/-- A failure to read settings is decided at the place that it names. -/
theorem failure_is_decided_at_its_place {text : String} {failure : Failure}
    (failed : parse text = .error failure) :
    ∃ place, DecidedIn text failure place := by
  rw [parse] at failed
  cases found : read text.toList with
  | ok settings =>
    rw [found] at failed
    cases failed
  | error fault =>
    rw [found] at failed
    obtain rfl : Failure.setting "json" (fault.describe text.toList) = failure :=
      Except.error.inj failed
    -- The fault splits the text into what was read and what was not.
    obtain ⟨front, split, firm⟩ := read_error_of_sees found
    have input : text.toUTF8.toList = bytes (front ++ fault.rest) := by rw [toUTF8_toList, split]
    refine ⟨fault.index (front ++ fault.rest), ?_, ⟨fault.cause, ?_⟩, fun other agree => ?_⟩
    · rw [input]
      exact fault.index_le front
    · rw [split, input, Fault.describe_eq (fault.index_le front) rfl]
    · rw [input, toUTF8_toList] at agree
      -- Another text that agrees up to the place is split in the same way.
      obtain ⟨rest, same, sees⟩ := sees_of_index agree
      have fails : parse other = .error (.setting "json" (fault.describe text.toList)) := by
        rw [parse, same, firm rest sees, split, ← Fault.describe_of_sees sees]
        rfl
      refine ⟨fails, ?_⟩
      rw [ofJson, fails]
      rfl

/-- A letter where a string is due fails at its own column, whatever follows it. -/
theorem stray_letter_is_decided :
    parse "[\n x]" = .error (.setting "json" "expected value at line 2 column 2") ∧
      ∃ place, DecidedIn "[\n x]" (.setting "json" "expected value at line 2 column 2") place :=
  ⟨rfl, failure_is_decided_at_its_place rfl⟩

end Settings

end TaskPool
