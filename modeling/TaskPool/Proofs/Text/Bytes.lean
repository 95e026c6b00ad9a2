import Mathlib.Data.List.Basic

/-! The bytes that a text is written with. -/

namespace TaskPool

/-- The bytes of an array, one after the other. -/
theorem toList_eq_data (bytes : ByteArray) : bytes.toList = bytes.data.toList := by
  -- The loop has read some bytes, the last one first, and has the rest before it.
  have reads (index : Nat) (read : List UInt8) :
      ByteArray.toList.loop bytes index read = read.reverse ++ bytes.data.toList.drop index := by
    fun_induction ByteArray.toList.loop bytes index read with
    | case1 index read within ih =>
      have inside : index < bytes.data.toList.length := within
      rw [ih, List.drop_eq_getElem_cons inside]
      simp [ByteArray.get!, getElem!_pos, within]
    | case2 index read beyond => rw [List.drop_eq_nil_of_le (Nat.le_of_not_lt beyond),
        List.append_nil]
  exact (reads 0 []).trans (by simp)

/-- The bytes of some characters, one after the other. -/
def bytes (chars : List Char) : List UInt8 := chars.flatMap String.utf8EncodeChar

/-- The bytes of a character come in front of those that follow it. -/
theorem bytes_cons (c : Char) (rest : List Char) :
    bytes (c :: rest) = String.utf8EncodeChar c ++ bytes rest :=
  List.flatMap_cons

/-- The bytes of what comes first come first. -/
theorem bytes_append (read rest : List Char) :
    bytes (read ++ rest) = bytes read ++ bytes rest := List.flatMap_append

/-- The bytes of a text are those of its characters. -/
theorem toUTF8_toList (text : String) : text.toUTF8.toList = bytes text.toList := by
  rw [toList_eq_data, String.toUTF8, ← String.utf8Encode_toList, List.utf8Encode, bytes]
  simp

/-- No character has a code beyond the last one. -/
theorem toNat_lt_limit (c : Char) : c.toNat < 1114112 := by
  rcases c.valid with low | ⟨-, high⟩
  · exact Nat.lt_trans low (by decide)
  · exact high

/-- A character of one byte is the only one with that byte. -/
theorem ascii_mem_utf8EncodeChar {c e : Char} (ascii : e.toNat < 128) :
    UInt8.ofNat e.toNat ∈ String.utf8EncodeChar c ↔ c = e := by
  have top := toNat_lt_limit c
  have value : c.val.toNat = c.toNat := rfl
  have byte (n : Nat) : UInt8.ofNat e.toNat = UInt8.ofNat n ↔ e.toNat = n % 256 := by
    rw [← UInt8.toNat_inj, UInt8.toNat_ofNat', UInt8.toNat_ofNat', Nat.mod_eq_of_lt (by omega)]
  have code : c = e ↔ e.toNat = c.toNat := by
    constructor
    · rintro rfl
      rfl
    · exact fun same => (Char.ext (UInt32.toNat_inj.mp same)).symm
  -- Every byte of a longer character is above those of one byte.
  simp only [String.utf8EncodeChar, value, code]
  repeat' split
  all_goals simp only [List.mem_cons, List.not_mem_nil, or_false, byte]; omega

/-- Of two characters the one with the lower code is written with bytes that come first. -/
theorem utf8EncodeChar_lt {c d : Char} (lower : c < d) (after behind : List UInt8) :
    String.utf8EncodeChar c ++ after < String.utf8EncodeChar d ++ behind := by
  have less : c.val.toNat < d.val.toNat := lower
  have top : d.val.toNat < 1114112 := toNat_lt_limit d
  have byte (a b : Nat) (small : a < 256) (small' : b < 256) (x y : List UInt8) :
      UInt8.ofNat a :: x < UInt8.ofNat b :: y ↔ a < b ∨ a = b ∧ x < y := by
    rw [List.cons_lt_cons_iff, UInt8.lt_iff_toNat_lt, ← UInt8.toNat_inj, UInt8.toNat_ofNat',
      UInt8.toNat_ofNat', Nat.mod_eq_of_lt small, Nat.mod_eq_of_lt small']
  have fold (n : Nat) : n / 4096 = n / 64 / 64 ∧ n / 262144 = n / 64 / 64 / 64 := by omega
  -- More bytes begin with a higher one, and as many bytes are the digits of the code
  -- to the base of sixty-four.
  simp only [String.utf8EncodeChar, (fold _).1, (fold _).2]
  generalize c.val.toNat = first at less
  generalize d.val.toNat = second at less top
  repeat' split
  all_goals simp (disch := omega) only [List.cons_append, List.nil_append, byte]; omega

/-- A character is written with at least one byte. -/
theorem utf8EncodeChar_ne_nil (c : Char) : String.utf8EncodeChar c ≠ [] :=
  List.ne_nil_of_length_pos ((String.length_utf8EncodeChar c).symm ▸ c.utf8Size_pos)

/-- Where texts begin with the same bytes they begin with the same character. -/
theorem eq_of_utf8EncodeChar_append {c d : Char} {after behind : List UInt8}
    (same : String.utf8EncodeChar c ++ after = String.utf8EncodeChar d ++ behind) : c = d := by
  -- Otherwise the bytes of one of the two would come first.
  rcases Std.lt_trichotomy c d with lower | equal | higher
  · exact absurd (same ▸ utf8EncodeChar_lt lower after behind) (List.lt_irrefl _)
  · exact equal
  · exact absurd (same ▸ utf8EncodeChar_lt higher behind after) (List.lt_irrefl _)

/-- A text whose bytes begin with those of some characters begins with these characters. -/
theorem prefix_of_bytes {read text : List Char} (begins : bytes read <+: bytes text) :
    read <+: text := by
  induction read generalizing text with
  | nil => exact List.nil_prefix
  | cons c read ih =>
    obtain ⟨after, same⟩ := begins
    rw [bytes_cons, List.append_assoc] at same
    cases text with
    | nil => exact absurd (List.append_eq_nil_iff.mp same).1 (utf8EncodeChar_ne_nil c)
    | cons d tail =>
      rw [bytes_cons] at same
      obtain rfl := eq_of_utf8EncodeChar_append same
      exact (List.prefix_cons_inj c).mpr (ih ⟨after, List.append_cancel_left same⟩)

end TaskPool
