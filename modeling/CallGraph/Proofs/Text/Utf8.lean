import CallGraph.Text.Utf8
import Mathlib.Data.List.Basic
import Mathlib.Data.String.Basic

/-!
# The bytes of texts

Readers of files take one byte at a time, while the texts that writers put together are lists of
characters.  This module leads from the one to the other: the bytes of a text are those of its
characters one after the other, and a byte below 128 stands for a character by itself.

Main results:

- Theorem `Text.bytesOf_eq_encoded`: the bytes of a text, character by character.
- Theorem `Text.ofBytes?_encoded`: bytes are read as the characters that they encode.
- Theorem `Text.mem_of_mem_encoded`: a byte of ASCII stands only for its own character.
- Theorems `Text.utf8EncodeChar_of_lt` and `Text.le_of_mem_utf8EncodeChar`: the bytes of a character
  of ASCII, and of any other.
- Theorem `Text.bytesOf_lt_bytesOf_iff`: the order of texts is the order of their bytes.
-/

namespace CallGraph.Text

/-! ## Arrays of bytes -/

/-- The loop over the bytes adds those from its place on, by induction on how many are left. -/
theorem toList_loop_eq (bytes : ByteArray) (i : Nat) (done : List UInt8) :
    ByteArray.toList.loop bytes i done = done.reverse ++ bytes.data.toList.drop i := by
  fun_induction ByteArray.toList.loop bytes i done with
  | case1 i done h ih =>
    have hi : i < bytes.data.toList.length := by simpa using h
    rw [ih, List.drop_eq_getElem_cons hi]
    simp [ByteArray.get!, h]
  | case2 i done h =>
    rw [List.drop_eq_nil_of_le (by simpa using Nat.le_of_not_lt h)]
    simp

/-- A list of bytes is read back from its array. -/
theorem toList_toByteArray (bytes : List UInt8) : bytes.toByteArray.toList = bytes := by
  rw [ByteArray.toList, toList_loop_eq, List.toList_data_toByteArray]
  simp

/-! ## Characters and their bytes -/

/-- The bytes of characters. -/
def encoded (cs : List Char) : List UInt8 :=
  cs.flatMap String.utf8EncodeChar

@[simp]
theorem encoded_nil : encoded [] = [] :=
  rfl

theorem encoded_cons (c : Char) (cs : List Char) :
    encoded (c :: cs) = String.utf8EncodeChar c ++ encoded cs :=
  rfl

/-- Texts are encoded one after the other. -/
@[simp]
theorem encoded_append (cs ds : List Char) : encoded (cs ++ ds) = encoded cs ++ encoded ds :=
  List.flatMap_append

/-- The bytes of a text are those of its characters. -/
@[simp]
theorem bytesOf_ofList (cs : List Char) : bytesOf (String.ofList cs) = encoded cs := by
  rw [bytesOf, String.toUTF8_eq_toByteArray, String.toByteArray_ofList]
  exact toList_toByteArray _

/-- The bytes of a text are those of its characters. -/
theorem bytesOf_eq_encoded (s : String) : bytesOf s = encoded s.toList := by
  rw [← bytesOf_ofList, String.ofList_toList]

/-- The bytes of a text are read as that text. -/
theorem ofBytes?_bytesOf (s : String) : ofBytes? (bytesOf s) = some s := by
  have hbytes : (bytesOf s).toByteArray = s.toByteArray := by
    rw [bytesOf_eq_encoded, ← String.ofList_toList (s := s), String.toByteArray_ofList,
      String.toList_ofList]
    rfl
  rw [ofBytes?, hbytes, String.fromUTF8?, dif_pos s.isValidUTF8]
  rfl

/-- Bytes are read as the characters that they encode. -/
theorem ofBytes?_encoded (cs : List Char) : ofBytes? (encoded cs) = some (String.ofList cs) := by
  rw [← bytesOf_ofList, ofBytes?_bytesOf]

/-! ## Characters of ASCII -/

/-- A character of ASCII is one byte. -/
theorem utf8EncodeChar_of_lt {c : Char} (h : c.toNat < 0x80) :
    String.utf8EncodeChar c = [UInt8.ofNat c.toNat] := by
  have hval : c.val.toNat ≤ 127 := Nat.le_of_lt_succ h
  rw [String.utf8EncodeChar, if_pos hval]
  rfl

/-- An ASCII character is one byte. -/
theorem encoded_cons_of_lt {c : Char} (h : c.toNat < 0x80) (cs : List Char) :
    encoded (c :: cs) = UInt8.ofNat c.toNat :: encoded cs := by
  rw [encoded_cons, utf8EncodeChar_of_lt h]
  rfl

/-- All bytes of a character outside of ASCII are at least 128. -/
theorem le_of_mem_utf8EncodeChar {c : Char} (h : 0x80 ≤ c.toNat) {b : UInt8}
    (hb : b ∈ String.utf8EncodeChar c) : 0x80 ≤ b.toNat := by
  have hval : ¬ c.val.toNat ≤ 127 := Nat.not_le_of_lt h
  rw [String.utf8EncodeChar] at hb
  simp only [if_neg hval] at hb
  split at hb
  · simp only [List.mem_cons, List.not_mem_nil, or_false] at hb
    rcases hb with rfl | rfl <;> simp only [UInt8.toNat_ofNat'] <;> omega
  · split at hb
    · simp only [List.mem_cons, List.not_mem_nil, or_false] at hb
      rcases hb with rfl | rfl | rfl <;> simp only [UInt8.toNat_ofNat'] <;> omega
    · simp only [List.mem_cons, List.not_mem_nil, or_false] at hb
      rcases hb with rfl | rfl | rfl | rfl <;> simp only [UInt8.toNat_ofNat'] <;> omega

/-- A byte of ASCII stands only for its own character. -/
theorem mem_of_mem_encoded {c : Char} (h : c.toNat < 0x80) {cs : List Char}
    (hmem : UInt8.ofNat c.toNat ∈ encoded cs) : c ∈ cs := by
  obtain ⟨d, hd, hbyte⟩ := List.mem_flatMap.1 hmem
  have hvalue : (UInt8.ofNat c.toNat).toNat = c.toNat := by
    rw [UInt8.toNat_ofNat']
    omega
  by_cases hascii : d.toNat < 0x80
  · rw [utf8EncodeChar_of_lt hascii, List.mem_singleton] at hbyte
    have hsame := congrArg UInt8.toNat hbyte
    rw [hvalue, UInt8.toNat_ofNat'] at hsame
    obtain rfl : c = d := Char.toNat_inj.1 (by omega)
    exact hd
  · have hlarge := le_of_mem_utf8EncodeChar (Nat.not_lt.1 hascii) hbyte
    omega

/-- The bytes of ASCII text are the numbers of its characters. -/
theorem encoded_eq_map {cs : List Char} (h : ∀ c ∈ cs, c.toNat < 0x80) :
    encoded cs = cs.map fun c => UInt8.ofNat c.toNat := by
  induction cs with
  | nil => rfl
  | cons c cs ih =>
    rw [encoded_cons_of_lt (h c (by simp)), ih fun d hd => h d (List.mem_cons_of_mem _ hd)]
    rfl

/-! ## The order of bytes -/

/-- The bytes of the smaller of two characters come first, whatever follows. -/
theorem utf8EncodeChar_append_lt {c d : Char} (h : c < d) (s t : List UInt8) :
    String.utf8EncodeChar c ++ s < String.utf8EncodeChar d ++ t := by
  have hlt : c.val.toNat < d.val.toNat := h
  have hd : d.val.toNat < 0x110000 := d.valid.elim (fun hd => Nat.lt_trans hd (by decide)) (·.2)
  rw [String.utf8EncodeChar, String.utf8EncodeChar]
  generalize c.val.toNat = v at hlt ⊢
  generalize d.val.toNat = w at hlt hd ⊢
  have hbyte (n : Nat) : (UInt8.ofNat n).toNat = n % 256 := UInt8.toNat_ofNat'
  by_cases hfour : 65535 < v
  · -- Both have four bytes, and the first digit to the base 64 in which they differ decides.
    rw [if_neg (by omega), if_neg (by omega), if_neg (by omega), if_neg (by omega),
      if_neg (by omega), if_neg (by omega)]
    simp only [List.cons_append, List.nil_append, List.cons_lt_cons_iff, UInt8.lt_iff_toNat_lt,
      ← UInt8.toNat_inj, hbyte]
    by_cases hfirst : v / 262144 < w / 262144
    · omega
    · refine .inr ⟨by omega, ?_⟩
      by_cases hsecond : v / 4096 < w / 4096
      · omega
      · exact .inr ⟨by omega, by omega⟩
  · split_ifs
    all_goals simp only [List.cons_append, List.nil_append, List.cons_lt_cons_iff,
      UInt8.lt_iff_toNat_lt, ← UInt8.toNat_inj, hbyte]
    all_goals omega

/-- Encoding keeps the order of texts. -/
theorem encoded_lt_encoded {cs ds : List Char} (h : cs < ds) : encoded cs < encoded ds := by
  induction h with
  | nil =>
    rename_i d ds
    rw [encoded_cons]
    cases hbytes : String.utf8EncodeChar d with
    | nil => exact absurd hbytes (String.utf8EncodeChar_ne_nil)
    | cons b bs => exact List.Lex.nil
  | @cons c cs ds _ ih =>
    rw [encoded_cons, encoded_cons]
    exact List.append_left_lt ih
  | rel hcd =>
    rw [encoded_cons, encoded_cons]
    exact utf8EncodeChar_append_lt hcd _ _

/-- Texts are in the order of their bytes. -/
theorem bytesOf_lt_bytesOf_iff {a b : String} : bytesOf a < bytesOf b ↔ a < b := by
  have hmono : ∀ {s t : String}, s < t → bytesOf s < bytesOf t := fun {s t} h => by
    rw [bytesOf_eq_encoded, bytesOf_eq_encoded]
    exact encoded_lt_encoded (String.lt_iff_toList_lt.1 h)
  refine ⟨fun h => lt_of_not_ge fun hle => ?_, hmono⟩
  rcases hle.lt_or_eq with hlt | rfl
  · exact List.lt_asymm h (hmono hlt)
  · exact List.lt_irrefl _ h

end CallGraph.Text
