import CallGraph.Json.Reader
import CallGraph.Proofs.Json.Layout
import CallGraph.Proofs.Json.Literal
import CallGraph.Proofs.Number.Digits

/-!
# JSON read back

The machine that reads JSON gets through the text of a value and then stands where it would stand
had the value been put there at once.  This is shown by induction on the value, for every layout.

A number is only complete when something follows it, which is why it is always said what comes
after the text of a value.

Main results:

- Definition `Machine.run?`: the value at the end of a text, from any state of the machine.
- Theorem `Machine.run?_print`: the text of a value puts that value where it belongs.
- Theorems `read_line` and `read_pretty`: a tree is read back from its text in either layout.
-/

namespace CallGraph

/-! ## Plain data -/

mutual
/-- Whether the tree has only values that JSON keeps as they are: no floating-point numbers, and
whole numbers of at most 64 bits without a sign. -/
def Data.IsPlain : Data → Prop
  | .null | .bool _ | .text _ => True
  | .integer value => 0 ≤ value ∧ value < 2 ^ 64
  | .list items => Data.ArePlain items
  | .record fields => Data.HavePlain fields
  | .real _ | .unusable => False

/-- `Data.IsPlain` for every item. -/
def Data.ArePlain : List Data → Prop
  | [] => True
  | item :: items => Data.IsPlain item ∧ Data.ArePlain items

/-- `Data.IsPlain` for every field. -/
def Data.HavePlain : List (String × Data) → Prop
  | [] => True
  | (_, value) :: fields => Data.IsPlain value ∧ Data.HavePlain fields
end

namespace Json

open Text

/-- Places between the parts of a text. -/
def Place.IsBetween : Place → Prop
  | .word .. | .number .. | .string .. => False
  | _ => True

namespace Machine

/-! ## Runs -/

/-- The value that the machine holds after characters. -/
def run? (m : Machine) (cs : List Char) : Option Data :=
  ((encoded cs).foldlM step? m).bind finish?

/-- A machine that takes the first characters goes on with the others. -/
theorem run?_append {m after : Machine} {cs : List Char}
    (h : (encoded cs).foldlM step? m = some after) (rest : List Char) :
    m.run? (cs ++ rest) = after.run? rest := by
  rw [run?, encoded_append, List.foldlM_append, h]
  rfl

/-- The byte of an ASCII character is the character. -/
theorem ofUInt8_ofNat {c : Char} (h : c.toNat < 0x80) : Char.ofUInt8 (UInt8.ofNat c.toNat) = c := by
  apply Char.toNat_inj.1
  have hvalue : (Char.ofUInt8 (UInt8.ofNat c.toNat)).toNat = (UInt8.ofNat c.toNat).toNat := rfl
  rw [hvalue, UInt8.toNat_ofNat']
  omega

/-- An ASCII character is taken in one step. -/
theorem run?_cons (m : Machine) {c : Char} (h : c.toNat < 0x80) (rest : List Char) :
    m.run? (c :: rest) = (m.step? (UInt8.ofNat c.toNat)).bind (run? · rest) := by
  rw [run?, encoded_cons_of_lt h, List.foldlM_cons]
  cases m.step? (UInt8.ofNat c.toNat) <;> rfl

/-! ## Characters between the parts of a text -/

/-- Between values, a character is taken by what may stand there. -/
theorem run?_cons_between (place : Place) (hplace : place.IsBetween) (frames : List Frame)
    {c : Char} (hc : c.toNat < 0x80) (rest : List Char) :
    run? ⟨frames, place⟩ (c :: rest) = (between? place c frames).bind (run? · rest) := by
  rw [run?_cons _ hc, step?, ofUInt8_ofNat hc]
  cases place <;> first | rfl | exact absurd hplace id

/-- White space is ASCII. -/
theorem toNat_lt_of_isSpace {c : Char} (h : isSpace c = true) : c.toNat < 0x80 := by
  simp only [isSpace, Bool.or_eq_true, beq_iff_eq] at h
  rcases h with ((rfl | rfl) | rfl) | rfl <;> decide

/-- White space between the parts of a text changes nothing. -/
theorem run?_spaces (place : Place) (hplace : place.IsBetween) (frames : List Frame)
    {spaces : List Char} (h : ∀ c ∈ spaces, isSpace c = true) (rest : List Char) :
    run? ⟨frames, place⟩ (spaces ++ rest) = run? ⟨frames, place⟩ rest := by
  induction spaces with
  | nil => rfl
  | cons c spaces ih =>
    have hc := h c (by simp)
    have hstay : between? place c frames = some ⟨frames, place⟩ := by
      unfold between?
      exact if_pos hc
    rw [List.cons_append, run?_cons_between place hplace frames (toNat_lt_of_isSpace hc), hstay,
      Option.bind_some, ih fun d hd => h d (List.mem_cons_of_mem _ hd)]

/-- Whether a value may end before these characters, even if it is a number: nothing follows, or a
sign that cannot belong to a number. -/
def CanFollow (rest : List Char) : Prop :=
  ∀ c ∈ rest.head?, c = ',' ∨ c = ']' ∨ c = '}' ∨ isSpace c = true

/-- White space may stand before anything that may follow a value. -/
theorem canFollow_spaces {spaces : List Char} (h : ∀ c ∈ spaces, isSpace c = true)
    {rest : List Char} (hrest : CanFollow rest) : CanFollow (spaces ++ rest) := by
  cases spaces with
  | nil => exact hrest
  | cons c spaces =>
    intro d hd
    obtain rfl : c = d := by simpa using hd
    exact .inr (.inr (.inr (h c (by simp))))

/-- After a value, more of a list or record may follow. -/
theorem canFollow_more (layout : Layout) (depth : Nat) (pieces : List (List Char))
    {rest : List Char} (hrest : CanFollow rest) :
    CanFollow (layout.more depth pieces ++ rest) := by
  cases pieces with
  | nil => exact hrest
  | cons piece pieces =>
    intro d hd
    obtain rfl : ',' = d := by simpa [Layout.more] using hd
    exact .inl rfl

/-! ## Numbers -/

/-- What can follow a number does not continue it. -/
theorem continued?_of_canFollow (x : Numeral) {c : Char}
    (h : c = ',' ∨ c = ']' ∨ c = '}' ∨ isSpace c = true) :
    c.toNat < 0x80 ∧ c.isDigit = false ∧ continued? .whole x c = none := by
  have hcases : c = ',' ∨ c = ']' ∨ c = '}' ∨ c = ' ' ∨ c = '\t' ∨ c = '\n' ∨ c = '\r' := by
    simpa [isSpace, or_assoc] using h
  rcases hcases with rfl | rfl | rfl | rfl | rfl | rfl | rfl <;> exact ⟨by decide, rfl, rfl⟩

/-- A number is complete before anything that can follow it. -/
theorem run?_number (frames : List Frame) (x : Numeral) {rest : List Char}
    (hrest : CanFollow rest) :
    run? ⟨frames, .number .whole x⟩ rest = run? (deliver (inOrder x).value frames) rest := by
  cases rest with
  | nil =>
    rcases frames with _ | ⟨items | ⟨fields, isSound, key⟩, outer⟩ <;> rfl
  | cons c rest =>
    obtain ⟨hc, hdigit, hend⟩ := continued?_of_canFollow x (hrest c (by simp))
    have hplace : Place.IsBetween (deliver (inOrder x).value frames).place := by
      rcases frames with _ | ⟨items | ⟨fields, isSound, key⟩, outer⟩ <;> exact trivial
    rw [run?_cons _ hc, step?, ofUInt8_ofNat hc, run?_cons_between _ hplace _ hc]
    simp [hend, hdigit, NumberPart.isComplete]

/-- Digits are ASCII. -/
theorem toNat_lt_of_isDigit {c : Char} (h : c.isDigit = true) : c.toNat < 0x80 := by
  simp only [Char.isDigit, Bool.and_eq_true, decide_eq_true_eq] at h
  exact Nat.lt_of_le_of_lt h.2 (by decide)

/-- Digits after the first one continue a number that does not begin with zero. -/
theorem run?_digits (frames : List Frame) {read ds : List Char}
    (hread : read ≠ [] ∧ read ≠ ['0']) (hds : ∀ c ∈ ds, c.isDigit = true) (rest : List Char) :
    run? ⟨frames, .number .whole ⟨false, read, none, none⟩⟩ (ds ++ rest) =
      run? ⟨frames, .number .whole ⟨false, ds.reverse ++ read, none, none⟩⟩ rest := by
  induction ds generalizing read with
  | nil => rfl
  | cons c ds ih =>
    have hdigit := hds c (by simp)
    have hc := toNat_lt_of_isDigit hdigit
    have hnext : c :: read ≠ [] ∧ c :: read ≠ ['0'] := by simp [hread.1]
    rw [List.cons_append, run?_cons _ hc, step?, ofUInt8_ofNat hc]
    simp only [continued?, hdigit, if_pos, if_neg hread.2, Option.bind_some]
    rw [ih hnext fun d hd => hds d (List.mem_cons_of_mem _ hd), List.reverse_cons,
      List.append_assoc, List.singleton_append]

/-- Digits are read as their number if it has no more than sixty-four bits. -/
theorem value_digits {n : Nat} (h : n < 2 ^ 64) :
    (inOrder ⟨false, (Number.digits n).reverse, none, none⟩).value = .integer n := by
  have hinteger : (inOrder ⟨false, (Number.digits n).reverse, none, none⟩).integer? =
      some (n : Int) := by
    simp [inOrder, Numeral.integer?, Number.ofDigits_digits]
  have hsmall : (n : Int) < Int.pow 2 64 := by
    have hpow : Int.pow 2 64 = 18446744073709551616 := by decide
    omega
  rw [Numeral.value, hinteger]
  simp only [inOrder, Bool.false_and, Bool.false_or, Bool.not_false, Bool.true_and,
    decide_eq_true_eq, if_pos hsmall]

/-- A digit is no white space. -/
theorem isSpace_of_isDigit {c : Char} (h : c.isDigit = true) : isSpace c = false := by
  rw [Bool.eq_false_iff]
  intro hspace
  simp only [isSpace, Bool.or_eq_true, beq_iff_eq] at hspace
  rcases hspace with ((rfl | rfl) | rfl) | rfl <;> exact absurd h (by decide)

/-- A digit begins a number. -/
theorem between?_digit (frames : List Frame) {c : Char} (h : c.isDigit = true) :
    between? .value c frames = some ⟨frames, .number .whole ⟨false, [c], none, none⟩⟩ := by
  have hbetween : between? .value c frames = begin? c frames := by
    simp [between?, isSpace_of_isDigit h]
  rw [hbetween]
  unfold begin?
  -- none of the signs that begin other values is a digit
  split <;> first | exact absurd h (by decide) | exact if_pos h

/-- The digits of a whole number put that number where it belongs. -/
theorem run?_integer (frames : List Frame) {n : Nat} (h : n < 2 ^ 64) {rest : List Char}
    (hrest : CanFollow rest) :
    run? ⟨frames, .value⟩ (Number.digits n ++ rest) = run? (deliver (.integer n) frames) rest := by
  obtain ⟨d, ds, hdigits, hzero⟩ := Number.exists_digits_eq_cons n
  have hall : ∀ c ∈ d :: ds, c.isDigit = true := fun c hc =>
    Number.isDigit_of_mem_digits (hdigits ▸ hc)
  have hfirst : d.isDigit = true := hall d (by simp)
  have hbegin := between?_digit frames hfirst
  have hread : run? ⟨frames, .number .whole ⟨false, [d], none, none⟩⟩ (ds ++ rest) =
      run? ⟨frames, .number .whole ⟨false, (d :: ds).reverse, none, none⟩⟩ rest := by
    by_cases hd : d = '0'
    · rw [hzero hd]
      rfl
    · rw [run?_digits frames (by simp [hd]) fun c hc => hall c (List.mem_cons_of_mem _ hc),
        List.reverse_cons]
  have hvalue := value_digits h
  rw [hdigits] at hvalue
  rw [hdigits, List.cons_append, run?_cons_between .value trivial frames
    (toNat_lt_of_isDigit hfirst), hbegin, Option.bind_some, hread, run?_number frames _ hrest,
    hvalue]

/-! ## Words and strings -/

/-- The bytes that are missing from a word put what it stands for where it belongs. -/
theorem foldlM_word (frames : List Frame) (word : Data) {bytes : List UInt8} (h : bytes ≠ []) :
    bytes.foldlM step? ⟨frames, .word bytes word⟩ = some (deliver word frames) := by
  induction bytes with
  | nil => exact absurd rfl h
  | cons b bytes ih =>
    cases bytes with
    | nil =>
      have hlast : step? ⟨frames, .word [b] word⟩ b = some (deliver word frames) := if_pos rfl
      rw [List.foldlM_cons, hlast]
      rfl
    | cons next bytes =>
      have hnext : step? ⟨frames, .word (b :: next :: bytes) word⟩ b =
          some ⟨frames, .word (next :: bytes) word⟩ := if_pos rfl
      rw [List.foldlM_cons, hnext]
      exact ih (by simp)

/-- A word, whose first letter says what it is. -/
theorem run?_word (frames : List Frame) (first : Char) (hfirst : first.toNat < 0x80)
    {letters : String} (hletters : letters.toList ≠ []) {word : Data}
    (hbegin : between? .value first frames = some ⟨frames, .word (bytesOf letters) word⟩)
    (rest : List Char) :
    run? ⟨frames, .value⟩ (first :: letters.toList ++ rest) = run? (deliver word frames) rest := by
  have hbytes : encoded letters.toList ≠ [] := by
    intro hnil
    have hread := ofBytes?_encoded letters.toList
    rw [hnil, ← encoded_nil, ofBytes?_encoded] at hread
    exact hletters (String.ofList_injective (Option.some.inj hread)).symm
  rw [List.cons_append, run?_cons_between .value trivial frames hfirst, hbegin, Option.bind_some,
    bytesOf_eq_encoded]
  exact run?_append (foldlM_word frames word hbytes) rest

/-- A byte in a string. -/
theorem step?_string (frames : List Frame) (isName : Bool) (l : Literal) (b : UInt8) :
    step? ⟨frames, .string isName l⟩ b =
      if Char.ofUInt8 b = '"' && l.escape = .outside then
        some (deliverString isName l.text? frames)
      else (l.step? b).map fun l => ⟨frames, .string isName l⟩ :=
  rfl

/-- Bytes inside a literal leave the machine in that literal. -/
theorem foldlM_string (frames : List Frame) (isName : Bool) {bytes : List UInt8} {l after : Literal}
    (h : bytes.foldlM Literal.inside? l = some after) :
    bytes.foldlM step? ⟨frames, .string isName l⟩ = some ⟨frames, .string isName after⟩ := by
  induction bytes generalizing l with
  | nil =>
    obtain rfl : l = after := by simpa using h
    rfl
  | cons b bytes ih =>
    rw [List.foldlM_cons, Option.bind_eq_bind, Option.bind_eq_some_iff] at h
    obtain ⟨next, hnext, hrest⟩ := h
    rw [Literal.inside?] at hnext
    split at hnext
    · cases hnext
    · rename_i hinside
      rw [List.foldlM_cons, step?_string, if_neg hinside, hnext]
      exact ih hrest

/-- A string in front of a text stands between quotation marks. -/
theorem string_append (s : String) (rest : List Char) :
    string s ++ rest = '"' :: (s.toList.flatMap escaped ++ '"' :: rest) := by
  simp [string]

/-- A string puts its text where it belongs. -/
theorem run?_string (frames : List Frame) (isName : Bool) (s : String) (rest : List Char) :
    run? ⟨frames, .string isName .start⟩ (s.toList.flatMap escaped ++ '"' :: rest) =
      run? (deliverString isName (some s) frames) rest := by
  have hcontent := foldlM_string frames isName (Literal.foldlM_inside?_content s)
  have hend : step? ⟨frames, .string isName (.holding (bytesOf s))⟩ (UInt8.ofNat '"'.toNat) =
      some (deliverString isName (some s) frames) := by
    rw [← Literal.text?_holding s, step?_string]
    exact if_pos rfl
  rw [run?_append hcontent, run?_cons _ (by decide), hend, Option.bind_some]

/-- A string is read back and delivered. -/
theorem run?_text (frames : List Frame) (s : String) (rest : List Char) :
    run? ⟨frames, .value⟩ (string s ++ rest) = run? (deliver (.text s) frames) rest := by
  rw [string_append, run?_cons_between .value trivial frames (by decide)]
  exact run?_string frames false s rest

/-- The name of a field, with all that stands before its value. -/
theorem run?_name (layout : Layout) {place : Place} (hplace : place = .recordStart ∨ place = .name)
    (fields : List (String × Data)) (before key : String) (frames : List Frame)
    (rest : List Char) :
    run? ⟨.record fields true before :: frames, place⟩
        (string key ++ ':' :: (layout.gap ++ rest)) =
      run? ⟨.record fields true key :: frames, .value⟩ rest := by
  have hopen : run? ⟨.record fields true before :: frames, place⟩
      (string key ++ ':' :: (layout.gap ++ rest)) =
      run? ⟨.record fields true before :: frames, .string true .start⟩
        (key.toList.flatMap escaped ++ '"' :: ':' :: (layout.gap ++ rest)) := by
    rw [string_append]
    rcases hplace with rfl | rfl
    · exact run?_cons_between .recordStart trivial _ (by decide) _
    · exact run?_cons_between .name trivial _ (by decide) _
  rw [hopen, run?_string]
  exact (run?_cons_between .colon trivial _ (by decide) _).trans
    (run?_spaces .value trivial _ layout.isSpace_of_mem_gap rest)

/-! ## Lists and records -/

/-- An item is delivered to the list around it. -/
theorem deliver_list (value : Data) (items : List Data) (frames : List Frame) :
    deliver value (.list items :: frames) = ⟨.list (value :: items) :: frames, .next⟩ :=
  rfl

/-- The value of a field is delivered to the record around it. -/
theorem deliver_record (value : Data) (fields : List (String × Data)) (key : String)
    (frames : List Frame) :
    deliver value (.record fields true key :: frames) =
      ⟨.record ((key, value) :: fields) true key :: frames, .next⟩ :=
  rfl

/-- The sign that closes the innermost list or record. -/
theorem run?_close {place : Place} (hplace : place = .listStart ∨ place = .next)
    (items : List Data) (frames : List Frame) (rest : List Char) :
    run? ⟨.list items :: frames, place⟩ (']' :: rest) =
      run? (deliver (.list items.reverse) frames) rest := by
  rcases hplace with rfl | rfl
  · exact run?_cons_between .listStart trivial _ (by decide) rest
  · exact run?_cons_between .next trivial _ (by decide) rest

/-- The closing brace delivers a record. -/
theorem run?_closeRecord {place : Place} (hplace : place = .recordStart ∨ place = .next)
    (fields : List (String × Data)) (key : String) (frames : List Frame) (rest : List Char) :
    run? ⟨.record fields true key :: frames, place⟩ ('}' :: rest) =
      run? (deliver (.record fields.reverse) frames) rest := by
  rcases hplace with rfl | rfl
  · exact run?_cons_between .recordStart trivial _ (by decide) rest
  · exact run?_cons_between .next trivial _ (by decide) rest

theorem atom_integer (n : Nat) : atom (.integer n) = Number.digits n := by
  have hrepr : toString (n : Int) = String.ofList (Nat.toDigits 10 n) := Nat.repr_eq_ofList_toDigits
  rw [atom, hrepr, String.toList_ofList, Number.digits]

/-- A list or record begins with its opening sign. -/
theorem head_block (layout : Layout) (depth : Nat) (opening closing : Char)
    (pieces : List (List Char)) :
    ∃ cs, layout.block depth opening closing pieces = opening :: cs := by
  cases pieces <;> exact ⟨_, rfl⟩

/-- No value begins with white space, or with the sign that closes a list. -/
theorem head_print (layout : Layout) (depth : Nat) {tree : Data} (h : tree.IsPlain) :
    ∃ c cs, layout.print depth tree = c :: cs ∧ c.toNat < 0x80 ∧ isSpace c = false ∧ c ≠ ']' := by
  cases tree with
  | null => exact ⟨'n', "ull".toList, rfl, by decide⟩
  | bool value =>
    cases value with
    | false => exact ⟨'f', "alse".toList, rfl, by decide⟩
    | true => exact ⟨'t', "rue".toList, rfl, by decide⟩
  | integer value =>
    obtain ⟨n, rfl⟩ := Int.eq_ofNat_of_zero_le h.1
    obtain ⟨d, ds, hdigits, -⟩ := Number.exists_digits_eq_cons n
    have hdigit : d.isDigit = true := Number.isDigit_of_mem_digits (hdigits ▸ List.mem_cons_self)
    refine ⟨d, ds, (atom_integer n).trans hdigits, toNat_lt_of_isDigit hdigit,
      isSpace_of_isDigit hdigit, ?_⟩
    rintro rfl
    exact absurd hdigit (by decide)
  | text value => exact ⟨'"', value.toList.flatMap escaped ++ ['"'], rfl, by decide⟩
  | list items =>
    obtain ⟨cs, hblock⟩ := head_block layout depth '[' ']' (layout.printItems (depth + 1) items)
    exact ⟨'[', cs, hblock, by decide⟩
  | record fields =>
    obtain ⟨cs, hblock⟩ := head_block layout depth '{' '}' (layout.printFields (depth + 1) fields)
    exact ⟨'{', cs, hblock, by decide⟩
  | real value => exact absurd h id
  | unusable => exact absurd h id

/-- At the start of a list a value is read as elsewhere. -/
theorem run?_listStart (layout : Layout) (depth : Nat) {tree : Data} (h : tree.IsPlain)
    (frames : List Frame) (rest : List Char) :
    run? ⟨frames, .listStart⟩ (layout.print depth tree ++ rest) =
      run? ⟨frames, .value⟩ (layout.print depth tree ++ rest) := by
  obtain ⟨c, cs, hprint, hc, hspace, hclose⟩ := head_print layout depth h
  rw [hprint, List.cons_append, run?_cons_between .listStart trivial frames hc,
    run?_cons_between .value trivial frames hc]
  simp [between?, hspace, hclose]

/-! ## Values -/

/-- The items after the first begin with a comma. -/
theorem more_cons (layout : Layout) (depth : Nat) (piece : List Char) (pieces : List (List Char))
    (rest : List Char) :
    layout.more depth (piece :: pieces) ++ rest =
      ',' :: (layout.line depth ++ (piece ++ (layout.more depth pieces ++ rest))) := by
  simp [Layout.more]

/-- A list or record that is not empty is its first item, the others, and the signs around them. -/
theorem block_cons (layout : Layout) (depth : Nat) (opening closing : Char) (first : List Char)
    (pieces : List (List Char)) (rest : List Char) :
    layout.block depth opening closing (first :: pieces) ++ rest =
      opening :: (layout.line (depth + 1) ++ (first ++ (layout.more (depth + 1) pieces ++
        (layout.line depth ++ closing :: rest)))) := by
  simp [Layout.block]

/-- A field in front of a text is its key, a colon and its value. -/
theorem field_append (layout : Layout) (key : String) (text rest : List Char) :
    string key ++ ':' :: (layout.gap ++ text) ++ rest =
      string key ++ ':' :: (layout.gap ++ (text ++ rest)) := by
  simp

/-- A comma in a list leads to the next value. -/
theorem run?_comma_list (layout : Layout) (depth : Nat) (items : List Data) (frames : List Frame)
    (rest : List Char) :
    run? ⟨.list items :: frames, .next⟩ (',' :: (layout.line depth ++ rest)) =
      run? ⟨.list items :: frames, .value⟩ rest :=
  (run?_cons_between .next trivial _ (by decide) _).trans
    (run?_spaces .value trivial _ (layout.isSpace_of_mem_line depth) rest)

/-- A comma in a record leads to the next name. -/
theorem run?_comma_record (layout : Layout) (depth : Nat) (fields : List (String × Data))
    (key : String) (frames : List Frame) (rest : List Char) :
    run? ⟨.record fields true key :: frames, .next⟩ (',' :: (layout.line depth ++ rest)) =
      run? ⟨.record fields true key :: frames, .name⟩ rest :=
  (run?_cons_between .next trivial _ (by decide) _).trans
    (run?_spaces .name trivial _ (layout.isSpace_of_mem_line depth) rest)

/-- An opening bracket leads to the start of a list, whatever white space follows. -/
theorem run?_open_list (layout : Layout) (depth : Nat) (frames : List Frame) (rest : List Char) :
    run? ⟨frames, .value⟩ ('[' :: (layout.line depth ++ rest)) =
      run? ⟨.list [] :: frames, .listStart⟩ rest :=
  (run?_cons_between .value trivial _ (by decide) _).trans
    (run?_spaces .listStart trivial _ (layout.isSpace_of_mem_line depth) rest)

/-- An opening brace leads to the start of a record, whatever white space follows. -/
theorem run?_open_record (layout : Layout) (depth : Nat) (frames : List Frame) (rest : List Char) :
    run? ⟨frames, .value⟩ ('{' :: (layout.line depth ++ rest)) =
      run? ⟨.record [] true "" :: frames, .recordStart⟩ rest :=
  (run?_cons_between .value trivial _ (by decide) _).trans
    (run?_spaces .recordStart trivial _ (layout.isSpace_of_mem_line depth) rest)

/-- A closing sign may follow a value. -/
theorem canFollow_line (layout : Layout) (depth : Nat) {closing : Char}
    (h : closing = ']' ∨ closing = '}') (rest : List Char) :
    CanFollow (layout.line depth ++ closing :: rest) := by
  refine canFollow_spaces (layout.isSpace_of_mem_line depth) fun c hc => ?_
  obtain rfl : closing = c := by simpa using hc
  exact .inr (h.imp_right .inl)

mutual
/-- The text of a value puts that value where it belongs. -/
theorem run?_print (layout : Layout) (depth : Nat) :
    ∀ (tree : Data) (_ : tree.IsPlain) (frames : List Frame) {rest : List Char}
      (_ : CanFollow rest),
      run? ⟨frames, .value⟩ (layout.print depth tree ++ rest) = run? (deliver tree frames) rest
  | .null, _, frames, rest, _ => run?_word frames 'n' (by decide) (by decide) rfl rest
  | .bool value, _, frames, rest, _ => by
    cases value with
    | false => exact run?_word frames 'f' (by decide) (by decide) rfl rest
    | true => exact run?_word frames 't' (by decide) (by decide) rfl rest
  | .integer value, h, frames, rest, hrest => by
    obtain ⟨n, rfl⟩ := Int.eq_ofNat_of_zero_le h.1
    have hn : n < 2 ^ 64 := by
      have hlt := h.2
      omega
    have hprint : layout.print depth (.integer n) = Number.digits n := atom_integer n
    rw [hprint, run?_integer frames hn hrest]
  | .text value, _, frames, rest, _ => run?_text frames value rest
  | .list [], _, frames, rest, _ =>
    (run?_cons_between .value trivial frames (by decide) _).trans
      (run?_close (.inl rfl) [] frames rest)
  | .list (item :: items), h, frames, rest, _ => by
    have hclose := canFollow_line layout depth (.inl rfl) rest
    rw [Layout.print, Layout.printItems, block_cons, run?_open_list,
      run?_listStart layout _ h.1,
      run?_print layout _ item h.1 _ (canFollow_more layout _ _ hclose),
      deliver_list, run?_printItems layout _ items h.2 _ _ hclose,
      run?_spaces .next trivial _ (layout.isSpace_of_mem_line depth), run?_close (.inr rfl)]
    simp
  | .record [], _, frames, rest, _ =>
    (run?_cons_between .value trivial frames (by decide) _).trans
      (run?_closeRecord (.inl rfl) [] "" frames rest)
  | .record ((name, value) :: fields), h, frames, rest, _ => by
    have hclose := canFollow_line layout depth (.inr rfl) rest
    obtain ⟨last, hfields⟩ :=
      run?_printFields layout (depth + 1) fields h.2 [(name, value)] name frames hclose
    rw [Layout.print, Layout.printFields, block_cons, run?_open_record, field_append,
      run?_name layout (.inl rfl),
      run?_print layout _ value h.1 _ (canFollow_more layout _ _ hclose),
      deliver_record, hfields, run?_spaces .next trivial _ (layout.isSpace_of_mem_line depth),
      run?_closeRecord (.inr rfl)]
    simp
  | .real _, h, _, _, _ => absurd h id
  | .unusable, h, _, _, _ => absurd h id

/-- The texts of further items put these items into their list. -/
theorem run?_printItems (layout : Layout) (depth : Nat) :
    ∀ (items : List Data) (_ : Data.ArePlain items) (done : List Data) (frames : List Frame)
      {rest : List Char} (_ : CanFollow rest),
      run? ⟨.list done :: frames, .next⟩
          (layout.more depth (layout.printItems depth items) ++ rest) =
        run? ⟨.list (items.reverse ++ done) :: frames, .next⟩ rest
  | [], _, done, frames, rest, _ => rfl
  | item :: items, h, done, frames, rest, hrest => by
    rw [Layout.printItems, more_cons, run?_comma_list,
      run?_print layout depth item h.1 _ (canFollow_more layout depth _ hrest), deliver_list,
      run?_printItems layout depth items h.2 _ _ hrest, List.reverse_cons, List.append_assoc,
      List.singleton_append]

/-- The texts of further fields put these fields into their record. -/
theorem run?_printFields (layout : Layout) (depth : Nat) :
    ∀ (fields : List (String × Data)) (_ : Data.HavePlain fields) (done : List (String × Data))
      (key : String) (frames : List Frame) {rest : List Char} (_ : CanFollow rest),
      ∃ last, run? ⟨.record done true key :: frames, .next⟩
          (layout.more depth (layout.printFields depth fields) ++ rest) =
        run? ⟨.record (fields.reverse ++ done) true last :: frames, .next⟩ rest
  | [], _, done, key, frames, rest, _ => ⟨key, rfl⟩
  | (name, value) :: fields, h, done, key, frames, rest, hrest => by
    obtain ⟨last, hfields⟩ :=
      run?_printFields layout depth fields h.2 ((name, value) :: done) name frames hrest
    refine ⟨last, ?_⟩
    rw [Layout.printFields, more_cons, run?_comma_record, field_append, run?_name layout (.inr rfl),
      run?_print layout depth value h.1 _ (canFollow_more layout depth _ hrest), deliver_record,
      hfields, List.reverse_cons, List.append_assoc, List.singleton_append]
end

end Machine

/-! ## Whole texts -/

/-- A tree is read back from its text in any layout. -/
theorem read_print (layout : Layout) {tree : Data} (h : tree.IsPlain) :
    read (encoded (layout.print 0 tree)) = some tree := by
  have hend : Machine.CanFollow [] := by simp [Machine.CanFollow]
  have hrun := Machine.run?_print layout 0 tree h [] hend
  rw [List.append_nil] at hrun
  exact hrun

/-- A tree is read back from its text on one line. -/
theorem read_line {tree : Data} (h : tree.IsPlain) : read (bytesOf (line tree)) = some tree := by
  rw [line, bytesOf_ofList, ← Layout.print_oneLine 0, read_print Layout.oneLine h]

/-- A tree is read back from its text in the readable layout. -/
theorem read_pretty {tree : Data} (h : tree.IsPlain) :
    read (bytesOf (pretty tree)) = some tree := by
  rw [pretty, bytesOf_ofList, ← Layout.print_indented, read_print Layout.indented h]

end Json

end CallGraph
