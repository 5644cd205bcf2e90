import CallGraph.Bytes.Codec
import CallGraph.Proofs.Data.TextMap
import CallGraph.Proofs.Text.Utf8
import Mathlib.Tactic.Ring

/-!
# Laws of codecs

A codec is lawful if it reads back what it writes, whatever follows, and if what it has read does
not depend on what follows.  Lawful codecs are put together from lawful codecs.  The bytes of a
value are then read as that value, while a part of them that breaks off early is refused.

Main results:

- Definition `Codec.Lawful`: when a codec is lawful for the values of some kind.
- Theorems `Codec.lawful_number`, `lawful_pair`, `lawful_list`, `lawful_option`, `lawful_bool`,
  `lawful_choice`, `lawful_text`, `lawful_textMap` and `Codec.Lawful.via`: all codecs are lawful.
- Theorem `Codec.Lawful.decode_eq_none_of_breaks_off`: bytes that break off early are refused.
-/

namespace CallGraph

namespace Codec

variable {α β : Type}

/-! ## Lawful codecs -/

/-- The codec writes at least one byte for every value, reads back each valid value that is not too
long for its counts, and reads the same if more bytes follow. -/
structure Lawful (codec : Codec α) (Valid : α → Prop) : Prop where
  encode_ne_nil : ∀ a, codec.encode a ≠ []
  decode_encode : ∀ {a}, Valid a → (codec.encode a).length < 2 ^ 64 → ∀ rest,
    codec.decode (codec.encode a ++ rest) = some (a, rest)
  decode_append : ∀ {bytes a rest}, codec.decode bytes = some (a, rest) → ∀ more,
    codec.decode (bytes ++ more) = some (a, rest ++ more)

variable {codec : Codec α} {Valid : α → Prop}

/-- Bytes of a value that break off early are refused: if they were read as a value, the whole
would be read as that value too, with the missing bytes left over. -/
theorem Lawful.decode_eq_none_of_breaks_off (h : codec.Lawful Valid) {a : α} (ha : Valid a)
    (hlength : (codec.encode a).length < 2 ^ 64) {bytes : List UInt8}
    (hstart : bytes <+: codec.encode a) (hne : bytes ≠ codec.encode a) :
    codec.decode bytes = none := by
  obtain ⟨missing, heq⟩ := hstart
  cases hdecode : codec.decode bytes with
  | none => rfl
  | some result =>
    obtain ⟨b, rest⟩ := result
    have hwhole := h.decode_encode ha hlength []
    rw [List.append_nil, ← heq, h.decode_append hdecode, Option.some.injEq, Prod.mk.injEq,
      List.append_eq_nil_iff] at hwhole
    rw [hwhole.2.2, List.append_nil] at heq
    exact absurd heq hne

/-- A codec that is lawful for some values is lawful for fewer. -/
theorem Lawful.mono (h : codec.Lawful Valid) {Narrow : α → Prop}
    (hvalid : ∀ a, Narrow a → Valid a) : codec.Lawful Narrow where
  encode_ne_nil := h.encode_ne_nil
  decode_encode ha := h.decode_encode (hvalid _ ha)
  decode_append := h.decode_append

/-! ## Numbers -/

/-- A number is written in as many bytes as are asked for. -/
theorem length_littleEndian (count n : Nat) : (littleEndian count n).length = count := by
  induction count generalizing n with
  | zero => rfl
  | succ count ih => rw [littleEndian, List.length_cons, ih]

/-- The bytes give back the number, as far as they hold it. -/
theorem ofLittleEndian_littleEndian (count n : Nat) :
    ofLittleEndian (littleEndian count n) = n % 256 ^ count := by
  induction count generalizing n with
  | zero => simp [littleEndian, ofLittleEndian, Nat.mod_one]
  | succ count ih =>
    have hbyte : (UInt8.ofNat n).toNat = n % 256 := UInt8.toNat_ofNat'
    rw [littleEndian, ofLittleEndian, ih, hbyte, Nat.pow_succ', Nat.mod_mul]

/-- A number that fits is read back, and the bytes after it are left. -/
theorem takeNumber_littleEndian (count : Nat) {n : Nat} (h : n < 256 ^ count)
    (rest : List UInt8) :
    takeNumber count (littleEndian count n ++ rest) = some (n, rest) := by
  have hlength := length_littleEndian count n
  rw [takeNumber, List.take_left' hlength, List.drop_left' hlength, if_pos hlength,
    ofLittleEndian_littleEndian, Nat.mod_eq_of_lt h]

/-- More bytes after a number are left as they are. -/
theorem takeNumber_append {count n : Nat} {bytes rest : List UInt8}
    (h : takeNumber count bytes = some (n, rest)) (more : List UInt8) :
    takeNumber count (bytes ++ more) = some (n, rest ++ more) := by
  rw [takeNumber, Option.ite_none_right_eq_some, List.length_take] at h
  obtain ⟨hlength, heq⟩ := h
  have hle : count ≤ bytes.length := by omega
  rw [takeNumber, List.take_append_of_le_length hle, List.drop_append_of_le_length hle,
    List.length_take, if_pos hlength]
  simp only [Option.some.injEq, Prod.mk.injEq] at heq ⊢
  exact ⟨heq.1, by rw [heq.2]⟩

/-- A number of variable length is read back, and the bytes after it are left. -/
theorem decodeNumber_encodeNumber {n : Nat} (h : n < 2 ^ 64) (rest : List UInt8) :
    decodeNumber (encodeNumber n ++ rest) = some (n, rest) := by
  rw [encodeNumber]
  split
  · rename_i hsmall
    have hbyte : (UInt8.ofNat n).toNat = n := by
      rw [UInt8.toNat_ofNat']
      omega
    have hlt : UInt8.ofNat n < 251 := by
      rw [UInt8.lt_iff_toNat_lt, hbyte]
      exact hsmall
    simp only [List.singleton_append, decodeNumber, if_pos hlt, hbyte]
  · split
    · rename_i hword
      exact takeNumber_littleEndian 2 hword rest
    · split
      · rename_i hword
        exact takeNumber_littleEndian 4 hword rest
      · exact takeNumber_littleEndian 8 h rest

/-- The first byte of a number is the number, or says how many bytes it has, or begins no number. -/
theorem decodeNumber_cons_cases (b : UInt8) :
    (∀ bytes, decodeNumber (b :: bytes) = some (b.toNat, bytes)) ∨
      (∃ count, ∀ bytes, decodeNumber (b :: bytes) = takeNumber count bytes) ∨
        ∀ bytes, decodeNumber (b :: bytes) = none := by
  by_cases hsmall : b < 251
  · exact .inl fun bytes => if_pos hsmall
  have hlarge : ∀ bytes, decodeNumber (b :: bytes) = if b = 251 then takeNumber 2 bytes
      else if b = 252 then takeNumber 4 bytes else if b = 253 then takeNumber 8 bytes else none :=
    fun bytes => if_neg hsmall
  refine .inr ?_
  by_cases htwo : b = 251
  · exact .inl ⟨2, fun bytes => by rw [hlarge, if_pos htwo]⟩
  by_cases hfour : b = 252
  · exact .inl ⟨4, fun bytes => by rw [hlarge, if_neg htwo, if_pos hfour]⟩
  by_cases height : b = 253
  · exact .inl ⟨8, fun bytes => by rw [hlarge, if_neg htwo, if_neg hfour, if_pos height]⟩
  · exact .inr fun bytes => by rw [hlarge, if_neg htwo, if_neg hfour, if_neg height]

/-- More bytes after a number of variable length are left as they are. -/
theorem decodeNumber_append {n : Nat} {bytes rest : List UInt8}
    (h : decodeNumber bytes = some (n, rest)) (more : List UInt8) :
    decodeNumber (bytes ++ more) = some (n, rest ++ more) := by
  cases bytes with
  | nil => cases h
  | cons b bytes =>
    rw [List.cons_append]
    obtain hself | ⟨count, htake⟩ | hnone := decodeNumber_cons_cases b
    · rw [hself, Option.some.injEq, Prod.mk.injEq] at h
      rw [hself, h.1, h.2]
    · rw [htake] at h
      rw [htake, takeNumber_append h]
    · rw [hnone] at h
      cases h

/-- Every number takes at least one byte. -/
theorem encodeNumber_ne_nil (n : Nat) : encodeNumber n ≠ [] := by
  rw [encodeNumber]
  split
  · simp
  · split
    · simp
    · split <;> simp

/-- Numbers of at most 64 bits are read back. -/
theorem lawful_number (bound : Nat) (hbound : bound ≤ 2 ^ 64) :
    (number bound).Lawful (· < bound) where
  encode_ne_nil := encodeNumber_ne_nil
  decode_encode := by
    intro n hn _ rest
    simp only [number, decodeNumber_encodeNumber (lt_of_lt_of_le hn hbound), Option.bind_eq_bind,
      Option.bind_some, if_pos hn]
  decode_append := by
    intro bytes n rest h more
    simp only [number, Option.bind_eq_bind, Option.bind_eq_some_iff] at h ⊢
    obtain ⟨⟨m, left⟩, hdecode, hvalue⟩ := h
    refine ⟨(m, left ++ more), decodeNumber_append hdecode more, ?_⟩
    rw [Option.ite_none_right_eq_some] at hvalue ⊢
    simp only [Option.some.injEq, Prod.mk.injEq] at hvalue ⊢
    exact ⟨hvalue.1, hvalue.2.1, by rw [hvalue.2.2]⟩

/-- Numbers of thirty-two bits are coded lawfully. -/
theorem lawful_word32 : word32.Lawful (· < 2 ^ 32) :=
  (lawful_number (Nat.pow 2 32) (by decide)).mono fun _ hn => hn

/-- Numbers of sixty-four bits are coded lawfully. -/
theorem lawful_word64 : word64.Lawful (· < 2 ^ 64) :=
  (lawful_number (Nat.pow 2 64) (by decide)).mono fun _ hn => hn

/-! ## Values that stand for others -/

/-- A value is read back if the value that stands for it is, and stands for it only. -/
theorem Lawful.via {base : Codec β} {Valid : β → Prop} (h : base.Lawful Valid)
    (toBase : α → β) (ofBase? : β → Option α) :
    (base.via toBase ofBase?).Lawful fun a => Valid (toBase a) ∧ ofBase? (toBase a) = some a where
  encode_ne_nil a := h.encode_ne_nil (toBase a)
  decode_encode := by
    intro a ⟨hvalid, hback⟩ hlength rest
    simp only [Codec.via, h.decode_encode hvalid hlength, Option.bind_eq_bind, Option.bind_some,
      hback, Option.map_some]
  decode_append := by
    intro bytes a rest hdecode more
    simp only [Codec.via, Option.bind_eq_bind, Option.bind_eq_some_iff, Option.map_eq_some_iff,
      Prod.mk.injEq] at hdecode ⊢
    obtain ⟨⟨b, left⟩, hbase, c, hback, rfl, rfl⟩ := hdecode
    exact ⟨(b, left ++ more), h.decode_append hbase more, c, hback, rfl, rfl⟩

/-- One of at most `2 ^ 32` choices is read back. -/
theorem lawful_choice [DecidableEq α] {choices : List α} (hcount : choices.length ≤ 2 ^ 32) :
    (choice choices).Lawful (· ∈ choices) := by
  refine (lawful_word32.via _ _).mono fun a ha => ?_
  have hlt : choices.findIdx (· = a) < choices.length :=
    List.findIdx_lt_length_of_exists ⟨a, ha, by simp⟩
  refine ⟨lt_of_lt_of_le hlt hcount, ?_⟩
  have hfound := List.findIdx_getElem (p := fun x => decide (x = a)) (w := hlt)
  rw [List.getElem?_eq_getElem hlt, Option.some.injEq]
  simpa using hfound

/-! ## Pairs and lists -/

/-- Pairs are read back if their parts are. -/
theorem lawful_pair {first : Codec α} {second : Codec β} {ValidFirst : α → Prop}
    {ValidSecond : β → Prop} (hfirst : first.Lawful ValidFirst)
    (hsecond : second.Lawful ValidSecond) :
    (pair first second).Lawful fun ab => ValidFirst ab.1 ∧ ValidSecond ab.2 where
  encode_ne_nil ab := by simp [pair, hfirst.encode_ne_nil]
  decode_encode := by
    intro ab ⟨ha, hb⟩ hlength rest
    simp only [pair, List.length_append] at hlength
    simp only [pair, List.append_assoc, hfirst.decode_encode ha (by omega),
      hsecond.decode_encode hb (by omega), Option.bind_eq_bind, Option.bind_some]
  decode_append := by
    intro bytes ab rest h more
    simp only [pair, Option.bind_eq_bind, Option.bind_eq_some_iff, Option.some.injEq,
      Prod.mk.injEq] at h ⊢
    obtain ⟨⟨a, left⟩, ha, ⟨b, last⟩, hb, rfl, rfl⟩ := h
    exact ⟨(a, left ++ more), hfirst.decode_append ha more,
      (b, last ++ more), hsecond.decode_append hb more, rfl, rfl⟩

variable {item : Codec α}

/-- Items are read back one after the other, by induction on how many are left. -/
theorem decodeMany_encode (h : item.Lawful Valid) {items : List α} (hvalid : ∀ a ∈ items, Valid a)
    (hlength : (items.flatMap item.encode).length < 2 ^ 64) (done : List α) (rest : List UInt8) :
    item.decodeMany done items.length (items.flatMap item.encode ++ rest) =
      some (done.reverse ++ items, rest) := by
  induction items generalizing done with
  | nil => simp [decodeMany]
  | cons a items ih =>
    rw [List.flatMap_cons, List.length_append] at hlength
    rw [List.flatMap_cons, List.append_assoc, List.length_cons, decodeMany,
      h.decode_encode (hvalid a (by simp)) (by omega)]
    simp only
    rw [ih (fun b hb => hvalid b (List.mem_cons_of_mem _ hb)) (by omega)]
    simp

/-- More bytes after the items are left as they are. -/
theorem decodeMany_append (h : item.Lawful Valid) {done items : List α} {count : Nat}
    {bytes rest : List UInt8} (hdecode : item.decodeMany done count bytes = some (items, rest))
    (more : List UInt8) :
    item.decodeMany done count (bytes ++ more) = some (items, rest ++ more) := by
  induction count generalizing done bytes with
  | zero =>
    simp only [decodeMany, Option.some.injEq, Prod.mk.injEq] at hdecode ⊢
    exact ⟨hdecode.1, by rw [hdecode.2]⟩
  | succ count ih =>
    rw [decodeMany] at hdecode ⊢
    cases hitem : item.decode bytes with
    | none =>
      rw [hitem] at hdecode
      cases hdecode
    | some result =>
      obtain ⟨a, left⟩ := result
      rw [hitem] at hdecode
      rw [h.decode_append hitem more]
      exact ih hdecode

/-- A list has no more items than its encoding has bytes. -/
theorem length_le_length_encode (h : item.Lawful Valid) (items : List α) :
    items.length ≤ (items.flatMap item.encode).length := by
  induction items with
  | nil => simp
  | cons a items ih =>
    have hpos := List.length_pos_iff.2 (h.encode_ne_nil a)
    rw [List.flatMap_cons, List.length_append, List.length_cons]
    omega

/-- Lists are read back if their items are. -/
theorem lawful_list (h : item.Lawful Valid) :
    (list item).Lawful fun items => ∀ a ∈ items, Valid a where
  encode_ne_nil items := by simp [list, lawful_word64.encode_ne_nil]
  decode_encode := by
    intro items hvalid hlength rest
    simp only [list, List.length_append] at hlength
    have hcount := length_le_length_encode h items
    have hnumber := lawful_word64.decode_encode (a := items.length) (by omega) (by omega)
    simp only [list, List.append_assoc, hnumber, Option.bind_eq_bind, Option.bind_some]
    rw [decodeMany_encode h hvalid (by omega)]
    simp
  decode_append := by
    intro bytes items rest hdecode more
    simp only [list, Option.bind_eq_bind, Option.bind_eq_some_iff] at hdecode ⊢
    obtain ⟨⟨count, left⟩, hcount, hitems⟩ := hdecode
    exact ⟨(count, left ++ more), lawful_word64.decode_append hcount more,
      decodeMany_append h hitems more⟩

/-! ## Options and truth values -/

/-- Optional values are read back if the values are. -/
theorem lawful_option {value : Codec α} (h : value.Lawful Valid) :
    (option value).Lawful fun found => ∀ a ∈ found, Valid a where
  encode_ne_nil found := by cases found <;> simp [option]
  decode_encode := by
    intro found hvalid hlength rest
    cases found with
    | none => rfl
    | some a =>
      simp only [option, List.length_cons] at hlength
      simp only [option, List.cons_append,
        h.decode_encode (hvalid a rfl) (by omega), Option.map_some]
  decode_append := by
    intro bytes found rest hdecode more
    simp only [option] at hdecode ⊢
    split at hdecode
    · simp only [Option.some.injEq, Prod.mk.injEq] at hdecode
      obtain ⟨rfl, rfl⟩ := hdecode
      rfl
    · rw [Option.map_eq_some_iff] at hdecode
      obtain ⟨⟨a, left⟩, hvalue, heq⟩ := hdecode
      obtain ⟨rfl, rfl⟩ := Prod.mk.inj heq
      simp only [List.cons_append, h.decode_append hvalue more, Option.map_some]
    · cases hdecode

/-- Truth values are coded lawfully, one byte each. -/
theorem lawful_bool : bool.Lawful fun _ => True where
  encode_ne_nil b := by simp [bool]
  decode_encode := by
    intro b _ _ rest
    cases b <;> rfl
  decode_append := by
    intro bytes b rest hdecode more
    simp only [bool] at hdecode ⊢
    split at hdecode
    · simp only [Option.some.injEq, Prod.mk.injEq] at hdecode
      obtain ⟨rfl, rfl⟩ := hdecode
      rfl
    · simp only [Option.some.injEq, Prod.mk.injEq] at hdecode
      obtain ⟨rfl, rfl⟩ := hdecode
      rfl
    · cases hdecode

/-! ## Texts -/

/-- Texts are coded lawfully. -/
theorem lawful_text : text.Lawful fun _ => True where
  encode_ne_nil s := by simp [text, lawful_word64.encode_ne_nil]
  decode_encode := by
    intro s _ hlength rest
    simp only [text, List.length_append] at hlength
    have hnumber :=
      lawful_word64.decode_encode (a := (Text.bytesOf s).length) (by omega) (by omega)
    simp only [text, List.append_assoc, hnumber, Option.bind_eq_bind, Option.bind_some,
      List.take_left, List.drop_left, if_pos, Text.ofBytes?_bytesOf, Option.map_some]
  decode_append := by
    intro bytes s rest hdecode more
    simp only [text, Option.bind_eq_bind, Option.bind_eq_some_iff, Option.ite_none_right_eq_some,
      List.length_take] at hdecode ⊢
    obtain ⟨⟨count, left⟩, hcount, hlength, hread⟩ := hdecode
    have hle : count ≤ left.length := by
      simp only at hlength
      omega
    refine ⟨(count, left ++ more), lawful_word64.decode_append hcount more, ?_, ?_⟩
    · rw [List.length_append]
      omega
    · simp only [List.take_append_of_le_length hle, List.drop_append_of_le_length hle,
        Option.map_eq_some_iff, Prod.mk.injEq] at hread ⊢
      obtain ⟨s, hs, rfl, rfl⟩ := hread
      exact ⟨s, hs, rfl, rfl⟩

/-! ## Maps -/

/-- Maps of texts are coded lawfully. -/
theorem lawful_textMap : textMap.Lawful fun _ => True :=
  ((lawful_list (lawful_pair lawful_text lawful_text)).via TextMap.entries
    fun entries => some (TextMap.ofList entries)).mono fun m _ =>
      ⟨fun _ _ => ⟨trivial, trivial⟩, by rw [TextMap.ofList_entries]⟩

end Codec

end CallGraph
