import CallGraph.Proofs.Text.Utf8
import CallGraph.Xml.Layout

/-!
# Character data and attributes read back

A text that is written with references is read as that text, and the attributes that are written
in a start tag are read as these attributes.

Main results:

- Theorem `unescape?_escape`: an escaped text is read as the text that was escaped.
- Theorem `not_mem_escape`: it has none of the signs that end tags and values.
- Theorem `attributes?_tag`: attributes with different names are read from their tag.
-/

namespace CallGraph.Xml

open Text

/-! ## Names -/

/-- Whether the text is a plain name: letters and points, and at least one of them. -/
def IsName (s : String) : Prop :=
  s.toList ≠ [] ∧ ∀ c ∈ s.toList, c.isAlpha = true ∨ c = '.'

instance (s : String) : Decidable (IsName s) :=
  decidable_of_iff (s.toList.isEmpty = false ∧
    s.toList.all (fun c => c.isAlpha || decide (c = '.')) = true) (by simp [IsName])

/-- The codes of letters lie between those of the first and the last of them. -/
theorem toNat_of_isAlpha {c : Char} (h : c.isAlpha = true) : 0x41 ≤ c.toNat ∧ c.toNat ≤ 0x7a := by
  have hletter : (c.isUpper || c.isLower) = true := h
  rcases Bool.or_eq_true_iff.1 hletter with hupper | hlower
  · have hrange : 'A'.val ≤ c.val ∧ c.val ≤ 'Z'.val := of_decide_eq_true hupper
    exact ⟨UInt32.le_iff_toNat_le.1 hrange.1,
      Nat.le_trans (UInt32.le_iff_toNat_le.1 hrange.2) (by decide)⟩
  · have hrange : (decide ('a'.val ≤ c.val) && decide (c.val ≤ 'z'.val)) = true := hlower
    rw [Bool.and_eq_true, decide_eq_true_eq, decide_eq_true_eq] at hrange
    exact ⟨Nat.le_trans (by decide) (UInt32.le_iff_toNat_le.1 hrange.1),
      UInt32.le_iff_toNat_le.1 hrange.2⟩

namespace IsName

variable {s : String}

/-- A character of a name is a dot or has the code of a letter. -/
theorem toNat_of_mem (h : IsName s) {c : Char} (hc : c ∈ s.toList) :
    c.toNat = 0x2e ∨ 0x41 ≤ c.toNat ∧ c.toNat ≤ 0x7a := by
  rcases h.2 c hc with halpha | rfl
  · exact .inr (toNat_of_isAlpha halpha)
  · exact .inl rfl

/-- The bytes of a name are those of its characters. -/
theorem encoded_toList (h : IsName s) : encoded s.toList = ascii s :=
  encoded_eq_map fun c hc => by
    have hvalue := h.toNat_of_mem hc
    omega

/-- No byte of a name is a sign, except the point. -/
theorem ne_of_mem (h : IsName s) {b d : UInt8} (hb : b ∈ ascii s)
    (hd : d.toNat ≠ 0x2e ∧ (d.toNat < 0x41 ∨ 0x7a < d.toNat)) : b ≠ d := by
  rintro rfl
  obtain ⟨c, hc, rfl⟩ := List.mem_map.1 hb
  have hvalue := h.toNat_of_mem hc
  rw [UInt8.toNat_ofNat'] at hd
  omega

/-- A byte of a name is no white space. -/
theorem isSpace_of_mem (h : IsName s) {b : UInt8} (hb : b ∈ ascii s) : isSpace b = false := by
  have hne {d : UInt8} (hd : d.toNat ≠ 0x2e ∧ (d.toNat < 0x41 ∨ 0x7a < d.toNat)) :
      (b == d) = false := beq_eq_false_iff_ne.2 (h.ne_of_mem hb hd)
  simp [isSpace, hne]

/-- A name has a first byte. -/
theorem exists_ascii_eq_cons (h : IsName s) : ∃ b bytes, ascii s = b :: bytes :=
  List.exists_cons_of_ne_nil (mt List.map_eq_nil_iff.1 h.1)

end IsName

/-! ## References -/

/-- What is written for a character is read as that character. -/
theorem resolve?_escapedChar (done : List Char) (c : Char) (rest : List Char) :
    resolve? none done (escapedChar c ++ rest) = resolve? none (c :: done) rest := by
  unfold escapedChar
  split <;> try rfl
  rename_i hamp _ _
  have hne : c ≠ '&' := hamp
  rw [List.singleton_append, resolve?]
  simp [hne]

/-- Characters that are escaped are resolved one after the other. -/
theorem resolve?_flatMap (done cs : List Char) :
    resolve? none done (cs.flatMap escapedChar) = some (done.reverse ++ cs) := by
  induction cs generalizing done with
  | nil => simp [resolve?]
  | cons c cs ih =>
    rw [List.flatMap_cons, resolve?_escapedChar, ih, List.reverse_cons, List.append_assoc,
      List.singleton_append]

/-- An escaped text is read as the text that was escaped. -/
theorem unescape?_escape (s : String) : unescape? (encoded (escape s)) = some s := by
  rw [unescape?, ofBytes?_encoded]
  simp only [Option.bind_eq_bind, Option.bind_some, String.toList_ofList]
  rw [escape, resolve?_flatMap]
  simp

/-- White space is read as it is. -/
theorem unescape?_newLine (depth : Nat) :
    unescape? (encoded (newLine depth)) = some (String.ofList (newLine depth)) := by
  have hself : ∀ n, (List.replicate n ' ').flatMap escapedChar = List.replicate n ' ' := by
    intro n
    induction n with
    | zero => rfl
    | succ n ih =>
      rw [List.replicate_succ, List.flatMap_cons, ih]
      rfl
  have hescape : escape (String.ofList (newLine depth)) = newLine depth := by
    rw [escape, String.toList_ofList, newLine, List.flatMap_cons, hself]
    rfl
  rw [← hescape, unescape?_escape, hescape]

/-- An escaped text has none of the signs that open and close tags and values. -/
theorem not_mem_escape (s : String) {c : Char} (hc : c ∈ ['<', '>', '\x27', '"']) :
    c ∉ escape s := by
  intro hmem
  obtain ⟨d, -, hd⟩ := List.mem_flatMap.1 hmem
  unfold escapedChar at hd
  simp only [List.mem_cons, List.not_mem_nil, or_false] at hc
  split at hd
  all_goals try (rcases hc with rfl | rfl | rfl | rfl <;> exact absurd hd (by decide))
  obtain rfl := List.mem_singleton.1 hd
  rcases hc with rfl | rfl | rfl | rfl <;> contradiction

/-- Signs of markup and quotation marks do not stand in what is escaped. -/
theorem not_mem_encoded_escape (s : String) {b : UInt8} (hb : b ∈ [0x3c, 0x3e, 0x27, 0x22]) :
    b ∉ encoded (escape s) := by
  have hchar : ∃ c ∈ ['<', '>', '\x27', '"'], c.toNat < 0x80 ∧ b = UInt8.ofNat c.toNat := by
    simp only [List.mem_cons, List.not_mem_nil, or_false] at hb
    rcases hb with rfl | rfl | rfl | rfl
    · exact ⟨'<', by decide⟩
    · exact ⟨'>', by decide⟩
    · exact ⟨'\x27', by decide⟩
    · exact ⟨'"', by decide⟩
  obtain ⟨c, hc, hascii, rfl⟩ := hchar
  exact fun hmem => not_mem_escape s hc (mem_of_mem_encoded hascii hmem)

/-! ## Attributes -/

/-- The bytes of attributes as they are written. -/
def attributeBytes (attributes : List (String × String)) : List UInt8 :=
  encoded (attributes.flatMap attributeText)

/-- An attribute is a space, its name, and its value between quotation marks. -/
theorem attributeBytes_cons {name value : String} (h : IsName name)
    (attributes : List (String × String)) :
    attributeBytes ((name, value) :: attributes) =
      0x20 :: (ascii name ++ 0x3d :: 0x22 :: (encoded (escape value) ++
        0x22 :: attributeBytes attributes)) := by
  have hspace (cs : List Char) : encoded (' ' :: cs) = 0x20 :: encoded cs := rfl
  have hequals (cs : List Char) : encoded ('=' :: '"' :: cs) = 0x3d :: 0x22 :: encoded cs := rfl
  have hquote (cs : List Char) : encoded ('"' :: cs) = 0x22 :: encoded cs := rfl
  simp [attributeBytes, attributeText, hspace, hequals, hquote, h.encoded_toList]

namespace AttributeReader

variable {found : List (List UInt8 × List UInt8)}

/-- Bytes that a place only collects stand there in reverse order. -/
theorem foldlM_collect (place : List UInt8 → AttributePlace) {bytes : List UInt8}
    (h : ∀ b ∈ bytes, ∀ read, step? ⟨place read, found⟩ b = some ⟨place (b :: read), found⟩)
    (read : List UInt8) :
    bytes.foldlM step? ⟨place read, found⟩ = some ⟨place (bytes.reverse ++ read), found⟩ := by
  induction bytes generalizing read with
  | nil => rfl
  | cons b bytes ih =>
    rw [List.foldlM_cons, h b (by simp), Option.bind_eq_bind, Option.bind_some,
      ih fun d hd => h d (List.mem_cons_of_mem _ hd), List.reverse_cons, List.append_assoc,
      List.singleton_append]

/-- A name is collected. -/
theorem foldlM_name {name : String} (h : IsName name) :
    (ascii name).foldlM step? ⟨.between, found⟩ = some ⟨.name (ascii name).reverse, found⟩ := by
  obtain ⟨b, bytes, hbytes⟩ := h.exists_ascii_eq_cons
  have hfirst : step? ⟨.between, found⟩ b = some ⟨.name [b], found⟩ := by
    simp [step?, h.isSpace_of_mem (hbytes ▸ List.mem_cons_self)]
  have hcollect : ∀ d ∈ bytes, ∀ read,
      step? ⟨.name read, found⟩ d = some ⟨.name (d :: read), found⟩ := by
    intro d hd read
    have hmem : d ∈ ascii name := hbytes ▸ List.mem_cons_of_mem b hd
    have hequals : d ≠ 0x3d := h.ne_of_mem hmem (by decide)
    simp [step?, h.isSpace_of_mem hmem, hequals]
  rw [hbytes, List.foldlM_cons, hfirst, Option.bind_eq_bind, Option.bind_some,
    foldlM_collect .name hcollect, List.reverse_cons]

/-- A value is collected. -/
theorem foldlM_value (name : List UInt8) (value : String) :
    (encoded (escape value)).foldlM step? ⟨.value name 0x22 [], found⟩ =
      some ⟨.value name 0x22 (encoded (escape value)).reverse, found⟩ := by
  have hcollect : ∀ b ∈ encoded (escape value), ∀ read,
      step? ⟨.value name 0x22 read, found⟩ b = some ⟨.value name 0x22 (b :: read), found⟩ := by
    intro b hb read
    have hquote : b ≠ 0x22 := by
      rintro rfl
      exact not_mem_encoded_escape value (by decide) hb
    simp [step?, hquote]
  rw [foldlM_collect (.value name 0x22) hcollect, List.append_nil]

/-- An attribute whose name is new is found. -/
theorem foldlM_attribute {name : String} (h : IsName name) (value : String)
    (hnew : ∀ entry ∈ found, entry.1 ≠ ascii name) (rest : List UInt8) :
    (0x20 :: (ascii name ++ 0x3d :: 0x22 :: (encoded (escape value) ++ 0x22 :: rest))).foldlM step?
        ⟨.between, found⟩ =
      rest.foldlM step? ⟨.between, (ascii name, encoded (escape value)) :: found⟩ := by
  have hany : found.any (·.1 == ascii name) = false := by
    simpa using hnew
  have hequals : step? ⟨.name (ascii name).reverse, found⟩ 0x3d =
      some ⟨.afterEquals (ascii name), found⟩ := by
    simp [step?, endName?, hany]
  have hquote : step? ⟨.value (ascii name) 0x22 (encoded (escape value)).reverse, found⟩ 0x22 =
      some ⟨.between, (ascii name, encoded (escape value)) :: found⟩ := by
    simp [step?]
  have hspace : step? ⟨.between, found⟩ 0x20 = some ⟨.between, found⟩ := rfl
  have hopen : step? ⟨.afterEquals (ascii name), found⟩ 0x22 =
      some ⟨.value (ascii name) 0x22 [], found⟩ := rfl
  simp only [List.foldlM_cons, List.foldlM_append, Option.bind_eq_bind, Option.bind_some, hspace,
    foldlM_name h, hequals, hopen, foldlM_value, hquote]

/-- Attributes with new and different names are found. -/
theorem foldlM_attributes {attributes : List (String × String)}
    (hnames : ∀ entry ∈ attributes, IsName entry.1)
    (hnodup : (found.map (·.1) ++ attributes.map fun entry => ascii entry.1).Nodup) :
    (attributeBytes attributes).foldlM step? ⟨.between, found⟩ =
      some ⟨.between, (attributes.map fun entry =>
        (ascii entry.1, encoded (escape entry.2))).reverse ++ found⟩ := by
  induction attributes generalizing found with
  | nil => rfl
  | cons entry attributes ih =>
    obtain ⟨name, value⟩ := entry
    have hname : IsName name := hnames (name, value) (by simp)
    have hnew : ∀ other ∈ found, other.1 ≠ ascii name := by
      intro other hother heq
      have hmem : ascii name ∈ ((name, value) :: attributes).map fun entry => ascii entry.1 := by
        simp
      exact (List.nodup_append.1 hnodup).2.2 other.1 (List.mem_map_of_mem hother) _ hmem heq
    have hrest : (((ascii name, encoded (escape value)) :: found).map (·.1) ++
        attributes.map fun entry => ascii entry.1).Nodup :=
      List.perm_middle.nodup_iff.1 hnodup
    rw [attributeBytes_cons hname, foldlM_attribute hname value hnew,
      ih (fun other hother => hnames other (List.mem_cons_of_mem _ hother)) hrest]
    simp

end AttributeReader

/-- Whether the names of an element and its attributes are plain, and no attribute has the name of
another one. -/
structure WellNamed (name : String) (attributes : List (String × String)) : Prop where
  isName : IsName name
  isName_of_mem : ∀ entry ∈ attributes, IsName entry.1
  nodup : (attributes.map fun entry => ascii entry.1).Nodup

/-- Plain names that are different make an element well-named, whatever the values are. -/
theorem WellNamed.of_names {name : String} {attributes : List (String × String)}
    (names : List String) (hnames : attributes.map (·.1) = names)
    (h : IsName name ∧ (∀ key ∈ names, IsName key) ∧ (names.map ascii).Nodup) :
    WellNamed name attributes where
  isName := h.1
  isName_of_mem entry hentry := h.2.1 entry.1 (hnames ▸ List.mem_map_of_mem hentry)
  nodup := by
    have hnodup := h.2.2
    rw [← hnames, List.map_map] at hnodup
    exact hnodup

/-- The tag with this name and these attributes. -/
def tag (name : String) (attributes : List (String × String)) : Tag where
  name := ascii name
  attributes := attributeBytes attributes

@[simp]
theorem tag_name (name : String) (attributes : List (String × String)) :
    (tag name attributes).name = ascii name :=
  rfl

/-- The attributes of a tag are those that it was written with. -/
theorem attributes?_tag {name : String} {attributes : List (String × String)}
    (h : WellNamed name attributes) :
    (tag name attributes).attributes? =
      some (attributes.map fun entry => (ascii entry.1, entry.2)) := by
  have hvalues : (attributes.map fun entry => (ascii entry.1, encoded (escape entry.2))).mapM
      (fun entry => (unescape? entry.2).map fun value => (entry.1, value)) =
      some (attributes.map fun entry => (ascii entry.1, entry.2)) := by
    clear h
    induction attributes with
    | nil => rfl
    | cons entry attributes ih =>
      simp only [List.map_cons, List.mapM_cons, unescape?_escape, ih]
      rfl
  have hfold : (attributeBytes attributes).foldlM AttributeReader.step? ⟨.between, []⟩ =
      some ⟨.between, _⟩ := AttributeReader.foldlM_attributes h.isName_of_mem h.nodup
  rw [List.append_nil] at hfold
  rw [Tag.attributes?, tag, hfold]
  simp only [Option.bind_eq_bind, Option.bind_some, AttributeReader.finish?, List.reverse_reverse]
  exact hvalues

end CallGraph.Xml
