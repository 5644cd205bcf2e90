import CallGraph.Code.Data
import CallGraph.Proofs.Data.TextMap
import CallGraph.Proofs.Document.Range
import CallGraph.Proofs.Json.Reader

/-!
# Code objects read back from data

Every record that is written for a part of a code object is decoded as that part, and the tree of
an object in range has nothing in it that JSON would not keep.

Main results:

- Theorem `CodeObject.ofData?_toData`: an object in range is decoded from its record.
- Theorem `CodeObject.isPlain_toData`: its record is read back from JSON.
-/

namespace CallGraph

namespace Data

/-! ## Parts of records -/

/-- A field that is there is decoded. -/
theorem required?_some (value? : Data → Option α) (tree : Data) :
    required? value? (some tree) = value? tree := by
  rw [required?, Option.bind_some]

/-- A field that is there is decoded and not replaced by the default. -/
theorem orElse?_some (default : α) (value? : Data → Option α) (tree : Data) :
    orElse? default value? (some tree) = value? tree := by
  rw [orElse?]

/-- Items that are each decoded are decoded together. -/
theorem mapM_map_some {item? : β → Option α} {toData : α → β} {items : List α}
    (h : ∀ a ∈ items, item? (toData a) = some a) : (items.map toData).mapM item? = some items := by
  induction items with
  | nil => rfl
  | cons a items ih =>
    rw [List.map_cons, List.mapM_cons, h a (by simp),
      ih fun b hb => h b (List.mem_cons_of_mem _ hb)]
    rfl

/-- An optional value is decoded, whether or not there is one. -/
theorem optional?_ofOptional {value? : Data → Option α} {toData : α → Data} {value : Option α}
    (h : ∀ a ∈ value, value? (toData a) = some a) (hnull : ∀ a, toData a ≠ .null) :
    optional? value? (ofOptional toData value) = some value := by
  cases value with
  | none => rfl
  | some a =>
    rw [ofOptional, optional?, h a rfl]
    · rfl
    · exact hnull a

/-- An optional text is decoded. -/
theorem optional?_text (value : Option String) :
    optional? text? (ofOptional .text value) = some value :=
  optional?_ofOptional (fun _ _ => rfl) (by simp)

/-- A number below the bound is decoded. -/
theorem below?_integer {bound n : Nat} (h : n < bound) : below? bound (.integer n) = some n := by
  have hbound : (n : Int) < bound := by exact_mod_cast h
  simp [below?, hbound]

theorem word32?_integer {n : Nat} (h : n < 2 ^ 32) : word32? (.integer n) = some n := by
  rw [word32?, Nat.pow_eq, below?_integer h]

theorem word64?_integer {n : Nat} (h : n < 2 ^ 64) : word64? (.integer n) = some n := by
  rw [word64?, Nat.pow_eq, below?_integer h]

/-- Items that are each plain are plain together. -/
theorem arePlain_map {toData : α → Data} {items : List α} (h : ∀ a ∈ items, (toData a).IsPlain) :
    ArePlain (items.map toData) := by
  induction items with
  | nil => trivial
  | cons a items ih =>
    exact ⟨h a (by simp), ih fun b hb => h b (List.mem_cons_of_mem _ hb)⟩

/-- An optional value is plain if its value is. -/
theorem isPlain_ofOptional {toData : α → Data} {value : Option α}
    (h : ∀ a ∈ value, (toData a).IsPlain) : (ofOptional toData value).IsPlain := by
  cases value with
  | none => trivial
  | some a => exact h a rfl

/-- A number of sixty-four bits is plain. -/
theorem isPlain_integer {n : Nat} (h : n < 2 ^ 64) : (Data.integer n).IsPlain :=
  ⟨Int.natCast_nonneg n, by exact_mod_cast h⟩

end Data

open Data

/-! ## Maps -/

/-- A map is decoded from its record. -/
theorem TextMap.ofData?_toData (m : TextMap) : TextMap.ofData? m.toData = some m := by
  have hentries : (m.entries.map fun entry => (entry.1, Data.text entry.2)).mapM
      (fun field => (text? field.2).map fun value => (field.1, value)) = some m.entries :=
    mapM_map_some fun _ _ => rfl
  have hmap : ofData? m.toData = some (ofList m.entries) := congrArg (Option.map ofList) hentries
  rw [hmap, ofList_entries]

theorem TextMap.isPlain_toData (m : TextMap) : m.toData.IsPlain := by
  have hentries : ∀ entries : List (String × String),
      HavePlain (entries.map fun entry => (entry.1, Data.text entry.2)) := by
    intro entries
    induction entries with
    | nil => trivial
    | cons entry entries ih => exact ⟨trivial, ih⟩
  exact hentries m.entries

/-! ## Parameters and calls -/

/-- A parameter is decoded from its tree. -/
theorem Parameter.ofData?_toData (p : Parameter) : Parameter.ofData? p.toData = some p := by
  have hmode : ParameterMode.ofName? p.mode.name = some p.mode := by
    cases p.mode <;> decide
  have hfields : fields? ["name", "data_type", "mode", "default"] p.toData =
      some [some (.text p.name), some (.text p.dataType), some (.text p.mode.name),
        some (.ofOptional .text p.default)] := rfl
  rw [ofData?, hfields]
  simp [required?_some, orElse?_some, text?, choice?, hmode, optional?_text]

theorem Parameter.isPlain_toData (p : Parameter) : p.toData.IsPlain :=
  ⟨trivial, trivial, trivial, isPlain_ofOptional fun _ _ => trivial, trivial⟩

/-- A call is decoded from a record if each of its fields is. -/
theorem CallSite.ofData?_eq_some {tree : Data} {call : CallSite}
    {callee line span positional named : Option Data}
    (hfields : fields? ["callee_name", "line", "span", "positional_args", "named_args"] tree =
      some [callee, line, span, positional, named])
    (hcallee : required? text? callee = some call.callee)
    (hline : orElse? 0 word32? line = some call.line)
    (hspan : orElse? (0, 0) spanOfData? span = some call.span)
    (hpositional : orElse? [] (list? text?) positional = some call.positional)
    (hnamed : orElse? .empty TextMap.ofData? named = some call.named) :
    CallSite.ofData? tree = some call := by
  rw [ofData?, hfields]
  simp [hcallee, hline, hspan, hpositional, hnamed]

/-- A call is decoded from its tree. -/
theorem CallSite.ofData?_toData {call : CallSite} (h : call.InRange) :
    CallSite.ofData? call.toData = some call := by
  have hspan : spanOfData? (.list [.integer call.span.1, .integer call.span.2]) =
      some call.span := by
    rw [spanOfData?, word64?_integer h.first_lt, word64?_integer h.last_lt]
    rfl
  have hpositional : list? text? (.list (call.positional.map .text)) = some call.positional :=
    mapM_map_some fun _ _ => rfl
  refine ofData?_eq_some rfl rfl ?_ ?_ ?_ ?_
  · rw [orElse?_some, word32?_integer h.line_lt]
  · rw [orElse?_some, hspan]
  · rw [orElse?_some, hpositional]
  · rw [orElse?_some, TextMap.ofData?_toData]

theorem CallSite.isPlain_toData {call : CallSite} (h : call.InRange) : call.toData.IsPlain := by
  have hline : (Data.integer call.line).IsPlain :=
    isPlain_integer (Nat.lt_trans h.line_lt (by decide))
  have hpositional : ArePlain (call.positional.map .text) := arePlain_map fun _ _ => trivial
  exact ⟨trivial, hline, ⟨isPlain_integer h.first_lt, isPlain_integer h.last_lt, trivial⟩,
    hpositional, call.named.isPlain_toData, trivial⟩

/-! ## Code objects -/

namespace CodeObject

variable {object : CodeObject}

/-- An object in range is decoded from its record. -/
theorem ofData?_toData (h : object.InRange) : ofData? object.toData = some object := by
  have hparameters : list? Parameter.ofData? (.list (object.parameters.map Parameter.toData)) =
      some object.parameters := mapM_map_some fun p _ => p.ofData?_toData
  have hcalls : list? CallSite.ofData? (.list (object.calls.map CallSite.toData)) =
      some object.calls := mapM_map_some fun _ hcall => CallSite.ofData?_toData (h _ hcall)
  have hliterals : optional? TextMap.ofData? (.ofOptional TextMap.toData object.literals) =
      some object.literals :=
    optional?_ofOptional (fun m _ => m.ofData?_toData) (by simp [TextMap.toData])
  have hfields : fields? ["id", "name", "package_name", "kind", "overloaded", "parameters",
      "return_type", "calls", "source_text", "literal_map"] object.toData =
      some [some (.text object.id), some (.text object.name), some (.text object.packageName),
        some (.text object.kind.name), some (.bool object.isOverloaded),
        some (.list (object.parameters.map Parameter.toData)),
        some (.ofOptional .text object.returnType),
        some (.list (object.calls.map CallSite.toData)),
        some (.ofOptional .text object.source),
        some (.ofOptional TextMap.toData object.literals)] := rfl
  rw [ofData?, hfields]
  simp [required?_some, orElse?_some, text?, bool?, choice?, Kind.ofName?_name, optional?_text,
    hparameters, hcalls, hliterals]

/-- The record of an object in range has nothing in it that JSON would not keep. -/
theorem isPlain_toData (h : object.InRange) : object.toData.IsPlain :=
  ⟨trivial, trivial, trivial, trivial, trivial, arePlain_map fun p _ => p.isPlain_toData,
    isPlain_ofOptional fun _ _ => trivial,
    arePlain_map fun _ hcall => CallSite.isPlain_toData (h _ hcall),
    isPlain_ofOptional fun _ _ => trivial, isPlain_ofOptional fun m _ => m.isPlain_toData, trivial⟩

/-- An object in range is read back from the JSON text of its record. -/
theorem read_line_toData (h : object.InRange) :
    (Json.read (Text.bytesOf (Json.line object.toData))).bind ofData? = some object := by
  rw [Json.read_line (isPlain_toData h), Option.bind_some, ofData?_toData h]

end CodeObject

end CallGraph
