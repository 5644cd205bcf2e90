import CallGraph.Proofs.Code.Data
import CallGraph.Store.Row

/-!
# Rows read back

The row of a code object in range is read as that object, whatever texts the object holds: the
columns in JSON are read back, the name of a kind means that kind, and so does the text of a truth
value.

Main results:

- Theorem `Row.read_ofObject`: the row of an object is read as the object.
- Theorem `Row.readAll_map_ofObject`: so are the rows of several objects.
-/

namespace CallGraph

open Data

theorem CodeObject.inRange_lightweight {object : CodeObject} (h : object.InRange) :
    object.lightweight.InRange :=
  h

namespace Row

/-! ## Columns in JSON -/

/-- A column holds what it is read back as. -/
theorem column?_line {value? : Data → Option α} {tree : Data} {value : α} (h : tree.IsPlain)
    (hvalue : value? tree = some value) : column? value? (Json.line tree) = some value := by
  rw [column?, Json.read_line h, Option.bind_some, hvalue]

theorem column?_parameters (parameters : List Parameter) :
    column? (list? Parameter.ofData?) (Json.line (.list (parameters.map Parameter.toData))) =
      some parameters :=
  column?_line (arePlain_map fun p _ => p.isPlain_toData)
    (mapM_map_some fun p _ => p.ofData?_toData)

theorem column?_calls {calls : List CallSite} (h : ∀ call ∈ calls, call.InRange) :
    column? (list? CallSite.ofData?) (Json.line (.list (calls.map CallSite.toData))) =
      some calls :=
  column?_line (arePlain_map fun call hcall => CallSite.isPlain_toData (h call hcall))
    (mapM_map_some fun call hcall => CallSite.ofData?_toData (h call hcall))

theorem optionalColumn?_literals (literals : Option TextMap) :
    optionalColumn? TextMap.ofData? (literals.map fun m => Json.line m.toData) = some literals := by
  cases literals with
  | none => rfl
  | some m =>
    rw [Option.map_some, optionalColumn?, column?_line m.isPlain_toData m.ofData?_toData]
    rfl

/-! ## Whole rows -/

theorem isReadable_ofObject (object : CodeObject) : (ofObject object).isReadable = true := by
  rw [isReadable, ofObject, Flag.ofText?_toText]
  rfl

/-- Every column of a row gives back its part of the object. -/
theorem toObject?_ofObject {object : CodeObject} (h : object.InRange) :
    (ofObject object).toObject? = some object := by
  simp only [toObject?, ofObject, Flag.ofText?_toText, column?_parameters, column?_calls h,
    optionalColumn?_literals, Kind.ofText_name, Option.bind_eq_bind, Option.bind_some]

/-- The row of an object is read as the object. -/
theorem read_ofObject {object : CodeObject} (h : object.InRange) :
    (ofObject object).read = .ok object := by
  rw [read, if_pos (isReadable_ofObject object), toObject?_ofObject h]

/-- The rows of several objects are read as these objects. -/
theorem readAll_map_ofObject {objects : List CodeObject} (h : ∀ object ∈ objects, object.InRange) :
    readAll (objects.map ofObject) = .ok objects := by
  have hreadable : (objects.map ofObject).all isReadable = true := by
    rw [List.all_map, List.all_eq_true]
    exact fun object _ => isReadable_ofObject object
  rw [readAll, if_pos hreadable,
    mapM_map_some fun object hobject => toObject?_ofObject (h object hobject)]

end Row

end CallGraph
