import CallGraph.Number.Decimal
import CallGraph.Text.Utf8
import CallGraph.Xml.Scanner

/-!
# Character data and attributes of XML

Character data may contain references: five by name, and any character by its number.  Attributes
are read from what follows the name in a start tag; each has a quoted value, and no name may be
repeated.
-/

namespace CallGraph.Xml

/-! ## References -/

/-- The number that digits of the given base stand for. -/
def numeral? (base : Nat) (cs : List Char) : Option Nat :=
  if cs.isEmpty then none
  else cs.foldlM (fun n c =>
    let digit :=
      if c.isDigit then some (c.toNat - '0'.toNat)
      else if 'a' ≤ c ∧ c ≤ 'f' then some (c.toNat - 'a'.toNat + 10)
      else if 'A' ≤ c ∧ c ≤ 'F' then some (c.toNat - 'A'.toNat + 10)
      else none
    digit.bind fun d => if d < base then some (base * n + d) else none) 0

/-- The character with this number, if it may be referred to. -/
def charOf? (n : Nat) : Option Char :=
  if n ≠ 0 ∧ n.isValidChar then some (Char.ofNat n) else none

/-- The character that a reference stands for, without the signs around it. -/
def referent? : List Char → Option Char
  | ['l', 't'] => some '<'
  | ['g', 't'] => some '>'
  | ['a', 'm', 'p'] => some '&'
  | ['a', 'p', 'o', 's'] => some '\x27'
  | ['q', 'u', 'o', 't'] => some '"'
  | '#' :: 'x' :: ds => (numeral? 16 ds).bind charOf?
  | '#' :: ds => (numeral? 10 ds).bind charOf?
  | _ => none

/-- Replaces references by their characters.  `pending` is the reference being read and `done` what
comes before it, both in reverse order. -/
def resolve? (pending : Option (List Char)) (done : List Char) : List Char → Option (List Char)
  | [] => if pending.isNone then some done.reverse else none
  | c :: rest =>
      match pending with
      | none => if c = '&' then resolve? (some []) done rest else resolve? none (c :: done) rest
      | some name =>
          if c = '&' then none
          else if c = ';' then
            match referent? name.reverse with
            | some referent => resolve? none (referent :: done) rest
            | none => none
          else resolve? (some (c :: name)) done rest

/-- The text that bytes with references stand for. -/
def unescape? (bytes : List UInt8) : Option String := do
  let text ← Text.ofBytes? bytes
  (resolve? none [] text.toList).map String.ofList

/-- A character as it is written. -/
def escapedChar (c : Char) : List Char :=
  match c with
  | '<' => "&lt;".toList
  | '>' => "&gt;".toList
  | '&' => "&amp;".toList
  | '\x27' => "&apos;".toList
  | '"' => "&quot;".toList
  | _ => [c]

/-- A text as it is written, with references for the signs that markup is made of. -/
def escape (s : String) : List Char :=
  s.toList.flatMap escapedChar

/-! ## Attributes -/

/-- Where a reader of attributes stands.  Names and values are in reverse order. -/
inductive AttributePlace where
  | between
  | name (read : List UInt8)
  | afterName (name : List UInt8)
  | afterEquals (name : List UInt8)
  | value (name : List UInt8) (quote : UInt8) (read : List UInt8)

/-- A reader of attributes, with the attributes read so far, the latest first. -/
structure AttributeReader where
  place : AttributePlace
  found : List (List UInt8 × List UInt8)

namespace AttributeReader

/-- Goes on after the equals sign, if no other attribute has the name. -/
def endName? (r : AttributeReader) (name : List UInt8) : Option AttributeReader :=
  if r.found.any (·.1 == name) then none else some { r with place := .afterEquals name }

/-- Takes one byte; `none` if it cannot stand there. -/
def step? (r : AttributeReader) (b : UInt8) : Option AttributeReader :=
  match r.place with
  | .between => some (if isSpace b then r else { r with place := .name [b] })
  | .name read =>
      if b = 0x3d then r.endName? read.reverse
      else if isSpace b then some { r with place := .afterName read.reverse }
      else some { r with place := .name (b :: read) }
  | .afterName name =>
      if isSpace b then some r
      else if b = 0x3d then r.endName? name
      else none
  | .afterEquals name =>
      if isSpace b then some r
      else if b = 0x22 || b = 0x27 then some { r with place := .value name b [] }
      else none
  | .value name quote read =>
      if b = quote then some ⟨.between, (name, read.reverse) :: r.found⟩
      else some { r with place := .value name quote (b :: read) }

/-- The attributes, if nothing is cut off. -/
def finish? (r : AttributeReader) : Option (List (List UInt8 × List UInt8)) :=
  match r.place with
  | .between => some r.found.reverse
  | _ => none

end AttributeReader

/-- The attributes of a tag, with their values. -/
def Tag.attributes? (tag : Tag) : Option (List (List UInt8 × String)) := do
  let reader ← tag.attributes.foldlM AttributeReader.step? ⟨.between, []⟩
  (← reader.finish?).mapM fun (name, value) => (unescape? value).map fun value => (name, value)

/-- The value of the attribute with this name. -/
def valueOf? (attributes : List (List UInt8 × String)) (name : String) : Option String :=
  (attributes.find? (·.1 == ascii name)).map (·.2)

/-- A name without what stands before its first colon. -/
def localName (name : List UInt8) : List UInt8 :=
  match name.dropWhile (· ≠ 0x3a) with
  | _ :: rest => rest
  | [] => name

end CallGraph.Xml
