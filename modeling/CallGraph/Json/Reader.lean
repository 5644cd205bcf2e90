import CallGraph.Json.Literal
import CallGraph.Json.Numeral

/-!
# Reading JSON

JSON is read by a machine that takes one byte at a time.  It keeps the lists and records that are
still open, and where it stands in the innermost of them.  A text is accepted if the machine gets
through all of its bytes and then holds one complete value.

Nothing limits how deep values lie in each other, and a string or number without a value is read
as unusable data: whether that matters depends on who asks for the value.
-/

namespace CallGraph.Json

/-- A list or record that is still open, with its contents in reverse order.  A record is sound
if all its names are texts, and `key` is the name whose value comes next. -/
inductive Frame where
  | list (items : List Data)
  | record (fields : List (String × Data)) (isSound : Bool) (key : String)

/-- The value of a list or record whose end has been reached. -/
def Frame.value : Frame → Data
  | .list items => .list items.reverse
  | .record fields isSound _ => if isSound then .record fields.reverse else .unusable

/-- Whether `c` closes the list or record. -/
def Frame.closedBy (c : Char) : Frame → Bool
  | .list _ => c == ']'
  | .record .. => c == '}'

/-- The part of a number that is being read. -/
inductive NumberPart where
  | minus
  | whole
  | point
  | fraction
  | mark
  | exponentSign
  | exponent
deriving DecidableEq, Repr

/-- Whether a number may end after this part. -/
def NumberPart.isComplete : NumberPart → Bool
  | .whole | .fraction | .exponent => true
  | _ => false

/-- Where the machine stands. -/
inductive Place where
  /-- Before a value. -/
  | value
  /-- After the opening bracket of a list. -/
  | listStart
  /-- After the opening brace of a record. -/
  | recordStart
  /-- Before the name of a field. -/
  | name
  /-- Between the name of a field and its value. -/
  | colon
  /-- After a value in a list or record. -/
  | next
  /-- In a word that stands for `word`, of which the bytes `rest` are missing. -/
  | word (rest : List UInt8) (word : Data)
  /-- In a number, whose digits are in reverse order. -/
  | number (part : NumberPart) (numeral : Numeral)
  /-- In a string, which may be the name of a field. -/
  | string (isName : Bool) (literal : Literal)
  /-- After the value of the whole text. -/
  | done (value : Data)

/-- The machine: the open lists and records, the innermost first, and the place. -/
structure Machine where
  frames : List Frame
  place : Place

namespace Machine

/-- The machine before the first byte. -/
def start : Machine where
  frames := []
  place := .value

/-- Puts a complete value where it belongs. -/
def deliver (value : Data) : List Frame → Machine
  | [] => ⟨[], .done value⟩
  | .list items :: outer => ⟨.list (value :: items) :: outer, .next⟩
  | .record fields isSound key :: outer =>
      ⟨.record ((key, value) :: fields) isSound key :: outer, .next⟩

/-- Puts a complete string where it belongs: as the name of the next field, or as a value. -/
def deliverString (isName : Bool) (text : Option String) (frames : List Frame) : Machine :=
  if isName then
    match frames with
    | .record fields isSound _ :: outer =>
        ⟨.record fields (isSound && text.isSome) (text.getD "") :: outer, .colon⟩
    | _ => ⟨frames, .colon⟩
  else
    deliver ((text.map Data.text).getD .unusable) frames

/-- White space between the parts of a text. -/
def isSpace (c : Char) : Bool :=
  c == ' ' || c == '\t' || c == '\n' || c == '\r'

/-- Begins the value whose first character is `c`. -/
def begin? (c : Char) (frames : List Frame) : Option Machine :=
  match c with
  | '[' => some ⟨.list [] :: frames, .listStart⟩
  | '{' => some ⟨.record [] true "" :: frames, .recordStart⟩
  | '"' => some ⟨frames, .string false .start⟩
  | 'n' => some ⟨frames, .word "ull".toUTF8.toList .null⟩
  | 't' => some ⟨frames, .word "rue".toUTF8.toList (.bool true)⟩
  | 'f' => some ⟨frames, .word "alse".toUTF8.toList (.bool false)⟩
  | '-' => some ⟨frames, .number .minus ⟨true, [], none, none⟩⟩
  | _ =>
      if c.isDigit then some ⟨frames, .number .whole ⟨false, [c], none, none⟩⟩ else none

/-- Closes the innermost list or record, if `c` is the sign for that. -/
def close? (c : Char) : List Frame → Option Machine
  | [] => none
  | frame :: outer => if frame.closedBy c then some (deliver frame.value outer) else none

/-- One character between the parts of a text. -/
def between? (place : Place) (c : Char) (frames : List Frame) : Option Machine :=
  if isSpace c then some ⟨frames, place⟩
  else match place with
    | .value => begin? c frames
    | .listStart => if c = ']' then close? c frames else begin? c frames
    | .recordStart =>
        if c = '}' then close? c frames
        else if c = '"' then some ⟨frames, .string true .start⟩
        else none
    | .name => if c = '"' then some ⟨frames, .string true .start⟩ else none
    | .colon => if c = ':' then some ⟨frames, .value⟩ else none
    | .next =>
        if c = ',' then
          match frames with
          | .list _ :: _ => some ⟨frames, .value⟩
          | .record .. :: _ => some ⟨frames, .name⟩
          | [] => none
        else close? c frames
    | _ => none

/-- The number with its digits in the order in which they are written. -/
def inOrder (x : Numeral) : Numeral where
  negative := x.negative
  whole := x.whole.reverse
  fraction := x.fraction.map List.reverse
  exponent := x.exponent.map fun (minus, ds) => (minus, ds.reverse)

/-- The next state of a number, if the character continues it. -/
def continued? (part : NumberPart) (x : Numeral) (c : Char) : Option (NumberPart × Numeral) :=
  match part with
  | .minus => if c.isDigit then some (.whole, { x with whole := [c] }) else none
  | .whole =>
      if c.isDigit then
        if x.whole = ['0'] then none else some (.whole, { x with whole := c :: x.whole })
      else if c = '.' then some (.point, x)
      else if c = 'e' || c = 'E' then some (.mark, x)
      else none
  | .point => if c.isDigit then some (.fraction, { x with fraction := some [c] }) else none
  | .fraction =>
      if c.isDigit then some (.fraction, { x with fraction := x.fraction.map (c :: ·) })
      else if c = 'e' || c = 'E' then some (.mark, x)
      else none
  | .mark =>
      if c.isDigit then some (.exponent, { x with exponent := some (false, [c]) })
      else if c = '+' then some (.exponentSign, { x with exponent := some (false, []) })
      else if c = '-' then some (.exponentSign, { x with exponent := some (true, []) })
      else none
  | .exponentSign | .exponent =>
      if c.isDigit then
        some (.exponent, { x with exponent := x.exponent.map fun (m, ds) => (m, c :: ds) })
      else none

/-- Takes one byte; `none` if it cannot stand there. -/
def step? (m : Machine) (b : UInt8) : Option Machine :=
  let c := Char.ofUInt8 b
  match m.place with
  | .word rest word =>
      match rest with
      | [] => none
      | [last] => if b = last then some (deliver word m.frames) else none
      | first :: rest => if b = first then some ⟨m.frames, .word rest word⟩ else none
  | .number part x =>
      match continued? part x c with
      | some (part, x) => some ⟨m.frames, .number part x⟩
      | none =>
          if NumberPart.isComplete part && !c.isDigit then
            let after := deliver (inOrder x).value m.frames
            between? after.place c after.frames
          else none
  | .string isName l =>
      if c = '"' && l.escape = .outside then some (deliverString isName l.text? m.frames)
      else (l.step? b).map fun l => ⟨m.frames, .string isName l⟩
  | place => between? place c m.frames

/-- The value that the machine holds when the text ends here. -/
def finish? (m : Machine) : Option Data :=
  match m.frames, m.place with
  | [], .done value => some value
  | [], .number part x => if NumberPart.isComplete part then some (inOrder x).value else none
  | _, _ => none

end Machine

/-- The value that a JSON text stands for. -/
def read (bytes : List UInt8) : Option Data := do
  let m ← bytes.foldlM Machine.step? Machine.start
  m.finish?

end CallGraph.Json
