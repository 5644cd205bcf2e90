/-!
# Scanning XML

XML text is scanned by a machine that takes one byte at a time and yields events: tags, character
data and the faults of a text.  End tags have to name the element that is open; it is not asked
whether there is one root, or whether all elements are closed when the text ends.

A scan ends with the first fault, which is the last event.
-/

namespace CallGraph.Xml

/-- A start tag: the name of the element, and what follows the name. -/
structure Tag where
  name : List UInt8
  attributes : List UInt8
deriving DecidableEq, Repr

/-- What is found in an XML text.  An `empty` tag both opens and closes an element; `text` holds
references, `verbatim` does not; `other` stands for comments, instructions and declarations. -/
inductive Event where
  | start (tag : Tag)
  | empty (tag : Tag)
  | finish (name : List UInt8)
  | text (bytes : List UInt8)
  | verbatim (bytes : List UInt8)
  | other
  | fault
deriving DecidableEq, Repr

/-- Where the scanner stands.  What it has read of the current piece is in reverse order. -/
inductive Place where
  /-- Outside of markup. -/
  | text (read : List UInt8)
  /-- After the sign that opens markup. -/
  | markup
  /-- In a start tag, and perhaps between quotation marks. -/
  | tag (read : List UInt8) (quote : Option UInt8)
  /-- In an end tag, and perhaps between quotation marks. -/
  | endTag (read : List UInt8) (quote : Option UInt8)
  /-- In an instruction. -/
  | instruction (read : List UInt8)
  /-- After an exclamation mark. -/
  | bang
  /-- In a comment. -/
  | comment (read : List UInt8)
  /-- In verbatim text. -/
  | verbatim (read : List UInt8)
  /-- In a document type, inside some brackets. -/
  | doctype (read : List UInt8) (depth : Nat)
  /-- After a fault. -/
  | broken
deriving DecidableEq, Repr

/-- The state of a scan: the place, the names of the open elements, the innermost first, and the
events so far, the latest first. -/
structure Scanner where
  place : Place
  openNames : List (List UInt8)
  events : List Event

/-- White space inside markup. -/
def isSpace (b : UInt8) : Bool :=
  b == 0x20 || b == 0x0d || b == 0x0a || b == 0x09

/-- The bytes of an ASCII text. -/
def ascii (s : String) : List UInt8 :=
  s.toList.map fun c => UInt8.ofNat c.toNat

namespace Scanner

/-- The scanner before the first byte. -/
def start : Scanner where
  place := .text []
  openNames := []
  events := []

/-- Goes on outside of markup after an event. -/
def emit (s : Scanner) (event : Event) : Scanner :=
  { s with place := .text [], events := event :: s.events }

/-- Notes a fault. -/
def fail (s : Scanner) : Scanner :=
  { s with place := .broken, events := .fault :: s.events }

/-- Goes on at another place. -/
def goTo (s : Scanner) (place : Place) : Scanner :=
  { s with place := place }

/-- The tag with this content: the name ends at the first white space. -/
def tagOf (content : List UInt8) : Tag where
  name := content.takeWhile (!isSpace ·)
  attributes := content.dropWhile (!isSpace ·)

/-- Completes a start tag with this content, in reverse order. -/
def endStartTag (s : Scanner) (read : List UInt8) : Scanner :=
  match read with
  | 0x2f :: read => s.emit (.empty (tagOf read.reverse))
  | read =>
      let tag := tagOf read.reverse
      { s.emit (.start tag) with openNames := tag.name :: s.openNames }

/-- Completes an end tag; white space after the name does not count. -/
def endEndTag (s : Scanner) (read : List UInt8) : Scanner :=
  let name := if read.all isSpace then read.reverse else (read.dropWhile isSpace).reverse
  match s.openNames with
  | [] => s.fail
  | expected :: outer =>
      if name = expected then { s.emit (.finish name) with openNames := outer } else s.fail

/-- Completes an instruction. -/
def endInstruction (s : Scanner) (read : List UInt8) : Scanner :=
  if 1 < read.length then s.emit .other else s.fail

/-- Completes a comment, which has to begin with two hyphens. -/
def endComment (s : Scanner) (read : List UInt8) : Scanner :=
  if (ascii "--").isPrefixOf read.reverse then s.emit .other else s.fail

/-- Completes verbatim text, which has to begin with the word CDATA in brackets. -/
def endVerbatim (s : Scanner) (read : List UInt8) : Scanner :=
  let content := read.reverse
  if (ascii "[CDATA[").isPrefixOf content then
    s.emit (.verbatim ((content.drop 7).take (content.length - 9)))
  else s.fail

/-- The byte of an upper-case letter, if `b` is a letter of ASCII. -/
def upper (b : UInt8) : UInt8 :=
  if 0x61 ≤ b && b ≤ 0x7a then b - 0x20 else b

/-- Completes a document type, which has to begin with the word DOCTYPE and to have a name. -/
def endDoctype (s : Scanner) (read : List UInt8) : Scanner :=
  let content := read.reverse
  if (content.take 7).map upper = ascii "DOCTYPE" && (content.drop 7).any (!isSpace ·) then
    s.emit .other
  else s.fail

/-- The quotation mark that is open after a byte of a tag. -/
def quoteAfter : Option UInt8 → UInt8 → Option UInt8
  | none, b => if b = 0x22 || b = 0x27 then some b else none
  | some quote, b => if b = quote then none else some quote

/-- Takes the byte after the sign that opens markup. -/
def openMarkup (s : Scanner) (b : UInt8) : Scanner :=
  match b with
  | 0x21 => s.goTo .bang
  | 0x2f => s.goTo (.endTag [] none)
  | 0x3f => s.goTo (.instruction [b])
  | 0x3e => s.endStartTag []
  | _ => s.goTo (.tag [b] (quoteAfter none b))

/-- Takes the byte after an exclamation mark. -/
def openBang (s : Scanner) (b : UInt8) : Scanner :=
  match b with
  | 0x2d => s.goTo (.comment [b])
  | 0x5b => s.goTo (.verbatim [b])
  | 0x44 | 0x64 => s.goTo (.doctype [b] 0)
  | _ => s.fail

/-- Takes one byte.  The sign that closes markup closes no tag between quotation marks. -/
def step (s : Scanner) (b : UInt8) : Scanner :=
  match s.place with
  | .text read =>
      if b = 0x3c then
        { s with
          place := .markup
          events := if read.isEmpty then s.events else .text read.reverse :: s.events }
      else s.goTo (.text (b :: read))
  | .markup => s.openMarkup b
  | .tag read quote =>
      if b = 0x3e && quote.isNone then s.endStartTag read
      else s.goTo (.tag (b :: read) (quoteAfter quote b))
  | .endTag read quote =>
      if b = 0x3e && quote.isNone then s.endEndTag read
      else s.goTo (.endTag (b :: read) (quoteAfter quote b))
  | .instruction read =>
      if b = 0x3e && read.head? = some 0x3f then s.endInstruction read
      else s.goTo (.instruction (b :: read))
  | .bang => s.openBang b
  | .comment read =>
      if b = 0x3e && 3 < read.length && (ascii "--").isPrefixOf read then s.endComment read
      else s.goTo (.comment (b :: read))
  | .verbatim read =>
      if b = 0x3e && (ascii "]]").isPrefixOf read then s.endVerbatim read
      else s.goTo (.verbatim (b :: read))
  | .doctype read depth =>
      if b = 0x3c then s.goTo (.doctype (b :: read) (depth + 1))
      else if b = 0x3e then
        match depth with
        | 0 => s.endDoctype read
        | depth + 1 => s.goTo (.doctype (b :: read) depth)
      else s.goTo (.doctype (b :: read) depth)
  | .broken => s

/-- The events of a text that ends here.  Markup that is cut off is a fault. -/
def finish (s : Scanner) : List Event :=
  match s.place with
  | .text read => (if read.isEmpty then s.events else .text read.reverse :: s.events).reverse
  | .broken => s.events.reverse
  | _ => (Event.fault :: s.events).reverse

end Scanner

/-- The bytes after a byte order mark, if there is one. -/
def dropMark : List UInt8 → List UInt8
  | 0xef :: 0xbb :: 0xbf :: rest => rest
  | bytes => bytes

/-- The events of an XML text. -/
def scan (bytes : List UInt8) : List Event :=
  ((dropMark bytes).foldl Scanner.step Scanner.start).finish

end CallGraph.Xml
