import CallGraph.Data.Basic

/-!
# Strings in JSON

A string literal that is being read byte by byte.  Bytes outside escapes stand for themselves, and
only when the literal is complete it is asked whether they make up a text.
-/

namespace CallGraph.Json

/-- Where a reader stands in the escapes of a literal. -/
inductive Escape where
  | outside
  | backslash
  | code (digits : Nat) (value : Nat)
deriving DecidableEq, Repr

/-- A literal that is being read.  The bytes it spells so far are in reverse order; `high` is the
first half of a character whose second half has to come next; `isSound` is lost where one half of
a character stands alone. -/
structure Literal where
  bytes : List UInt8
  escape : Escape
  high : Option Nat
  isSound : Bool
deriving DecidableEq, Repr

namespace Literal

/-- A literal of which nothing has been read. -/
def start : Literal where
  bytes := []
  escape := .outside
  high := none
  isSound := true

/-- Adds the bytes of a text.  A half of a character that still waits stands alone. -/
def append (l : Literal) (bytes : List UInt8) : Literal where
  bytes := bytes.reverse ++ l.bytes
  escape := .outside
  high := none
  isSound := l.isSound && l.high.isNone

/-- Adds a sixteen-bit unit: a character, or one half of a character. -/
def appendUnit (l : Literal) (unit : Nat) : Literal :=
  if 0xd800 ≤ unit ∧ unit < 0xdc00 then
    { l with escape := .outside, high := some unit, isSound := l.isSound && l.high.isNone }
  else if 0xdc00 ≤ unit ∧ unit < 0xe000 then
    match l.high with
    | some high =>
        let c := Char.ofNat (0x10000 + (high - 0xd800) * 0x400 + (unit - 0xdc00))
        { l with
          bytes := (String.utf8EncodeChar c).reverse ++ l.bytes, escape := .outside, high := none }
    | none => { l with escape := .outside, isSound := false }
  else
    l.append (String.utf8EncodeChar (Char.ofNat unit))

/-- The value of a hexadecimal digit. -/
def hexDigit? (c : Char) : Option Nat :=
  if '0' ≤ c ∧ c ≤ '9' then some (c.toNat - '0'.toNat)
  else if 'a' ≤ c ∧ c ≤ 'f' then some (c.toNat - 'a'.toNat + 10)
  else if 'A' ≤ c ∧ c ≤ 'F' then some (c.toNat - 'A'.toNat + 10)
  else none

/-- The byte that a one-letter escape stands for. -/
def shortEscape? : Char → Option UInt8
  | '"' => some 0x22
  | '\\' => some 0x5c
  | '/' => some 0x2f
  | 'b' => some 0x08
  | 'f' => some 0x0c
  | 'n' => some 0x0a
  | 'r' => some 0x0d
  | 't' => some 0x09
  | _ => none

/-- Reads one byte that does not end the literal; `none` if it cannot stand there. -/
def step? (l : Literal) (b : UInt8) : Option Literal :=
  let c := Char.ofUInt8 b
  match l.escape with
  | .outside =>
      if b < 0x20 then none
      else if c = '\\' then some { l with escape := .backslash }
      else some (l.append [b])
  | .backslash =>
      if c = 'u' then some { l with escape := .code 0 0 }
      else (shortEscape? c).map fun byte => l.append [byte]
  | .code count value =>
      (hexDigit? c).map fun digit =>
        let unit := 16 * value + digit
        if count = 3 then l.appendUnit unit
        else { l with escape := .code (count + 1) unit }

/-- The text of a literal that is complete, if it spells one. -/
def text? (l : Literal) : Option String :=
  if l.isSound && l.high.isNone then String.fromUTF8? l.bytes.reverse.toByteArray else none

end Literal

end CallGraph.Json
