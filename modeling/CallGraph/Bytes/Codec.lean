import CallGraph.Data.TextMap
import CallGraph.Text.Utf8

/-!
# Binary encodings

A codec writes values as bytes and reads them back from the front of a list of bytes.  Nothing
marks the end of a value: numbers and counts say how much follows.  Codecs of records are put
together from codecs of their fields.
-/

namespace CallGraph

/-- A way to write values as bytes, and to read one value and the bytes after it. -/
structure Codec (α : Type) where
  encode : α → List UInt8
  decode : List UInt8 → Option (α × List UInt8)

namespace Codec

/-! ## Numbers -/

/-- The lowest `count` bytes of a number, the least significant first. -/
def littleEndian : (count : Nat) → (n : Nat) → List UInt8
  | 0, _ => []
  | count + 1, n => UInt8.ofNat n :: littleEndian count (n / 256)

/-- The number whose bytes these are, the least significant first. -/
def ofLittleEndian : List UInt8 → Nat
  | [] => 0
  | b :: rest => b.toNat + 256 * ofLittleEndian rest

/-- Reads a number of `count` bytes. -/
def takeNumber (count : Nat) (bytes : List UInt8) : Option (Nat × List UInt8) :=
  let taken := bytes.take count
  if taken.length = count then some (ofLittleEndian taken, bytes.drop count) else none

/-- The bytes of a number below `2 ^ 64`: one byte if it is small, or else a byte that tells how
many bytes follow. -/
def encodeNumber (n : Nat) : List UInt8 :=
  if n < 251 then [UInt8.ofNat n]
  else if n < Nat.pow 2 16 then 251 :: littleEndian 2 n
  else if n < Nat.pow 2 32 then 252 :: littleEndian 4 n
  else 253 :: littleEndian 8 n

/-- Reads a number, in whichever of its forms it is written. -/
def decodeNumber : List UInt8 → Option (Nat × List UInt8)
  | [] => none
  | b :: rest =>
      if b < 251 then some (b.toNat, rest)
      else if b = 251 then takeNumber 2 rest
      else if b = 252 then takeNumber 4 rest
      else if b = 253 then takeNumber 8 rest
      else none

/-- Numbers below `bound`. -/
def number (bound : Nat) : Codec Nat where
  encode := encodeNumber
  decode bytes := do
    let (n, rest) ← decodeNumber bytes
    if n < bound then some (n, rest) else none

/-- Numbers of 32 bits. -/
def word32 : Codec Nat :=
  number (Nat.pow 2 32)

/-- Numbers of 64 bits. -/
def word64 : Codec Nat :=
  number (Nat.pow 2 64)

/-! ## Combining codecs -/

/-- Values that stand for other values; not every value need stand for one. -/
def via (base : Codec β) (toBase : α → β) (ofBase? : β → Option α) : Codec α where
  encode a := base.encode (toBase a)
  decode bytes := do
    let (b, rest) ← base.decode bytes
    (ofBase? b).map fun a => (a, rest)

/-- Pairs, one part after the other. -/
def pair (first : Codec α) (second : Codec β) : Codec (α × β) where
  encode ab := first.encode ab.1 ++ second.encode ab.2
  decode bytes := do
    let (a, rest) ← first.decode bytes
    let (b, rest) ← second.decode rest
    some ((a, b), rest)

/-- Reads `count` values after those in `done`, which are in reverse order. -/
def decodeMany (item : Codec α) (done : List α) :
    (count : Nat) → List UInt8 → Option (List α × List UInt8)
  | 0, bytes => some (done.reverse, bytes)
  | count + 1, bytes =>
      match item.decode bytes with
      | some (a, rest) => decodeMany item (a :: done) count rest
      | none => none

/-- Lists, after their length. -/
def list (item : Codec α) : Codec (List α) where
  encode items := word64.encode items.length ++ items.flatMap item.encode
  decode bytes := do
    let (count, rest) ← word64.decode bytes
    item.decodeMany [] count rest

/-- Optional values, after a byte that tells whether there is one. -/
def option (value : Codec α) : Codec (Option α) where
  encode
    | none => [0]
    | some a => 1 :: value.encode a
  decode
    | 0 :: rest => some (none, rest)
    | 1 :: rest => (value.decode rest).map fun (a, rest) => (some a, rest)
    | _ => none

/-- Truth values, as one byte. -/
def bool : Codec Bool where
  encode b := [if b then 1 else 0]
  decode
    | 0 :: rest => some (false, rest)
    | 1 :: rest => some (true, rest)
    | _ => none

/-- One of the given choices, by its place among them. -/
def choice [DecidableEq α] (choices : List α) : Codec α :=
  word32.via (fun a => choices.findIdx (· = a)) fun i => choices[i]?

/-- Texts, after the number of their bytes. -/
def text : Codec String where
  encode s := word64.encode (Text.bytesOf s).length ++ Text.bytesOf s
  decode bytes := do
    let (count, rest) ← word64.decode bytes
    let taken := rest.take count
    if taken.length = count then (Text.ofBytes? taken).map fun s => (s, rest.drop count) else none

/-- Maps, as the list of their entries. -/
def textMap : Codec TextMap :=
  (list (pair text text)).via TextMap.entries fun entries => some (TextMap.ofList entries)

end Codec

end CallGraph
