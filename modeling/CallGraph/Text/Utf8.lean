/-!
# UTF-8

Bytes are read as text either exactly, where any fault is refused, or leniently, where each longest
run of bytes that begins a character but does not complete it counts as one replacement character.
-/

namespace CallGraph.Text

/-- The bytes of a text. -/
def bytesOf (s : String) : List UInt8 :=
  s.toUTF8.toList

/-- The text with exactly these bytes. -/
def ofBytes? (bytes : List UInt8) : Option String :=
  String.fromUTF8? bytes.toByteArray

/-- What the first byte of a character says about it: how many bytes follow, the least and the
greatest second byte, and the bits that the first byte contributes. -/
def leadByte? (b : UInt8) : Option (Nat × Nat × Nat × Nat) :=
  let n := b.toNat
  if 0xc2 ≤ n && n ≤ 0xdf then some (1, 0x80, 0xbf, n - 0xc0)
  else if n = 0xe0 then some (2, 0xa0, 0xbf, 0)
  else if n = 0xed then some (2, 0x80, 0x9f, 0xd)
  else if 0xe1 ≤ n && n ≤ 0xef then some (2, 0x80, 0xbf, n - 0xe0)
  else if n = 0xf0 then some (3, 0x90, 0xbf, 0)
  else if 0xf1 ≤ n && n ≤ 0xf3 then some (3, 0x80, 0xbf, n - 0xf0)
  else if n = 0xf4 then some (3, 0x80, 0x8f, 4)
  else none

/-- A character that is being read: how many bytes are missing, the bounds of the next one, and the
bits read so far. -/
structure OpenChar where
  missing : Nat
  least : Nat
  greatest : Nat
  bits : Nat

/-- Reads bytes leniently; `pending` is a character whose first bytes have been read. -/
def lenientChars (pending : Option OpenChar) (text : List Char) : List UInt8 → List Char
  | [] => (match pending with | none => text | some _ => '\ufffd' :: text).reverse
  | b :: rest =>
      let n := b.toNat
      let begun (text : List Char) : Option OpenChar × List Char :=
        if n < 0x80 then (none, Char.ofNat n :: text)
        else match leadByte? b with
          | some (missing, least, greatest, bits) => (some ⟨missing, least, greatest, bits⟩, text)
          | none => (none, '\ufffd' :: text)
      let (pending, text) :=
        match pending with
        | none => begun text
        | some c =>
            if c.least ≤ n && n ≤ c.greatest then
              let bits := c.bits * 64 + (n - 0x80)
              if c.missing = 1 then (none, Char.ofNat bits :: text)
              else (some ⟨c.missing - 1, 0x80, 0xbf, bits⟩, text)
            else begun ('\ufffd' :: text)
      lenientChars pending text rest

/-- The text of the bytes, with replacement characters for what is no text. -/
def ofBytesLenient (bytes : List UInt8) : String :=
  String.ofList (lenientChars none [] bytes)

end CallGraph.Text
