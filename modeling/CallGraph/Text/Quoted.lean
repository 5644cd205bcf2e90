import CallGraph.Text.PrintTable

/-!
# Quoted text

How messages show a text: between quotation marks, with everything that a reader could not see or
tell apart written as an escape.
-/

namespace CallGraph.Text

/-- The digits of a number in base sixteen, in lower case. -/
def hexDigits (n : Nat) : List Char :=
  Nat.toDigits 16 n

/-- A character as it stands between quotation marks. -/
def quotedChar (c : Char) : List Char :=
  match c with
  | '\x00' => ['\\', '0']
  | '\t' => ['\\', 't']
  | '\r' => ['\\', 'r']
  | '\n' => ['\\', 'n']
  | '"' => ['\\', '"']
  | '\\' => ['\\', '\\']
  | _ =>
      if graphemeExtending.contains c || unprintable.contains c then
        ['\\', 'u', '{'] ++ hexDigits c.toNat ++ ['}']
      else
        [c]

/-- The text between quotation marks. -/
def quoted (s : String) : String :=
  String.ofList ('"' :: s.toList.flatMap quotedChar ++ ['"'])

end CallGraph.Text
