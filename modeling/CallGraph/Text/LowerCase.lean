import CallGraph.Text.CaseTable

/-!
# Lower-casing

Full lower-casing of Unicode text.  Each character is replaced by its lower-case form, with two
special cases: İ becomes an i with a dot above, and Σ becomes ς where it ends a word and σ
elsewhere.
-/

namespace CallGraph.Text

/-- The lower-case form of a character by itself. -/
def lowerChar (c : Char) : List Char :=
  if c.toNat < 0x80 then
    [c.toLower]
  else if c = 'İ' then
    ['i', '\u0307']
  else
    match caseRuns.findSome? (·.image? c.toNat) with
    | some code => [Char.ofNat code]
    | none => [c]

/-- Whether the first character that is not passed over has case. -/
def startsCased (cs : List Char) : Bool :=
  match cs.dropWhile caseIgnorable.contains with
  | [] => false
  | c :: _ => cased.contains c

/-- Lower-cases `rest`, of which `before` is what came before it, last character first.  A sigma
ends a word if a cased character comes before it and none after it. -/
def lowerAfter (before : List Char) : List Char → List Char
  | [] => []
  | c :: rest =>
      let lower :=
        if c = 'Σ' then
          if startsCased before && !startsCased rest then ['ς'] else ['σ']
        else
          lowerChar c
      lower ++ lowerAfter (c :: before) rest

/-- The text in lower case. -/
def lowerChars (cs : List Char) : List Char :=
  lowerAfter [] cs

/-- The text in lower case. -/
def lower (s : String) : String :=
  String.ofList (lowerChars s.toList)

end CallGraph.Text
