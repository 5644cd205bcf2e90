import CallGraph.Json.Literal
import CallGraph.Json.Printer
import CallGraph.Proofs.Text.Utf8

/-!
# Strings of JSON read back

What is written for a character spells that character, whether it is escaped or not, and does not
end the literal.  A literal so spells the text that it was written for.

Main results:

- Definition `Literal.inside?`: one byte that neither ends a literal nor spoils it.
- Theorem `Literal.foldlM_inside?_escaped`: what is written for a character spells it.
- Theorem `Literal.foldlM_inside?_content`: what is written for a text spells it.
-/

namespace CallGraph.Json

open Text

namespace Literal

/-- Reads one byte inside a literal; `none` if it ends the literal or cannot stand there. -/
def inside? (l : Literal) (b : UInt8) : Option Literal :=
  if Char.ofUInt8 b = '"' && l.escape = .outside then none else l.step? b

/-- A literal that spells these bytes so far, and is not in an escape. -/
def holding (bytes : List UInt8) : Literal where
  bytes := bytes.reverse
  escape := .outside
  high := none
  isSound := true

theorem start_eq_holding : start = holding [] :=
  rfl

/-- A literal that spells the bytes of a text gives that text. -/
theorem text?_holding (s : String) : (holding (bytesOf s)).text? = some s := by
  have hread : String.fromUTF8? (bytesOf s).toByteArray = some s := ofBytes?_bytesOf s
  simpa [text?, holding] using hread

/-! ## Bytes outside of ASCII -/

/-- A byte that is not ASCII is taken as it is. -/
theorem inside?_of_le (bytes : List UInt8) {b : UInt8} (h : 0x80 ≤ b.toNat) :
    (holding bytes).inside? b = some (holding (bytes ++ [b])) := by
  have hne {c : Char} (hc : c.toNat < 0x80) : Char.ofUInt8 b ≠ c := by
    intro heq
    have hvalue : (Char.ofUInt8 b).toNat = b.toNat := rfl
    rw [heq] at hvalue
    omega
  have hcontrol : ¬ b < 0x20 := by
    rw [UInt8.lt_iff_toNat_lt]
    exact Nat.not_lt.2 (Nat.le_trans (by decide) h)
  simp [inside?, step?, holding, append, hne, hcontrol]

/-- So are several. -/
theorem foldlM_inside?_of_le (bytes : List UInt8) {more : List UInt8}
    (h : ∀ b ∈ more, 0x80 ≤ b.toNat) :
    more.foldlM inside? (holding bytes) = some (holding (bytes ++ more)) := by
  induction more generalizing bytes with
  | nil => simp
  | cons b more ih =>
    rw [List.foldlM_cons, inside?_of_le bytes (h b (by simp)), Option.bind_eq_bind,
      Option.bind_some, ih _ fun b hb => h b (List.mem_cons_of_mem _ hb), List.append_assoc,
      List.singleton_append]

/-! ## Characters of ASCII -/

/-- The literal with these bytes before all others. -/
def after (bytes : List UInt8) (l : Literal) : Literal :=
  { l with bytes := l.bytes ++ bytes.reverse }

/-- What was read before stands before what a literal holds. -/
theorem holding_after (bytes more : List UInt8) :
    (holding more).after bytes = holding (bytes ++ more) := by
  simp [holding, after]

/-- Bytes before a literal do not matter to what is added to it. -/
theorem append_after (bytes more : List UInt8) (l : Literal) :
    (l.after bytes).append more = (l.append more).after bytes := by
  simp [append, after]

/-- Neither do they to a unit that is added. -/
theorem appendUnit_after (bytes : List UInt8) (unit : Nat) (l : Literal) :
    (l.after bytes).appendUnit unit = (l.appendUnit unit).after bytes := by
  unfold appendUnit
  split
  · rfl
  · split
    · obtain ⟨read, escape, high, isSound⟩ := l
      cases high with
      | none => rfl
      | some high => simp [after]
    · exact append_after ..

/-- Neither do they to a step. -/
theorem step?_after (bytes : List UInt8) (l : Literal) (b : UInt8) :
    (l.after bytes).step? b = (l.step? b).map (after bytes) := by
  have hescape : (l.after bytes).escape = l.escape := rfl
  simp only [step?, hescape]
  cases l.escape with
  | outside =>
    simp only
    split
    · rfl
    · split
      · rfl
      · exact congrArg some (append_after ..)
  | backslash =>
    simp only
    split
    · rfl
    · simp only [Option.map_map, Function.comp_def, append_after]
  | code count value =>
    cases hexDigit? (Char.ofUInt8 b) with
    | none => rfl
    | some digit =>
      simp only [Option.map_some]
      split
      · exact congrArg some (appendUnit_after ..)
      · rfl

/-- What a literal spells already does not matter for what comes next. -/
theorem inside?_after (bytes : List UInt8) (l : Literal) (b : UInt8) :
    (l.after bytes).inside? b = (l.inside? b).map (after bytes) := by
  have hescape : (l.after bytes).escape = l.escape := rfl
  rw [inside?, inside?, hescape, step?_after]
  split <;> rfl

/-- Bytes before a literal do not matter to several steps. -/
theorem foldlM_inside?_after (bytes : List UInt8) (l : Literal) (more : List UInt8) :
    more.foldlM inside? (l.after bytes) = (more.foldlM inside? l).map (after bytes) := by
  induction more generalizing l with
  | nil => rfl
  | cons b more ih =>
    rw [List.foldlM_cons, List.foldlM_cons, inside?_after]
    cases l.inside? b with
    | none => rfl
    | some next => exact ih next

/-- What is written for a character of ASCII, an escape or not, spells that character. -/
theorem foldlM_inside?_ascii :
    ∀ n < 0x80, (encoded (escaped (Char.ofNat n))).foldlM inside? start =
      some (holding [UInt8.ofNat n]) := by
  decide

/-! ## Texts -/

/-- What is written for a character spells that character. -/
theorem foldlM_inside?_escaped (bytes : List UInt8) (c : Char) :
    (encoded (escaped c)).foldlM inside? (holding bytes) =
      some (holding (bytes ++ String.utf8EncodeChar c)) := by
  by_cases hascii : c.toNat < 0x80
  · have hspells := foldlM_inside?_ascii c.toNat hascii
    rw [Char.ofNat_toNat, start_eq_holding] at hspells
    have hbefore : holding bytes = (holding []).after bytes := by
      rw [holding_after, List.append_nil]
    rw [hbefore, foldlM_inside?_after, hspells, Option.map_some, holding_after,
      utf8EncodeChar_of_lt hascii]
  · have hself : escaped c = [c] := by
      unfold escaped
      split <;> first | exact absurd (by decide) hascii | skip
      rw [if_neg (by omega)]
    rw [hself, encoded_cons, encoded_nil, List.append_nil]
    exact foldlM_inside?_of_le bytes fun b => le_of_mem_utf8EncodeChar (Nat.not_lt.1 hascii)

/-- What is written for characters spells these characters. -/
theorem foldlM_inside?_flatMap (bytes : List UInt8) (cs : List Char) :
    (encoded (cs.flatMap escaped)).foldlM inside? (holding bytes) =
      some (holding (bytes ++ encoded cs)) := by
  induction cs generalizing bytes with
  | nil => simp
  | cons c cs ih =>
    rw [List.flatMap_cons, encoded_append, List.foldlM_append, foldlM_inside?_escaped,
      Option.bind_eq_bind, Option.bind_some, ih, encoded_cons, List.append_assoc]

/-- What is written for a text spells the text. -/
theorem foldlM_inside?_content (s : String) :
    (encoded (s.toList.flatMap escaped)).foldlM inside? start = some (holding (bytesOf s)) := by
  rw [start_eq_holding, foldlM_inside?_flatMap, List.nil_append, bytesOf_eq_encoded]

end Literal

end CallGraph.Json
