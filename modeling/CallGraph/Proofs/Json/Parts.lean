import CallGraph.Proofs.Json.Reader

/-!
# JSON that breaks off

A text may only end where no list or record is open any more, and from there on nothing but white
space, or more of a number, can follow.  The brace at the end of a record therefore never comes
after a place where the text could have ended: the text of a record has no part that is a text.

Main results:

- Definition `Machine.IsOutside`: nothing is open any more.
- Theorem `Machine.IsOutside.foldlM`: nothing is opened again.
- Theorem `read_eq_none_of_breaks_off`: a text that is read and ends with a brace is read only as a
  whole.
- Theorem `read_part_of_record`: no part of the text of a record is read.
-/

namespace CallGraph.Json

open Text

namespace Machine

/-- Whether no list or record is open, and a value is complete or a number is being read. -/
def IsOutside (m : Machine) : Prop :=
  m.frames = [] ∧ ((∃ value, m.place = .done value) ∨ ∃ part x, m.place = .number part x)

variable {m after : Machine}

/-- A text ends where nothing is open any more. -/
theorem isOutside_of_finish? {value : Data} (h : m.finish? = some value) : m.IsOutside := by
  unfold finish? at h
  split at h
  · rename_i value hframes hplace
    exact ⟨hframes, .inl ⟨value, hplace⟩⟩
  · rename_i part x hframes hplace
    exact ⟨hframes, .inr ⟨part, x, hplace⟩⟩
  · cases h

/-- After a complete value there is room for white space only. -/
theorem between?_done (value : Data) (c : Char) :
    between? (.done value) c [] = if isSpace c then some ⟨[], .done value⟩ else none :=
  rfl

/-- Where nothing is open, nothing is opened again. -/
theorem IsOutside.step (hm : m.IsOutside) {b : UInt8} (h : m.step? b = some after) :
    after.IsOutside := by
  obtain ⟨frames, place⟩ := m
  obtain ⟨rfl, ⟨value, rfl⟩ | ⟨part, x, rfl⟩⟩ := hm
  · have hstep : between? (.done value) (Char.ofUInt8 b) [] = some after := h
    rw [between?_done] at hstep
    split at hstep
    · exact Option.some.inj hstep ▸ ⟨rfl, .inl ⟨value, rfl⟩⟩
    · cases hstep
  · simp only [step?] at h
    split at h
    · rename_i part x hcontinued
      exact Option.some.inj h ▸ ⟨rfl, .inr ⟨part, x, rfl⟩⟩
    · split at h
      · rw [deliver, between?_done] at h
        split at h
        · exact Option.some.inj h ▸ ⟨rfl, .inl ⟨_, rfl⟩⟩
        · cases h
      · cases h

theorem IsOutside.foldlM (hm : m.IsOutside) {bytes : List UInt8}
    (h : bytes.foldlM step? m = some after) : after.IsOutside := by
  induction bytes generalizing m with
  | nil =>
    obtain rfl : m = after := by simpa using h
    exact hm
  | cons b bytes ih =>
    rw [List.foldlM_cons, Option.bind_eq_bind, Option.bind_eq_some_iff] at h
    obtain ⟨next, hnext, hrest⟩ := h
    exact ih (hm.step hnext) hrest

/-- A number does not go on with a closing brace. -/
theorem continued?_brace (part : NumberPart) (x : Numeral) : continued? part x '}' = none := by
  cases part <;> simp +decide [continued?]

/-- Where nothing is open, nothing can be closed. -/
theorem IsOutside.step?_brace (hm : m.IsOutside) : m.step? 0x7d = none := by
  have hbrace : Char.ofUInt8 0x7d = '}' := by decide
  obtain ⟨frames, place⟩ := m
  obtain ⟨rfl, ⟨value, rfl⟩ | ⟨part, x, rfl⟩⟩ := hm
  · rfl
  · simp only [step?, hbrace, continued?_brace, deliver, between?_done]
    split <;> rfl

end Machine

/-- A text that is read and ends with a closing brace is not read if it breaks off early. -/
theorem read_eq_none_of_breaks_off {bytes part : List UInt8} {value : Data}
    (hread : read bytes = some value) (hend : bytes.getLast? = some 0x7d) (hpart : part <+: bytes)
    (hne : part ≠ bytes) : read part = none := by
  obtain ⟨missing, rfl⟩ := hpart
  -- What is missing ends with the brace.
  obtain ⟨before, rfl⟩ : ∃ before, missing = before ++ [0x7d] := by
    rcases List.eq_nil_or_concat missing with rfl | ⟨before, last, rfl⟩
    · exact absurd (List.append_nil part).symm hne
    · rw [List.concat_eq_append, ← List.append_assoc, List.getLast?_concat, Option.some.injEq]
        at hend
      exact ⟨before, by rw [List.concat_eq_append, hend]⟩
  rw [read, Option.bind_eq_bind, Option.bind_eq_some_iff] at hread
  obtain ⟨last, hlast, -⟩ := hread
  rw [Option.eq_none_iff_forall_ne_some]
  intro other hother
  rw [read, Option.bind_eq_bind, Option.bind_eq_some_iff] at hother
  obtain ⟨m, hm, hfinish⟩ := hother
  rw [List.foldlM_append, hm, Option.bind_eq_bind, Option.bind_some, List.foldlM_append,
    Option.bind_eq_bind, Option.bind_eq_some_iff] at hlast
  obtain ⟨here, hhere, hbrace⟩ := hlast
  have hnone := ((Machine.isOutside_of_finish? hfinish).foldlM hhere).step?_brace
  rw [List.foldlM_cons, hnone] at hbrace
  cases hbrace

/-- In every layout the text of a record ends with a closing brace. -/
theorem getLast?_print_record (layout : Layout) (depth : Nat) (fields : List (String × Data)) :
    (encoded (layout.print depth (.record fields))).getLast? = some 0x7d := by
  have hbrace : encoded ['}'] = [0x7d] := rfl
  rw [Layout.print]
  cases layout.printFields (depth + 1) fields with
  | nil => rfl
  | cons first rest =>
    rw [Layout.block, ← List.cons_append, encoded_append, hbrace, List.getLast?_concat]

/-- The text of a record is read as a whole or not at all. -/
theorem read_part_of_record {fields : List (String × Data)} (h : (Data.record fields).IsPlain)
    {part : List UInt8} (hpart : part <+: bytesOf (pretty (.record fields)))
    (hne : part ≠ bytesOf (pretty (.record fields))) : read part = none := by
  refine read_eq_none_of_breaks_off (read_pretty h) ?_ hpart hne
  rw [pretty, bytesOf_ofList, ← Layout.print_indented, getLast?_print_record]

end CallGraph.Json
