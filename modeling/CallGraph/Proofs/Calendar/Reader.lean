import CallGraph.Calendar.Reader
import CallGraph.Proofs.Calendar.Date
import CallGraph.Proofs.Number.Digits

/-!
# Points in time read back

The text of a point in time is read as that point in time: in the lenient spelling whatever the
year, in the strict one if the year has four digits.  A text can name a leap second only at the end
of a minute; elsewhere it names the second after it.

Main results:

- Definition `Instant.settled`: the point in time that the text of another one names.
- Theorem `Calendar.lenient?_toText`: the lenient spelling reads every text back.
- Theorem `Calendar.strict?_toText`: the strict spelling reads it back exactly for the years from 0
  to 9999.
-/

namespace CallGraph

namespace Instant

/-- The calendar goes to the year of the point in time, and the time of the day exists.  A second
has up to two thousand million nanoseconds, of which the later half is a leap second. -/
structure InCalendar (t : Instant) : Prop where
  year_range : -262143 ≤ t.date.year ∧ t.date.year ≤ 262142
  second_lt : t.second < 86400
  nanosecond_lt : t.nanosecond < 2000000000

/-- The point in time that the text of `t` names: a leap second that does not end a minute is
named like the second after it. -/
def settled (t : Instant) : Instant :=
  if t.second % 60 = 59 then t
  else ⟨t.days, t.second + t.nanosecond / 1000000000, t.nanosecond % 1000000000⟩

/-- A point in time without a leap second, or with one at the end of a minute, is named by its
text. -/
theorem settled_eq_self {t : Instant} (h : t.second % 60 = 59 ∨ t.nanosecond < 1000000000) :
    t.settled = t := by
  rw [settled]
  split
  · rfl
  · rename_i hinside
    have hsecond : t.nanosecond / 1000000000 = 0 := by omega
    have hrest : t.nanosecond % 1000000000 = t.nanosecond := by omega
    rw [hsecond, hrest, Nat.add_zero]

/-- Settling a moment keeps its date. -/
theorem date_settled (t : Instant) : t.settled.date = t.date := by
  rw [settled]
  split <;> rfl

/-- A point in time and the one that its text names have the same text. -/
theorem toText_settled {t : Instant} (h : t.InCalendar) (zone : String) :
    t.settled.toText zone = t.toText zone := by
  have hleap := h.nanosecond_lt
  rw [toText, toText, date_settled]
  by_cases hend : t.second % 60 = 59
  · rw [settled, if_pos hend]
  · have hhour : (t.second + t.nanosecond / 1000000000) / 3600 = t.second / 3600 := by omega
    have hminute : (t.second + t.nanosecond / 1000000000) / 60 % 60 = t.second / 60 % 60 := by
      omega
    have hsecond : (t.second + t.nanosecond / 1000000000) % 60 =
        t.second % 60 + t.nanosecond / 1000000000 := by omega
    have hnone : t.nanosecond % 1000000000 / 1000000000 = 0 := by omega
    have hrest : t.nanosecond % 1000000000 % 1000000000 = t.nanosecond % 1000000000 := by omega
    rw [settled, if_neg hend]
    simp only [hhour, hminute, hsecond, hnone, hrest, Nat.add_zero]

end Instant

namespace Calendar

open Date

/-! ## Digits -/

/-- A digit is not blank. -/
theorem isBlank_of_isDigit {c : Char} (h : c.isDigit = true) : Text.isBlank c = false := by
  have hrange : 48 ≤ c.toNat ∧ c.toNat ≤ 57 := by
    simpa [Char.isDigit, UInt32.le_iff_toNat_le] using h
  simp only [Text.isBlank]
  grind

/-- As many digits as may be read, or fewer with no digit after them, are read as their number. -/
theorem number_append (least most : Nat) {ds : List Char} (rest : List Char)
    (hdigits : ∀ c ∈ ds, c.isDigit = true) (hleast : least ≤ ds.length) (hmost : ds.length ≤ most)
    (hstop : ds.length = most ∨ ∀ c ∈ rest.head?, c.isDigit = false) :
    number least most (ds ++ rest) = some (Number.ofDigits ds, rest) := by
  have hafter : (rest.take (most - ds.length)).takeWhile Char.isDigit = [] := by
    cases rest with
    | nil => simp
    | cons c rest =>
      rcases hstop with hfull | hclear
      · simp [hfull]
      · have hc : c.isDigit = false := hclear c rfl
        cases most - ds.length with
        | zero => rfl
        | succ count => rw [List.take_succ_cons, List.takeWhile_cons_of_neg (by simp [hc])]
  have hread : ((ds ++ rest).take most).takeWhile Char.isDigit = ds := by
    rw [List.take_append, List.take_of_length_le hmost,
      List.takeWhile_append_of_pos hdigits, hafter, List.append_nil]
  rw [number]
  simp only [hread, List.drop_left, if_neg (Nat.not_lt.2 hleast)]

/-- A number that fills its places is read, if no more places than that may be read. -/
theorem number_padded (least width : Nat) {n : Nat} (hleast : least ≤ width) (hwidth : 0 < width)
    (hn : n < 10 ^ width) (rest : List Char) :
    number least width (padded width n ++ rest) = some (n, rest) := by
  have hlength := Number.length_padZeros_digits hwidth hn
  have h := number_append least width rest
    (fun c hc => Number.isDigit_of_mem_padZeros hc) (by rw [hlength]; exact hleast)
    (Nat.le_of_eq hlength) (.inl hlength)
  rwa [Number.ofDigits_padZeros, Number.ofDigits_digits] at h

/-- White space is skipped only where there is some. -/
theorem skipBlank_of_head {cs : List Char} (h : ∀ c ∈ cs.head?, Text.isBlank c = false) :
    skipBlank cs = cs := by
  cases cs with
  | nil => rfl
  | cons c rest => rw [skipBlank, List.dropWhile_cons_of_neg (by simp [h c rfl])]

/-- A number begins with a digit. -/
theorem head?_padded (width n : Nat) (rest : List Char) :
    ∃ c, (padded width n ++ rest).head? = some c ∧ c.isDigit = true := by
  have hne : padded width n ≠ [] := by
    rw [padded, Number.padZeros]
    simp [Number.digits_ne_nil]
  obtain ⟨c, tail, heq⟩ := List.exists_cons_of_ne_nil hne
  exact ⟨c, by simp [heq], Number.isDigit_of_mem_padZeros (heq ▸ List.mem_cons_self)⟩

/-- Nothing is skipped before a number. -/
theorem skipBlank_padded (width n : Nat) (rest : List Char) :
    skipBlank (padded width n ++ rest) = padded width n ++ rest := by
  obtain ⟨c, hhead, hdigit⟩ := head?_padded width n rest
  refine skipBlank_of_head fun d hd => ?_
  rw [hhead, Option.mem_some_iff] at hd
  exact hd ▸ isBlank_of_isDigit hdigit

/-! ## Parts of a text -/

/-- A fraction of a second is read back in billionths. -/
theorem fraction_point (places : Nat) {n : Nat} (hplaces : 0 < places ∧ places ≤ 9)
    (hn : n < 10 ^ places) {z : Char} (hz : z.isDigit = false) (rest : List Char) :
    fraction ('.' :: (padded places n ++ z :: rest)) =
      some (n * Nat.pow 10 (9 - places), z :: rest) := by
  have hlength := Number.length_padZeros_digits hplaces.1 hn
  have hread := number_append 1 9 (z :: rest)
    (fun c hc => Number.isDigit_of_mem_padZeros hc) (by rw [hlength]; exact hplaces.1)
    (by rw [hlength]; exact hplaces.2) (.inr (by simpa using hz))
  rw [Number.ofDigits_padZeros, Number.ofDigits_digits] at hread
  have htaken : (padded places n ++ z :: rest).length - (z :: rest).length = places := by
    rw [List.length_append, padded, hlength]
    omega
  simp only [fraction, padded, hread, Option.bind_eq_bind, Option.bind_some]
  rw [List.dropWhile_cons_of_neg (by simp [hz])]
  rw [padded] at htaken
  rw [htaken]

/-- The fraction of a second is read with all its places. -/
theorem fraction_fractionText {n : Nat} (hn : n < 1000000000) {z : Char} (hz : z.isDigit = false)
    (hpoint : z ≠ '.') (rest : List Char) :
    fraction (Instant.fractionText n ++ z :: rest) = some (n, z :: rest) := by
  rw [Instant.fractionText]
  split
  · rename_i hzero
    subst hzero
    rw [List.nil_append, fraction]
    simpa using hpoint
  · split
    · have hplaces := fraction_point 3 (n := n / 1000000) (by decide) (by omega) hz rest
      have heq : n / 1000000 * Nat.pow 10 (9 - 3) = n := by
        simp only [Nat.reduceSub, Nat.pow_eq, Nat.reducePow]
        omega
      rw [List.cons_append, hplaces, heq]
    · split
      · have hplaces := fraction_point 6 (n := n / 1000) (by decide) (by omega) hz rest
        have heq : n / 1000 * Nat.pow 10 (9 - 6) = n := by
          simp only [Nat.reduceSub, Nat.pow_eq, Nat.reducePow]
          omega
        rw [List.cons_append, hplaces, heq]
      · have hplaces := fraction_point 9 (n := n) (by decide) (by omega) hz rest
        rw [List.cons_append, hplaces, Nat.sub_self, Nat.pow_eq, Nat.pow_zero, Nat.mul_one]

/-- A signed or four-digit year is read up to the hyphen after it. -/
theorem year_yearText (y : Int) (rest : List Char) :
    year (yearText y ++ '-' :: rest) = some (y, '-' :: rest) := by
  rw [yearText]
  split
  · rename_i hrange
    simp only [Bool.and_eq_true, decide_eq_true_eq] at hrange
    have hread := number_padded 1 4 (n := y.toNat) (by decide) (by decide) (by omega) ('-' :: rest)
    obtain ⟨c, hhead, hdigit⟩ := head?_padded 4 y.toNat ('-' :: rest)
    obtain ⟨tail, heq⟩ := List.head?_eq_some_iff.1 hhead
    have hvalue : ((y.toNat : Nat) : Int) = y := by omega
    rw [heq] at hread ⊢
    rw [year]
    · simp only [hread, Option.map_some, hvalue]
    · intro cs hminus
      obtain ⟨rfl, -⟩ := List.cons.inj hminus
      exact absurd hdigit (by decide)
    · intro cs hplus
      obtain ⟨rfl, -⟩ := List.cons.inj hplus
      exact absurd hdigit (by decide)
  · rename_i hrange
    simp only [Bool.and_eq_true, decide_eq_true_eq, not_and] at hrange
    have hdigits : ∀ c ∈ padded 4 y.natAbs, c.isDigit = true := fun c hc =>
      Number.isDigit_of_mem_padZeros hc
    have hleast : 1 ≤ (padded 4 y.natAbs).length :=
      Nat.le_trans (by decide) (Number.le_length_padZeros 4 _)
    have hread := number_append 1 (padded 4 y.natAbs ++ '-' :: rest).length ('-' :: rest) hdigits
      hleast (by simp) (.inr (by simp))
    rw [padded, Number.ofDigits_padZeros, Number.ofDigits_digits, ← padded] at hread
    by_cases hsign : y < 0
    · have hvalue : -((y.natAbs : Nat) : Int) = y := by omega
      simp only [if_pos hsign, List.cons_append, year, hread, Option.map_some, hvalue]
    · have hvalue : ((y.natAbs : Nat) : Int) = y := by omega
      simp only [if_neg hsign, List.cons_append, year, hread, Option.map_some, hvalue]

/-! ## Points in time -/

/-- Without an offset a moment stays as it is. -/
theorem atOffset?_zero {t : Instant} (hvalid : t.date.isValid = true) (hsecond : t.second < 86400) :
    t.atOffset? 0 = some t := by
  have hday : (t.second : Int) / 86400 = 0 := by omega
  have hrest : ((t.second : Int) % 86400).toNat = t.second := by omega
  rw [Instant.atOffset?]
  simp only [Int.sub_zero, hday, hrest, Int.add_zero, if_pos hvalid]

/-- The parts of a text make up the point in time that it names. -/
theorem instant?_eq_some_settled {t : Instant} (h : t.InCalendar) :
    instant? t.date.year t.date.month t.date.day (t.second / 3600) (t.second / 60 % 60)
      (t.second % 60 + t.nanosecond / 1000000000) (t.nanosecond % 1000000000) 0 =
        some t.settled := by
  obtain ⟨hyear, hsecond, hnanosecond⟩ := h
  have hvalid : t.date.isValid = true := (isValid_ofDays_iff t.days).2 hyear
  have hdays : t.date.toDays = t.days := toDays_ofDays t.days
  have hparts : (t.date.isValid && decide (t.second / 3600 < 24) &&
      decide (t.second / 60 % 60 < 60) &&
        decide (t.second % 60 + t.nanosecond / 1000000000 ≤ 60) &&
          decide ((0 : Int).natAbs < 86400)) = true := by
    simp only [hvalid, Bool.true_and, Bool.and_eq_true, decide_eq_true_eq]
    omega
  rw [instant?]
  simp only [hparts, if_true, hdays]
  rw [Instant.settled]
  by_cases hleap : t.second % 60 + t.nanosecond / 1000000000 = 60
  · have hend : t.second % 60 = 59 := by omega
    have hclock : t.second / 3600 * 3600 + t.second / 60 % 60 * 60 + 59 = t.second := by omega
    have hrest : t.nanosecond % 1000000000 + 1000000000 = t.nanosecond := by omega
    simp only [if_pos hleap, if_pos hend, hclock, hrest]
    exact atOffset?_zero hvalid hsecond
  · have hclock : t.second / 3600 * 3600 + t.second / 60 % 60 * 60 +
        (t.second % 60 + t.nanosecond / 1000000000) =
          t.second + t.nanosecond / 1000000000 := by omega
    simp only [if_neg hleap, hclock, Nat.add_zero]
    rw [atOffset?_zero (by exact hvalid) (by simp only; omega)]
    split
    · have hnone : t.nanosecond / 1000000000 = 0 := by omega
      have hrest : t.nanosecond % 1000000000 = t.nanosecond := by omega
      rw [hnone, hrest, Nat.add_zero]
    · rfl

/-! ## Whole texts -/

/-- The characters of a moment, field by field. -/
theorem toList_toText (t : Instant) (zone : String) :
    (t.toText zone).toList =
      yearText t.date.year ++ '-' :: (padded 2 t.date.month ++ '-' :: (padded 2 t.date.day ++
        'T' :: (padded 2 (t.second / 3600) ++ ':' :: (padded 2 (t.second / 60 % 60) ++
          ':' :: (padded 2 (t.second % 60 + t.nanosecond / 1000000000) ++
            (Instant.fractionText (t.nanosecond % 1000000000) ++ zone.toList)))))) := by
  rw [Instant.toText, String.toList_ofList, Date.toChars]
  simp only [List.append_assoc, List.cons_append]

/-- Month, day, hour, minute and second have two digits. -/
theorem parts_lt {t : Instant} (h : t.InCalendar) :
    t.date.month < 100 ∧ t.date.day < 100 ∧ t.second / 3600 < 100 ∧ t.second / 60 % 60 < 100 ∧
      t.second % 60 + t.nanosecond / 1000000000 < 100 := by
  obtain ⟨hyear, hsecond, hnanosecond⟩ := h
  have hvalid : t.date.isValid = true := (isValid_ofDays_iff t.days).2 hyear
  simp only [isValid, Bool.and_eq_true, decide_eq_true_eq] at hvalid
  have hlength : daysInMonth t.date.year t.date.month ≤ 31 := by
    unfold daysInMonth
    split
    · split <;> decide
    all_goals decide
  omega

/-- One of the allowed signs is read. -/
theorem oneOf_cons {allowed : List Char} {c : Char} (h : allowed.contains c = true)
    (rest : List Char) : oneOf allowed (c :: rest) = some ((), rest) := by
  rw [oneOf, if_pos h]

theorem skipBlank_cons {c : Char} (h : Text.isBlank c = false) (rest : List Char) :
    skipBlank (c :: rest) = c :: rest :=
  skipBlank_of_head (by simpa using h)

/-- Nothing is skipped before a year. -/
theorem skipBlank_yearText (y : Int) (rest : List Char) :
    skipBlank (yearText y ++ rest) = yearText y ++ rest := by
  rw [yearText]
  split
  · exact skipBlank_padded 4 y.toNat rest
  · rw [List.cons_append]
    split
    · exact skipBlank_cons (by decide) _
    · exact skipBlank_cons (by decide) _

/-- The lenient spelling reads the text of every point in time in the calendar. -/
theorem lenient?_toText {t : Instant} (h : t.InCalendar) :
    lenient? (t.toText "Z").toList = some t.settled := by
  obtain ⟨hmonth, hday, hhour, hminute, hsecond⟩ := parts_lt h
  have hnumber : ∀ {n : Nat}, n < 100 → ∀ rest : List Char,
      number 1 2 (skipBlank (padded 2 n ++ rest)) = some (n, rest) := by
    intro n hn rest
    rw [skipBlank_padded]
    exact number_padded 1 2 (by decide) (by decide) hn rest
  have hfraction := fraction_fractionText (n := t.nanosecond % 1000000000) (z := 'Z') (by omega)
    (by decide) (by decide) []
  have hzone : looseZone ['Z'] = some (0, []) := by decide
  rw [toList_toText, show "Z".toList = ['Z'] by decide]
  simp only [lenient?, date, skipBlank_yearText, year_yearText, hnumber hmonth, hnumber hday,
    hnumber hhour, hnumber hminute, hnumber hsecond, hfraction, hzone,
    skipBlank_cons (c := '-') (by decide), skipBlank_cons (c := ':') (by decide),
    skipBlank_cons (c := 'Z') (by decide), oneOf_cons (by decide : ['-'].contains '-' = true),
    oneOf_cons (by decide : [':'].contains ':' = true),
    oneOf_cons (by decide : ['T', 't', ' '].contains 'T' = true), Option.bind_eq_bind,
    Option.bind_some, instant?_eq_some_settled h]
  rfl

/-- The text of a point in time in a year of four digits has nothing to trim. -/
theorem trimChars_toText (t : Instant) :
    Text.trimChars (t.toText "+00:00").toList = (t.toText "+00:00").toList := by
  have hfirst : skipBlank (t.toText "+00:00").toList = (t.toText "+00:00").toList := by
    rw [toList_toText]
    exact skipBlank_yearText _ _
  have hlast : ∃ init, (t.toText "+00:00").toList = init ++ ['0'] := by
    have hzone : "+00:00".toList = "+00:0".toList ++ ['0'] := by decide
    rw [Instant.toText, String.toList_ofList, hzone, ← List.append_assoc]
    exact ⟨_, rfl⟩
  obtain ⟨init, heq⟩ := hlast
  change (skipBlank (skipBlank (t.toText "+00:00").toList).reverse).reverse = _
  rw [hfirst, heq, List.reverse_append, List.reverse_singleton, List.singleton_append,
    skipBlank_cons (by decide), List.reverse_cons, List.reverse_reverse]

/-- The strict spelling reads the text of a point in time if its year has four digits, and refuses
every other one. -/
theorem strict?_toText {t : Instant} (h : t.InCalendar) :
    strict? (Text.trimChars (t.toText "+00:00").toList) =
      if 0 ≤ t.date.year ∧ t.date.year ≤ 9999 then some t.settled else none := by
  obtain ⟨hmonth, hday, hhour, hminute, hsecond⟩ := parts_lt h
  have hnumber : ∀ {n : Nat}, n < 100 → ∀ rest : List Char,
      number 2 2 (padded 2 n ++ rest) = some (n, rest) := fun hn rest =>
    number_padded 2 2 (by decide) (by decide) hn rest
  rw [trimChars_toText, toList_toText]
  split
  · rename_i hyear
    have hfraction := fraction_fractionText (n := t.nanosecond % 1000000000) (z := '+') (by omega)
      (by decide) (by decide) "00:00".toList
    have hzone : zone (oneOf [':']) ('+' :: "00:00".toList) = some (0, []) := by decide
    have hvalue : ((t.date.year.toNat : Nat) : Int) = t.date.year := by omega
    have hfour : ∀ rest : List Char,
        number 4 4 (yearText t.date.year ++ rest) = some (t.date.year.toNat, rest) := by
      intro rest
      rw [yearText, if_pos (by simpa using hyear)]
      exact number_padded 4 4 (by decide) (by decide) (by omega) rest
    rw [show "+00:00".toList = '+' :: "00:00".toList by decide]
    simp only [strict?, hfour, hnumber hmonth, hnumber hday, hnumber hhour, hnumber hminute,
      hnumber hsecond, hfraction, hzone, oneOf_cons (by decide : ['-'].contains '-' = true),
      oneOf_cons (by decide : [':'].contains ':' = true),
      oneOf_cons (by decide : ['T', 't', ' '].contains 'T' = true), Option.bind_eq_bind,
      Option.bind_some, hvalue, instant?_eq_some_settled h]
    rfl
  · rename_i hyear
    have hnone : ∀ rest : List Char, number 4 4 (yearText t.date.year ++ rest) = none := by
      intro rest
      rw [yearText, if_neg (by simpa using hyear)]
      split <;> rfl
    simp only [strict?, hnone, Option.bind_eq_bind, Option.bind_none]

end Calendar

end CallGraph
