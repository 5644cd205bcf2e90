/-!
# Runs of steps that can fail

A run goes through a list of items, with a step for each of them that changes a state or fails, and
stops at the first step that fails.  Readers of files, and everything that puts a graph together
from what was read, are runs of this kind.

Main results:

- Theorems `foldlM_cons_eq_ok` and `foldlM_append_eq_ok`: runs that succeed.
- Theorem `exists_first_failure`: runs that fail.
- Theorem `foldlM_eq_ok_foldl`: a run that succeeds is a run of steps that cannot fail.
- Theorem `mapM_eq_ok_map`: answers for all items, none of which fails.
- Definition `Alike`: two results that are faults alike, or related to each other.
-/

namespace CallGraph

universe u v w

variable {ε : Type u} {σ τ : Type v} {α : Type w} {step : σ → α → Except ε σ} {s t : σ} {a : α}
  {items : List α}

theorem ok_bind (s : σ) (next : σ → Except ε τ) : (Except.ok s >>= next) = next s :=
  rfl

/-- A result goes on to a result if it is one and the next step gives one. -/
theorem bind_eq_ok {result : Except ε σ} {next : σ → Except ε τ} {t : τ} :
    result >>= next = .ok t ↔ ∃ s, result = .ok s ∧ next s = .ok t := by
  cases result with
  | error fault => exact ⟨nofun, fun ⟨_, hresult, _⟩ => nomatch hresult⟩
  | ok s => simp [ok_bind]

theorem foldlM_cons_ok {after : σ} (h : step s a = .ok after) (items : List α) :
    (a :: items).foldlM step s = items.foldlM step after := by
  rw [List.foldlM_cons, h, ok_bind]

theorem foldlM_append_ok {after : σ} (h : items.foldlM step s = .ok after) (more : List α) :
    (items ++ more).foldlM step s = more.foldlM step after := by
  rw [List.foldlM_append, h, ok_bind]

/-! ## Runs that succeed -/

theorem foldlM_cons_eq_ok :
    (a :: items).foldlM step s = .ok t ↔
      ∃ after, step s a = .ok after ∧ items.foldlM step after = .ok t := by
  rw [List.foldlM_cons, bind_eq_ok]

theorem foldlM_append_eq_ok {more : List α} :
    (items ++ more).foldlM step s = .ok t ↔
      ∃ after, items.foldlM step s = .ok after ∧ more.foldlM step after = .ok t := by
  rw [List.foldlM_append, bind_eq_ok]

/-- If every step that succeeds does what `act` does, so does every run. -/
theorem foldlM_eq_ok_foldl {act : σ → α → σ}
    (hact : ∀ {s a t}, step s a = .ok t → t = act s a) (h : items.foldlM step s = .ok t) :
    t = items.foldl act s := by
  induction items generalizing s with
  | nil => exact (Except.ok.inj h).symm
  | cons a rest ih =>
    obtain ⟨after, hstep, hrest⟩ := foldlM_cons_eq_ok.1 h
    rw [List.foldl_cons, ← hact hstep]
    exact ih hrest

/-- If no item fails, the answers are collected. -/
theorem mapM_eq_ok_map {β : Type v} {answer? : α → Except ε β} {answer : α → β}
    (h : ∀ a ∈ items, answer? a = .ok (answer a)) :
    items.mapM answer? = .ok (items.map answer) := by
  induction items with
  | nil => rfl
  | cons a rest ih =>
    rw [List.mapM_cons, h a (by simp), ok_bind, ih fun b hb => h b (List.mem_cons_of_mem _ hb),
      ok_bind]
    rfl

/-! ## Runs that fail -/

/-- A run that fails does so at some item, after a run through all items before it. -/
theorem exists_first_failure {fault : ε} (h : items.foldlM step s = .error fault) :
    ∃ before a after reached, items = before ++ a :: after ∧
      before.foldlM step s = .ok reached ∧ step reached a = .error fault := by
  induction items generalizing s with
  | nil => cases h
  | cons a rest ih =>
    cases hstep : step s a with
    | error other =>
      rw [List.foldlM_cons, hstep] at h
      exact ⟨[], a, rest, s, rfl, rfl, hstep.trans h⟩
    | ok next =>
      rw [foldlM_cons_ok hstep] at h
      obtain ⟨before, b, after, reached, rfl, hbefore, hfault⟩ := ih h
      exact ⟨a :: before, b, after, reached, rfl, foldlM_cons_eq_ok.2 ⟨next, hstep, hbefore⟩,
        hfault⟩

/-! ## Two runs -/

/-- Two results that are the same fault, or both answers, which are related. -/
inductive Alike {ε σ τ : Type u} (R : σ → τ → Prop) : Except ε σ → Except ε τ → Prop
  | ok {s : σ} {t : τ} (h : R s t) : Alike R (.ok s) (.ok t)
  | error (fault : ε) : Alike R (.error fault) (.error fault)

namespace Alike

variable {ε σ τ υ φ : Type u} {R : σ → τ → Prop} {S : υ → φ → Prop} {first : Except ε σ}
  {second : Except ε τ}

/-- Answers that are related lead on alike. -/
theorem bind {next : σ → Except ε υ} {next' : τ → Except ε φ} (h : Alike R first second)
    (hnext : ∀ s t, R s t → Alike S (next s) (next' t)) :
    Alike S (first >>= next) (second >>= next') := by
  cases h with
  | ok hrelated => exact hnext _ _ hrelated
  | error fault => exact .error fault

/-- What begins alike is alike if all that can follow is. -/
theorem bind_same {result : Except ε σ} {next : σ → Except ε υ} {next' : σ → Except ε φ}
    (h : ∀ s, result = .ok s → Alike S (next s) (next' s)) :
    Alike S (result >>= next) (result >>= next') := by
  cases result with
  | ok s => exact h s rfl
  | error fault => exact .error fault

/-- What holds of the first answer may be told along with the relation. -/
theorem and_left {P : σ → Prop} (h : Alike R first second) (hP : ∀ s, first = .ok s → P s) :
    Alike (fun s t => P s ∧ R s t) first second := by
  cases h with
  | ok hrelated => exact .ok ⟨hP _ rfl, hrelated⟩
  | error fault => exact .error fault

/-- Results that are both like a third one are like each other. -/
theorem join {R : σ → υ → Prop} {S : τ → υ → Prop} {third : Except ε υ}
    (h : Alike R first third) (h' : Alike S second third) :
    Alike (fun s t => ∃ u, R s u ∧ S t u) first second := by
  cases h with
  | ok hfirst =>
    cases h' with
    | ok hsecond => exact .ok ⟨_, hfirst, hsecond⟩
  | error fault =>
    cases h' with
    | error fault => exact .error fault

end Alike

end CallGraph
