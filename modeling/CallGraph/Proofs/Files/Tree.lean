import CallGraph.Files.Tree
import Mathlib.Data.List.Basic

/-!
# Files that are written are found

A file is put into a tree after the directories on the way to it, and nothing that a path goes
through is lost: the directories of the tree stay, so that the path that was written to leads to the
file.

Main results:

- Theorem `FileTree.isDirectory_put`: directories stay unless something is put in their place.
- Theorem `FileTree.MakesDirectories.of_makeDirectories`: the directories on the way to a file.
- Theorem `FileTree.look_replace`: a path leads to the file that was written to it.
-/

namespace CallGraph.FileTree

variable {tree leaf : FileTree} {names others : List String} {name : String}

/-! ## Putting a tree into another -/

/-- What is put below a name stands there. -/
theorem child?_put_self (entries : List (String × FileTree)) (leaf : FileTree) (name : String)
    (rest : List String) :
    ((directory entries).put leaf (name :: rest)).child? name =
      some ((((directory entries).child? name).getD empty).put leaf rest) := by
  simp [put, child?]

/-- What is put below one name changes nothing below another. -/
theorem child?_put_of_ne {entries : List (String × FileTree)} {other : String} (h : other ≠ name)
    (leaf : FileTree) (rest : List String) :
    ((directory entries).put leaf (name :: rest)).child? other =
      (directory entries).child? other := by
  have hsame (entry : String × FileTree) :
      decide ((entry.1 != name) = true ∧ (entry.1 == other) = true) = (entry.1 == other) := by
    by_cases hentry : entry.1 = other
    · simp [hentry, h]
    · simp [hentry]
  rw [put, child?, List.find?_cons_of_neg (by simpa using Ne.symm h), List.find?_filter]
  simp only [hsame]
  rfl

/-- A tree is a directory if it has entries. -/
theorem isDirectory_nil_iff : tree.isDirectory [] = true ↔ ∃ entries, tree = directory entries := by
  cases tree <;> simp [isDirectory, get?]

/-- A way leads to a directory if its first name does and the rest leads on from there. -/
theorem isDirectory_cons_iff :
    tree.isDirectory (name :: names) = true ↔
      ∃ inner, tree.child? name = some inner ∧ inner.isDirectory names = true := by
  rw [isDirectory, get?]
  cases tree.child? name with
  | none => simp
  | some inner => simp [isDirectory]

/-- What encloses a directory is a directory. -/
theorem isDirectory_outer (h : tree.isDirectory others = true) (hstart : names <+: others) :
    tree.isDirectory names = true := by
  induction names generalizing tree others with
  | nil =>
    cases others with
    | nil => exact h
    | cons other rest =>
      obtain ⟨inner, hchild, -⟩ := isDirectory_cons_iff.1 h
      cases tree with
      | file content => cases hchild
      | directory entries => exact isDirectory_nil_iff.2 ⟨entries, rfl⟩
  | cons name names ih =>
    obtain ⟨missing, rfl⟩ := hstart
    obtain ⟨inner, hchild, hinner⟩ := isDirectory_cons_iff.1 h
    exact isDirectory_cons_iff.2 ⟨inner, hchild, ih hinner (List.prefix_append _ _)⟩

/-- What is put into a directory is there. -/
theorem get?_put (h : tree.isDirectory names = true) (leaf : FileTree) (name : String) :
    (tree.put leaf (names ++ [name])).get? (names ++ [name]) = some leaf := by
  induction names generalizing tree with
  | nil =>
    obtain ⟨entries, rfl⟩ := isDirectory_nil_iff.1 h
    rw [List.nil_append, get?, child?_put_self]
    rfl
  | cons first rest ih =>
    obtain ⟨inner, hchild, hinner⟩ := isDirectory_cons_iff.1 h
    cases tree with
    | file content => cases hchild
    | directory entries =>
      rw [List.cons_append, get?, child?_put_self, hchild]
      exact ih hinner

/-- A directory stays unless something is put in its place or in that of one around it. -/
theorem isDirectory_put (h : tree.isDirectory others = true) (hother : ¬ names <+: others) :
    (tree.put leaf names).isDirectory others = true := by
  induction names generalizing tree others with
  | nil => exact absurd (List.nil_prefix) hother
  | cons name names ih =>
    cases tree with
    | file content => exact h
    | directory entries =>
      cases others with
      | nil => exact isDirectory_nil_iff.2 ⟨_, rfl⟩
      | cons other rest =>
        obtain ⟨inner, hchild, hinner⟩ := isDirectory_cons_iff.1 h
        by_cases hsame : other = name
        · subst hsame
          refine isDirectory_cons_iff.2 ⟨_, child?_put_self _ _ _ _, ?_⟩
          rw [hchild]
          exact ih hinner fun hstart => hother (List.prefix_cons_inj other |>.2 hstart)
        · exact isDirectory_cons_iff.2 ⟨inner, (child?_put_of_ne hsame _ _).trans hchild, hinner⟩

/-! ## Following paths -/

/-- Every directory of the first tree is a directory of the second. -/
def Keeps (tree other : FileTree) : Prop :=
  ∀ names, tree.isDirectory names = true → other.isDirectory names = true

/-- A leaf that is put where no directory stands keeps all directories. -/
theorem Keeps.put (h : tree.isDirectory names = false) (leaf : FileTree) :
    tree.Keeps (tree.put leaf names) := fun others hothers =>
  isDirectory_put hothers fun hstart => by
    rw [isDirectory_outer hothers hstart] at h
    cases h

/-- The first part of a path is followed from a directory, and the rest from there. -/
theorem follow?_cons_eq_some_iff {done last : List String} {part : String} {parts : List String} :
    tree.follow? done (part :: parts) = some last ↔
      tree.isDirectory done = true ∧ Path.isName part = true ∧
        tree.follow? (if part = ".." then done.dropLast else done ++ [part]) parts = some last := by
  rw [follow?]
  cases tree.isDirectory done <;> cases Path.isName part <;> simp
  split <;> rfl

/-- A path leads to the same place in a tree that keeps all directories. -/
theorem Keeps.follow? {other : FileTree} (h : tree.Keeps other) {done last parts : List String}
    (hfollow : tree.follow? done parts = some last) : other.follow? done parts = some last := by
  induction parts generalizing done with
  | nil => exact hfollow
  | cons part parts ih =>
    obtain ⟨hdone, hname, hrest⟩ := follow?_cons_eq_some_iff.1 hfollow
    exact follow?_cons_eq_some_iff.2 ⟨h done hdone, hname, ih hrest⟩

/-- Two paths are followed one after the other. -/
theorem follow?_append {done middle last more parts : List String}
    (h : tree.follow? done parts = some middle) (hmore : tree.follow? middle more = some last) :
    tree.follow? done (parts ++ more) = some last := by
  induction parts generalizing done with
  | nil =>
    obtain rfl : done = middle := Option.some.inj h
    exact hmore
  | cons part parts ih =>
    obtain ⟨hdone, hname, hrest⟩ := follow?_cons_eq_some_iff.1 h
    exact follow?_cons_eq_some_iff.2 ⟨hdone, hname, ih hrest⟩

/-- The second tree has the directories that a path goes through, and all those of the first. -/
structure MakesDirectories (tree made : FileTree) (done parts last : List String) : Prop where
  keeps : tree.Keeps made
  follow?_eq : made.follow? done parts = some last
  isDirectory_last : made.isDirectory last = true

/-- A directory that is kept or made under a name, and what is made inside of it. -/
theorem MakesDirectories.cons {next made : FileTree} {part : String} {done last parts : List String}
    (hdone : tree.isDirectory done = true) (hname : Path.isName part = true) (hback : ¬ part = "..")
    (hkeeps : tree.Keeps next) (hrest : next.MakesDirectories made (done ++ [part]) parts last) :
    tree.MakesDirectories made done (part :: parts) last := by
  refine ⟨fun names hnames => hrest.keeps names (hkeeps names hnames), ?_, hrest.isDirectory_last⟩
  refine follow?_cons_eq_some_iff.2 ⟨hrest.keeps done (hkeeps done hdone), hname, ?_⟩
  rw [if_neg hback]
  exact hrest.follow?_eq

/-- What is true if directories could be made along a path. -/
theorem MakesDirectories.of_makeDirectories {made : FileTree} {done last parts : List String}
    (hdone : tree.isDirectory done = true)
    (h : tree.makeDirectories done parts = (made, some last)) :
    tree.MakesDirectories made done parts last := by
  induction parts generalizing tree done with
  | nil =>
    obtain ⟨rfl, hlast⟩ := Prod.mk.inj h
    obtain rfl := Option.some.inj hlast
    exact ⟨fun _ h => h, rfl, hdone⟩
  | cons part parts ih =>
    rw [makeDirectories] at h
    split at h
    · rename_i hback
      have hrest := ih (isDirectory_outer hdone (List.dropLast_prefix done)) h
      refine ⟨hrest.keeps, ?_, hrest.isDirectory_last⟩
      refine follow?_cons_eq_some_iff.2 ⟨hrest.keeps done hdone, ?_, ?_⟩
      · rw [hback]
        decide
      · rw [if_pos hback]
        exact hrest.follow?_eq
    · rename_i hback
      split at h
      · cases h
      · rename_i hname
        have hname : Path.isName part = true := by simpa using hname
        dsimp only at h
        split at h
        · rename_i hhere
          have hdirectory : tree.isDirectory (done ++ [part]) = true := by
            rw [isDirectory, hhere]
          exact .cons hdone hname hback (fun _ h => h) (ih hdirectory h)
        · cases h
        · rename_i hhere
          have hmissing : tree.isDirectory (done ++ [part]) = false := by
            rw [isDirectory, hhere]
          have hdirectory : (tree.put empty (done ++ [part])).isDirectory (done ++ [part]) =
              true := by
            rw [isDirectory, get?_put hdone]
            rfl
          exact .cons hdone hname hback (.put hmissing empty) (ih hdirectory h)

/-- A file that is written stands in the last of the directories that its path names, which are
kept or made, and its name is the last part of the path. -/
theorem exists_of_replace {made : FileTree} {path : String} {content : List UInt8}
    (hroot : tree.isDirectory [] = true) (h : tree.replace path content = (made, true)) :
    (Path.ofText path).isAbsolute = false ∧ (Path.ofText path).needsDirectory = false ∧
      ∃ between done name, tree.MakesDirectories between [] (Path.ofText path).parts.dropLast done ∧
        (Path.ofText path).parts.getLast? = some name ∧ ¬ name = ".." ∧ Path.isName name = true ∧
        between.isDirectory (done ++ [name]) = false ∧
        made = between.put (.file content) (done ++ [name]) := by
  rw [replace] at h
  split at h
  · cases h
  · rename_i habsolute
    split at h
    · rename_i between done name hmade hname
      split at h
      · cases h
      · rename_i hplain
        simp only [Bool.or_eq_true, not_or, Bool.not_eq_true, Bool.not_eq_false',
          decide_eq_true_eq] at hplain
        obtain ⟨⟨hback, hfile⟩, hisName⟩ := hplain
        rw [writeAt] at h
        split at h
        · cases h
        · rename_i hnew
          obtain ⟨rfl, -⟩ := Prod.mk.inj h
          exact ⟨by simpa using habsolute, hfile, between, done, name,
            .of_makeDirectories hroot hmade, hname, hback, hisName, by simpa using hnew, rfl⟩
    · cases h

/-- A path leads to the file that was written to it. -/
theorem look_replace {made : FileTree} {path : String} {content : List UInt8}
    (hroot : tree.isDirectory [] = true) (h : tree.replace path content = (made, true)) :
    made.look path = .file content := by
  obtain ⟨habsolute, hfile, between, done, name, hmakes, hname, hback, hisName, hnew, rfl⟩ :=
    exists_of_replace hroot h
  have hkeeps : between.Keeps (between.put (.file content) (done ++ [name])) := .put hnew _
  have hparts : (Path.ofText path).parts = (Path.ofText path).parts.dropLast ++ [name] :=
    (List.dropLast_append_getLast? name hname).symm
  have hlast : (between.put (.file content) (done ++ [name])).follow? done [name] =
      some (done ++ [name]) :=
    follow?_cons_eq_some_iff.2 ⟨hkeeps done hmakes.isDirectory_last, hisName,
      by rw [if_neg hback]; rfl⟩
  have hfollow := follow?_append (hkeeps.follow? hmakes.follow?_eq) hlast
  rw [← hparts] at hfollow
  have hnonempty : path.isEmpty = false := by
    by_contra hempty
    rw [Bool.not_eq_false, String.isEmpty_iff] at hempty
    rw [hempty] at hname
    cases hname
  rw [look]
  simp only [habsolute, hnonempty, hfollow, Option.bind_some,
    get?_put hmakes.isDirectory_last, hfile, Bool.or_self, Bool.false_eq_true, if_false]

end CallGraph.FileTree
