import CallGraph.Files.Contents
import CallGraph.Proofs.Document.File
import CallGraph.Proofs.Files.Tree

/-!
# Graphs in trees of files

A tree of files and a clock are all that saving and loading a graph depend on.  A graph that was
saved under a path is loaded from there as the graph of its document.

Main results:

- Theorem `InFiles.runAt_bind`: actions on a tree of files, one after the other.
- Theorem `Graph.runAt_load`: what is loaded from a file.
- Theorem `Graph.runAt_load_of_save`: what is loaded from the file that a graph was saved to.
-/

namespace CallGraph

/-! ## Trees of files with a clock -/

/-- A tree of files, at a time that stays the same. -/
instance : FileSystem (ReaderT Instant (StateM FileTree)) where
  look path _ tree := (tree.look path, tree)
  write path content _ tree := ((tree.write path content).2, (tree.write path content).1)
  replace path content _ tree := ((tree.replace path content).2, (tree.replace path content).1)
  now clock := pure clock

/-- An action on a tree of files that may fail. -/
abbrev InFiles (ε : Type) : Type → Type :=
  ExceptT ε (ReaderT Instant (StateM FileTree))

namespace InFiles

variable {ε α β : Type} {clock : Instant} {tree : FileTree}

/-- The outcome of an action at a given time, and the tree of files after it. -/
def runAt (clock : Instant) (tree : FileTree) (action : InFiles ε α) : Except ε α × FileTree :=
  (action.run.run clock).run tree

/-- The second action runs on the files that the first one leaves, unless that fails. -/
theorem runAt_bind (action : InFiles ε α) (next : α → InFiles ε β) :
    runAt clock tree (action >>= next) =
      match runAt clock tree action with
      | (.ok a, after) => runAt clock after (next a)
      | (.error error, after) => (.error error, after) := by
  rw [runAt, runAt, ExceptT.run_bind, ReaderT.run_bind, StateT.run_bind]
  generalize (action.run.run clock).run tree = outcome
  obtain ⟨_ | a, after⟩ := outcome <;> rfl

theorem runAt_bind_ok {action : InFiles ε α} {a : α} {after : FileTree}
    (h : runAt clock tree action = (.ok a, after)) (next : α → InFiles ε β) :
    runAt clock tree (action >>= next) = runAt clock after (next a) := by
  rw [runAt_bind, h]

theorem runAt_look (path : String) :
    runAt clock tree (liftM (FileSystem.look path : ReaderT Instant (StateM FileTree) Entry) :
      InFiles ε Entry) = (.ok (tree.look path), tree) :=
  rfl

theorem runAt_replace (path : String) (content : List UInt8) :
    runAt clock tree (liftM (FileSystem.replace path content :
      ReaderT Instant (StateM FileTree) Bool) : InFiles ε Bool) =
      (.ok (tree.replace path content).2, (tree.replace path content).1) :=
  rfl

theorem runAt_now :
    runAt clock tree (liftM (FileSystem.now : ReaderT Instant (StateM FileTree) Instant) :
      InFiles ε Instant) = (.ok clock, tree) :=
  rfl

end InFiles

open InFiles

variable {clock : Instant} {tree after : FileTree} {path : String} {format : Format}

/-! ## Loading and saving -/

/-- Loading reads the file, and changes none. -/
theorem Document.runAt_load {bytes : List UInt8} (h : tree.look path = .file bytes) :
    runAt clock tree (load path format) =
      ((read format bytes).mapError (·.inFile format path), tree) := by
  rw [load, runAt_bind_ok (runAt_look path), h]
  cases hread : read format bytes with
  | ok doc =>
    simp only [hread]
    rfl
  | error fault =>
    simp only [hread]
    rfl

/-- The graph of a file is loaded, or the fault of the file is told; the files stay as they are. -/
theorem Graph.runAt_load {bytes : List UInt8} (h : tree.look path = .file bytes) :
    runAt clock tree (load path format) =
      ((ofFile format bytes).mapError (·.inFile format path), tree) := by
  rw [load, runAt_bind, Document.runAt_load h, ofFile]
  cases Document.read format bytes with
  | error fault => rfl
  | ok doc =>
    rw [ok_bind]
    cases hgraph : doc.toGraph with
    | ok g =>
      simp only [Except.mapError, hgraph]
      rfl
    | error fault =>
      simp only [Except.mapError, hgraph]
      rfl

/-- A graph is saved if its document at that time can be written. -/
theorem Graph.save_iff_replace {g : Graph} {detail : Detail} :
    (∃ saved, runAt clock tree (g.save path format detail) = (.ok saved, after)) ↔
      tree.replace path ((Document.ofGraph g detail clock).write format) = (after, true) := by
  rw [save, runAt_bind_ok runAt_now, runAt_bind_ok (runAt_replace _ _)]
  generalize tree.replace path ((Document.ofGraph g detail clock).write format) = outcome
  obtain ⟨made, succeeded⟩ := outcome
  cases succeeded with
  | true =>
    constructor
    · rintro ⟨saved, h⟩
      obtain ⟨-, rfl⟩ := Prod.mk.inj h
      rfl
    · intro h
      obtain ⟨rfl, -⟩ := Prod.mk.inj h
      exact ⟨_, rfl⟩
  | false =>
    constructor
    · rintro ⟨saved, h⟩
      cases (Prod.mk.inj h).1
    · intro h
      cases (Prod.mk.inj h).2

/-- A graph that was saved is loaded as the graph of its document. -/
theorem Graph.runAt_load_of_save {g : Graph} {detail : Detail} {saved : SaveStats}
    (hroot : tree.isDirectory [] = true)
    (h : runAt clock tree (g.save path format detail) = (.ok saved, after)) :
    runAt clock after (load path format) =
      ((ofFile format ((Document.ofGraph g detail clock).write format)).mapError
        (·.inFile format path), after) :=
  Graph.runAt_load (FileTree.look_replace hroot (Graph.save_iff_replace.1 ⟨saved, h⟩))

end CallGraph
