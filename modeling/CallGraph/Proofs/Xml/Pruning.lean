import CallGraph.Proofs.Data.Runs
import CallGraph.Proofs.Xml.Forest

/-!
# Leaving elements out

Elements of a forest are left out by their tags and by where they stand.  Whether a reader takes
notice of what is left out is asked of one element at a time, in view of what came before it.  If
each of them is passed over, so to speak, and if the reader goes on alike with all that stays, then
what is read of two forests that are the same but for what is left out is alike.

Main results:

- Definitions `Pruning.prune`, `Pruning.remember`, `Pruning.fits`: what stays of a forest, what is
  kept in mind of it, and whether all of it may stand where it does.
- Theorem `Pruning.Preserves.alike`: a forest is read like what stays of it.
- Theorem `Pruning.Preserves.alike_of_bares`: two forests of which the same stays are read alike.
-/

namespace CallGraph.Xml

/-- Whether this is none of these names, its prefix aside. -/
def isNoneOf (names : List String) (name : List UInt8) : Bool :=
  names.all fun other => localName name != ascii other

/-- The events inside an element. -/
def Tree.innerEvents (tree : Tree) : List Event :=
  match tree.inside with
  | some inside => inside.events
  | none => []

/-- The events of an element, its tags among them. -/
def Tree.events (tree : Tree) : List Event :=
  match tree.inside with
  | some inside => .start tree.tag :: (inside.events ++ [.finish tree.tag.name])
  | none => [.empty tree.tag]

/-- A way to leave out elements of a forest, and other events between tags.  A place is given by the
tags around it.  What is kept in mind, in the order of the forest, is said of tags that stay and of
elements that are left out; it counts for what may stand at a place. -/
structure Pruning (σ μ : Type) where
  /-- The place inside an element. -/
  enter : σ → Tag → σ
  /-- Whether the element with this tag is left out. -/
  drops : σ → Tag → Bool
  /-- Whether an event between tags is left out. -/
  dropsPlain : σ → Event → Bool
  /-- What is kept in mind after a tag that stays. -/
  learn : μ → Tag → μ
  /-- What is kept in mind after an element that is left out. -/
  note : μ → Tree → μ
  /-- Whether a tag that stays may stand here. -/
  admits : σ → μ → Tag → Bool
  /-- Whether an element that is left out may stand here. -/
  spares : σ → μ → Tree → Bool
  /-- Whether an event that is left out may stand here. -/
  sparesPlain : σ → Event → Bool

namespace Pruning

variable {σ μ : Type} (p : Pruning σ μ)

/-- What stays of a forest. -/
def prune (place : σ) : Forest → Forest
  | .nil => .nil
  | .element tag inside after =>
      if p.drops place tag then prune place after
      else .element tag (prune (p.enter place tag) inside) (prune place after)
  | .empty tag after =>
      if p.drops place tag then prune place after else .empty tag (prune place after)
  | .plain event isPlain after =>
      if p.dropsPlain place event then prune place after
      else .plain event isPlain (prune place after)

/-- What is kept in mind after a forest. -/
def remember (place : σ) (memory : μ) : Forest → μ
  | .nil => memory
  | .element tag inside after =>
      if p.drops place tag then remember place (p.note memory ⟨tag, some inside⟩) after
      else remember place (remember (p.enter place tag) (p.learn memory tag) inside) after
  | .empty tag after =>
      if p.drops place tag then remember place (p.note memory ⟨tag, none⟩) after
      else remember place (p.learn memory tag) after
  | .plain _ _ after => remember place memory after

/-- Whether everything in a forest may stand where it does. -/
def fits (place : σ) (memory : μ) : Forest → Bool
  | .nil => true
  | .element tag inside after =>
      if p.drops place tag then
        p.spares place memory ⟨tag, some inside⟩ &&
          fits place (p.note memory ⟨tag, some inside⟩) after
      else
        p.admits place memory tag && fits (p.enter place tag) (p.learn memory tag) inside &&
          fits place (p.remember (p.enter place tag) (p.learn memory tag) inside) after
  | .empty tag after =>
      if p.drops place tag then
        p.spares place memory ⟨tag, none⟩ && fits place (p.note memory ⟨tag, none⟩) after
      else p.admits place memory tag && fits place (p.learn memory tag) after
  | .plain event _ after =>
      (!p.dropsPlain place event || p.sparesPlain place event) && fits place memory after

/-- Whether there is no element to leave out. -/
def isBare (place : σ) : Forest → Bool
  | .nil => true
  | .element tag inside after =>
      !p.drops place tag && isBare (p.enter place tag) inside && isBare place after
  | .empty tag after => !p.drops place tag && isBare place after
  | .plain _ _ after => isBare place after

/-- The other forest is this one with all elements left out, and both are as they may be.  They need
not agree in what is left out between tags. -/
structure Bares (place : σ) (memory : μ) (forest other : Forest) : Prop where
  fits : p.fits place memory forest = true
  other_fits : p.fits place memory other = true
  other_isBare : p.isBare place other = true
  prune_eq : p.prune place other = p.prune place forest

variable {p}

/-- In a forest without elements to leave out, only tags that stay add to what is kept in mind. -/
theorem remember_of_isBare {P : μ → Prop} (hlearn : ∀ memory tag, P memory → P (p.learn memory tag))
    {forest : Forest} {place : σ} {memory : μ} (hbare : p.isBare place forest = true)
    (h : P memory) : P (p.remember place memory forest) := by
  induction forest generalizing place memory with
  | nil => exact h
  | element tag inside after ihInside ihAfter =>
    simp only [isBare, Bool.and_eq_true, Bool.not_eq_true'] at hbare
    obtain ⟨⟨hdrops, hinside⟩, hafter⟩ := hbare
    rw [remember, if_neg (Bool.eq_false_iff.1 hdrops)]
    exact ihAfter hafter (ihInside hinside (hlearn _ _ h))
  | empty tag after ih =>
    simp only [isBare, Bool.and_eq_true, Bool.not_eq_true'] at hbare
    obtain ⟨hdrops, hafter⟩ := hbare
    rw [remember, if_neg (Bool.eq_false_iff.1 hdrops)]
    exact ih hafter (hlearn _ _ h)
  | plain event isPlain after ih => exact ih hbare h

/-! ## Readers -/

variable {ε ρ : Type} {step : ρ → Event → Except ε ρ} {R : σ → μ → ρ → ρ → Prop}

/-- A relation between two readings that stays the same at all events: at those that stay, which
both readings take, and at those that are left out, which the first one takes alone. -/
structure Preserves (p : Pruning σ μ) (step : ρ → Event → Except ε ρ)
    (R : σ → μ → ρ → ρ → Prop) : Prop where
  start {place memory r s tag} (h : R place memory r s) (hdrops : p.drops place tag = false)
    (hadmits : p.admits place memory tag = true) :
    Alike (R (p.enter place tag) (p.learn memory tag)) (step r (.start tag)) (step s (.start tag))
  empty {place memory r s tag} (h : R place memory r s) (hdrops : p.drops place tag = false)
    (hadmits : p.admits place memory tag = true) :
    Alike (R place (p.learn memory tag)) (step r (.empty tag)) (step s (.empty tag))
  finish {place memory r s tag} (h : R (p.enter place tag) memory r s)
    (hdrops : p.drops place tag = false) :
    Alike (R place memory) (step r (.finish tag.name)) (step s (.finish tag.name))
  plain {place memory r s event} (h : R place memory r s) (hplain : event.isPlain = true)
    (hdrops : p.dropsPlain place event = false) :
    Alike (R place memory) (step r event) (step s event)
  element {place memory r s} (tree : Tree) (h : R place memory r s)
    (hdrops : p.drops place tree.tag = true) (hspares : p.spares place memory tree = true) :
    ∃ after, tree.events.foldlM step r = .ok after ∧ R place (p.note memory tree) after s
  between {place memory r s event} (h : R place memory r s) (hplain : event.isPlain = true)
    (hdrops : p.dropsPlain place event = true) (hspares : p.sparesPlain place event = true) :
    ∃ after, step r event = .ok after ∧ R place memory after s

namespace Preserves

variable {place : σ} {memory : μ} {r s : ρ}

/-- A forest is read like what stays of it. -/
theorem alike (hp : p.Preserves step R) {forest : Forest} (h : R place memory r s)
    (hfits : p.fits place memory forest = true) :
    Alike (R place (p.remember place memory forest)) (forest.events.foldlM step r)
      ((p.prune place forest).events.foldlM step s) := by
  -- While the first reading takes what is left out, the second one stays where it is.
  induction forest generalizing place memory r s with
  | nil => exact .ok h
  | element tag inside after ihInside ihAfter =>
    cases hdrops : p.drops place tag with
    | true =>
      simp only [fits, hdrops, if_true, Bool.and_eq_true] at hfits
      obtain ⟨mid, hmid, hrelated⟩ := hp.element ⟨tag, some inside⟩ h hdrops hfits.1
      have hevents : (Forest.element tag inside after).events =
          Tree.events ⟨tag, some inside⟩ ++ after.events := by
        simp [Forest.events, Tree.events]
      rw [hevents, foldlM_append_ok hmid, remember, prune, if_pos hdrops, if_pos hdrops]
      exact ihAfter hrelated hfits.2
    | false =>
      simp only [fits, hdrops, Bool.false_eq_true, if_false, Bool.and_eq_true] at hfits
      obtain ⟨⟨hadmits, hinside⟩, hafter⟩ := hfits
      simp only [remember, prune, hdrops, Bool.false_eq_true, if_false, Forest.events,
        List.foldlM_cons, List.foldlM_append]
      refine (hp.start h hdrops hadmits).bind fun _ _ hstart => ?_
      refine (ihInside hstart hinside).bind fun _ _ hend => ?_
      exact (hp.finish hend hdrops).bind fun _ _ hfinish => ihAfter hfinish hafter
  | empty tag after ih =>
    cases hdrops : p.drops place tag with
    | true =>
      simp only [fits, hdrops, if_true, Bool.and_eq_true] at hfits
      obtain ⟨mid, hmid, hrelated⟩ := hp.element ⟨tag, none⟩ h hdrops hfits.1
      have hevents : (Forest.empty tag after).events = Tree.events ⟨tag, none⟩ ++ after.events :=
        rfl
      rw [hevents, foldlM_append_ok hmid, remember, prune, if_pos hdrops, if_pos hdrops]
      exact ih hrelated hfits.2
    | false =>
      simp only [fits, hdrops, Bool.false_eq_true, if_false, Bool.and_eq_true] at hfits
      simp only [remember, prune, hdrops, Bool.false_eq_true, if_false, Forest.events,
        List.foldlM_cons]
      exact (hp.empty h hdrops hfits.1).bind fun _ _ hempty => ih hempty hfits.2
  | plain event isPlain after ih =>
    simp only [fits, Bool.and_eq_true] at hfits
    cases hdrops : p.dropsPlain place event with
    | true =>
      obtain ⟨mid, hmid, hrelated⟩ := hp.between h isPlain hdrops (by simpa [hdrops] using hfits.1)
      simp only [remember, prune, hdrops, if_true, Forest.events, foldlM_cons_ok hmid]
      exact ih hrelated hfits.2
    | false =>
      simp only [remember, prune, hdrops, Bool.false_eq_true, if_false, Forest.events,
        List.foldlM_cons]
      exact (hp.plain h isPlain hdrops).bind fun _ _ hplain => ih hplain hfits.2

/-- Two forests of which the same stays are read alike: what is read of each of them is related to
what is read of the elements that stay. -/
theorem alike_of_bares (hp : p.Preserves step R) {forest other : Forest} (h : R place memory r s)
    (hbares : p.Bares place memory forest other) :
    Alike
      (fun a b => ∃ c, R place (p.remember place memory forest) a c ∧
        R place (p.remember place memory other) b c)
      (forest.events.foldlM step r) (other.events.foldlM step r) := by
  have hother := hp.alike h hbares.other_fits
  rw [hbares.prune_eq] at hother
  exact (hp.alike h hbares.fits).join hother

end Preserves

end Pruning

end CallGraph.Xml
