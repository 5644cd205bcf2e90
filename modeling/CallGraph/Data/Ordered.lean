/-!
# Sorted lists

Texts are ordered by their code points, which is the order of their UTF-8 bytes; lists of texts
are ordered by their first difference.
-/

namespace CallGraph

/-- The texts in ascending order. -/
def sortTexts (texts : List String) : List String :=
  texts.mergeSort (fun a b => decide (a ≤ b))

/-- The texts in ascending order, each once. -/
def sortDistinct (texts : List String) : List String :=
  (sortTexts texts).eraseReps

/-- The lists of texts in ascending order. -/
def sortPaths (paths : List (List String)) : List (List String) :=
  paths.mergeSort (fun a b => !decide (b < a))

/-- The items in ascending order of their texts, items with one text in the order given. -/
def sortByText (text : α → String) (items : List α) : List α :=
  items.mergeSort (fun a b => decide (text a ≤ text b))

end CallGraph
