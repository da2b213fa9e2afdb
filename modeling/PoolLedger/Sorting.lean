/-!
# Sorting

`sortBy` sorts by insertion: elements that may stand before each other keep their order. It recurses
on the list, so that it can be evaluated inside proofs.
-/

namespace PoolLedger

/-- Inserts an element before the first one that it may stand before. -/
def insertBy (le : α → α → Bool) (a : α) : List α → List α
  | [] => [a]
  | b :: rest => if le a b then a :: b :: rest else b :: insertBy le a rest

def sortBy (le : α → α → Bool) (l : List α) : List α :=
  l.foldr (insertBy le) []

theorem insertBy_perm (le : α → α → Bool) (a : α) (l : List α) :
    (insertBy le a l).Perm (a :: l) := by
  induction l with
  | nil => exact .refl _
  | cons b rest ih =>
    by_cases h : le a b
    · rw [insertBy, if_pos h]
    · rw [insertBy, if_neg h]
      exact (ih.cons b).trans (.swap a b rest)

theorem sortBy_perm (le : α → α → Bool) (l : List α) : (sortBy le l).Perm l := by
  induction l with
  | nil => exact .refl _
  | cons a rest ih => exact (insertBy_perm le a _).trans (ih.cons a)

end PoolLedger
