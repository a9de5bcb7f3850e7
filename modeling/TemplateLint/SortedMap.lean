/-!
# Sorted maps and sets

Maps are kept as lists of key and value in ascending order of the key, sets as ascending lists.
-/

namespace TemplateLint

/-- A map from keys to values, as a list that ascends in the key. -/
abbrev SortedMap (κ β : Type) := List (κ × β)

namespace SortedMap

variable {κ β : Type} [LT κ] [DecidableLT κ] [DecidableEq κ]

def alter (k : κ) (f : Option β → β) : SortedMap κ β → SortedMap κ β
  | [] => [(k, f none)]
  | (k', b) :: rest =>
      if k < k' then (k, f none) :: (k', b) :: rest
      else if k = k' then (k', f (some b)) :: rest
      else (k', b) :: alter k f rest

omit [LT κ] [DecidableLT κ] in
def get? (m : SortedMap κ β) (k : κ) : Option β := m.lookup k

end SortedMap

def insertSorted {α : Type} [LT α] [DecidableLT α] [DecidableEq α] (a : α) : List α → List α
  | [] => [a]
  | b :: rest =>
      if a < b then a :: b :: rest
      else if a = b then b :: rest
      else b :: insertSorted a rest

def sortedSet {α : Type} [LT α] [DecidableLT α] [DecidableEq α] (l : List α) : List α :=
  l.foldl (fun set a => insertSorted a set) []

end TemplateLint
