/- Counting items by severity and category, and the order in which they are reported. -/
import ExportDiff.Change.Item

namespace ExportDiff.Change

/-- How many items there are of each severity and of each category. -/
structure Summary where
  high : Nat
  medium : Nat
  low : Nat
  info : Nat
  categories : List (Category × Nat)

def Summary.empty : Summary := ⟨0, 0, 0, 0, Category.all.map (·, 0)⟩

def Summary.meaningful (s : Summary) : Nat := s.high + s.medium

def Summary.total (s : Summary) : Nat := s.high + s.medium + s.low + s.info

def countIn (c : Category) (counts : List (Category × Nat)) : List (Category × Nat) :=
  counts.map fun (d, n) => if d = c then (d, n + 1) else (d, n)

/-- One more item. -/
def Summary.record (s : Summary) (i : Item) : Summary :=
  let s := { s with categories := countIn i.category s.categories }
  match i.rating.severity with
  | .high => { s with high := s.high + 1 }
  | .medium => { s with medium := s.medium + 1 }
  | .low => { s with low := s.low + 1 }
  | .info => { s with info := s.info + 1 }

def summarize (items : List Item) : Summary := items.foldl Summary.record .empty

/-- Before every item that ranks behind it, and behind the others. -/
def insertByRank (i : Item) : List Item → List Item
  | [] => [i]
  | j :: js =>
      if i.rating.severity.rank ≤ j.rating.severity.rank then i :: j :: js
      else j :: insertByRank i js

/-- Sorted by rank; items of one rank keep their order. -/
def sortByRank : List Item → List Item
  | [] => []
  | i :: is => insertByRank i (sortByRank is)

/-- The meaningful items first, then the others, each part by rank. -/
def reportOrder (items : List Item) : List Item :=
  sortByRank (items.filter (·.rating.severity.isMeaningful)) ++
    sortByRank (items.filter fun i => !i.rating.severity.isMeaningful)

end ExportDiff.Change
