/- Searching a JSON value for a key, objects before what they hold. -/
import ExportDiff.Json.Basic

namespace ExportDiff.Json

mutual

/-- How many values a value holds, itself among them. -/
def size : Json → Nat
  | .arr items => sizeItems items + 1
  | .obj fields => sizeFields fields + 1
  | _ => 1

def sizeItems : List Json → Nat
  | [] => 0
  | v :: items => v.size + sizeItems items

def sizeFields : List (List CodePoint × Json) → Nat
  | [] => 0
  | (_, v) :: fields => v.size + sizeFields fields

end

theorem size_pos (v : Json) : 0 < v.size := by cases v <;> simp [size]

theorem sizeItems_append (xs ys : List Json) : sizeItems (xs ++ ys) = sizeItems xs + sizeItems ys := by
  induction xs with
  | nil => simp [sizeItems]
  | cons v xs ih => simp [sizeItems, ih, Nat.add_assoc]

/-- The values of the fields, in order. -/
def values : List (List CodePoint × Json) → List Json
  | [] => []
  | (_, v) :: fields => v :: values fields

theorem sizeItems_values (fields : List (List CodePoint × Json)) :
    sizeItems (values fields) = sizeFields fields := by
  induction fields with
  | nil => rfl
  | cons f fields ih => simp [values, sizeItems, sizeFields, ih]

/-- A string that is not empty. -/
def filledText? : Option Json → Option (List CodePoint)
  | some (.str []) => none
  | some (.str s) => some s
  | _ => none

/-- Searches the values that are still to be visited: what an object holds comes next after it. -/
def findAmong (key : List CodePoint) (pending : List Json) : Option (List CodePoint) :=
  match pending with
  | [] => none
  | .obj fields :: rest =>
      match filledText? (lookup key fields) with
      | some s => some s
      | none => findAmong key (values fields ++ rest)
  | .arr items :: rest => findAmong key (items ++ rest)
  | _ :: rest => findAmong key rest
termination_by sizeItems pending
decreasing_by
  · simp [sizeItems, sizeItems_append, sizeItems_values, size]
  · simp [sizeItems, sizeItems_append, size]
  · have := size_pos ‹Json›
    simp only [sizeItems]
    omega

/-- The first string for a key that is not empty. -/
def find? (key : String) (v : Json) : Option (List CodePoint) := findAmong (codePoints key) [v]

end ExportDiff.Json
