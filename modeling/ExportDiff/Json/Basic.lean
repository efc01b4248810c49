/- JSON values: objects keep the order of their keys, and strings may hold lone surrogates. -/
import ExportDiff.Number.Binary64

namespace ExportDiff

/-- A Unicode code point; unlike a character it may be a surrogate. -/
abbrev CodePoint := Fin 0x110000

inductive Json where
  | null
  | bool (b : Bool)
  | int (n : Int)
  | real (x : Number.Binary64)
  | str (s : List CodePoint)
  | arr (items : List Json)
  | obj (fields : List (List CodePoint × Json))

namespace Json

def codePoint (c : Char) : CodePoint :=
  ⟨c.toNat, by
    have h := c.valid
    simp only [UInt32.isValidChar, Nat.isValidChar] at h
    show c.val.toNat < 0x110000
    omega⟩

def codePoints (s : String) : List CodePoint := s.toList.map codePoint

/-- A lone surrogate has no character; the replacement character stands for it wherever code points
become characters, where a run keeps the surrogate. -/
def char (c : CodePoint) : Char :=
  if 0xD800 ≤ c.val && c.val ≤ 0xDFFF then '\uFFFD' else Char.ofNat c.val

def text (s : List CodePoint) : String := String.ofList (s.map char)

def ofString (s : String) : Json := .str (codePoints s)

def ofOption {α} (f : α → Json) : Option α → Json
  | some a => f a
  | none => .null

def ofNat (n : Nat) : Json := .int n

def ofStrings (ss : List String) : Json := .arr (ss.map ofString)

/-- An object with the fields in this order. -/
def object (fields : List (String × Json)) : Json :=
  .obj (fields.map fun (k, v) => (codePoints k, v))

/-- The value of a key in a list of fields. -/
def lookup (key : List CodePoint) : List (List CodePoint × Json) → Option Json
  | [] => none
  | (k, v) :: fields => if k = key then some v else lookup key fields

/-- A new value for a key: it takes the place of the old one, or comes last. -/
def setField (key : List CodePoint) (v : Json) :
    List (List CodePoint × Json) → List (List CodePoint × Json)
  | [] => [(key, v)]
  | (k, w) :: fields => if k = key then (k, v) :: fields else (k, w) :: setField key v fields

def field? (key : String) : Json → Option Json
  | .obj fields => lookup (codePoints key) fields
  | _ => none

/-- The order of strings by code points; a string comes before its extensions. -/
def precedes : List CodePoint → List CodePoint → Bool
  | [], _ => true
  | _ :: _, [] => false
  | c :: s, d :: t => if c = d then precedes s t else c < d

def insertSorted (f : List CodePoint × Json) :
    List (List CodePoint × Json) → List (List CodePoint × Json)
  | [] => [f]
  | g :: fields => if precedes f.1 g.1 then f :: g :: fields else g :: insertSorted f fields

mutual

/-- The same value with the keys of every object in order. -/
def sorted : Json → Json
  | .arr items => .arr (sortedItems items)
  | .obj fields => .obj (sortedFields fields)
  | v => v

def sortedItems : List Json → List Json
  | [] => []
  | v :: items => v.sorted :: sortedItems items

def sortedFields : List (List CodePoint × Json) → List (List CodePoint × Json)
  | [] => []
  | (k, v) :: fields => insertSorted (k, v.sorted) (sortedFields fields)

end

end Json

end ExportDiff
