/- JSON text: on one line or indented, with other characters than ASCII escaped or as they are. -/
import ExportDiff.Json.Basic
import ExportDiff.Number.Layout
import ExportDiff.Text.Quoted

namespace ExportDiff.Json
open Number

/-- Decimals from 0.0001 on and below 10 to the 16 are positional. -/
def numberLayout : Layout := ⟨-4, 16, 2, "Infinity", "NaN"⟩

/-- Indentation is by two spaces; `ascii` escapes every other character than ASCII. -/
structure Style where
  indented : Bool
  ascii : Bool

/-- One UTF-16 unit as an escape. -/
def unitEscape (n : Nat) : List Char := '\\' :: 'u' :: Text.hexDigits 4 n

/-- Code points above the basic plane take two escapes. -/
def escape (n : Nat) : List Char :=
  if n < 0x10000 then unitEscape n
  else unitEscape (0xD800 + (n - 0x10000) / 0x400) ++ unitEscape (0xDC00 + (n - 0x10000) % 0x400)

def quotedPoint (ascii : Bool) (c : CodePoint) : List Char :=
  if c.val = 0x22 then ['\\', '"']
  else if c.val = 0x5C then ['\\', '\\']
  else if c.val = 0x0A then ['\\', 'n']
  else if c.val = 0x0D then ['\\', 'r']
  else if c.val = 0x09 then ['\\', 't']
  else if c.val = 0x0C then ['\\', 'f']
  else if c.val = 0x08 then ['\\', 'b']
  else if c.val < 0x20 || (ascii && 0x7E < c.val) then escape c.val
  else [char c]

def quote (ascii : Bool) (s : List CodePoint) : List Char :=
  '"' :: s.flatMap (quotedPoint ascii) ++ ['"']

/-- What goes before an item at a depth. -/
def Style.lineBreak (st : Style) (depth : Nat) : List Char :=
  if st.indented then '\n' :: List.replicate (2 * depth) ' ' else []

def Style.comma (st : Style) : List Char := if st.indented then [','] else [',', ' ']

mutual

def write (st : Style) (depth : Nat) : Json → List Char
  | .null => "null".toList
  | .bool true => "true".toList
  | .bool false => "false".toList
  | .int n => (toString n).toList
  | .real x => (numberLayout.write x).toList
  | .str s => quote st.ascii s
  | .arr [] => ['[', ']']
  | .arr (v :: items) =>
      '[' :: st.lineBreak (depth + 1) ++ v.write st (depth + 1) ++ writeItems st (depth + 1) items ++
        st.lineBreak depth ++ [']']
  | .obj [] => ['\x7b', '\x7d']
  | .obj ((k, v) :: fields) =>
      '\x7b' :: st.lineBreak (depth + 1) ++ quote st.ascii k ++ ':' :: ' ' ::
        v.write st (depth + 1) ++ writeFields st (depth + 1) fields ++ st.lineBreak depth ++ ['\x7d']

/-- The items after the first, each behind a comma. -/
def writeItems (st : Style) (depth : Nat) : List Json → List Char
  | [] => []
  | v :: items => st.comma ++ st.lineBreak depth ++ v.write st depth ++ writeItems st depth items

def writeFields (st : Style) (depth : Nat) : List (List CodePoint × Json) → List Char
  | [] => []
  | (k, v) :: fields =>
      st.comma ++ st.lineBreak depth ++ quote st.ascii k ++ ':' :: ' ' :: v.write st depth ++
        writeFields st depth fields

end

def print (st : Style) (v : Json) : String := String.ofList (v.write st 0)

/-- Two values have one canonical text when they differ in the order of keys at most. -/
def canonical (v : Json) : String := v.sorted.print ⟨false, true⟩

end ExportDiff.Json
