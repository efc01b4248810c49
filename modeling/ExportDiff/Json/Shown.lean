/- JSON values inside messages: texts between quotes, and words for the constants. -/
import ExportDiff.Json.Basic
import ExportDiff.Number.Layout
import ExportDiff.Text.Quoted

namespace ExportDiff.Json
open Number

/-- Numbers in messages differ from those in documents by the words for the special values. -/
def shownLayout : Layout := ⟨-4, 16, 2, "inf", "nan"⟩

mutual

/-- A value as it stands inside another one. -/
def shownInside : Json → String
  | .null => "None"
  | .bool true => "True"
  | .bool false => "False"
  | .int n => toString n
  | .real x => shownLayout.write x
  | .str s => Text.quoted (text s)
  | .arr items => "[" ++ shownItems items ++ "]"
  | .obj fields => "\x7b" ++ shownFields fields ++ "\x7d"

def shownItems : List Json → String
  | [] => ""
  | [v] => v.shownInside
  | v :: items => v.shownInside ++ ", " ++ shownItems items

def shownFields : List (List CodePoint × Json) → String
  | [] => ""
  | [(k, v)] => Text.quoted (text k) ++ ": " ++ v.shownInside
  | (k, v) :: fields => Text.quoted (text k) ++ ": " ++ v.shownInside ++ ", " ++ shownFields fields

end

/-- A text by itself goes without quotes. -/
def shown : Json → String
  | .str s => text s
  | v => v.shownInside

end ExportDiff.Json
