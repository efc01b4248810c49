/- What the web interface answers, and line diffs over it. -/
import ExportDiff.Json.Parser
import ExportDiff.Json.Shown
import ExportDiff.Pretty.Content
import ExportDiff.Report.Shape
import ExportDiff.Text.Utf8

namespace ExportDiff.Web
open Text

structure Response where
  status : Nat
  body : Json

def Response.ok (fields : List (String × Json)) : Response := ⟨200, .object fields⟩

/-- A request that cannot be answered is told why. -/
def Response.refused (message : String) : Response :=
  ⟨400, .object [("error", Json.ofString message)]⟩

/-- The type before its parameters, in lower case. -/
def mediaType (contentType : String) : String :=
  lowercase (String.ofList (trim (contentType.toList.takeWhile (· ≠ ';'))))

def isJsonType (contentType : String) : Bool :=
  let t := mediaType contentType
  t = "application/json" || (startsIn t ["application/"] && endsIn t ["+json"])

/-- The text of a body in UTF-8; a byte order mark may come before it. -/
def bodyText? (body : List UInt8) : Option String :=
  match body with
  | 0xEF :: 0xBB :: 0xBF :: rest => decodeUtf8? rest
  | _ => decodeUtf8? body

/-- The value of a body that is JSON and says so. Only one that nests too deeply is an error. -/
def bodyValue? (contentType : String) (body : List UInt8) : Except Json.Error (Option Json) :=
  if !isJsonType contentType then .ok none
  else match bodyText? body with
    | none => .ok none
    | some s => match Json.parse s with
      | .ok v => .ok (some v)
      | .error .malformed => .ok none
      | .error .tooDeep => .error .tooDeep

inductive Mode where
  | sideBySide
  | unified
  deriving DecidableEq

def Mode.name : Mode → String
  | sideBySide => "side_by_side"
  | unified => "unified"

/-- Side by side, unless the request says otherwise. -/
def mode (request : Json) : Except String Mode :=
  match request.field? "mode" with
  | none => .ok .sideBySide
  | some v => match [Mode.sideBySide, .unified].find? fun m => v.shown = m.name with
    | some m => .ok m
    | none => .error ("Unknown mode '" ++ v.shown ++ "'")

/-- A text, or nothing where the field is absent or null. -/
def textField (request : Json) (key : String) : Except String (Option String) :=
  match request.field? key with
  | none | some .null => .ok none
  | some (.str s) => .ok (some (Json.text s))
  | some _ => .error ("'" ++ key ++ "' must be a string")

def lineDiffFields (request : Json) : Except String (List (String × Json)) := do
  let m ← mode request
  let left ← textField request "left"
  let right ← textField request "right"
  let path := (← textField request "path").getD ""
  let l := left.map (Pretty.content path)
  let r := right.map (Pretty.content path)
  let head := ("mode", Json.ofString m.name)
  match m with
  | .unified => return [head, ("lines", .arr ((LineDiff.unified l r).map Report.streamLine))]
  | .sideBySide =>
      let panes := LineDiff.panes l r
      return [head, ("left", .arr (panes.left.map Report.paneRow)),
        ("right", .arr (panes.right.map Report.paneRow))]

/-- The answer to a body that holds two contents, a path that tells their format, and a mode. -/
def lineDiff (contentType : String) (body : List UInt8) : Except Json.Error Response := do
  match ← bodyValue? contentType body with
  | some (.obj fields) => match lineDiffFields (.obj fields) with
    | .ok answer => return .ok answer
    | .error message => return .refused message
  | _ => return .refused "Expected a JSON object body"

end ExportDiff.Web
