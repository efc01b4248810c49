/- Reading JSON: tokens by a machine over characters, values by a machine over tokens. -/
import ExportDiff.Json.Basic

namespace ExportDiff.Json
open Number

inductive Token where
  | openList
  | closeList
  | openObject
  | closeObject
  | colon
  | comma
  | scalar (v : Json)
  | str (s : List CodePoint)

/-- The places of the token machine; texts are held backwards. -/
inductive Place where
  | between
  | word (w : List Char)
  | quoted (s : List CodePoint)
  | escaped (s : List CodePoint)
  /-- `left` more digits of an escape, `n` being the value so far. -/
  | hex (s : List CodePoint) (left n : Nat)

def isSpace (c : Char) : Bool := c == ' ' || c == '\t' || c == '\n' || c == '\r'

def mark? : Char → Option Token
  | '[' => some .openList
  | ']' => some .closeList
  | '\x7b' => some .openObject
  | '\x7d' => some .closeObject
  | ':' => some .colon
  | ',' => some .comma
  | _ => none

def digits (s : List Char) : List Char := s.takeWhile Char.isDigit

def digitValue (ds : List Char) : Nat := ds.foldl (fun n d => 10 * n + (d.toNat - 0x30)) 0

/-- The digits of an exponent with their sign, filling the word. -/
def exponent? : List Char → Option Int
  | [] => some 0
  | e :: s =>
      if e ≠ 'e' && e ≠ 'E' then none
      else
        let (negative, ds) := match s with
          | '-' :: t => (true, t)
          | '+' :: t => (false, t)
          | t => (false, t)
        if ds = [] || !ds.all Char.isDigit then none
        else some (if negative then -(digitValue ds : Int) else digitValue ds)

/-- An integer of more digits than this is refused. -/
def maxIntDigits : Nat := 4300

/-- A number without its sign; one with a fraction or an exponent is a floating-point number. -/
def number? (negative : Bool) (w : List Char) : Option Json :=
  let whole := digits w
  let rest := w.drop whole.length
  if whole = [] || (whole.head? = some '0' && 1 < whole.length) then none
  else match rest with
    | [] =>
        if maxIntDigits < whole.length then none
        else some (.int (if negative then -(digitValue whole : Int) else digitValue whole))
    | '.' :: t =>
        let part := digits t
        if part = [] then none
        else (exponent? (t.drop part.length)).map fun e =>
          .real (.ofDecimal negative (digitValue (whole ++ part)) (e - part.length))
    | t => (exponent? t).map fun e => .real (.ofDecimal negative (digitValue whole) e)

/-- A value written as a bare word. -/
def scalar? (w : List Char) : Option Json :=
  if w = "null".toList then some .null
  else if w = "true".toList then some (.bool true)
  else if w = "false".toList then some (.bool false)
  else if w = "NaN".toList then some (.real .nan)
  else if w = "Infinity".toList then some (.real (.infinite false))
  else if w = "-Infinity".toList then some (.real (.infinite true))
  else match w with
    | '-' :: t => number? true t
    | t => number? false t

def simpleEscape? : Char → Option Nat
  | '"' => some 0x22
  | '\\' => some 0x5C
  | '/' => some 0x2F
  | 'b' => some 0x08
  | 'f' => some 0x0C
  | 'n' => some 0x0A
  | 'r' => some 0x0D
  | 't' => some 0x09
  | _ => none

def hexValue? (c : Char) : Option Nat :=
  if '0' ≤ c && c ≤ '9' then some (c.toNat - 0x30)
  else if 'a' ≤ c && c ≤ 'f' then some (c.toNat - 0x57)
  else if 'A' ≤ c && c ≤ 'F' then some (c.toNat - 0x37)
  else none

/-- One more code unit: a low surrogate joins the high one before it. -/
def pushUnit (n : Nat) : List CodePoint → List CodePoint
  | [] => [Fin.ofNat _ n]
  | h :: s =>
      if 0xD800 ≤ h.val && h.val ≤ 0xDBFF && 0xDC00 ≤ n && n ≤ 0xDFFF then
        Fin.ofNat _ (0x10000 + (h.val - 0xD800) * 0x400 + (n - 0xDC00)) :: s
      else Fin.ofNat _ n :: h :: s

/-- The token of a character that starts none of several characters, or the place that it opens. -/
def startToken (c : Char) (tokens : List Token) : Place × List Token :=
  if isSpace c then (.between, tokens)
  else match mark? c with
    | some t => (.between, t :: tokens)
    | none => if c = '"' then (.quoted [], tokens) else (.word [c], tokens)

def endsWord (c : Char) : Bool := isSpace c || (mark? c).isSome || c == '"'

/-- One character further; `none` where no JSON text goes on so. The tokens are held backwards. -/
def lexChar : Place → List Token → Char → Option (Place × List Token)
  | .between, ts, c => some (startToken c ts)
  | .word w, ts, c =>
      if endsWord c then (scalar? w.reverse).map fun v => startToken c (.scalar v :: ts)
      else some (.word (c :: w), ts)
  | .quoted s, ts, c =>
      if c = '"' then some (.between, .str s.reverse :: ts)
      else if c = '\\' then some (.escaped s, ts)
      else if c.toNat < 0x20 then none
      else some (.quoted (codePoint c :: s), ts)
  | .escaped s, ts, c =>
      if c = 'u' then some (.hex s 4 0, ts)
      else (simpleEscape? c).map fun n => (.quoted (Fin.ofNat _ n :: s), ts)
  | .hex s left n, ts, c =>
      (hexValue? c).map fun d =>
        if left ≤ 1 then (.quoted (pushUnit (16 * n + d) s), ts)
        else (.hex s (left - 1) (16 * n + d), ts)

/-- The tokens up to the end, or up to the first character that fits none; and whether that is the
end. -/
def lexFrom : Place → List Token → List Char → List Token × Bool
  | .between, ts, [] => (ts.reverse, true)
  | .word w, ts, [] => match scalar? w.reverse with
      | some v => ((.scalar v :: ts).reverse, true)
      | none => (ts.reverse, false)
  | _, ts, [] => (ts.reverse, false)
  | p, ts, c :: s => match lexChar p ts c with
      | some (q, us) => lexFrom q us s
      | none => (ts.reverse, false)

/-- An open list or object; the items of a list are held backwards. -/
inductive Frame where
  | list (items : List Json)
  | field (fields : List (List CodePoint × Json)) (key : List CodePoint)

/-- What the machine waits for: a value, a first item, a key, a colon, or what follows a value. -/
inductive Wait where
  | value (stack : List Frame)
  | firstItem (stack : List Frame)
  | key (first : Bool) (fields : List (List CodePoint × Json)) (stack : List Frame)
  | colon (fields : List (List CodePoint × Json)) (key : List CodePoint) (stack : List Frame)
  | after (v : Json) (stack : List Frame)

/-- Why a text gives no value. -/
inductive Error where
  | malformed
  | tooDeep
  deriving DecidableEq

/-- Lists and objects nested deeper than this are refused. It stands for the bound on nested calls of a
run: of a thousand, reading takes one for each level. -/
def maxDepth : Nat := 990

def enter (stack : List Frame) (w : Wait) : Except Error Wait :=
  if stack.length < maxDepth then .ok w else .error .tooDeep

def startValue (stack : List Frame) : Token → Except Error Wait
  | .openList => enter stack (.firstItem stack)
  | .openObject => enter stack (.key true [] stack)
  | .scalar v => .ok (.after v stack)
  | .str s => .ok (.after (.str s) stack)
  | _ => .error .malformed

def Wait.step : Wait → Token → Except Error Wait
  | .value st, t => startValue st t
  | .firstItem st, .closeList => .ok (.after (.arr []) st)
  | .firstItem st, t => startValue (.list [] :: st) t
  | .key true fs st, .closeObject => .ok (.after (.obj fs) st)
  | .key _ fs st, .str k => .ok (.colon fs k st)
  | .colon fs k st, .colon => .ok (.value (.field fs k :: st))
  | .after v (.list items :: st), .comma => .ok (.value (.list (v :: items) :: st))
  | .after v (.list items :: st), .closeList => .ok (.after (.arr (v :: items).reverse) st)
  | .after v (.field fs k :: st), .comma => .ok (.key false (setField k v fs) st)
  | .after v (.field fs k :: st), .closeObject => .ok (.after (.obj (setField k v fs)) st)
  | _, _ => .error .malformed

/-- The value of the tokens; `whole` says that they are all of the text. -/
def Wait.run (whole : Bool) : Wait → List Token → Except Error Json
  | .after v [], [] => if whole then .ok v else .error .malformed
  | _, [] => .error .malformed
  | w, t :: ts => match w.step t with
      | .ok w' => w'.run whole ts
      | .error e => .error e

/-- The value of a JSON text. -/
def parse (s : String) : Except Error Json :=
  let (tokens, whole) := lexFrom .between [] s.toList
  (Wait.value []).run whole tokens

def parse? (s : String) : Option Json := (parse s).toOption

end ExportDiff.Json
