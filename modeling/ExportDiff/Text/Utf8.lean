/- Text in UTF-8, read from bytes that may not be well-formed. -/

namespace ExportDiff.Text

/-- A character begun: its bits so far, the bytes still owed, and the range of the next one. -/
structure Begun where
  bits : Nat
  owed : Nat
  low : UInt8
  high : UInt8

inductive FirstByte where
  | whole (c : Char)
  | begun (b : Begun)
  | stray

/-- The first byte fixes the length of the character, and bounds the second byte where a wider
range would admit an overlong form, a surrogate, or a value beyond the last character. -/
def firstByte (b : UInt8) : FirstByte :=
  let n := b.toNat
  if n < 0x80 then .whole (Char.ofNat n)
  else if n < 0xC2 then .stray
  else if n < 0xE0 then .begun ⟨n % 0x20, 1, 0x80, 0xBF⟩
  else if n < 0xF0 then
    .begun ⟨n % 0x10, 2, if n = 0xE0 then 0xA0 else 0x80, if n = 0xED then 0x9F else 0xBF⟩
  else if n < 0xF5 then
    .begun ⟨n % 0x08, 3, if n = 0xF0 then 0x90 else 0x80, if n = 0xF4 then 0x8F else 0xBF⟩
  else .stray

/-- The characters read, the last one first, and the character under way. Bytes that belong to no
character stand as one gap for each longest start of a character among them. -/
structure Utf8State where
  read : List (Option Char)
  under : Option Begun

def Utf8State.start (read : List (Option Char)) (b : UInt8) : Utf8State :=
  match firstByte b with
  | .whole c => ⟨some c :: read, none⟩
  | .begun g => ⟨read, some g⟩
  | .stray => ⟨none :: read, none⟩

def Utf8State.step (s : Utf8State) (b : UInt8) : Utf8State :=
  match s.under with
  | none => .start s.read b
  | some g =>
      if g.low ≤ b && b ≤ g.high then
        let bits := g.bits * 64 + b.toNat % 64
        if g.owed ≤ 1 then ⟨some (Char.ofNat bits) :: s.read, none⟩
        else ⟨s.read, some ⟨bits, g.owed - 1, 0x80, 0xBF⟩⟩
      else .start (none :: s.read) b

/-- A character cut off by the end is a gap as well. -/
def Utf8State.finish (s : Utf8State) : List (Option Char) :=
  (if s.under.isSome then none :: s.read else s.read).reverse

def utf8Parts (bytes : List UInt8) : List (Option Char) :=
  (bytes.foldl .step ⟨[], none⟩ : Utf8State).finish

/-- Each gap reads as a replacement character. -/
def decodeUtf8 (bytes : List UInt8) : String :=
  String.ofList ((utf8Parts bytes).map fun c => c.getD '\uFFFD')

/-- Nothing where the bytes hold a gap. -/
def decodeUtf8? (bytes : List UInt8) : Option String :=
  ((utf8Parts bytes).mapM id).map String.ofList

def encodeUtf8 (s : String) : List UInt8 := s.toList.flatMap String.utf8EncodeChar

end ExportDiff.Text
