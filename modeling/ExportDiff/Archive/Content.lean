/- The bytes of an archive's entries. -/
import ExportDiff.Archive.Deflate
import ExportDiff.Archive.Directory
import ExportDiff.Digest

namespace ExportDiff.Archive

/-- Each position with the one where its data must end: the next position among the rest, or the
directory. Positions come in falling order. -/
def limits : Int → List Int → List (Int × Int)
  | _, [] => []
  | finish, p :: rest => (p, finish) :: limits p rest

/-- Entries with the place where their data must end. -/
def bounded (start : Nat) (entries : List Entry) : List (Entry × Int) :=
  let falling := entries.zipIdx.mergeSort fun a b => decide (b.1.position ≤ a.1.position)
  let ends := (limits start (falling.map (·.1.position))).map (·.2)
  let places := (falling.map (·.2)).zip ends
  entries.zipIdx.map fun (e, i) => (e, (places.lookup i).getD start)

/-- Where the data of an entry begins, if the header there agrees with the directory. -/
def dataStart (b : Bytes) (e : Entry) (finish : Int) : Except Error Nat := do
  if e.position < 0 then throw (.beforeStart e.position)
  let position := e.position.toNat
  let header := b.slice position headerLength
  if header.length ≠ headerLength then throw (.damaged .headerCut)
  if !hasMark headerMark header then throw (.damaged .strangeHeader)
  let nameBytes := b.slice (position + headerLength) (field header 26 2)
  let extra := b.slice (position + headerLength + nameBytes.length) (field header 28 2)
  if e.hasFlag 5 || e.hasFlag 6 then throw .unsupported
  if (← decodeName (field header 6 2) nameBytes) ≠ e.listed then
    throw (.damaged (.namesDiffer e.listed nameBytes))
  let start := position + headerLength + nameBytes.length + extra.length
  if finish < ((start + e.storedSize : Nat) : Int) then throw (.damaged (.overlap e.listed))
  if e.hasFlag 0 then throw (.encrypted e.name)
  return start

/-- Data as stored, which may be less than announced, opened by the entry's method; and whether
there is no more of it. -/
def openData (e : Entry) (stored : List UInt8) : Except Error (List UInt8 × Bool) :=
  let complete := stored.length = e.storedSize
  match e.method with
  | 0 => .ok (stored, complete)
  | 8 => match inflate stored with
      | .whole bytes => .ok (bytes, true)
      | .halted .cutOff bytes => .ok (bytes, complete)
      | .halted .corrupt _ => .error .corruptData
  | _ => .error .unsupported

/-- The bytes of an entry, no more than it announces, whose checksum is right. -/
def content (b : Bytes) (e : Entry) (finish : Int) : Except Error (List UInt8) := do
  let start ← dataStart b e finish
  let stored := b.slice start e.storedSize
  let (bytes, complete) ← openData e stored
  if stored.isEmpty && e.storedSize ≠ 0 then throw .dataCut
  if !complete && bytes.length < e.size then throw .dataCut
  let bytes := bytes.take e.size
  if (Digest.crc32 bytes).toNat ≠ e.checksum then throw (.damaged (.wrongChecksum e.name))
  return bytes

end ExportDiff.Archive
