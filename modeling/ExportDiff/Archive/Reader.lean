/- Archives read into snapshots. -/
import ExportDiff.Archive.Content
import ExportDiff.Snapshot.Record

namespace ExportDiff.Archive
open Snapshot

/-- The record of one entry; the size is the announced one. -/
def readRecord (limit : Nat) (b : Bytes) (e : Entry) (finish : Int) : Except Error FileRecord := do
  return .ofBytes limit e.name e.size (← content b e finish)

/-- Every entry but the folders, in the order of the directory. -/
def readRecords (limit : Nat) (b : Bytes) : Except Error (List FileRecord) := do
  let (entries, start) ← readDirectory b
  ((bounded start entries).filter fun (e, _) => !e.isFolder).mapM fun (e, finish) =>
    readRecord limit b e finish

def read (limit : Nat) (fileName : String) (bytes : List UInt8) : Except Error Snapshot := do
  let files ← readRecords limit (.ofList bytes)
  return ⟨fileName, Digest.sha256 bytes, bytes.length, files⟩

/-- The name of an archive that came without one. -/
def namelessName : String := "archive.zip"

/-- An empty name counts as none. -/
def givenName (name : Option String) : String := (name.filter (· ≠ "")).getD namelessName

end ExportDiff.Archive
