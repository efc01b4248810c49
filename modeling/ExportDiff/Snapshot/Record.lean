/- The files of one exported archive. -/
import ExportDiff.Artifact.Path
import ExportDiff.Digest
import ExportDiff.Text.Utf8

namespace ExportDiff.Snapshot
open Text

/-- A content that is not there is unknown, which is not the same as empty. -/
structure FileRecord where
  path : String
  hash : String
  size : Nat
  content : Option String
  deriving DecidableEq

/-- A text below the limit is kept, and so is any text that may define a flow. The hash is always
that of the whole text. -/
def FileRecord.ofText (limit : Nat) (path : String) (size : Nat) (text : String) : FileRecord where
  path
  hash := Digest.sha256 (encodeUtf8 text)
  size
  content := if text.length < limit || Artifact.holdsFlow path then some text else none

/-- Bytes that are no text are replaced before anything else is done with them. -/
def FileRecord.ofBytes (limit : Nat) (path : String) (size : Nat) (bytes : List UInt8) : FileRecord :=
  ofText limit path size (decodeUtf8 bytes)

/-- The limit below which every text is kept. -/
def usualLimit : Nat := 100000

end ExportDiff.Snapshot

namespace ExportDiff

structure Snapshot where
  fileName : String
  sha256 : String
  size : Nat
  files : List Snapshot.FileRecord

/-- How many files have no content. -/
def Snapshot.withheld (s : Snapshot) : Nat := s.files.countP (·.content.isNone)

end ExportDiff
