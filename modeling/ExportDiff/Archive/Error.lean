/- Why an archive cannot be read. -/
import ExportDiff.Text.Quoted

namespace ExportDiff.Archive
open Text

/-- A number in the extra data of an entry that replaces one too large for its own place. -/
inductive LargeField where
  | size
  | storedSize
  | position
  deriving DecidableEq

def LargeField.label : LargeField → String
  | .size => "File size"
  | .storedSize => "Compress size"
  | .position => "Header offset"

/-- What is wrong with the bytes of an archive. -/
inductive Damage where
  | noDirectory
  | severalDisks
  | directoryOutside
  | directoryCut
  | strangeDirectoryEntry
  | extraCut (tag size : Nat)
  | largeFieldMissing (field : LargeField)
  | headerCut
  | strangeHeader
  | namesDiffer (listed : String) (found : List UInt8)
  | overlap (name : String)
  | wrongChecksum (name : String)
  deriving DecidableEq

def Damage.message : Damage → String
  | noDirectory => "File is not a zip file"
  | severalDisks => "zipfiles that span multiple disks are not supported"
  | directoryOutside => "Bad offset for central directory"
  | directoryCut => "Truncated central directory"
  | strangeDirectoryEntry => "Bad magic number for central directory"
  | extraCut tag size =>
      "Corrupt extra field " ++ String.ofList (hexDigits 4 tag) ++ " (size=" ++ toString size ++ ")"
  | largeFieldMissing field => "Corrupt zip64 extra field. " ++ field.label ++ " not found."
  | headerCut => "Truncated file header"
  | strangeHeader => "Bad magic number for file header"
  | namesDiffer listed found =>
      "File name in directory " ++ quoted listed ++ " and header " ++ quotedBytes found ++ " differ."
  | overlap name => "Overlapped entries: " ++ quoted name ++ " (possible zip bomb)"
  | wrongChecksum name => "Bad CRC-32 for file " ++ quoted name

/-- An archive that cannot be read at all is reported. An entry that this reader has no means for, or
that breaks off inside its data, stops the program. -/
inductive Error where
  | damaged (d : Damage)
  | missing (path : String)
  | encrypted (name : String)
  | unsupported
  | undecodableName
  | corruptData
  | dataCut
  | beforeStart (position : Int)
  deriving DecidableEq

/-- What is reported to the reader, if this failure is reported at all. -/
def Error.report? : Error → Option String
  | damaged d => some ("Failed to read archive: " ++ d.message)
  | missing path => some ("Failed to read archive: [Errno 2] No such file or directory: " ++ quoted path)
  | _ => none

end ExportDiff.Archive
