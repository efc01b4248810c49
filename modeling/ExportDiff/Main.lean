/- The program: it reads the files that a command line names, runs it, and writes what comes out. -/
import ExportDiff.Cli.Run
import Std.Time

namespace ExportDiff.Cli

/-- A folder, or a path without a file, cannot be read. -/
def readFile? (path : String) : IO (Option (List UInt8)) := do
  try return some (← IO.FS.readBinFile path).toList
  catch _ => return none

def readFiles (paths : List String) : IO (List (String × List UInt8)) :=
  paths.filterMapM fun path => do return (← readFile? path).map fun bytes => (path, bytes)

/-- The folder part of a path. -/
def folderOf (path : String) : String :=
  match Text.beforeLast? '/' path.toList with
  | some folder => String.ofList folder
  | none => "."

def writeFiles (files : List (String × String)) : IO Unit :=
  files.forM fun (path, content) => do
    IO.FS.createDirAll (folderOf path)
    IO.FS.writeFile path content

/-- The date and the time of day, universal time. -/
def currentTime : IO String := do
  let now := Std.Time.PlainDateTime.ofWallTime (.ofTimestamp (← Std.Time.Timestamp.now) .zero)
  return now.format "uuuu-MM-dd" ++ "T" ++ now.format "HH:mm:ss.SSSSSS" ++ "+00:00"

end ExportDiff.Cli

open ExportDiff.Cli

/-- An archive that the program has no means for ends it with an exit code of one. -/
def main (words : List String) : IO UInt32 := do
  let i := invocation words
  let files ← readFiles i.inputs
  match i.run (fun path => files.lookup path) (← currentTime) with
  | .error _ => return 1
  | .ok o =>
      for line in o.diagnostics do IO.eprintln line
      for line in o.output do IO.println line
      writeFiles o.files
      return UInt32.ofNat o.exitCode
