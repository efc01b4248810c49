/- Running a command: what it prints, logs and writes, from the files that it is given. -/
import ExportDiff.Archive.Reader
import ExportDiff.Cli.Help
import ExportDiff.Cli.Log
import ExportDiff.LineDiff.Listing
import ExportDiff.Pretty.Content
import ExportDiff.Report.Document

namespace ExportDiff.Cli
open Snapshot Text

/-- Why a command comes to no result. -/
inductive Failure where
  | noFile (path : String)
  | noArchive (e : Archive.Error)
  | noFlow (path : String)

/-- Lines to print, and files to write with their texts. -/
structure Result where
  lines : List String
  files : List (String × String)

/-- A computation that logs what it does, up to its failure as well. -/
abbrev Task := ExceptT Failure (StateM (List LogEntry))

def log (entries : List LogEntry) : Task Unit := modify (· ++ entries)

/-- The bytes of the files that can be read, by their paths. -/
abbrev Files := String → Option (List UInt8)

/-- The files that a command reads, in the order in which they must exist. -/
def Command.inputs : Command → List String
  | compare job => [job.left, job.right]
  | flow archive => [archive]
  | diffFile job => [job.left, job.right]

def fileAt (files : Files) (path : String) : Task (List UInt8) :=
  match files path with
  | some bytes => pure bytes
  | none => throw (.noFile path)

def readArchive (path : String) (bytes : List UInt8) : Task Snapshot :=
  match Archive.read usualLimit (Artifact.fileName path) bytes with
  | .ok s => do
      log [readEntry s]
      return s
  | .error e => throw (.noArchive e)

/-- A path below a folder. -/
def inFolder (folder name : String) : String :=
  if folder = "" || folder.toList.getLast? = some '/' then folder ++ name else folder ++ "/" ++ name

def summaryLine (d : Change.FileDiff) : String :=
  "Done! " ++ toString d.items.length ++ " changes (" ++ toString d.summary.high ++ " high, " ++
    toString d.summary.medium ++ " medium, " ++ toString d.summary.low ++ " low, " ++
    toString d.summary.info ++ " info)"

/-- Collisions are worth a line only where there are any. -/
def collisionLines (d : Change.FileDiff) : List String :=
  if d.collisions.isEmpty then []
  else ["Warnings: " ++ toString d.collisions.length ++ " path normalization collisions"]

/-- The flow document is written when flows are wanted and an archive has one. -/
def reportFiles (job : CompareJob) (generatedAt : String) (left right : Snapshot)
    (c : Snapshot.Comparison) : List (String × String) :=
  let diff := (inFolder job.output "diff_report.json", Report.diffReport job.pretty generatedAt
    (some (.of left)) (some (.of right)) c.diff)
  if job.flows && (c.leftFlow.isSome || c.rightFlow.isSome) then
    [diff, (inFolder job.output "flow_comparison.json",
      Report.flowReport job.pretty generatedAt c.leftFlow c.rightFlow c.flows)]
  else [diff]

def CompareJob.run (job : CompareJob) (files : Files) (generatedAt : String) : Task Result := do
  let leftBytes ← fileAt files job.left
  let rightBytes ← fileAt files job.right
  log [readingEntry job.left]
  let left ← readArchive job.left leftBytes
  log [readingEntry job.right]
  let right ← readArchive job.right rightBytes
  let c := Snapshot.compare ⟨job.lineLimit, job.flows⟩ left.files right.files
  log (fileDiffEntries c.diff)
  if job.flows then log (flowEntries left.files ++ flowEntries right.files)
  log [writtenEntry job.output]
  return ⟨summaryLine c.diff :: collisionLines c.diff ++ ["Output: " ++ job.output],
    reportFiles job generatedAt left right c⟩

/-- The flow of an archive as indented JSON in ASCII. -/
def runFlow (path : String) (files : Files) : Task Result := do
  let s ← readArchive path (← fileAt files path)
  log (flowEntries s.files)
  match Flow.flowOfFiles? s.files with
  | some f => return ⟨[(Report.flow f).print ⟨true, true⟩], []⟩
  | none => throw (.noFlow path)

/-- A file as text with line feeds alone. -/
def plainText (bytes : List UInt8) : String :=
  String.ofList (unifyBreaks (decodeUtf8 bytes).toList)

/-- The width of the left pane. -/
def paneWidth : Nat := 60

def DiffJob.run (job : DiffJob) (files : Files) : Task Result := do
  let leftBytes ← fileAt files job.left
  let rightBytes ← fileAt files job.right
  let side (path : String) (bytes : List UInt8) : String :=
    if job.format then Pretty.content path (plainText bytes) else plainText bytes
  let left := some (side job.left leftBytes)
  let right := some (side job.right rightBytes)
  return ⟨if job.unified then LineDiff.unifiedListing left right
    else LineDiff.sideBySideListing paneWidth left right, []⟩

def Command.run (c : Command) (files : Files) (generatedAt : String) : Task Result :=
  match c with
  | compare job => job.run files generatedAt
  | flow archive => runFlow archive files
  | diffFile job => job.run files

/-- What the caller of the program sees: the exit code, the two outputs, and the files written. -/
structure Outcome where
  exitCode : Nat
  output : List String
  diagnostics : List String
  files : List (String × String)

/-- A failure is told on one line. An archive that stops the program gives no outcome. -/
def outcome (verbose : Bool) (result : Except Failure Result) (entries : List LogEntry) :
    Except Archive.Error Outcome :=
  let shown := (entries.filter (·.isShown verbose)).map LogEntry.line
  let failed (message : String) : Outcome := ⟨1, [], shown ++ ["Error: " ++ message], []⟩
  match result with
  | .ok r => .ok ⟨0, r.lines, shown, r.files⟩
  | .error (.noFile path) => .ok (failed (path ++ " not found"))
  | .error (.noFlow path) => .ok (failed ("no flow definition found in " ++ path))
  | .error (.noArchive e) => match e.report? with
    | some message => .ok (failed message)
    | none => .error e

/-- The lines of a text that ends with a line break. -/
def textLines (s : String) : List String := (stringPieces '\n' s).dropLast

def Invocation.inputs : Invocation → List String
  | perform c _ => c.inputs
  | _ => []

def Invocation.run (i : Invocation) (files : Files) (generatedAt : String) :
    Except Archive.Error Outcome :=
  match i with
  | .help topic => .ok ⟨0, textLines (helpText topic), [], []⟩
  | .refused teller m => .ok ⟨2, [], textLines (usage teller) ++ [misuseLine teller m], []⟩
  | .perform c verbose =>
      let (result, entries) := (c.run files generatedAt).run.run []
      outcome verbose result entries

end ExportDiff.Cli
