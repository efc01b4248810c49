/- The log of a run. -/
import ExportDiff.Flow.Discovery
import ExportDiff.Change.FileDiff

namespace ExportDiff.Cli
open Snapshot

inductive LogLevel where
  | debug
  | info
  | warning
  deriving DecidableEq

def LogLevel.name : LogLevel → String
  | debug => "DEBUG"
  | info => "INFO"
  | warning => "WARNING"

/-- The part of the program that an entry comes from. -/
inductive LogSource where
  | commands
  | archives
  | files
  | flows
  deriving DecidableEq

def LogSource.name : LogSource → String
  | commands => "integration_diff.cli"
  | archives => "integration_diff.archive_reader"
  | files => "integration_diff.diff_engine"
  | flows => "integration_diff.flow.parser"

structure LogEntry where
  level : LogLevel
  source : LogSource
  message : String
  deriving DecidableEq

def LogEntry.line (e : LogEntry) : String := e.level.name ++ " " ++ e.source.name ++ ": " ++ e.message

/-- Entries for debugging are shown on request alone. -/
def LogEntry.isShown (verbose : Bool) (e : LogEntry) : Bool := verbose || e.level ≠ .debug

def readingEntry (path : String) : LogEntry := ⟨.info, .commands, "Reading " ++ path⟩

def readEntry (s : Snapshot) : LogEntry :=
  ⟨.debug, .archives, "Read " ++ s.fileName ++ ": " ++ toString s.files.length ++ " entries, " ++
    toString s.withheld ++ " with content withheld"⟩

def collisionEntry (c : Change.Collision) : LogEntry :=
  ⟨.warning, .files, "Path normalization collision: " ++ c.message⟩

def countsEntry (d : Change.FileDiff) : LogEntry :=
  let count (c : Change.ChangeKind) : String := toString (d.items.countP (·.change = c))
  ⟨.debug, .files, "File diff: " ++ toString d.items.length ++ " changed (" ++ count .added ++
    " added, " ++ count .removed ++ " removed, " ++ count .modified ++ " modified), " ++
    toString d.unchanged ++ " unchanged or noise-only"⟩

def fileDiffEntries (d : Change.FileDiff) : List LogEntry :=
  d.collisions.map collisionEntry ++ [countsEntry d]

def formName : Flow.Form → String
  | .project => "parse_project_flow"
  | .process => "parse_process_flow"

def unreadableReason : Xml.Error → String
  | .malformed => "Invalid XML: not well-formed"
  | .tooDeep => "nesting too deep"

def parsedEntry? (p : Flow.Parsed) : Option LogEntry :=
  match p.origin with
  | .found form => some ⟨.debug, .flows, "Flow parsed by " ++ formName form ++ ": " ++
      toString p.flow.nodes.length ++ " nodes"⟩
  | .bare => none
  | .unreadable e => some ⟨.warning, .flows,
      "Flow definition could not be parsed: " ++ unreadableReason e⟩

/-- What is told about the flow definitions of an archive that were parsed. -/
def flowEntries (files : List FileRecord) : List LogEntry :=
  (Flow.parsedTexts files).1.filterMap parsedEntry?

def writtenEntry (output : String) : LogEntry := ⟨.info, .commands, "Reports written to " ++ output⟩

end ExportDiff.Cli
