/- Commands, and the command lines that ask for them. -/
import ExportDiff.Cli.Arguments

namespace ExportDiff.Cli

inductive CommandName where
  | compare
  | flow
  | diffFile
  deriving DecidableEq

namespace CommandName

def all : List CommandName := [compare, flow, diffFile]

def word : CommandName → String
  | compare => "compare"
  | flow => "flow"
  | diffFile => "diff-file"

def grammar : CommandName → Grammar
  | compare => ⟨[.help, .verbose, .noPretty, .noFlows, .patchLines], ["left", "right", "output"]⟩
  | flow => ⟨[.help, .verbose], ["archive"]⟩
  | diffFile => ⟨[.help, .verbose, .unified, .format], ["left", "right"]⟩

end CommandName

/-- The report of two archives: where from, where to, and how. -/
structure CompareJob where
  left : String
  right : String
  output : String
  pretty : Bool
  flows : Bool
  lineLimit : Int
  deriving DecidableEq

structure DiffJob where
  left : String
  right : String
  unified : Bool
  format : Bool
  deriving DecidableEq

inductive Command where
  | compare (job : CompareJob)
  | flow (archive : String)
  | diffFile (job : DiffJob)
  deriving DecidableEq

/-- How many lines of each side an excerpt shows, where nothing else is said. -/
def usualLineLimit : Int := 50

def CommandName.command (c : CommandName) (a : Arguments) : Command :=
  match c with
  | compare => .compare {
      left := a.operand "left", right := a.operand "right", output := a.operand "output"
      pretty := !a.has .noPretty, flows := !a.has .noFlows, lineLimit := a.lineLimit.getD usualLineLimit }
  | flow => .flow (a.operand "archive")
  | diffFile => .diffFile {
      left := a.operand "left", right := a.operand "right"
      unified := a.has .unified, format := a.has .format }

/-- What a command line asks for: help on a command or on all of them, or a command to run. Misuse
is told by the command that notices it. -/
inductive Invocation where
  | help (topic : Option CommandName)
  | refused (teller : Option CommandName) (m : Misuse)
  | perform (command : Command) (verbose : Bool)
  deriving DecidableEq

/-- Before the command there is only help to ask for. -/
def topGrammar : Grammar := ⟨[.help], []⟩

/-- The command has its arguments; words left over on either side of its name are too many. -/
def CommandName.invocation (c : CommandName) (before : List String) (rest : List String) : Invocation :=
  match c.grammar.read rest with
  | .error .help => .help c
  | .error (.misuse m) => .refused c m
  | .ok a =>
      match before ++ a.extra with
      | [] => .perform (c.command a) (a.has .verbose)
      | words => .refused none (.unrecognized words)

/-- The first plain word names the command, and all that follows is for it. -/
def invocationOf (before : List String) : List (String × Word) → Invocation
  | [] => if before = [] then .help none else .refused none (.unrecognized before)
  | (_, .plain name) :: rest =>
      match CommandName.all.find? (·.word = name) with
      | some c => c.invocation before (rest.map (·.1))
      | none => .refused none (.unknownCommand name (CommandName.all.map CommandName.word))
  | [(s, .divider)] => .refused none (.unrecognized (before ++ [s]))
  | (s, .divider) :: _ => .refused none (.unknownCommand s (CommandName.all.map CommandName.word))
  | (_, .unknown s) :: rest => invocationOf (before ++ [s]) rest
  | (_, .letters s letters) :: _ =>
      match topGrammar.flags s letters with
      | .error m => .refused none m
      | .ok _ => .help none
  | (_, .long s (some value)) :: _ => .refused none (.unwantedValue s value)
  | (_, .long _ none) :: _ => .help none

def invocation (words : List String) : Invocation :=
  match topGrammar.words words with
  | .error m => .refused none m
  | .ok kinds => invocationOf [] (words.zip kinds)

end ExportDiff.Cli
