/- Switches, and the kinds of words on a command line. -/
import ExportDiff.Text.CharClass
import ExportDiff.Text.Quoted
import ExportDiff.Text.Search

namespace ExportDiff.Cli
open Text

inductive Switch where
  | help
  | verbose
  | noPretty
  | noFlows
  | patchLines
  | unified
  | format
  deriving DecidableEq

/-- The letter of a switch; only switches without a value have one. -/
def Switch.letter? : Switch → Option Char
  | help => some 'h'
  | verbose => some 'v'
  | _ => none

def Switch.longName : Switch → String
  | help => "help"
  | verbose => "verbose"
  | noPretty => "no-pretty"
  | noFlows => "no-flows"
  | patchLines => "patch-lines"
  | unified => "unified"
  | format => "format"

def Switch.takesValue : Switch → Bool
  | patchLines => true
  | _ => false

def Switch.long (s : Switch) : String := "--" ++ s.longName

/-- All spellings, as messages name a switch. -/
def Switch.label (s : Switch) : String :=
  match s.letter? with
  | some c => String.ofList ['-', c, '/'] ++ s.long
  | none => s.long

/-- What a command line does wrong. -/
inductive Misuse where
  | ambiguous (word : String) (candidates : List String)
  | unwantedValue (s : Switch) (value : String)
  | valueMissing (s : Switch)
  | notInteger (s : Switch) (value : String)
  | operandsMissing (names : List String)
  | unknownCommand (name : String) (known : List String)
  | unrecognized (words : List String)
  deriving DecidableEq

def Misuse.message : Misuse → String
  | ambiguous word candidates =>
      "ambiguous option: " ++ word ++ " could match " ++ join ", " candidates
  | unwantedValue s value =>
      "argument " ++ s.label ++ ": ignored explicit argument " ++ quoted value
  | valueMissing s => "argument " ++ s.label ++ ": expected one argument"
  | notInteger s value => "argument " ++ s.label ++ ": invalid int value: " ++ quoted value
  | operandsMissing names => "the following arguments are required: " ++ join ", " names
  | unknownCommand name known =>
      "argument command: invalid choice: " ++ quoted name ++ " (choose from " ++
        join ", " (known.map quoted) ++ ")"
  | unrecognized words => "unrecognized arguments: " ++ join " " words

/-- What may stand on a command line. -/
structure Grammar where
  switches : List Switch
  operands : List String

def Grammar.flag? (g : Grammar) (c : Char) : Option Switch :=
  g.switches.find? fun s => s.letter? == some c

/-- A word by its form. The first double hyphen divides: every word after it is plain. -/
inductive Word where
  | plain (s : String)
  | divider
  | unknown (s : String)
  | letters (first : Switch) (rest : List Char)
  | long (s : Switch) (value : Option String)

/-- A hyphen and a number; a line break may follow. -/
def isNegativeNumber (s : List Char) : Bool :=
  match s with
  | '-' :: t =>
      let body := if t.getLast? == some '\n' then t.dropLast else t
      match body.dropWhile isDigit with
      | [] => body ≠ []
      | '.' :: fraction => fraction ≠ [] && fraction.all isDigit
      | _ => false
  | _ => false

/-- A word that looks like a switch and is none: a negative number, or a word with a space in it, is
plain all the same. -/
def strayWord (word : String) : Word :=
  if isNegativeNumber word.toList || word.toList.contains ' ' then .plain word else .unknown word

/-- A long switch may be cut short as long as only one fits; a value follows an equals sign. -/
def Grammar.longWord (g : Grammar) (word : String) (body : List Char) : Except Misuse Word :=
  let name := body.takeWhile (· ≠ '=')
  let value := match body.dropWhile (· ≠ '=') with
    | [] => none
    | _ :: v => some (String.ofList v)
  match g.switches.find? fun s => s.longName.toList = name with
  | some s => .ok (.long s value)
  | none => match g.switches.filter fun s => name.isPrefixOf s.longName.toList with
    | [] => .ok (strayWord word)
    | [s] => .ok (.long s value)
    | several => .error (.ambiguous word (several.map Switch.long))

def Grammar.word (g : Grammar) (word : String) : Except Misuse Word :=
  match word.toList with
  | '-' :: '-' :: body => g.longWord word body
  | '-' :: c :: rest => match g.flag? c with
    | some s => .ok (.letters s rest)
    | none => .ok (strayWord word)
  | _ => .ok (.plain word)

def Grammar.words (g : Grammar) : List String → Except Misuse (List Word)
  | [] => .ok []
  | "--" :: rest => .ok (.divider :: rest.map .plain)
  | w :: rest => do return (← g.word w) :: (← g.words rest)

/-- The switches of a word of letters; from an unknown letter on it is left over. -/
def Grammar.flags (g : Grammar) (s : Switch) : List Char → Except Misuse (List Switch × List String)
  | [] => .ok ([s], [])
  | '=' :: value => .error (.unwantedValue s (String.ofList value))
  | '-' :: rest => .error (.unwantedValue s (String.ofList ('-' :: rest)))
  | c :: rest => match g.flag? c with
    | some t => do
        let (switches, left) ← g.flags t rest
        return (s :: switches, left)
    | none => .ok ([s], [String.ofList ('-' :: c :: rest)])

end ExportDiff.Cli
