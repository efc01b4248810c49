/- The arguments of one command, read from its words. -/
import ExportDiff.Cli.Switch
import ExportDiff.Number.Integer

namespace ExportDiff.Cli

/-- Reading ends early where help is asked for, or at the first misuse. -/
inductive Halt where
  | help
  | misuse (m : Misuse)

structure Arguments where
  /-- Operands without a value, in order. -/
  pending : List String
  operands : List (String × String)
  switches : List Switch
  lineLimit : Option Int
  /-- Words that nothing takes. -/
  extra : List String

def Arguments.start (g : Grammar) : Arguments := ⟨g.operands, [], [], none, []⟩

def Arguments.operand (a : Arguments) (name : String) : String := (a.operands.lookup name).getD ""

def Arguments.has (a : Arguments) (s : Switch) : Bool := a.switches.contains s

def Arguments.leave (a : Arguments) (words : List String) : Arguments :=
  { a with extra := a.extra ++ words }

/-- A switch takes effect at its place, help at once. -/
def Arguments.take (a : Arguments) (s : Switch) : Except Halt Arguments :=
  if s = .help then .error .help else .ok { a with switches := s :: a.switches }

def Arguments.takeAll (a : Arguments) : List Switch → Except Halt Arguments
  | [] => .ok a
  | s :: rest => do (← a.take s).takeAll rest

def Arguments.takeValue (a : Arguments) (s : Switch) (value : String) : Except Halt Arguments :=
  match Number.integer? value with
  | some n => .ok { a with lineLimit := some n }
  | none => .error (.misuse (.notInteger s value))

/-- A plain word is the value of the next operand that has none. -/
def Arguments.fill (a : Arguments) (value : String) : Arguments :=
  match a.pending with
  | name :: rest => { a with pending := rest, operands := a.operands ++ [(name, value)] }
  | [] => a.leave [value]

/-- A divider goes with an operand next to it, before or after; `beside` says that the word before
was one. -/
def Arguments.divide (a : Arguments) (beside : Bool) (rest : List Word) : Arguments :=
  if beside || (!a.pending.isEmpty && !rest.isEmpty) then a else a.leave ["--"]

/-- Words from left to right. A switch with a value takes the next word where none is attached. -/
def Arguments.read (g : Grammar) (a : Arguments) (beside : Bool) : List Word → Except Halt Arguments
  | [] => .ok a
  | .plain s :: rest => (a.fill s).read g (!a.pending.isEmpty) rest
  | .divider :: rest => (a.divide beside rest).read g beside rest
  | .unknown s :: rest => (a.leave [s]).read g false rest
  | .letters s letters :: rest => do
      let (switches, left) ← (g.flags s letters).mapError .misuse
      let a ← (a.leave left).takeAll switches
      a.read g false rest
  | .long s (some value) :: rest => do
      if !s.takesValue then throw (.misuse (.unwantedValue s value))
      let a ← a.takeValue s value
      a.read g false rest
  | [.long s none] => if s.takesValue then .error (.misuse (.valueMissing s)) else a.take s
  | .long s none :: next :: rest => do
      if s.takesValue then
        match next with
        | .plain value =>
            let a ← a.takeValue s value
            a.read g false rest
        | _ => throw (.misuse (.valueMissing s))
      else
        let a ← a.take s
        a.read g false (next :: rest)

/-- Every operand must have a value in the end. -/
def Grammar.read (g : Grammar) (words : List String) : Except Halt Arguments := do
  let words ← (g.words words).mapError .misuse
  let a ← (Arguments.start g).read g false words
  if a.pending.isEmpty then return a else throw (.misuse (.operandsMissing a.pending))

end ExportDiff.Cli
