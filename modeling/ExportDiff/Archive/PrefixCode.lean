/- Prefix codes given by the lengths of their code words, and the reading of coded symbols. -/

namespace ExportDiff.Archive

/-- Why compressed data gives no more bytes: it stops early, or it cannot be right. -/
inductive Halt where
  | cutOff
  | corrupt
  deriving DecidableEq

/-- Reading from a list of bits. -/
abbrev BitReader := StateT (List Bool) (Except Halt)

def nextBit : BitReader Bool := fun bits =>
  match bits with
  | [] => .error .cutOff
  | b :: rest => .ok (b, rest)

/-- A number of the given width, its lowest bit first. -/
def nextNumber : Nat → BitReader Nat
  | 0 => pure 0
  | width + 1 => do
      let b ← nextBit
      return b.toNat + 2 * (← nextNumber width)

/-- A code word is the way from the root to its symbol. -/
inductive PrefixCode where
  | unused
  | symbol (n : Nat)
  | fork (zero one : PrefixCode)

namespace PrefixCode

/-- The tree over the words not yet placed, which come in order of length and then of symbol: each
takes the leftmost free place at its depth. The rest of the list did not fit below this place. -/
def grow : Nat → Nat → List (Nat × Nat) → PrefixCode × List (Nat × Nat)
  | _, _, [] => (.unused, [])
  | more, depth, (length, n) :: words =>
      if length ≤ depth then (.symbol n, words)
      else match more with
        | 0 => (.unused, (length, n) :: words)
        | more + 1 =>
            let (zero, words) := grow more (depth + 1) ((length, n) :: words)
            let (one, words) := grow more (depth + 1) words
            (.fork zero one, words)

/-- The symbols that have a word, in order of length and then of symbol. -/
def wordsInOrder (lengths : List Nat) : List (Nat × Nat) :=
  let words := lengths.zipIdx.filter (·.1 ≠ 0)
  words.mergeSort fun a b => decide (a.1 ≤ b.1)

def isFull : PrefixCode → Bool
  | unused => false
  | symbol _ => true
  | fork zero one => zero.isFull && one.isFull

/-- No word is longer than this. -/
def longestWord : Nat := 15

/-- The code with the given lengths. Words that do not fit are refused. A code that leaves words
unused is refused too, unless it has one word, of one bit; a code of no words refuses either bit
when it is read. -/
def ofLengths? (lengths : List Nat) : Option PrefixCode :=
  match wordsInOrder lengths with
  | [] => some (.fork .unused .unused)
  | words =>
      let (code, rest) := grow longestWord 0 words
      if rest.isEmpty && (code.isFull || words.all (·.1 = 1)) then some code else none

/-- The next symbol, read bit by bit from the root. -/
def read : PrefixCode → BitReader Nat
  | unused => throw .corrupt
  | symbol n => pure n
  | fork zero one => do if ← nextBit then one.read else zero.read

end PrefixCode

end ExportDiff.Archive
