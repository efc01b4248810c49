/- Compressed data: blocks of literal bytes and of copies of earlier output. -/
import ExportDiff.Archive.PrefixCode

namespace ExportDiff.Archive

/-- The lowest bit of a byte comes first. -/
def byteBits (b : UInt8) : List Bool := (List.range 8).map b.toNat.testBit

/-- How a block holds its bytes: as they are, or by codes for literals and lengths and for distances. -/
inductive Block where
  | stored (length : Nat)
  | coded (literals distances : PrefixCode)

def orCorrupt {α : Type} : Option α → BitReader α
  | some a => pure a
  | none => throw .corrupt

/-- The code words of the block type without codes of its own. Two literals and two distances have
words but no meaning. -/
def usualLengths : List Nat :=
  List.replicate 144 8 ++ List.replicate 112 9 ++ List.replicate 24 7 ++ List.replicate 8 8

/-- The order in which the lengths of the words for lengths are given. -/
def lengthOrder : List Nat := [16, 17, 18, 0, 8, 7, 9, 6, 10, 5, 11, 4, 12, 3, 13, 2, 14, 1, 15]

/-- The code for lengths. Where it has no words, every bit reads as length zero. -/
def lengthCode? (given : List Nat) : Option PrefixCode :=
  let at_ (n : Nat) : Nat := ((lengthOrder.zip given).lookup n).getD 0
  let lengths := (List.range lengthOrder.length).map at_
  if lengths.all (· = 0) then some (.fork (.symbol 0) (.symbol 0))
  else (PrefixCode.ofLengths? lengths).filter (·.isFull)

/-- Lengths up to the wanted count, last first. A repeat must not run past the end, and a repeat of
the last length needs one. -/
def readLengths (code : PrefixCode) (wanted : Nat) : Nat → List Nat → BitReader (List Nat)
  | 0, found => pure found
  | budget + 1, found => do
      if wanted ≤ found.length then return found
      let n ← code.read
      if n < 16 then readLengths code wanted budget (n :: found)
      else
        let times ← match n with
          | 16 => (· + 3) <$> nextNumber 2
          | 17 => (· + 3) <$> nextNumber 3
          | _ => (· + 11) <$> nextNumber 7
        let length ← if n = 16 then orCorrupt found.head? else pure 0
        if wanted < found.length + times then throw .corrupt
        readLengths code wanted budget (List.replicate times length ++ found)

def readNumbers (width : Nat) : Nat → BitReader (List Nat)
  | 0 => pure []
  | n + 1 => do
      let a ← nextNumber width
      return a :: (← readNumbers width n)

/-- The codes at the head of a block. The word that ends the block must be among them. -/
def readCodes : BitReader Block := do
  let literals := (← nextNumber 5) + 257
  let distances := (← nextNumber 5) + 1
  let given := (← nextNumber 4) + 4
  if literals > 286 || distances > 30 then throw .corrupt
  let code ← orCorrupt (lengthCode? (← readNumbers 3 given))
  let wanted := literals + distances
  let lengths := (← readLengths code wanted wanted []).reverse
  if lengths.getD 256 0 = 0 then throw .corrupt
  let first ← orCorrupt (PrefixCode.ofLengths? (lengths.take literals))
  let second ← orCorrupt (PrefixCode.ofLengths? (lengths.drop literals))
  return .coded first second

/-- A stored block begins at the next whole byte with its length, given twice. -/
def readStored : BitReader Block := do
  modify fun bits => bits.drop (bits.length % 8)
  let length ← nextNumber 16
  let check ← nextNumber 16
  if length + check ≠ 0xFFFF then throw .corrupt
  return .stored length

/-- Whether the block is the last one, and what it is. -/
def readBlock : BitReader (Bool × Block) := do
  let last ← nextBit
  match ← nextNumber 2 with
  | 0 => return (last, ← readStored)
  | 1 =>
      let literals ← orCorrupt (PrefixCode.ofLengths? usualLengths)
      let distances ← orCorrupt (PrefixCode.ofLengths? (List.replicate 32 5))
      return (last, .coded literals distances)
  | 2 => return (last, ← readCodes)
  | _ => throw .corrupt

/-- A symbol for a range of values: the least one, and the width of what is added to it. -/
abbrev ValueRange := Nat × Nat

def lengthRanges : List ValueRange :=
  [(3, 0), (4, 0), (5, 0), (6, 0), (7, 0), (8, 0), (9, 0), (10, 0), (11, 1), (13, 1), (15, 1), (17, 1),
   (19, 2), (23, 2), (27, 2), (31, 2), (35, 3), (43, 3), (51, 3), (59, 3), (67, 4), (83, 4), (99, 4),
   (115, 4), (131, 5), (163, 5), (195, 5), (227, 5), (258, 0)]

def distanceRanges : List ValueRange :=
  [(1, 0), (2, 0), (3, 0), (4, 0), (5, 1), (7, 1), (9, 2), (13, 2), (17, 3), (25, 3), (33, 4), (49, 4),
   (65, 5), (97, 5), (129, 6), (193, 6), (257, 7), (385, 7), (513, 8), (769, 8), (1025, 9), (1537, 9),
   (2049, 10), (3073, 10), (4097, 11), (6145, 11), (8193, 12), (12289, 12), (16385, 13), (24577, 13)]

def readInRange (ranges : List ValueRange) (n : Nat) : BitReader Nat := do
  let (least, width) ← orCorrupt ranges[n]?
  return least + (← nextNumber width)

inductive Token where
  | literal (b : UInt8)
  | copy (length distance : Nat)
  | blockEnd

def readToken (literals distances : PrefixCode) : BitReader Token := do
  let n ← literals.read
  if n < 256 then return .literal (UInt8.ofNat n)
  if n = 256 then return .blockEnd
  let length ← readInRange lengthRanges (n - 257)
  let distance ← readInRange distanceRanges (← distances.read)
  return .copy length distance

/-- A copy may overlap what it writes: byte by byte it sees its own output. -/
def copyBack (distance : Nat) : Nat → Array UInt8 → Array UInt8
  | 0, out => out
  | n + 1, out => copyBack distance n (out.push (out.getD (out.size - distance) 0))

/-- Where the reading stands: before a block, or inside one. -/
inductive Position where
  | between
  | inside (last : Bool) (block : Block)

structure Inflation where
  position : Position
  bits : List Bool
  output : Array UInt8

/-- All of the output; or what there is of it, with the reason why there is no more. -/
inductive Inflated where
  | whole (bytes : List UInt8)
  | halted (why : Halt) (bytes : List UInt8)

def Inflation.halt (s : Inflation) (why : Halt) : Except Inflated Inflation :=
  .error (.halted why s.output.toList)

def Inflation.endBlock (s : Inflation) (last : Bool) (bits : List Bool) (output : Array UInt8) :
    Except Inflated Inflation :=
  if last then .error (.whole output.toList) else .ok { s with position := .between, bits, output }

/-- One step reads the head of a block, a byte of a stored block, or a token of a coded one. -/
def Inflation.step (s : Inflation) : Except Inflated Inflation :=
  match s.position with
  | .between => match readBlock.run s.bits with
      | .error why => s.halt why
      | .ok ((last, block), bits) => .ok { s with position := .inside last block, bits }
  | .inside last (.stored 0) => s.endBlock last s.bits s.output
  | .inside last (.stored (n + 1)) => match (nextNumber 8).run s.bits with
      | .error why => s.halt why
      | .ok (b, bits) =>
          .ok ⟨.inside last (.stored n), bits, s.output.push (UInt8.ofNat b)⟩
  | .inside last (.coded literals distances) =>
      match (readToken literals distances).run s.bits with
      | .error why => s.halt why
      | .ok (.literal b, bits) => .ok { s with bits, output := s.output.push b }
      | .ok (.blockEnd, bits) => s.endBlock last bits s.output
      | .ok (.copy length distance, bits) =>
          if s.output.size < distance then s.halt .corrupt
          else .ok { s with bits, output := copyBack distance length s.output }

/-- Every step but the one that ends a stored block takes a bit, so twice as many steps as bits are
enough to come to an end. -/
def Inflation.run : Nat → Inflation → Inflated
  | 0, s => .halted .cutOff s.output.toList
  | budget + 1, s => match s.step with
      | .error done => done
      | .ok s => run budget s

def inflate (bytes : List UInt8) : Inflated :=
  let bits := bytes.flatMap byteBits
  Inflation.run (2 * bits.length + 2) ⟨.between, bits, #[]⟩

end ExportDiff.Archive
