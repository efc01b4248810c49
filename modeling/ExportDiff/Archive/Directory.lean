/- The directory at the end of an archive, which lists its entries. -/
import ExportDiff.Archive.Error
import ExportDiff.Text.Utf8

namespace ExportDiff.Archive

/-- The bytes of a file, with the part of it that begins at a position. -/
structure Bytes where
  all : Array UInt8

namespace Bytes

def ofList (bytes : List UInt8) : Bytes := ⟨bytes.toArray⟩

def size (b : Bytes) : Nat := b.all.size

/-- Fewer bytes than asked for where the file ends before. -/
def slice (b : Bytes) (position count : Nat) : List UInt8 :=
  (b.all.extract position (position + count)).toList

end Bytes

/-- A number with the lowest byte first. -/
def littleEndian (bytes : List UInt8) : Nat := bytes.foldr (fun b n => b.toNat + 256 * n) 0

/-- The number of the given width at a place within a record. -/
def field (record : List UInt8) (place width : Nat) : Nat :=
  littleEndian ((record.drop place).take width)

/-- The four bytes by which a record is known. -/
def hasMark (mark : Nat × Nat) (record : List UInt8) : Bool :=
  record.take 4 == [0x50, 0x4B, UInt8.ofNat mark.1, UInt8.ofNat mark.2]

def endMark : Nat × Nat := (5, 6)
def largeEndMark : Nat × Nat := (6, 6)
def largeLocatorMark : Nat × Nat := (6, 7)
def entryMark : Nat × Nat := (1, 2)
def headerMark : Nat × Nat := (3, 4)

def endLength : Nat := 22
def largeEndLength : Nat := 56
def largeLocatorLength : Nat := 20
def entryLength : Nat := 46
def headerLength : Nat := 30

/-- Where the directory says it is, and where it ends in fact. -/
structure DirectoryPlace where
  size : Nat
  position : Nat
  finish : Int

/-- The last place in a list at which the mark of the end record stands, and what follows there;
or else what was found before. -/
def lastEndRecord? (found : Option (Nat × List UInt8)) : Nat → List UInt8 → Option (Nat × List UInt8)
  | _, [] => found
  | n, b :: rest =>
      lastEndRecord? (if hasMark endMark (b :: rest) then some (n, b :: rest) else found) (n + 1) rest

/-- The end record stands last in the file, or last but for a comment. -/
def endRecord? (b : Bytes) : Option (Nat × List UInt8) :=
  let tail := b.slice (b.size - endLength) endLength
  if tail.length = endLength && hasMark endMark tail && field tail 20 2 = 0 then
    some (b.size - endLength, tail)
  else
    let searched := b.size - (0x10000 + endLength)
    let found := lastEndRecord? none searched (b.slice searched b.size)
    (found.map fun (place, rest) => (place, rest.take endLength)).filter (·.2.length = endLength)

/-- A record for large archives may stand before the end record and then takes its place. -/
def directoryPlace (b : Bytes) : Except Damage DirectoryPlace := do
  let some (place, record) := endRecord? b | throw .noDirectory
  let small : DirectoryPlace := ⟨field record 12 4, field record 16 4, place⟩
  let locator := b.slice (place - largeLocatorLength) largeLocatorLength
  if locator.length ≠ largeLocatorLength || !hasMark largeLocatorMark locator then return small
  if field locator 4 4 ≠ 0 || 1 < field locator 16 4 then throw .severalDisks
  let before := largeLocatorLength + largeEndLength
  let large := b.slice (place - before) largeEndLength
  if large.length ≠ largeEndLength || !hasMark largeEndMark large then return small
  return ⟨field large 40 8, field large 48 8, (place : Int) - before⟩

/-- One entry as the directory lists it. The name ends before its first null character. -/
structure Entry where
  listed : String
  flags : Nat
  method : Nat
  checksum : Nat
  storedSize : Nat
  size : Nat
  position : Int
  deriving DecidableEq

def Entry.name (e : Entry) : String := String.ofList (e.listed.toList.takeWhile (· ≠ '\x00'))

def Entry.isFolder (e : Entry) : Bool := e.name.toList.getLast? == some '/'

def Entry.hasFlag (e : Entry) (bit : Nat) : Bool := e.flags.testBit bit

/-- The upper half of the character set of the first personal computers, from the byte 0x80 on; the last
one is a no-break space. -/
def upperHalf : List Char :=
  ("ÇüéâäàåçêëèïîìÄÅÉæÆôöòûùÿÖÜ¢£¥₧ƒ" ++
    "áíóúñÑªº¿⌐¬½¼¡«»░▒▓│┤╡╢╖╕╣║╗╝╜╛┐" ++
    "└┴┬├─┼╞╟╚╔╩╦╠═╬╧╨╤╥╙╘╒╓╫╪┘┌█▄▌▐▀" ++
    "αßΓπΣσµτΦΘΩδ∞φε∩≡±≥≤⌠⌡÷≈°∙·√ⁿ²■\u00a0").toList

def codePageChar (b : UInt8) : Char :=
  if b < 0x80 then Char.ofNat b.toNat else upperHalf.getD (b.toNat - 0x80) '\uFFFD'

def decodeCodePage (bytes : List UInt8) : String := String.ofList (bytes.map codePageChar)

/-- Bit eleven of the flags says that the name is in UTF-8. -/
def decodeName (flags : Nat) (bytes : List UInt8) : Except Error String :=
  if flags.testBit 11 then
    match Text.decodeUtf8? bytes with
    | some s => .ok s
    | none => .error .undecodableName
  else .ok (decodeCodePage bytes)

/-- The large form of a number that its own place could not hold, and the data after it. -/
def largeNumber (needed : Bool) (what : LargeField) (small : Nat) (data : List UInt8) :
    Except Damage (Nat × List UInt8) :=
  if !needed then .ok (small, data)
  else if data.length < 8 then .error (.largeFieldMissing what)
  else .ok (field data 0 8, data.drop 8)

/-- The numbers of an entry that its extra data can replace. -/
structure Extent where
  size : Nat
  storedSize : Nat
  position : Nat

def Extent.enlarge (x : Extent) (data : List UInt8) : Except Damage Extent := do
  let (size, data) ← largeNumber (x.size = 0xFFFFFFFF || x.size = 0xFFFFFFFFFFFFFFFF) .size x.size data
  let (storedSize, data) ← largeNumber (x.storedSize = 0xFFFFFFFF) .storedSize x.storedSize data
  let (position, _) ← largeNumber (x.position = 0xFFFFFFFF) .position x.position data
  return ⟨size, storedSize, position⟩

/-- The fields of the extra data, one after another; the budget bounds their number. -/
def Extent.readExtra : Nat → List UInt8 → Extent → Except Damage Extent
  | 0, _, x => .ok x
  | budget + 1, extra, x => do
      if extra.length < 4 then return x
      let tag := field extra 0 2
      let size := field extra 2 2
      if extra.length < size + 4 then throw (.extraCut tag size)
      let x ← if tag = 1 then x.enlarge ((extra.drop 4).take size) else pure x
      readExtra budget (extra.drop (size + 4)) x

/-- The newest version of the format that is read, in tenths. -/
def newestVersion : Nat := 63

/-- The entry at the head of the directory, and the length that it gives for itself. -/
def readEntry (shift : Int) (directory : List UInt8) : Except Error (Entry × Nat) := do
  let record := directory.take entryLength
  if record.length ≠ entryLength then throw (.damaged .directoryCut)
  if !hasMark entryMark record then throw (.damaged .strangeDirectoryEntry)
  let nameLength := field record 28 2
  let extraLength := field record 30 2
  let commentLength := field record 32 2
  let rest := directory.drop entryLength
  let flags := field record 8 2
  let listed ← decodeName flags (rest.take nameLength)
  if newestVersion < field record 6 1 then throw .unsupported
  let extra := (rest.drop nameLength).take extraLength
  let small : Extent := ⟨field record 24 4, field record 20 4, field record 42 4⟩
  let extent ← (small.readExtra (extra.length + 1) extra).mapError .damaged
  return ({
    listed, flags
    method := field record 10 2
    checksum := field record 16 4
    storedSize := extent.storedSize
    size := extent.size
    position := extent.position + shift
  }, entryLength + nameLength + extraLength + commentLength)

/-- Entries up to the end of the directory; each takes at least one byte, which the budget counts. -/
def readEntries (shift : Int) : Nat → List UInt8 → Except Error (List Entry)
  | 0, _ => .ok []
  | _, [] => .ok []
  | budget + 1, directory => do
      let (e, length) ← readEntry shift directory
      return e :: (← readEntries shift budget (directory.drop length))

/-- The entries in the order of the directory, and where the directory begins. Bytes before the
archive shift every position. -/
def readDirectory (b : Bytes) : Except Error (List Entry × Nat) := do
  let found ← (directoryPlace b).mapError .damaged
  let start := found.finish - found.size
  if start < 0 then throw (.damaged .directoryOutside)
  let directory := b.slice start.toNat found.size
  let entries ← readEntries (start - found.position) directory.length directory
  return (entries, start.toNat)

end ExportDiff.Archive
