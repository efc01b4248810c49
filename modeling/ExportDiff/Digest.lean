/- Digests of bytes: the secure hash of 256 bits, and the cyclic redundancy check of 32. -/
import ExportDiff.Text.Quoted

namespace ExportDiff.Digest

/-- The eight words of the running hash. -/
structure Words where
  a : UInt32
  b : UInt32
  c : UInt32
  d : UInt32
  e : UInt32
  f : UInt32
  g : UInt32
  h : UInt32

def Words.add (s t : Words) : Words :=
  ⟨s.a + t.a, s.b + t.b, s.c + t.c, s.d + t.d, s.e + t.e, s.f + t.f, s.g + t.g, s.h + t.h⟩

def Words.toList (s : Words) : List UInt32 := [s.a, s.b, s.c, s.d, s.e, s.f, s.g, s.h]

/-- The first fractional bits of the square roots of the first eight primes. -/
def initialWords : Words :=
  ⟨0x6a09e667, 0xbb67ae85, 0x3c6ef372, 0xa54ff53a, 0x510e527f, 0x9b05688c, 0x1f83d9ab, 0x5be0cd19⟩

/-- The first fractional bits of the cube roots of the first sixty-four primes. -/
def roundWords : List UInt32 :=
  [0x428a2f98, 0x71374491, 0xb5c0fbcf, 0xe9b5dba5, 0x3956c25b, 0x59f111f1, 0x923f82a4, 0xab1c5ed5,
   0xd807aa98, 0x12835b01, 0x243185be, 0x550c7dc3, 0x72be5d74, 0x80deb1fe, 0x9bdc06a7, 0xc19bf174,
   0xe49b69c1, 0xefbe4786, 0x0fc19dc6, 0x240ca1cc, 0x2de92c6f, 0x4a7484aa, 0x5cb0a9dc, 0x76f988da,
   0x983e5152, 0xa831c66d, 0xb00327c8, 0xbf597fc7, 0xc6e00bf3, 0xd5a79147, 0x06ca6351, 0x14292967,
   0x27b70a85, 0x2e1b2138, 0x4d2c6dfc, 0x53380d13, 0x650a7354, 0x766a0abb, 0x81c2c92e, 0x92722c85,
   0xa2bfe8a1, 0xa81a664b, 0xc24b8b70, 0xc76c51a3, 0xd192e819, 0xd6990624, 0xf40e3585, 0x106aa070,
   0x19a4c116, 0x1e376c08, 0x2748774c, 0x34b0bcb5, 0x391c0cb3, 0x4ed8aa4a, 0x5b9cca4f, 0x682e6ff3,
   0x748f82ee, 0x78a5636f, 0x84c87814, 0x8cc70208, 0x90befffa, 0xa4506ceb, 0xbef9a3f7, 0xc67178f2]

def turned (w n : UInt32) : UInt32 := (w >>> n) ||| (w <<< (32 - n))

/-- Sixteen words of a block become sixty-four; the list holds the latest word first. -/
def extendSchedule : Nat → List UInt32 → List UInt32
  | 0, w => w
  | n + 1, w =>
      let early := w.getD 14 0
      let late := w.getD 1 0
      let mixed := (turned early 7 ^^^ turned early 18 ^^^ (early >>> 3)) +
        (turned late 17 ^^^ turned late 19 ^^^ (late >>> 10))
      extendSchedule n ((w.getD 15 0 + w.getD 6 0 + mixed) :: w)

def hashRound (s : Words) (kw : UInt32 × UInt32) : Words :=
  let chosen := (s.e &&& s.f) ^^^ (~~~s.e &&& s.g)
  let major := (s.a &&& s.b) ^^^ (s.a &&& s.c) ^^^ (s.b &&& s.c)
  let one := s.h + (turned s.e 6 ^^^ turned s.e 11 ^^^ turned s.e 25) + chosen + kw.1 + kw.2
  let two := (turned s.a 2 ^^^ turned s.a 13 ^^^ turned s.a 22) + major
  ⟨one + two, s.a, s.b, s.c, s.d + one, s.e, s.f, s.g⟩

/-- Words with the highest byte first. -/
def bigEndianWords : List UInt8 → List UInt32
  | a :: b :: c :: d :: rest =>
      ((a.toUInt32 <<< 24) ||| (b.toUInt32 <<< 16) ||| (c.toUInt32 <<< 8) ||| d.toUInt32) ::
        bigEndianWords rest
  | _ => []

def hashBlock (s : Words) (block : List UInt8) : Words :=
  let schedule := (extendSchedule 48 (bigEndianWords block).reverse).reverse
  s.add ((roundWords.zip schedule).foldl hashRound s)

def hashBlocks : Nat → Words → List UInt8 → Words
  | 0, s, _ => s
  | n + 1, s, bytes => hashBlocks n (hashBlock s (bytes.take 64)) (bytes.drop 64)

/-- The `width` lowest bytes of a number, the highest first. -/
def bigEndianBytes (width n : Nat) : List UInt8 :=
  (List.range width).reverse.map fun i => UInt8.ofNat (n / Nat.pow 256 i % 256)

/-- A one bit, zeros up to the last eight bytes of a block, and there the length in bits. -/
def padded (bytes : List UInt8) : List UInt8 :=
  let zeros := (119 - bytes.length % 64) % 64
  bytes ++ 0x80 :: List.replicate zeros 0 ++ bigEndianBytes 8 (bytes.length * 8)

/-- The hash as sixty-four hexadecimal digits. -/
def sha256 (bytes : List UInt8) : String :=
  let message := padded bytes
  let s := hashBlocks (message.length / 64) initialWords message
  String.ofList (s.toList.flatMap fun w => Text.hexDigits 8 w.toNat)

/-- One bit of division by the reflected polynomial of the redundancy check. -/
def crcBit (c : UInt32) : UInt32 :=
  if c &&& 1 = 1 then (c >>> 1) ^^^ 0xEDB88320 else c >>> 1

def crcByte (c : UInt32) (b : UInt8) : UInt32 :=
  Nat.repeat crcBit 8 (c ^^^ b.toUInt32)

def crc32 (bytes : List UInt8) : UInt32 := (bytes.foldl crcByte 0xFFFFFFFF) ^^^ 0xFFFFFFFF

end ExportDiff.Digest
