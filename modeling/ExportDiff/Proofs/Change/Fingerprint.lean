/- What the hash of an entry tells of its bytes: no more than what they are read as. -/
import ExportDiff.Archive.Reader
import ExportDiff.Proofs.Change.FileDiff
import ExportDiff.Proofs.Text.Utf8

namespace ExportDiff.Change
open Archive Snapshot Text

/-- The digest has no collision here: it is the same for both only when they are the same. -/
def TellsApart (x y : List UInt8) : Prop := Digest.sha256 x = Digest.sha256 y → x = y

section
variable {left right : List UInt8}

theorem readRecord_of_content {b : Bytes} {e : Entry} {finish : Int} (limit : Nat)
    (h : content b e finish = .ok left) : readRecord limit b e finish = .ok (.ofBytes limit e.name e.size left) := by
  rw [readRecord, h]
  rfl

theorem hash_ofBytes (limit : Nat) (path : String) (size : Nat) (bytes : List UInt8) :
    (FileRecord.ofBytes limit path size bytes).hash = Digest.sha256 (encodeUtf8 (decodeUtf8 bytes)) := rfl

theorem hash_eq_iff_readAlike (apart : TellsApart (encodeUtf8 (decodeUtf8 left)) (encodeUtf8 (decodeUtf8 right)))
    (limit limit' : Nat) (path path' : String) (size size' : Nat) :
    (FileRecord.ofBytes limit path size left).hash = (FileRecord.ofBytes limit' path' size' right).hash ↔
      ReadAlike left right := by
  rw [hash_ofBytes, hash_ofBytes, ← decodeUtf8_eq_iff]
  constructor
  · exact fun same => encodeUtf8_injective (apart same)
  · exact fun same => by rw [same]

theorem not_readAlike_of_texts (differ : left ≠ right)
    (texts : IsText left ∧ IsText right ∨ '\uFFFD' ∉ (decodeUtf8 left).toList) : ¬ ReadAlike left right := by
  intro alike
  rcases texts with ⟨text, text'⟩ | unmarked
  · exact differ (eq_of_readAlike alike text text')
  · have only := readAlike_only_self_iff.mpr ⟨isText_of_unmarked unmarked, unmarked⟩
    exact differ (only right alike).symm

/-- Two files of one key are reported unless the hashes or the known contents agree. -/
theorem reported_both_iff {lineLimit : Int} {files files' : List FileRecord} {key : String} {l r : FileRecord}
    (h : lastFile? files key = some l) (h' : lastFile? files' key = some r) :
    (∃ i ∈ (compareFiles lineLimit files files').items, i.key = key) ↔ l.hash ≠ r.hash ∧ ¬ SameContents l r := by
  constructor
  · rintro ⟨i, member, rfl⟩
    have real := reported_iff.mp ⟨i, member, rfl, rfl, rfl, rfl⟩
    rw [h, h'] at real
    exact real.differ
  · rintro ⟨hash, contents⟩
    have real : RealChange (lastFile? files key) (lastFile? files' key) .modified (some l.path) (some r.path) := by
      rw [h, h']
      exact .modified hash contents
    obtain ⟨i, member, same, _⟩ := reported_iff.mpr real
    exact ⟨i, member, same⟩

end

/-- Entries have the same hash just when their bytes read alike, and only then does the hash hide a change. So it
hides none between well-formed texts, and none of a text without replacement characters; all other bytes read like
others. -/
theorem entries_told_apart {left right : List UInt8}
    (apart : TellsApart (encodeUtf8 (decodeUtf8 left)) (encodeUtf8 (decodeUtf8 right)))
    {b b' : Bytes} {e e' : Entry} {finish finish' : Int} (limit limit' : Nat)
    (here : content b e finish = .ok left) (there : content b' e' finish' = .ok right) :
    ∃ l r, readRecord limit b e finish = .ok l ∧ readRecord limit' b' e' finish' = .ok r ∧
      (l.hash = r.hash ↔ ReadAlike left right) ∧
      (left ≠ right → (IsText left ∧ IsText right ∨ '\uFFFD' ∉ (decodeUtf8 left).toList) → l.hash ≠ r.hash) ∧
      ((∀ other, ReadAlike left other → other = left) ↔ IsText left ∧ '\uFFFD' ∉ (decodeUtf8 left).toList) ∧
      ∀ lineLimit files files' key, lastFile? files key = some l → lastFile? files' key = some r →
        ((∃ i ∈ (compareFiles lineLimit files files').items, i.key = key) ↔
          ¬ ReadAlike left right ∧ ¬ SameContents l r) := by
  have hashes := hash_eq_iff_readAlike apart limit limit' e.name e'.name e.size e'.size
  refine ⟨_, _, readRecord_of_content limit here, readRecord_of_content limit' there, hashes, ?_,
    readAlike_only_self_iff, ?_⟩
  · exact fun differ texts => mt hashes.mp (not_readAlike_of_texts differ texts)
  · intro lineLimit files files' key h h'
    rw [reported_both_iff h h', ne_eq, hashes]

/-- An archive up to its directory: one stored entry, with one byte of name and one of data. -/
def oneByteArchive (b : UInt8) : Bytes :=
  .ofList ([0x50, 0x4B, 3, 4] ++ List.replicate 22 0 ++ [1, 0, 0, 0, 0x61, b])

/-- The entry of that archive as a directory lists it. -/
def oneByteEntry (b : UInt8) : Entry where
  listed := "a"
  flags := 0
  method := 0
  checksum := (Digest.crc32 [b]).toNat
  storedSize := 1
  size := 1
  position := 0

theorem entries_told_apart_letters : ∃ l r,
    readRecord 10 (oneByteArchive 0x61) (oneByteEntry 0x61) 32 = .ok l ∧
    readRecord 10 (oneByteArchive 0x62) (oneByteEntry 0x62) 32 = .ok r ∧ l.hash ≠ r.hash := by
  have apart : TellsApart (encodeUtf8 (decodeUtf8 [0x61])) (encodeUtf8 (decodeUtf8 [0x62])) := fun same =>
    absurd same (by decide +kernel)
  have here : content (oneByteArchive 0x61) (oneByteEntry 0x61) 32 = .ok [0x61] := by decide
  have there : content (oneByteArchive 0x62) (oneByteEntry 0x62) 32 = .ok [0x62] := by decide
  obtain ⟨l, r, left, right, _, texts, _⟩ := entries_told_apart apart 10 10 here there
  exact ⟨l, r, left, right, texts (by decide) (.inr (by decide))⟩

/-- Two bytes that start no character have the same hash, so that one in place of the other is never reported. -/
theorem entries_hashed_alike : ∃ l r,
    content (oneByteArchive 0xFF) (oneByteEntry 0xFF) 32 = .ok [0xFF] ∧
    content (oneByteArchive 0xFE) (oneByteEntry 0xFE) 32 = .ok [0xFE] ∧ ([0xFF] : List UInt8) ≠ [0xFE] ∧
    TellsApart (encodeUtf8 (decodeUtf8 [0xFF])) (encodeUtf8 (decodeUtf8 [0xFE])) ∧
    readRecord 0 (oneByteArchive 0xFF) (oneByteEntry 0xFF) 32 = .ok l ∧
    readRecord 0 (oneByteArchive 0xFE) (oneByteEntry 0xFE) 32 = .ok r ∧
    l.path = r.path ∧ l.hash = r.hash ∧ (compareFiles 50 [l] [r]).items = [] := by
  have here : content (oneByteArchive 0xFF) (oneByteEntry 0xFF) 32 = .ok [0xFF] := by decide
  have there : content (oneByteArchive 0xFE) (oneByteEntry 0xFE) 32 = .ok [0xFE] := by decide
  exact ⟨_, _, here, there, by decide, fun _ => by decide, readRecord_of_content 0 here,
    readRecord_of_content 0 there, rfl, by decide +kernel, by decide +kernel⟩

end ExportDiff.Change
