/- Reading an archive: the limit for contents decides nothing but which texts are kept. -/
import ExportDiff.Archive.Reader

namespace ExportDiff.Archive
open Snapshot Text

/-- A file as it stands in an archive. -/
structure Source where
  path : String
  size : Nat
  text : String

def Source.record (limit : Nat) (s : Source) : FileRecord := .ofText limit s.path s.size s.text

/-- What is read of files when a text below the limit is kept. -/
def recordsOf (limit : Nat) (sources : List Source) : List FileRecord := sources.map (·.record limit)

theorem Source.record_of_holdsFlow {s : Source} (h : Artifact.holdsFlow s.path = true) (m n : Nat) :
    s.record m = s.record n := by
  simp [record, FileRecord.ofText, h]

def readSource (b : Bytes) (e : Entry) (finish : Int) : Except Error Source := do
  return ⟨e.name, e.size, decodeUtf8 (← content b e finish)⟩

/-- The files of an archive, in the order of the directory. -/
def readSources (b : Bytes) : Except Error (List Source) := do
  let (entries, start) ← readDirectory b
  ((bounded start entries).filter fun (e, _) => !e.isFolder).mapM fun (e, finish) => readSource b e finish

theorem readRecord_eq (limit : Nat) (b : Bytes) (e : Entry) (finish : Int) :
    readRecord limit b e finish = (readSource b e finish).map (·.record limit) := by
  rw [readRecord, readSource]
  cases content b e finish <;> rfl

theorem mapM_map_except {ε α β γ : Type} (f : α → Except ε β) (g : β → γ) (items : List α) :
    items.mapM (fun a => (f a).map g) = (items.mapM f).map (List.map g) := by
  induction items with
  | nil => rfl
  | cons a items ih =>
      rw [List.mapM_cons, List.mapM_cons, ih]
      cases f a with
      | error e => rfl
      | ok v => cases items.mapM f <;> rfl

/-- The limit decides nothing but which texts are kept. -/
theorem readRecords_eq (limit : Nat) (b : Bytes) : readRecords limit b = (readSources b).map (recordsOf limit) := by
  rw [readRecords, readSources]
  simp only [readRecord_eq]
  cases readDirectory b with
  | error e => rfl
  | ok directory => exact mapM_map_except (fun p : Entry × Int => readSource b p.1 p.2) (·.record limit) _

end ExportDiff.Archive
