/- A comparison does not depend on the order of the files, as long as those of one key keep theirs. -/
import ExportDiff.Proofs.Change.FileDiff

namespace ExportDiff.Change
open Noise Snapshot

/-- The same files in another order, in which those of one key follow each other as before. -/
structure Rearranged (files files' : List FileRecord) : Prop where
  perm : files.Perm files'
  ofKey : ∀ key, filesOf key files = filesOf key files'

namespace Rearranged
variable {files files' : List FileRecord} {f g : FileRecord}

theorem swap (apart : pathKey f.path ≠ pathKey g.path) (files : List FileRecord) :
    Rearranged (f :: g :: files) (g :: f :: files) := by
  refine ⟨.swap g f files, ?_⟩
  intro key
  simp only [filesOf, List.filter_cons, decide_eq_true_eq]
  by_cases hf : pathKey f.path = key
  · have hg : pathKey g.path ≠ key := fun hg => apart (hf.trans hg.symm)
    simp only [if_pos hf, if_neg hg]
  · simp only [if_neg hf]

theorem get?_eq (h : Rearranged files files') (side : Side) (key : String) :
    (PathIndex.ofFiles side files).get? key = (PathIndex.ofFiles side files').get? key := by
  rw [PathIndex.get?_ofFiles, PathIndex.get?_ofFiles, ← lastFile?_filesOf, h.ofKey, lastFile?_filesOf]

theorem collisions (h : Rearranged files files') (side : Side) :
    (PathIndex.ofFiles side files).collisions.Perm (PathIndex.ofFiles side files').collisions := by
  rw [List.perm_iff_count]
  intro c
  -- A collision is counted among those of its own key, which only the files of that key cause.
  have own (cs : List Collision) : (cs.filter (·.key = c.key)).count c = cs.count c :=
    List.count_filter (by simp)
  rw [← own (PathIndex.ofFiles side files).collisions, ← own (PathIndex.ofFiles side files').collisions,
    PathIndex.collisions_filesOf, PathIndex.collisions_filesOf, h.ofKey]

end Rearranged

section
variable {l l' r r' : PathIndex}

theorem itemFor_congr (hl : ∀ key, l.get? key = l'.get? key) (hr : ∀ key, r.get? key = r'.get? key)
    (lineLimit : Int) : itemFor lineLimit l r = itemFor lineLimit l' r' := by
  funext key
  rw [itemFor, itemFor, hl, hr]

theorem allKeys_perm (hl : ∀ key, l.get? key = l'.get? key) (hr : ∀ key, r.get? key = r'.get? key)
    (keys : (allKeys l r).Nodup) (keys' : (allKeys l' r').Nodup) : (allKeys l r).Perm (allKeys l' r') := by
  rw [List.perm_ext_iff_of_nodup keys keys']
  intro key
  rw [mem_allKeys, mem_allKeys, hl, hr]

end

/-- The same items, counts and warnings. As the severities are the same place by place, only items of one
severity may have changed places. -/
structure SameButOrder (d d' : FileDiff) : Prop where
  items : d.items.Perm d'.items
  severities : d.items.map (·.rating.severity) = d'.items.map (·.rating.severity)
  summary : d.summary = d'.summary
  warnings : d.warnings.Perm d'.warnings
  unchanged : d.unchanged = d'.unchanged

theorem compareFiles_rearranged {left left' right right' : List FileRecord} (lineLimit : Int)
    (hl : Rearranged left left') (hr : Rearranged right right') :
    SameButOrder (compareFiles lineLimit left right) (compareFiles lineLimit left' right') := by
  -- Only the last file of a key reaches an item, and that is what the indexes give on both sides.
  have sameLeft := hl.get?_eq .left
  have sameRight := hr.get?_eq .right
  have keys := allKeys_perm sameLeft sameRight nodup_allKeys_ofFiles nodup_allKeys_ofFiles
  have items : (compareFiles lineLimit left right).items.Perm (compareFiles lineLimit left' right').items := by
    refine (reportOrder_perm _).trans (.trans ?_ (reportOrder_perm _).symm)
    rw [itemFor_congr sameLeft sameRight]
    exact keys.filterMap _
  refine ⟨items, ?_, summarize_perm items, ?_, ?_⟩
  · exact severities_eq_of_perm items (reportOrder_sorted _) (reportOrder_sorted _)
  · exact ((hl.collisions .left).append (hr.collisions .right)).map Collision.message
  · exact congrArg₂ (· - ·) keys.length_eq items.length_eq

/-- A numbered copy of a flow; all copies have one key. -/
def flowCopy (copy hash : String) : FileRecord := ⟨"a/Flow (" ++ copy ++ ").xml", hash, 1, none⟩

def mappingFile : FileRecord := ⟨"a/map.xsl", "m", 1, some "<x/>"⟩

/-- A mapping may change places with a flow on either side, but the second copy of the flow still takes
the place of the first. -/
theorem compareFiles_mapping_moved :
    Rearranged [flowCopy "1" "a", mappingFile, flowCopy "2" "b"] [mappingFile, flowCopy "1" "a", flowCopy "2" "b"] ∧
    Rearranged [flowCopy "3" "c", mappingFile] [mappingFile, flowCopy "3" "c"] ∧
    SameButOrder
      (compareFiles 50 [flowCopy "1" "a", mappingFile, flowCopy "2" "b"] [flowCopy "3" "c", mappingFile])
      (compareFiles 50 [mappingFile, flowCopy "1" "a", flowCopy "2" "b"] [mappingFile, flowCopy "3" "c"]) := by
  have apart (copy hash : String) (same : pathKey (flowCopy copy hash).path = "a/flow.xml") :
      pathKey (flowCopy copy hash).path ≠ pathKey mappingFile.path := by
    rw [same]
    decide +kernel
  have left := Rearranged.swap (apart "1" "a" (by decide +kernel)) [flowCopy "2" "b"]
  have right := Rearranged.swap (apart "3" "c" (by decide +kernel)) []
  exact ⟨left, right, compareFiles_rearranged 50 left right⟩

end ExportDiff.Change
