/- Comparing in the other direction reports the mirror image of every change. -/
import ExportDiff.Proofs.Change.FileDiff

namespace ExportDiff.Change
open Snapshot

def ChangeKind.mirror : ChangeKind → ChangeKind
  | .added => .removed
  | .removed => .added
  | .modified => .modified

namespace Sides
variable {α β : Type}

def swap : Sides α → Sides α
  | .left x => .right x
  | .right x => .left x
  | .both l r => .both r l

theorem ofOptions?_swap (a b : Option α) : ofOptions? b a = (ofOptions? a b).map swap := by
  cases a <;> cases b <;> rfl

theorem map_swap (f : α → β) (s : Sides α) : s.swap.map f = (s.map f).swap := by
  cases s <;> rfl

theorem left?_swap (s : Sides α) : s.swap.left? = s.right? := by
  cases s <;> rfl

theorem right?_swap (s : Sides α) : s.swap.right? = s.left? := by
  cases s <;> rfl

end Sides

theorem sameContent_comm (l r : FileRecord) : sameContent r l = sameContent l r := by
  unfold sameContent
  cases l.content <;> cases r.content <;> simp [eq_comm]

theorem differAsXml_comm (a b : Option String) : differAsXml b a = differAsXml a b := by
  cases a <;> cases b <;> simp [differAsXml, eq_comm]

theorem rateModification_comm (key : String) (a b : Option String) :
    rateModification key b a = rateModification key a b := by
  simp only [rateModification, differAsXml_comm a b]

/-- A file that is on one side only is rated by its kind of change, any other file by its contents. -/
theorem classify_swap {key : String} {files : Sides FileRecord} {change : ChangeKind} {rating : Rating}
    (h : classify key files = some (change, rating)) :
    ∃ rating', classify key files.swap = some (change.mirror, rating') ∧
      (change = .modified → rating' = rating) := by
  cases files with
  | left l =>
      cases h
      exact ⟨_, rfl, nofun⟩
  | right r =>
      cases h
      exact ⟨_, rfl, nofun⟩
  | both l r =>
      rw [classify] at h
      split at h
      · cases h
      · rename_i differ
        cases h
        have differ' : ¬ (r.hash = l.hash || sameContent r l) = true := by
          rw [Bool.or_eq_true, decide_eq_true_iff] at differ ⊢
          rwa [eq_comm, sameContent_comm]
        refine ⟨rateModification key l.content r.content, ?_, fun _ => rfl⟩
        rw [Sides.swap, classify, if_neg differ', rateModification_comm]
        rfl

namespace Item

def leftHash (i : Item) : Option String := i.files.left?.bind (·.hash)

def rightHash (i : Item) : Option String := i.files.right?.bind (·.hash)

/-- The same file of the same kind, with its two sides exchanged. -/
structure Mirrors (i j : Item) : Prop where
  key : j.key = i.key
  change : j.change = i.change.mirror
  leftRef : j.leftRef = i.rightRef
  rightRef : j.rightRef = i.leftRef
  leftHash : j.leftHash = i.rightHash
  rightHash : j.rightHash = i.leftHash
  kindLabel : j.kindLabel = i.kindLabel
  category : j.category = i.category
  rating : i.change = .modified → j.rating = i.rating

theorem ofFiles_mirrors (key : String) {change : ChangeKind} {rating rating' : Rating}
    (files : Sides FileRecord) (lineLimit : Int) (same : change = .modified → rating' = rating) :
    (ofFiles key change rating files lineLimit).Mirrors
      (ofFiles key change.mirror rating' files.swap lineLimit) where
  key := rfl
  change := rfl
  leftRef := by simp only [leftRef, rightRef, ofFiles, Sides.map_swap, Sides.left?_swap]
  rightRef := by simp only [leftRef, rightRef, ofFiles, Sides.map_swap, Sides.right?_swap]
  leftHash := by simp only [leftHash, rightHash, ofFiles, Sides.map_swap, Sides.left?_swap]
  rightHash := by simp only [leftHash, rightHash, ofFiles, Sides.map_swap, Sides.right?_swap]
  kindLabel := rfl
  category := rfl
  rating := same

end Item

theorem itemFor_swap {l r l' r' : PathIndex} {key : String} {lineLimit : Int} {i : Item}
    (hl : l'.get? key = r.get? key) (hr : r'.get? key = l.get? key) (h : itemFor lineLimit l r key = some i) :
    ∃ j, itemFor lineLimit l' r' key = some j ∧ i.Mirrors j := by
  obtain ⟨files, rating, there, kind, same⟩ := itemFor_eq_some h
  obtain ⟨rating', kind', rated⟩ := classify_swap kind
  refine ⟨Item.ofFiles key i.change.mirror rating' files.swap lineLimit, ?_, ?_⟩
  · rw [itemFor, hl, hr, Sides.ofOptions?_swap, there, Option.map_some, Option.bind_some, kind',
      Option.map_some]
  · have mirrors := Item.ofFiles_mirrors key files lineLimit rated
    rwa [← same] at mirrors

section
variable {lineLimit : Int} {left right : List FileRecord}

theorem exists_mirror {i : Item} (h : i ∈ (compareFiles lineLimit left right).items) :
    ∃ j ∈ (compareFiles lineLimit right left).items, i.Mirrors j := by
  have hl : (PathIndex.ofFiles .left right).get? i.key = (PathIndex.ofFiles .right right).get? i.key := by
    rw [PathIndex.get?_ofFiles, PathIndex.get?_ofFiles]
  have hr : (PathIndex.ofFiles .right left).get? i.key = (PathIndex.ofFiles .left left).get? i.key := by
    rw [PathIndex.get?_ofFiles, PathIndex.get?_ofFiles]
  obtain ⟨j, made, mirrors⟩ := itemFor_swap hl hr (mem_items_iff.mp h)
  refine ⟨j, mem_items_iff.mpr ?_, mirrors⟩
  rwa [mirrors.key]

theorem key_mem_mirror {key : String} (h : key ∈ (compareFiles lineLimit left right).items.map (·.key)) :
    key ∈ (compareFiles lineLimit right left).items.map (·.key) := by
  obtain ⟨i, member, rfl⟩ := List.mem_map.mp h
  obtain ⟨j, there, mirrors⟩ := exists_mirror member
  exact List.mem_map.mpr ⟨j, there, mirrors.key⟩

end

/-- Both directions report the same keys, and what they report of a key mirrors each other: only the
rating of a file that is added or removed depends on the direction. -/
theorem compareFiles_mirrored (lineLimit : Int) (left right : List FileRecord) :
    ((compareFiles lineLimit right left).items.map (·.key)).Perm
      ((compareFiles lineLimit left right).items.map (·.key)) ∧
    ∀ i ∈ (compareFiles lineLimit left right).items, ∀ j ∈ (compareFiles lineLimit right left).items,
      j.key = i.key → i.Mirrors j := by
  constructor
  · rw [List.perm_ext_iff_of_nodup nodup_keys_compareFiles nodup_keys_compareFiles]
    exact fun key => ⟨key_mem_mirror, key_mem_mirror⟩
  · intro i hi j hj same
    obtain ⟨m, there, mirrors⟩ := exists_mirror hi
    rw [eq_of_mem_of_key there hj (same.trans mirrors.key.symm)]
    exact mirrors

end ExportDiff.Change
