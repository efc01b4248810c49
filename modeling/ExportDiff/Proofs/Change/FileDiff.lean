/- A comparison of two listings reports the real changes, each of them once. -/
import ExportDiff.Change.FileDiff
import ExportDiff.Proofs.Change.PathIndex
import ExportDiff.Proofs.Change.Summary

namespace ExportDiff.Change
open Noise Snapshot

namespace Item

def leftRef (i : Item) : Option String := i.files.left?.map (·.path)

def rightRef (i : Item) : Option String := i.files.right?.map (·.path)

def originalPaths (i : Item) : List String := i.files.toList.map (·.path)

theorem refs_spec (i : Item) :
    (i.leftRef ≠ none ∨ i.rightRef ≠ none) ∧ i.originalPaths = i.leftRef.toList ++ i.rightRef.toList := by
  unfold leftRef rightRef originalPaths
  cases i.files with
  | left l => exact ⟨.inl (Option.some_ne_none _), rfl⟩
  | right r => exact ⟨.inr (Option.some_ne_none _), rfl⟩
  | both l r => exact ⟨.inl (Option.some_ne_none _), rfl⟩

end Item

/-- Both contents are known, and they agree without noise, each read by its own path. -/
def SameContents (l r : FileRecord) : Prop :=
  ∃ a b, l.content = some a ∧ r.content = some b ∧ bareContent a l.path = bareContent b r.path

theorem sameContent_iff (l r : FileRecord) : sameContent l r = true ↔ SameContents l r := by
  unfold sameContent SameContents
  cases l.content with
  | none => simp
  | some a =>
      cases r.content with
      | none => simp
      | some b => simp

/-- What the files of a key amount to: the kind of change, and the paths it refers to. -/
inductive RealChange : Option FileRecord → Option FileRecord → ChangeKind →
    Option String → Option String → Prop
  | added (r) : RealChange none (some r) .added none (some r.path)
  | removed (l) : RealChange (some l) none .removed (some l.path) none
  | modified {l r} : l.hash ≠ r.hash → ¬ SameContents l r →
      RealChange (some l) (some r) .modified (some l.path) (some r.path)

theorem RealChange.refs {l r : Option FileRecord} {change : ChangeKind} {old new : Option String}
    (h : RealChange l r change old new) : old = l.map (·.path) ∧ new = r.map (·.path) := by
  cases h with
  | added r => exact ⟨rfl, rfl⟩
  | removed l => exact ⟨rfl, rfl⟩
  | modified hash contents => exact ⟨rfl, rfl⟩

theorem RealChange.sides {l r : Option FileRecord} {change : ChangeKind} {old new : Option String}
    (h : RealChange l r change old new) : ∃ files, Sides.ofOptions? l r = some files := by
  cases h with
  | added r => exact ⟨_, rfl⟩
  | removed l => exact ⟨_, rfl⟩
  | modified hash contents => exact ⟨_, rfl⟩

theorem RealChange.differ {l r : FileRecord} {change : ChangeKind} {old new : Option String}
    (h : RealChange (some l) (some r) change old new) : l.hash ≠ r.hash ∧ ¬ SameContents l r := by
  cases h with
  | modified hash contents => exact ⟨hash, contents⟩

theorem Sides.ofOptions?_eq_some {α : Type} {a b : Option α} {files : Sides α}
    (h : Sides.ofOptions? a b = some files) : files.left? = a ∧ files.right? = b := by
  cases a <;> cases b <;> cases h <;> exact ⟨rfl, rfl⟩

theorem classify_iff (key : String) (files : Sides FileRecord) (change : ChangeKind) :
    (∃ rating, classify key files = some (change, rating)) ↔
      RealChange files.left? files.right? change (files.left?.map (·.path)) (files.right?.map (·.path)) := by
  cases files with
  | left l =>
      constructor
      · rintro ⟨rating, h⟩
        cases h
        exact .removed l
      · rintro ⟨⟩
        exact ⟨_, rfl⟩
  | right r =>
      constructor
      · rintro ⟨rating, h⟩
        cases h
        exact .added r
      · rintro ⟨⟩
        exact ⟨_, rfl⟩
  | both l r =>
      by_cases same : l.hash = r.hash ∨ SameContents l r
      · have quiet : classify key (.both l r) = none := by
          rw [classify, if_pos (by simpa [sameContent_iff] using same)]
        rw [quiet]
        constructor
        · rintro ⟨rating, h⟩
          exact nomatch h
        · rintro (_ | _ | ⟨hash, contents⟩)
          exact absurd same (not_or.mpr ⟨hash, contents⟩)
      · have loud : classify key (.both l r) = some (.modified, rateModification key l.content r.content) := by
          rw [classify, if_neg (by simpa [sameContent_iff] using same)]
        rw [loud]
        constructor
        · rintro ⟨rating, h⟩
          cases h
          exact .modified (not_or.mp same).1 (not_or.mp same).2
        · rintro (_ | _ | _)
          exact ⟨_, rfl⟩

theorem refs_ofFiles (key : String) (change : ChangeKind) (rating : Rating) (files : Sides FileRecord)
    (lineLimit : Int) :
    (Item.ofFiles key change rating files lineLimit).leftRef = files.left?.map (·.path) ∧
      (Item.ofFiles key change rating files lineLimit).rightRef = files.right?.map (·.path) := by
  cases files <;> exact ⟨rfl, rfl⟩

theorem labels_ofFiles (key : String) (change : ChangeKind) (rating : Rating) (files : Sides FileRecord)
    (lineLimit : Int) :
    (Item.ofFiles key change rating files lineLimit).category = categoryOf key ∧
      (Item.ofFiles key change rating files lineLimit).kindLabel = Artifact.kindLabel key := by
  simp only [Item.ofFiles, and_self]

section
variable {lineLimit : Int} {l r : PathIndex} {key : String}

theorem itemFor_eq_some {i : Item} (h : itemFor lineLimit l r key = some i) :
    ∃ files rating, Sides.ofOptions? (l.get? key) (r.get? key) = some files ∧
      classify key files = some (i.change, rating) ∧ i = Item.ofFiles key i.change rating files lineLimit := by
  obtain ⟨files, there, made⟩ := Option.bind_eq_some_iff.mp h
  obtain ⟨⟨change, rating⟩, kind, rfl⟩ := Option.map_eq_some_iff.mp made
  exact ⟨files, rating, there, kind, rfl⟩

theorem itemFor_key {i : Item} (h : itemFor lineLimit l r key = some i) : i.key = key := by
  obtain ⟨files, rating, _, _, same⟩ := itemFor_eq_some h
  rw [same]
  rfl

variable (lineLimit) in
theorem itemFor_iff {change : ChangeKind} {old new : Option String} :
    (∃ i, itemFor lineLimit l r key = some i ∧ i.change = change ∧ i.leftRef = old ∧ i.rightRef = new) ↔
      RealChange (l.get? key) (r.get? key) change old new := by
  constructor
  · rintro ⟨i, h, rfl, rfl, rfl⟩
    obtain ⟨files, rating, there, kind, same⟩ := itemFor_eq_some h
    have real := (classify_iff key files i.change).mp ⟨rating, kind⟩
    have refs := refs_ofFiles key i.change rating files lineLimit
    rw [← same] at refs
    obtain ⟨hl, hr⟩ := Sides.ofOptions?_eq_some there
    rw [refs.1, refs.2, ← hl, ← hr]
    exact real
  · intro h
    obtain ⟨files, there⟩ := h.sides
    obtain ⟨hl, hr⟩ := Sides.ofOptions?_eq_some there
    obtain ⟨rfl, rfl⟩ := h.refs
    rw [← hl, ← hr] at h
    obtain ⟨rating, kind⟩ := (classify_iff key files change).mpr h
    have refs := refs_ofFiles key change rating files lineLimit
    rw [hl, hr] at refs
    refine ⟨Item.ofFiles key change rating files lineLimit, ?_, rfl, refs.1, refs.2⟩
    rw [itemFor, there, Option.bind_some, kind, Option.map_some]

theorem mem_allKeys : key ∈ allKeys l r ↔ (l.get? key).isSome ∨ (r.get? key).isSome := by
  rw [allKeys, List.mem_append, List.mem_filter]
  change key ∈ l.keys ∨ key ∈ r.keys ∧ (l.get? key).isNone ↔ _
  rw [PathIndex.mem_keys, PathIndex.mem_keys]
  cases l.get? key <;> simp

theorem nodup_allKeys (hl : l.keys.Nodup) (hr : r.keys.Nodup) : (allKeys l r).Nodup := by
  refine hl.append (hr.filter _) ?_
  intro key left right
  have here := (PathIndex.mem_keys l key).mp left
  have gone := (List.mem_filter.mp right).2
  cases h : l.get? key with
  | none => simp [h] at here
  | some f => simp [h] at gone

/-- An item carries the key that it was made for, so the items have the keys that have one. -/
theorem map_key_items (keys : List String) :
    (keys.filterMap (itemFor lineLimit l r)).map (·.key) =
      keys.filter fun k => (itemFor lineLimit l r k).isSome := by
  induction keys with
  | nil => rfl
  | cons k keys ih =>
      cases h : itemFor lineLimit l r k with
      | none => simp only [List.filterMap_cons, h, ih, List.filter_cons, Option.isSome_none,
          Bool.false_eq_true, if_false]
      | some i => simp only [List.filterMap_cons, h, List.map_cons, ih, itemFor_key h,
          List.filter_cons, Option.isSome_some, if_true]

theorem mem_items_iff {i : Item} :
    i ∈ reportOrder ((allKeys l r).filterMap (itemFor lineLimit l r)) ↔
      itemFor lineLimit l r i.key = some i := by
  rw [(reportOrder_perm _).mem_iff, List.mem_filterMap]
  constructor
  · rintro ⟨key, _, h⟩
    rw [itemFor_key h]
    exact h
  · intro h
    refine ⟨i.key, mem_allKeys.mpr ?_, h⟩
    obtain ⟨files, _, there, _⟩ := itemFor_eq_some h
    obtain ⟨hl, hr⟩ := Sides.ofOptions?_eq_some there
    rw [← hl, ← hr]
    cases files with
    | left f => exact .inl rfl
    | right f => exact .inr rfl
    | both f g => exact .inl rfl

end

section
variable {lineLimit : Int} {left right : List FileRecord}

theorem labels_of_mem {i : Item} (h : i ∈ (compareFiles lineLimit left right).items) :
    i.category = categoryOf i.key ∧ i.kindLabel = Artifact.kindLabel i.key := by
  obtain ⟨files, rating, _, _, same⟩ := itemFor_eq_some (mem_items_iff.mp h)
  have labels := labels_ofFiles i.key i.change rating files lineLimit
  rwa [← same] at labels

theorem eq_of_mem_of_key {i j : Item} (hi : i ∈ (compareFiles lineLimit left right).items)
    (hj : j ∈ (compareFiles lineLimit left right).items) (same : j.key = i.key) : j = i := by
  have own := mem_items_iff.mp hj
  rw [same, mem_items_iff.mp hi] at own
  exact (Option.some.inj own).symm

theorem nodup_allKeys_ofFiles : (allKeys (.ofFiles .left left) (.ofFiles .right right)).Nodup :=
  nodup_allKeys (PathIndex.nodup_keys_ofFiles .left left) (PathIndex.nodup_keys_ofFiles .right right)

theorem nodup_keys_compareFiles : ((compareFiles lineLimit left right).items.map (·.key)).Nodup := by
  refine ((reportOrder_perm _).map _).nodup_iff.mpr ?_
  rw [map_key_items]
  exact nodup_allKeys_ofFiles.filter _

theorem reported_iff {key : String} {change : ChangeKind} {old new : Option String} :
    (∃ i ∈ (compareFiles lineLimit left right).items,
      i.key = key ∧ i.change = change ∧ i.leftRef = old ∧ i.rightRef = new) ↔
      RealChange (lastFile? left key) (lastFile? right key) change old new := by
  rw [← PathIndex.get?_ofFiles .left left, ← PathIndex.get?_ofFiles .right right,
    ← itemFor_iff lineLimit]
  constructor
  · rintro ⟨i, member, rfl, rest⟩
    exact ⟨i, mem_items_iff.mp member, rest⟩
  · rintro ⟨i, h, rest⟩
    have same := itemFor_key h
    subst same
    exact ⟨i, mem_items_iff.mpr h, rfl, rest⟩

theorem RealChange.known {key : String} {change : ChangeKind} {old new : Option String}
    (h : RealChange (lastFile? left key) (lastFile? right key) change old new) :
    ∃ f ∈ left ++ right, pathKey f.path = key := by
  obtain ⟨files, there⟩ := h.sides
  obtain ⟨hl, hr⟩ := Sides.ofOptions?_eq_some there
  cases files with
  | left f | both f g =>
      obtain ⟨member, same⟩ := lastFile?_eq_some hl.symm
      exact ⟨f, List.mem_append_left right member, same⟩
  | right f =>
      obtain ⟨member, same⟩ := lastFile?_eq_some hr.symm
      exact ⟨f, List.mem_append_right left member, same⟩

end

/-- The items are the real changes between the last files of each key, each of them once. -/
theorem compareFiles_reports_exactly (lineLimit : Int) (left right : List FileRecord) :
    ((compareFiles lineLimit left right).items.map (·.key)).Nodup ∧
    (∀ key change old new,
      (∃ i ∈ (compareFiles lineLimit left right).items,
        i.key = key ∧ i.change = change ∧ i.leftRef = old ∧ i.rightRef = new) ↔
      RealChange (lastFile? left key) (lastFile? right key) change old new) ∧
    ∀ i ∈ (compareFiles lineLimit left right).items,
      (∃ f ∈ left ++ right, pathKey f.path = i.key) ∧ (i.leftRef ≠ none ∨ i.rightRef ≠ none) ∧
        i.originalPaths = i.leftRef.toList ++ i.rightRef.toList := by
  refine ⟨nodup_keys_compareFiles, fun _ _ _ _ => reported_iff, ?_⟩
  intro i member
  have change := reported_iff.mp ⟨i, member, rfl, rfl, rfl, rfl⟩
  exact ⟨change.known, i.refs_spec⟩

end ExportDiff.Change
