/- The index of a side holds each key once, with the last file of that key. -/
import ExportDiff.Change.PathIndex
import Mathlib.Data.List.Induction
import Mathlib.Data.List.Nodup

namespace ExportDiff.Change
open Noise Snapshot

def lastFile? (files : List FileRecord) (key : String) : Option FileRecord :=
  files.reverse.find? fun f => pathKey f.path = key

theorem lastFile?_snoc (files : List FileRecord) (f : FileRecord) (key : String) :
    lastFile? (files ++ [f]) key = if pathKey f.path = key then some f else lastFile? files key := by
  rw [lastFile?, List.reverse_concat, List.find?_cons]
  by_cases h : pathKey f.path = key
  · simp only [h, decide_true, if_true]
  · simp only [h, decide_false, if_false]
    rfl

theorem lastFile?_eq_some {files : List FileRecord} {key : String} {f : FileRecord}
    (h : lastFile? files key = some f) : f ∈ files ∧ pathKey f.path = key := by
  refine ⟨List.mem_reverse.mp (List.mem_of_find?_eq_some h), ?_⟩
  simpa only [decide_eq_true_eq] using List.find?_some h

def filesOf (key : String) (files : List FileRecord) : List FileRecord :=
  files.filter fun f => pathKey f.path = key

theorem filesOf_snoc (key : String) (files : List FileRecord) (f : FileRecord) :
    filesOf key (files ++ [f]) = if pathKey f.path = key then filesOf key files ++ [f] else filesOf key files := by
  unfold filesOf
  by_cases h : pathKey f.path = key <;> simp [List.filter_append, h]

theorem lastFile?_filesOf (key : String) (files : List FileRecord) :
    lastFile? (filesOf key files) key = lastFile? files key := by
  simp [lastFile?, filesOf, ← List.filter_reverse, List.find?_filter]

theorem lookupKey_putKey (k key : String) (f : FileRecord) (entries : List (String × FileRecord)) :
    lookupKey k (putKey key f entries) = if key = k then some f else lookupKey k entries := by
  induction entries with
  | nil => rfl
  | cons e entries ih =>
      obtain ⟨l, g⟩ := e
      by_cases hl : l = key
      · subst hl
        simp only [putKey, lookupKey, if_true]
        split <;> rfl
      · by_cases hk : l = k
        · subst hk
          simp only [putKey, lookupKey, if_neg hl, if_neg (Ne.symm hl), if_true]
        · simp only [putKey, lookupKey, if_neg hl, if_neg hk, ih]

theorem keys_putKey (key : String) (f : FileRecord) (entries : List (String × FileRecord)) :
    (putKey key f entries).map (·.1) =
      if key ∈ entries.map (·.1) then entries.map (·.1) else entries.map (·.1) ++ [key] := by
  induction entries with
  | nil => rfl
  | cons e entries ih =>
      obtain ⟨l, g⟩ := e
      by_cases hl : l = key
      · subst hl
        simp [putKey]
      · have hk : key ≠ l := Ne.symm hl
        simp only [putKey, if_neg hl, List.map_cons, ih, List.mem_cons, hk, false_or]
        split <;> rfl

theorem mem_keys_iff (key : String) (entries : List (String × FileRecord)) :
    key ∈ entries.map (·.1) ↔ (lookupKey key entries).isSome := by
  induction entries with
  | nil => simp [lookupKey]
  | cons e entries ih =>
      obtain ⟨l, g⟩ := e
      by_cases hl : l = key
      · simp [lookupKey, hl]
      · simp [lookupKey, hl, Ne.symm hl, ← ih]

namespace PathIndex

def keys (ix : PathIndex) : List String := ix.entries.map (·.1)

theorem mem_keys (ix : PathIndex) (key : String) : key ∈ ix.keys ↔ (ix.get? key).isSome :=
  mem_keys_iff key ix.entries

theorem get?_add (side : Side) (ix : PathIndex) (f : FileRecord) (key : String) :
    (ix.add side f).get? key = if pathKey f.path = key then some f else ix.get? key :=
  lookupKey_putKey key (pathKey f.path) f ix.entries

theorem keys_add (side : Side) (ix : PathIndex) (f : FileRecord) :
    (ix.add side f).keys =
      if pathKey f.path ∈ ix.keys then ix.keys else ix.keys ++ [pathKey f.path] :=
  keys_putKey (pathKey f.path) f ix.entries

theorem nodup_keys_add {ix : PathIndex} (h : ix.keys.Nodup) (side : Side) (f : FileRecord) :
    (ix.add side f).keys.Nodup := by
  rw [keys_add]
  split
  case isTrue => exact h
  case isFalse new => simpa only [List.concat_eq_append] using h.concat new

theorem ofFiles_snoc (side : Side) (files : List FileRecord) (f : FileRecord) :
    ofFiles side (files ++ [f]) = (ofFiles side files).add side f := by
  rw [ofFiles, List.foldl_append]
  rfl

theorem get?_ofFiles (side : Side) (files : List FileRecord) (key : String) :
    (ofFiles side files).get? key = lastFile? files key := by
  induction files using List.reverseRecOn with
  | nil => rfl
  | append_singleton files f ih => rw [ofFiles_snoc, get?_add, lastFile?_snoc, ih]

theorem nodup_keys_ofFiles (side : Side) (files : List FileRecord) : (ofFiles side files).keys.Nodup := by
  induction files using List.reverseRecOn with
  | nil => exact List.nodup_nil
  | append_singleton files f ih =>
      rw [ofFiles_snoc]
      exact nodup_keys_add ih side f

/-- The collision that a file causes when its key has been taken. -/
def clash (side : Side) (f : FileRecord) : Option FileRecord → List Collision
  | some g => if g.path = f.path then [] else [⟨side, g.path, f.path, pathKey f.path⟩]
  | none => []

theorem collisions_add (side : Side) (ix : PathIndex) (f : FileRecord) :
    (ix.add side f).collisions = ix.collisions ++ clash side f (ix.get? (pathKey f.path)) := by
  cases taken : ix.get? (pathKey f.path) <;> simp only [add, clash, taken]

theorem key_of_mem_clash {side : Side} {f : FileRecord} {taken : Option FileRecord} {c : Collision}
    (h : c ∈ clash side f taken) : c.key = pathKey f.path := by
  cases taken with
  | none => cases h
  | some g =>
      rw [clash] at h
      split at h
      · cases h
      · rw [List.mem_singleton.mp h]

/-- Files of other keys have no part in the collisions of a key. -/
theorem collisions_filesOf (side : Side) (files : List FileRecord) (key : String) :
    (ofFiles side files).collisions.filter (·.key = key) = (ofFiles side (filesOf key files)).collisions := by
  induction files using List.reverseRecOn with
  | nil => rfl
  | append_singleton files f ih =>
      rw [ofFiles_snoc, collisions_add, List.filter_append, ih, filesOf_snoc, get?_ofFiles]
      by_cases h : pathKey f.path = key
      · have own : (clash side f (lastFile? files (pathKey f.path))).filter (·.key = key) =
            clash side f (lastFile? files (pathKey f.path)) :=
          List.filter_eq_self.mpr fun c hc => by simpa [h] using key_of_mem_clash hc
        rw [own, if_pos h, ofFiles_snoc, collisions_add, get?_ofFiles, h, lastFile?_filesOf]
      · have other : (clash side f (lastFile? files (pathKey f.path))).filter (·.key = key) = [] :=
          List.filter_eq_nil_iff.mpr fun c hc => by simpa [key_of_mem_clash hc] using h
        rw [other, if_neg h, List.append_nil]

end PathIndex

end ExportDiff.Change
