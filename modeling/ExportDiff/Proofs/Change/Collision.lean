/- No file leaves the index of a side without a collision that names its path. -/
import ExportDiff.Proofs.Change.PathIndex

namespace ExportDiff.Change
open Noise Snapshot

/-- The keys of the files, each at the place where it comes up first. -/
def firstKeys (files : List FileRecord) : List String := (files.map fun f => pathKey f.path).eraseDups

theorem firstKeys_snoc (files : List FileRecord) (f : FileRecord) :
    firstKeys (files ++ [f]) =
      if pathKey f.path ∈ firstKeys files then firstKeys files else firstKeys files ++ [pathKey f.path] := by
  unfold firstKeys
  rw [List.map_append, List.map_singleton, List.eraseDups_append]
  generalize files.map (fun f => pathKey f.path) = keys
  by_cases known : pathKey f.path ∈ keys
  · rw [if_pos (List.mem_eraseDups.mpr known), List.removeAll]
    simp [known]
  · rw [if_neg (mt List.mem_eraseDups.mp known), List.removeAll]
    simp [known, List.eraseDups_cons]

theorem exists_lastFile? {files : List FileRecord} {f : FileRecord} (h : f ∈ files) :
    ∃ kept, lastFile? files (pathKey f.path) = some kept := by
  refine Option.isSome_iff_exists.mp (List.find?_isSome.mpr ⟨f, List.mem_reverse.mpr h, ?_⟩)
  exact decide_eq_true rfl

theorem lookupKey_of_mem {entries : List (String × FileRecord)} (h : (entries.map (·.1)).Nodup) {key : String}
    {f : FileRecord} (member : (key, f) ∈ entries) : lookupKey key entries = some f := by
  induction entries with
  | nil => exact nomatch member
  | cons e entries ih =>
      obtain ⟨l, g⟩ := e
      rw [List.map_cons, List.nodup_cons] at h
      rcases List.mem_cons.mp member with first | later
      · obtain ⟨rfl, rfl⟩ := Prod.mk.inj first
        rw [lookupKey, if_pos rfl]
      · have other : l ≠ key := by
          rintro rfl
          exact h.1 (List.mem_map.mpr ⟨_, later, rfl⟩)
        rw [lookupKey, if_neg other, ih h.2 later]

namespace PathIndex

theorem keys_ofFiles (side : Side) (files : List FileRecord) : (ofFiles side files).keys = firstKeys files := by
  induction files using List.reverseRecOn with
  | nil => rfl
  | append_singleton files f ih => rw [ofFiles_snoc, keys_add, ih, firstKeys_snoc]

/-- The index lists the keys as they come up, each with its last file. -/
theorem entries_ofFiles (side : Side) (files : List FileRecord) :
    (ofFiles side files).entries =
      (firstKeys files).filterMap fun key => (lastFile? files key).map (key, ·) := by
  have last : ∀ e ∈ (ofFiles side files).entries, (lastFile? files e.1).map (e.1, ·) = some e := by
    intro e member
    have found := lookupKey_of_mem (nodup_keys_ofFiles side files) member
    rw [← get?_ofFiles side, get?, found, Option.map_some]
  rw [← keys_ofFiles side files, keys, List.filterMap_map]
  generalize (ofFiles side files).entries = entries at last
  calc entries = entries.filterMap some := List.filterMap_some.symm
    _ = entries.filterMap _ := List.filterMap_congr fun e member => (last e member).symm

section
variable {side : Side} {files : List FileRecord}

/-- A collision is one of two files of the same key with different paths. -/
theorem of_mem_collisions {c : Collision} (h : c ∈ (ofFiles side files).collisions) :
    ∃ f ∈ files, ∃ g ∈ files, pathKey f.path = pathKey g.path ∧ f.path ≠ g.path ∧
      c = ⟨side, f.path, g.path, pathKey f.path⟩ := by
  induction files using List.reverseRecOn with
  | nil => cases h
  | append_singleton files g ih =>
      rw [ofFiles_snoc, collisions_add, List.mem_append, get?_ofFiles] at h
      rcases h with before | now
      · obtain ⟨f, hf, g', hg, rest⟩ := ih before
        exact ⟨f, List.mem_append_left _ hf, g', List.mem_append_left _ hg, rest⟩
      · cases taken : lastFile? files (pathKey g.path) with
        | none =>
            rw [taken] at now
            cases now
        | some f =>
            rw [taken, clash] at now
            split at now
            · cases now
            · rename_i other
              obtain ⟨member, same⟩ := lastFile?_eq_some taken
              refine ⟨f, List.mem_append_left _ member, g, List.mem_append_right _ List.mem_cons_self, same,
                other, ?_⟩
              rw [List.mem_singleton.mp now, same]

/-- A path that is not the one kept for its key was dropped at some time, and a collision tells it. By
induction on the files in front of the last, which drops either that path or another one, in whose favour
the path had been dropped before. -/
theorem mem_collisions_of_dropped {f kept : FileRecord} (member : f ∈ files)
    (last : lastFile? files (pathKey f.path) = some kept) (other : kept.path ≠ f.path) :
    ∃ p, ⟨side, f.path, p, pathKey f.path⟩ ∈ (ofFiles side files).collisions := by
  induction files using List.reverseRecOn generalizing kept with
  | nil => exact nomatch member
  | append_singleton files g ih =>
      rw [lastFile?_snoc] at last
      rw [ofFiles_snoc, collisions_add, get?_ofFiles]
      have notLast (apart : g.path ≠ f.path) : f ∈ files := by
        rcases List.mem_append.mp member with before | here
        · exact before
        · rw [List.mem_singleton.mp here] at apart
          exact absurd rfl apart
      by_cases same : pathKey g.path = pathKey f.path
      · rw [if_pos same, Option.some.injEq] at last
        subst last
        have before := notLast other
        obtain ⟨h, taken⟩ := exists_lastFile? before
        by_cases dropped : h.path = f.path
        · have now : clash side g (lastFile? files (pathKey g.path)) =
              [⟨side, f.path, g.path, pathKey f.path⟩] := by
            rw [same, taken, clash, dropped, if_neg (Ne.symm other), same]
          refine ⟨g.path, List.mem_append_right _ ?_⟩
          rw [now]
          exact List.mem_cons_self
        · obtain ⟨p, there⟩ := ih before taken dropped
          exact ⟨p, List.mem_append_left _ there⟩
      · rw [if_neg same] at last
        have before : f ∈ files := by
          refine notLast fun here => ?_
          rw [here] at same
          exact same rfl
        obtain ⟨p, there⟩ := ih before last other
        exact ⟨p, List.mem_append_left _ there⟩

theorem collisions_eq_nil_iff : (ofFiles side files).collisions = [] ↔
    ∀ f ∈ files, ∀ g ∈ files, pathKey f.path = pathKey g.path → f.path = g.path := by
  constructor
  · intro none
    have kept {f k : FileRecord} (member : f ∈ files) (last : lastFile? files (pathKey f.path) = some k) :
        k.path = f.path := by
      by_contra other
      obtain ⟨p, there⟩ : ∃ p, ⟨side, f.path, p, pathKey f.path⟩ ∈ (ofFiles side files).collisions :=
        mem_collisions_of_dropped member last other
      rw [none] at there
      exact nomatch there
    intro f hf g hg same
    obtain ⟨k, last⟩ := exists_lastFile? hf
    rw [← kept hf last, kept hg (same ▸ last)]
  · intro one
    refine List.eq_nil_iff_forall_not_mem.mpr fun c hc => ?_
    obtain ⟨f, hf, g, hg, same, other, _⟩ := of_mem_collisions hc
    exact other (one f hf g hg same)

end

/-- Every path that is not kept for its key is named by a collision as the dropped one, so there is none
exactly when no two paths share a key; and the index holds the last file of each key, in the order in which
the keys come up. -/
theorem ofFiles_accounts (side : Side) (files : List FileRecord) :
    ((ofFiles side files).collisions = [] ↔
      ∀ f ∈ files, ∀ g ∈ files, pathKey f.path = pathKey g.path → f.path = g.path) ∧
    (∀ f ∈ files, ∀ kept, (ofFiles side files).get? (pathKey f.path) = some kept → kept.path ≠ f.path →
      ∃ p, ⟨side, f.path, p, pathKey f.path⟩ ∈ (ofFiles side files).collisions) ∧
    (ofFiles side files).entries =
      (firstKeys files).filterMap fun key => (lastFile? files key).map (key, ·) := by
  refine ⟨collisions_eq_nil_iff, ?_, entries_ofFiles side files⟩
  intro f member kept last other
  rw [get?_ofFiles] at last
  exact mem_collisions_of_dropped member last other

/-- A path that comes back is kept in the end, and the one in between is named too. -/
example : ((ofFiles .left (["a (1).xml", "a.xml", "a (1).xml"].map fun p => ⟨p, "", 0, none⟩)).collisions.map
    fun c => (c.dropped, c.kept)) = [("a (1).xml", "a.xml"), ("a.xml", "a (1).xml")] := by decide +kernel

end PathIndex

end ExportDiff.Change
