/- What the status of a node says: its data are compared as maps, whatever the order of their keys. -/
import ExportDiff.Proofs.Flow.Comparison
import ExportDiff.Proofs.Json.Canonical

namespace ExportDiff.Flow
open Json Text

/-- Of the same activity and kind, with the same value for every key of their data. -/
structure Same (n m : Node) : Prop where
  activity : n.activity = m.activity
  kind : n.kind = m.kind
  data : ∀ key, n.data.lookup key = m.data.lookup key

/-- The same, but that in the texts of their data the halves of a character, side by side, count as
that character. -/
structure Alike (n m : Node) : Prop where
  activity : n.activity = m.activity
  kind : n.kind = m.kind
  data : ∀ key, (n.data.lookup key).map readable = (m.data.lookup key).map readable

/-- The status of a node by the last one of its name in the other flow, in any case. -/
inductive Verdict (alike : Node → Node → Prop) (other : Flow) (missing : Status) (n : Node) : Status → Prop
  | alone : (∀ m ∈ other.nodes, lowercase m.name ≠ lowercase n.name) → Verdict alike other missing n missing
  | same {m} : LastNamed other n.name m → alike n m → Verdict alike other missing n .unchanged
  | changed {m} : LastNamed other n.name m → ¬ alike n m → Verdict alike other missing n .modified

/-- Every node has its own id, and data that are a map from texts to texts, whole numbers and truth
values. -/
structure Comparable (f : Flow) : Prop where
  distinct : (f.nodes.map (·.id)).Nodup
  data : ∀ n ∈ f.nodes, ScalarMap n.data

/-- The data can be read back: no text of them has the halves of a character side by side. -/
def Readable (f : Flow) : Prop := ∀ n ∈ f.nodes, ∀ p ∈ n.data, Plain p.2

/-- Every node of a flow has one status, by what the other flow holds. -/
structure Judged (alike : Node → Node → Prop) (f other : Flow) (missing : Status)
    (changes : List (String × Status)) : Prop where
  ids : changes.map Prod.fst = f.nodes.map (·.id)
  one : ∀ n ∈ f.nodes, ∃! s, (n.id, s) ∈ changes
  verdict : ∀ n ∈ f.nodes, ∀ s, (n.id, s) ∈ changes ↔ Verdict alike other missing n s

section
variable {f other : Flow} {missing s : Status} {n m : Node} {alike : Node → Node → Prop}

theorem sameNode_iff_alike (hn : ScalarMap n.data) (hm : ScalarMap m.data) : sameNode n m ↔ Alike n m := by
  rw [sameNode_iff, dataText, dataText, canonical_object_readable_iff hn hm]
  exact ⟨fun ⟨activity, kind, data⟩ => ⟨activity, kind, data⟩, fun h => ⟨h.activity, h.kind, h.data⟩⟩

theorem alike_iff_same (hn : ∀ p ∈ n.data, Plain p.2) (hm : ∀ p ∈ m.data, Plain p.2) : Alike n m ↔ Same n m := by
  have kept {d : Data} (plain : ∀ p ∈ d, Plain p.2) (key : String) :
      (d.lookup key).map readable = d.lookup key := by
    cases found : d.lookup key with
    | none => rfl
    | some v =>
        have member : (key, v) ∈ d := by
          obtain ⟨before, after, split, _⟩ := List.lookup_eq_some_iff.mp found
          exact split ▸ List.mem_append_right before List.mem_cons_self
        rw [Option.map_some, (plain _ member).readable_eq]
  constructor
  · rintro ⟨activity, kind, data⟩
    exact ⟨activity, kind, fun key => by rw [← kept hn, data, kept hm]⟩
  · rintro ⟨activity, kind, data⟩
    exact ⟨activity, kind, fun key => by rw [data]⟩

theorem namesake?_eq_none {name : String} :
    namesake? f name = none ↔ ∀ m ∈ f.nodes, lowercase m.name ≠ lowercase name := by
  rw [namesake?, List.find?_eq_none]
  simp

theorem LastNamed.exists {name : String} (h : LastNamed f name m) :
    ¬ ∀ m ∈ f.nodes, lowercase m.name ≠ lowercase name :=
  fun none => none m h.mem h.named

theorem statusOf_iff_verdict (judges : ∀ m ∈ other.nodes, sameNode n m ↔ alike n m) :
    statusOf n (namesake? other n.name) missing = s ↔ Verdict alike other missing n s := by
  cases found : namesake? other n.name with
  | none =>
      have alone := namesake?_eq_none.mp found
      constructor
      · rintro rfl
        exact .alone alone
      · rintro (_ | ⟨last, _⟩ | ⟨last, _⟩)
        · rfl
        · exact absurd alone last.exists
        · exact absurd alone last.exists
  | some m =>
      have last := namesake?_eq_some.mp found
      have alike := judges m last.mem
      constructor
      · rintro rfl
        rw [statusOf]
        split
        · rename_i same
          exact .same last (alike.mp same)
        · rename_i different
          exact .changed last (fun h => different (alike.mpr h))
      · rintro (alone | ⟨last', same⟩ | ⟨last', different⟩)
        · exact absurd alone last.exists
        · exact if_pos (alike.mpr (last'.unique last ▸ same))
        · exact if_neg fun h => different (last'.unique last ▸ alike.mp h)

theorem mem_statuses (distinct : (f.nodes.map (·.id)).Nodup) (member : n ∈ f.nodes) :
    (n.id, s) ∈ statuses f other missing ↔ statusOf n (namesake? other n.name) missing = s := by
  rw [statuses_eq distinct, List.mem_map]
  constructor
  · rintro ⟨m, here, entry⟩
    obtain ⟨id, status⟩ := Prod.mk.inj entry
    rwa [List.inj_on_of_nodup_map distinct here member id] at status
  · rintro rfl
    exact ⟨n, member, rfl⟩

theorem statuses_judged (distinct : (f.nodes.map (·.id)).Nodup)
    (judges : ∀ n ∈ f.nodes, ∀ m ∈ other.nodes, sameNode n m ↔ alike n m) :
    Judged alike f other missing (statuses f other missing) where
  ids := by
    rw [statuses_eq distinct, List.map_map]
    rfl
  one n member := by
    simp only [mem_statuses distinct member]
    exact existsUnique_eq'
  verdict n member s := by
    rw [mem_statuses distinct member, statusOf_iff_verdict (judges n member)]

theorem statuses_alike (hf : Comparable f) (ho : Comparable other) :
    Judged Alike f other missing (statuses f other missing) :=
  statuses_judged hf.distinct fun n here m there => sameNode_iff_alike (hf.data n here) (ho.data m there)

theorem statuses_same (hf : Comparable f) (ho : Comparable other) (pf : Readable f) (po : Readable other) :
    Judged Same f other missing (statuses f other missing) :=
  statuses_judged hf.distinct fun n here m there =>
    (sameNode_iff_alike (hf.data n here) (ho.data m there)).trans (alike_iff_same (pf n here) (po m there))

end

/-- Each side of a comparison gives every node of its flow exactly one status. The data decide as maps;
of their texts, what is written for them does, which is the same for the halves of a character and for
that character. -/
theorem compareFlows_judged (l r : Flow) (hl : Comparable l) (hr : Comparable r) :
    (Judged Alike l r .removed (compareFlows (some l) (some r)).left ∧
      Judged Alike r l .added (compareFlows (some l) (some r)).right) ∧
    (Readable l → Readable r → Judged Same l r .removed (compareFlows (some l) (some r)).left ∧
      Judged Same r l .added (compareFlows (some l) (some r)).right) :=
  ⟨⟨statuses_alike hl hr, statuses_alike hr hl⟩,
    fun pl pr => ⟨statuses_same hl hr pl pr, statuses_same hr hl pr pl⟩⟩

def actionNode (id name : String) (data : Data) : Node := ⟨id, .action, name, "invoke", none, .ofInt 0, .ofInt 0, data⟩

def stepsBefore : Flow :=
  ⟨[actionNode "a" "Map" [("open", .bool true), ("size", .int 1)], actionNode "b" "Send" [("size", .int 1)],
    actionNode "c" "Log" []], [], ⟨"Steps", none, none⟩⟩

def stepsAfter : Flow :=
  ⟨[actionNode "u" "MAP" [], actionNode "v" "map" [("size", .int 1), ("open", .bool true)],
    actionNode "w" "send" [("size", ofString "1")], actionNode "x" "Stop" []], [], ⟨"Steps", none, none⟩⟩

theorem stepsBefore_plain : ∀ n ∈ stepsBefore.nodes, PlainMap n.data := by
  have map : PlainMap [("open", .bool true), ("size", .int 1)] := ⟨by decide, by simp [Plain.bool, Plain.int]⟩
  have send : PlainMap [("size", .int 1)] := ⟨by decide, by simp [Plain.int]⟩
  have log : PlainMap [] := ⟨by decide, by simp⟩
  simpa [stepsBefore, actionNode] using ⟨map, send, log⟩

theorem stepsAfter_plain : ∀ n ∈ stepsAfter.nodes, PlainMap n.data := by
  have map : PlainMap [("size", .int 1), ("open", .bool true)] := ⟨by decide, by simp [Plain.bool, Plain.int]⟩
  have send : PlainMap [("size", ofString "1")] := ⟨by decide, by simp [Plain.ofString]⟩
  have bare : PlainMap [] := ⟨by decide, by simp⟩
  simpa [stepsAfter, actionNode] using ⟨bare, map, send, bare⟩

/-- The order of keys is no change, but a number that became a text is one, and of two nodes of one name
the last is compared. -/
theorem compareFlows_judged_steps :
    (Judged Alike stepsBefore stepsAfter .removed (compareFlows (some stepsBefore) (some stepsAfter)).left ∧
      Judged Alike stepsAfter stepsBefore .added (compareFlows (some stepsBefore) (some stepsAfter)).right) ∧
    (Judged Same stepsBefore stepsAfter .removed (compareFlows (some stepsBefore) (some stepsAfter)).left ∧
      Judged Same stepsAfter stepsBefore .added (compareFlows (some stepsBefore) (some stepsAfter)).right) ∧
    compareFlows (some stepsBefore) (some stepsAfter) =
      ⟨[("a", .unchanged), ("b", .modified), ("c", .removed)],
       [("u", .modified), ("v", .unchanged), ("w", .modified), ("x", .added)]⟩ := by
  obtain ⟨alike, same⟩ := compareFlows_judged stepsBefore stepsAfter
    ⟨by decide, fun n member => (stepsBefore_plain n member).scalar⟩
    ⟨by decide, fun n member => (stepsAfter_plain n member).scalar⟩
  exact ⟨alike, same (fun n member => (stepsBefore_plain n member).plain)
    (fun n member => (stepsAfter_plain n member).plain), by decide⟩

/-- One node, with a text under one key. -/
def keyFlow (s : List CodePoint) : Flow := ⟨[actionNode "a" "Send" [("key", .str s)]], [], ⟨"Key", none, none⟩⟩

theorem keyFlow_comparable (s : List CodePoint) : Comparable (keyFlow s) where
  distinct := List.nodup_singleton "a"
  data := by
    have map : ScalarMap [("key", .str s)] := ⟨List.nodup_singleton "key", by simp [Scalar.str]⟩
    simpa [keyFlow, actionNode] using map

/-- A character and its two halves are different texts, but they are written the same, so that the nodes
that have them count as unchanged. -/
theorem compareFlows_halves :
    Comparable (keyFlow [0x10000]) ∧ Comparable (keyFlow [0xD800, 0xDC00]) ∧
    compareFlows (some (keyFlow [0x10000])) (some (keyFlow [0xD800, 0xDC00])) =
      ⟨[("a", .unchanged)], [("a", .unchanged)]⟩ ∧
    ¬ Judged Same (keyFlow [0x10000]) (keyFlow [0xD800, 0xDC00]) .removed
      (compareFlows (some (keyFlow [0x10000])) (some (keyFlow [0xD800, 0xDC00]))).left := by
  have statuses : compareFlows (some (keyFlow [0x10000])) (some (keyFlow [0xD800, 0xDC00])) =
      ⟨[("a", .unchanged)], [("a", .unchanged)]⟩ := by decide
  refine ⟨keyFlow_comparable _, keyFlow_comparable _, statuses, fun judged => ?_⟩
  have verdict := (judged.verdict _ List.mem_cons_self .unchanged).mp (statuses ▸ List.mem_cons_self)
  cases verdict with
  | same last same =>
      obtain rfl := List.mem_singleton.mp last.mem
      have texts : some (Json.str [0x10000]) = some (.str [0xD800, 0xDC00]) := same.data "key"
      simp at texts

end ExportDiff.Flow
