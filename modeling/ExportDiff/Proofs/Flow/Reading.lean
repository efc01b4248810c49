/- What is numbered within a process is read from the elements below it. -/
import ExportDiff.Proofs.Flow.Numbering

namespace ExportDiff.Flow
open Xml

namespace Step

theorem mem_numberedAll {n : Nat} {steps : List Step} {p : Nat × Step}
    (member : p ∈ numberedAll n steps) : ∃ s ∈ steps, ∃ m, p ∈ s.numbered m := by
  induction steps generalizing n with
  | nil => cases member
  | cons s rest ih =>
      rw [numberedAll, List.mem_append] at member
      obtain first | later := member
      · exact ⟨s, List.mem_cons_self, n, first⟩
      · obtain ⟨t, inside, m, found⟩ := ih later
        exact ⟨t, List.mem_cons_of_mem s inside, m, found⟩

theorem mem_numberedBranches {n : Nat} {branches : List (String × List Step)} {p : Nat × Step}
    (member : p ∈ numberedBranches n branches) :
    ∃ b ∈ branches.map (·.2), ∃ m, p ∈ numberedAll m b := by
  induction branches generalizing n with
  | nil => cases member
  | cons b rest ih =>
      obtain ⟨label, body⟩ := b
      rw [numberedBranches, List.mem_append] at member
      obtain first | later := member
      · exact ⟨body, List.mem_cons_self, n, first⟩
      · obtain ⟨c, inside, m, found⟩ := ih later
        exact ⟨c, List.mem_cons_of_mem body inside, m, found⟩

theorem mem_numbered {n : Nat} {s : Step} {p : Nat × Step} (member : p ∈ s.numbered n) :
    p = (n + 1, s) ∨ ∃ b ∈ s.bodies, ∃ m, p ∈ numberedAll m b := by
  cases s with
  | plain h => exact .inl (List.mem_singleton.mp member)
  | sequence h body | loop h body | scope h body handlers =>
      rw [numbered, List.mem_cons] at member
      exact member.imp_right fun below => ⟨body, List.mem_singleton_self body, _, below⟩
  | parallel h branches =>
      rw [numbered, List.mem_cons] at member
      exact member.imp_right fun below => ⟨branches, List.mem_singleton_self branches, _, below⟩
  | conditional h branches =>
      rw [numbered, List.mem_cons] at member
      exact member.imp_right mem_numberedBranches

end Step

/-- An element below another, or that one itself, is read as this step. -/
def Step.ReadBelow (e : Element) (s : Step) : Prop := ∃ c ∈ e.walk, (readElement c).step = some s

theorem Step.ReadBelow.of_child {e c : Element} {s : Step} (h : s.ReadBelow c) (child : c ∈ e.children) :
    s.ReadBelow e := by
  obtain ⟨b, below, step⟩ := h
  exact ⟨b, walk_subset_of_child child below, step⟩

/-- All that is numbered within the step of an element, or among those within it, is read below it. -/
def ReadsBelow (e : Element) : Prop :=
  (∀ s ∈ (readElement e).step, ∀ n, ∀ p ∈ s.numbered n, p.2.ReadBelow e) ∧
    ∀ n, ∀ p ∈ Step.numberedAll n (stepsWithin e), p.2.ReadBelow e

theorem readsBelow_of_children {e : Element} (children : ∀ c ∈ e.children, ReadsBelow c) :
    ReadsBelow e := by
  have within : ∀ n, ∀ p ∈ Step.numberedAll n (stepsWithin e), p.2.ReadBelow e := by
    intro n p member
    obtain ⟨s, inside, m, found⟩ := Step.mem_numberedAll member
    rw [stepsWithin_eq, List.mem_filterMap] at inside
    obtain ⟨c, child, step⟩ := inside
    exact ((children c child).1 s step m p found).of_child child
  refine ⟨?_, within⟩
  intro s step n p member
  obtain rfl | ⟨b, body, m, found⟩ := Step.mem_numbered member
  · exact ⟨e, mem_walk_self e, step⟩
  · rw [step_readElement, Option.mem_def, Option.map_eq_some_iff] at step
    obtain ⟨a, _, rfl⟩ := step
    obtain rfl | part := bodies_ofActivity body
    · exact within m p found
    · rw [List.map_map, List.mem_map] at part
      obtain ⟨c, child, rfl⟩ := part
      exact ((children c child).2 m p found).of_child child

mutual

theorem readsBelow : (e : Element) → ReadsBelow e
  | ⟨_, _, _, children⟩ => readsBelow_of_children (readsBelow_all children)

theorem readsBelow_all : (es : List Element) → ∀ e ∈ es, ReadsBelow e
  | [] => by simp
  | e :: es => by
      intro c member
      obtain same | later := List.mem_cons.mp member
      · rw [same]
        exact readsBelow e
      · exact readsBelow_all es c later

end

theorem isLoop_of_read (e : Element) (n : Nat) (p : Nat × Step)
    (member : p ∈ Step.numberedAll n (stepsWithin e)) : p.2.isLoop = p.2.head.activity.isLoop := by
  obtain ⟨c, _, step⟩ := (readsBelow e).2 n p member
  rw [step_readElement, Option.map_eq_some_iff] at step
  obtain ⟨a, _, same⟩ := step
  rw [← same, isLoop_ofActivity, head_ofActivity]

end ExportDiff.Flow
