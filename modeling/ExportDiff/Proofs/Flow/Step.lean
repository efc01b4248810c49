/- Reading elements as steps: what is an activity, and what its step holds. -/
import ExportDiff.Flow.Step

namespace ExportDiff.Flow
open Xml

theorem readElements_eq (es : List Element) : readElements es = es.map readElement := by
  induction es with
  | nil => rfl
  | cons e es ih => rw [readElements, ih, List.map_cons]

theorem element_readElement (e : Element) : (readElement e).element = e := by
  obtain ⟨tag, attributes, text, children⟩ := e
  rw [readElement]

theorem stepsWithin_eq (e : Element) :
    stepsWithin e = e.children.filterMap fun c => (readElement c).step := by
  obtain ⟨tag, attributes, text, children⟩ := e
  rw [stepsWithin, readElement, readElements_eq, List.filterMap_map]
  rfl

theorem mem_walk_self (e : Element) : e ∈ e.walk := by
  rw [Element.walk_eq]
  exact List.mem_cons_self

theorem walk_subset_of_child {e c : Element} (child : c ∈ e.children) : c.walk ⊆ e.walk := by
  rw [e.walk_eq]
  intro x below
  exact List.mem_cons_of_mem e (List.mem_flatMap.mpr ⟨c, child, below⟩)

/-- The step of an element depends on the steps within it and within each of its children. -/
theorem step_readElement (e : Element) :
    (readElement e).step = (Activity.ofElement? e).map fun a =>
      Step.ofActivity a e (stepsWithin e) (e.children.map fun c => (c, stepsWithin c)) := by
  have within := stepsWithin_eq e
  obtain ⟨tag, attributes, text, children⟩ := e
  rw [readElement, readElements_eq, List.map_map, List.filterMap_map, within]
  have parts : (fun r : Reading => (r.element, r.body)) ∘ readElement =
      fun c => (c, stepsWithin c) := by
    funext c
    rw [Function.comp, element_readElement, stepsWithin]
  rw [parts]
  rfl

theorem stepsWithin_eq_nil {e : Element} :
    stepsWithin e = [] ↔ ∀ c ∈ e.children, Activity.ofElement? c = none := by
  rw [stepsWithin_eq, List.filterMap_eq_nil_iff]
  refine forall₂_congr fun c _ => ?_
  rw [step_readElement, Option.map_eq_none_iff]

namespace Step

/-- The chains within a step. Those of a parallel step are its branches, one after another. -/
def bodies : Step → List (List Step)
  | .plain _ => []
  | .sequence _ body => [body]
  | .parallel _ branches => [branches]
  | .conditional _ branches => branches.map (·.2)
  | .loop _ body => [body]
  | .scope _ body _ => [body]

def isLoop : Step → Bool
  | .loop _ _ => true
  | _ => false

end Step

def Activity.isLoop : Activity → Bool
  | .whileLoop | .repeatUntil | .forEach => true
  | _ => false

namespace Activity

theorem mem_numbered {α} {label : Element → Option String} {word : String} {n : Nat}
    {parts : List (Element × α)} {b : String × α} (member : b ∈ numbered label word n parts) :
    b.2 ∈ parts.map (·.2) := by
  induction parts generalizing n with
  | nil => cases member
  | cons part rest ih =>
      obtain ⟨e, x⟩ := part
      rw [numbered, List.mem_cons] at member
      rw [List.map_cons, List.mem_cons]
      obtain rfl | later := member
      · exact .inl rfl
      · exact .inr (ih later)

theorem mem_parts {α} {tag : String} {parts : List (Element × α)} {x : α}
    (member : x ∈ (partsLike tag parts).map (·.2)) : x ∈ parts.map (·.2) :=
  (List.filter_sublist.map _).subset member

theorem mem_first {α} {tag label : String} {parts : List (Element × α)} {b : String × α}
    (member : b ∈ ((partsLike tag parts).head?.map fun p => (label, p.2)).toList) :
    b.2 ∈ parts.map (·.2) := by
  rw [Option.mem_toList, Option.map_eq_some_iff] at member
  obtain ⟨p, first, rfl⟩ := member
  exact mem_parts (List.mem_map_of_mem (List.mem_of_head? first))

/-- What a branch holds is what the element itself or one of its children would be. -/
theorem mem_branches {α} {a : Activity} {e : Element} {own : α} {parts : List (Element × α)}
    {b : String × α} (member : b ∈ a.branches e own parts) :
    b.2 = own ∨ b.2 ∈ parts.map (·.2) := by
  cases a with
  | choice =>
      rw [branches, List.mem_append, List.mem_cons] at member
      obtain (rfl | elseif) | other := member
      · exact .inl rfl
      · exact .inr (mem_parts (mem_numbered elseif))
      · exact .inr (mem_first other)
  | switch =>
      rw [branches, List.mem_append] at member
      obtain case | other := member
      · exact .inr (mem_parts (mem_numbered case))
      · exact .inr (mem_first other)
  | pick =>
      rw [branches, List.mem_append, List.mem_map, List.mem_map] at member
      obtain ⟨p, part, rfl⟩ | ⟨p, part, rfl⟩ := member
      · exact .inr (mem_parts (List.mem_map_of_mem part))
      · exact .inr (mem_parts (List.mem_map_of_mem part))
  | _ => cases member

end Activity

theorem head_ofActivity (a : Activity) (e : Element) (body : List Step)
    (parts : List (Element × List Step)) :
    (Step.ofActivity a e body parts).head = ⟨a, (e.filled? "name").getD a.name, a.data e⟩ := by
  cases a <;> rfl

theorem isLoop_ofActivity (a : Activity) (e : Element) (body : List Step)
    (parts : List (Element × List Step)) :
    (Step.ofActivity a e body parts).isLoop = a.isLoop := by
  cases a <;> rfl

theorem bodies_ofActivity {a : Activity} {e : Element} {body : List Step}
    {parts : List (Element × List Step)} {b : List Step}
    (member : b ∈ (Step.ofActivity a e body parts).bodies) :
    b = body ∨ b ∈ parts.map (·.2) := by
  have branch : ∀ b ∈ (a.branches e body parts).map (·.2), b = body ∨ b ∈ parts.map (·.2) := by
    intro b member
    obtain ⟨c, part, rfl⟩ := List.mem_map.mp member
    exact Activity.mem_branches part
  cases a with
  | switch | choice | pick => exact branch b member
  | sequence | parallel | whileLoop | repeatUntil | forEach | scope =>
      exact .inl (List.mem_singleton.mp member)
  | _ => cases member

end ExportDiff.Flow
