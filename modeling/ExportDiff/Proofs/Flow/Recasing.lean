/- The flow of a process document does not depend on the case in which its tags are written. -/
import ExportDiff.Flow.ProcessLayout
import ExportDiff.Proofs.Flow.Step
import ExportDiff.Proofs.Xml.Recased

namespace ExportDiff.Flow
open Text Xml

/-- Children at the same place, that hold the same. -/
def SamePart {α : Type} (p q : Element × α) : Prop := Recased p.1 q.1 ∧ p.2 = q.2

section
variable {α : Type} {e e' : Element} {parts parts' : List (Element × α)}

namespace Activity

theorem ofElement?_recased (h : Recased e e') : ofElement? e = ofElement? e' := by
  rw [ofElement?, ofElement?, h.lowerTag]

theorem attributeEntries_recased (h : Recased e e') (names : List String) :
    attributeEntries e names = attributeEntries e' names := by
  simp only [attributeEntries, h.filled?]

theorem data_recased (h : Recased e e') (a : Activity) : a.data e = a.data e' := by
  have copies := (h.childrenLike "copy").length_eq
  cases a <;> simp only [data, attributeEntries_recased h, h.childTextLike?, copies]

theorem condition?_recased (h : Recased e e') : condition? e = condition? e' := h.childTextLike? "condition"

theorem partsLike_recased (h : List.Forall₂ SamePart parts parts') (tag : String) :
    List.Forall₂ SamePart (partsLike tag parts) (partsLike tag parts') :=
  filter_rel h fun same => same.1.like tag

theorem numbered_recased {label : Element → Option String} (same : ∀ {e e'}, Recased e e' → label e = label e')
    (h : List.Forall₂ SamePart parts parts') (word : String) (n : Nat) :
    numbered label word n parts = numbered label word n parts' := by
  induction h generalizing n with
  | nil => rfl
  | @cons p q _ _ head _ ih =>
      obtain ⟨e, x⟩ := p
      obtain ⟨e', x'⟩ := q
      obtain ⟨recased, rfl⟩ : Recased e e' ∧ x = x' := head
      rw [numbered, numbered, same recased, ih]

theorem first_recased (h : List.Forall₂ SamePart parts parts') (tag label : String) :
    ((partsLike tag parts).head?.map fun p => (label, p.2)) =
      (partsLike tag parts').head?.map fun p => (label, p.2) := by
  have first := head?_rel (partsLike_recased h tag)
  generalize (partsLike tag parts).head? = p, (partsLike tag parts').head? = q at first
  cases first with
  | none => rfl
  | some same => rw [Option.map_some, Option.map_some, same.2]

theorem branches_recased (h : Recased e e') (a : Activity) (own : α) (below : List.Forall₂ SamePart parts parts') :
    a.branches e own parts = a.branches e' own parts' := by
  cases a with
  | choice =>
      rw [branches, branches, condition?_recased h, first_recased below,
        numbered_recased condition?_recased (partsLike_recased below "elseif")]
  | switch =>
      have label {c c' : Element} (same : Recased c c') :
          (c.filled? "condition").or (condition? c) = (c'.filled? "condition").or (condition? c') := by
        rw [same.filled?, condition?_recased same]
      rw [branches, branches, first_recased below, numbered_recased label (partsLike_recased below "case")]
  | pick =>
      rw [branches, branches]
      congr 1
      · exact map_eq_of_rel (partsLike_recased below "onMessage") fun same => by rw [same.1.filled?, same.2]
      · exact map_eq_of_rel (partsLike_recased below "onAlarm") fun same => by rw [same.2]
  | _ => rfl

end Activity

theorem numberHandlers_recased {catches catches' : List (Bool × Element)}
    (h : List.Forall₂ (fun p q => p.1 = q.1 ∧ Recased p.2 q.2) catches catches') (n : Nat) :
    numberHandlers n catches = numberHandlers n catches' := by
  induction h generalizing n with
  | nil => rfl
  | @cons p q _ _ head _ ih =>
      obtain ⟨catchAll, e⟩ := p
      obtain ⟨catchAll', e'⟩ := q
      obtain ⟨rfl, recased⟩ : catchAll = catchAll' ∧ Recased e e' := head
      rw [numberHandlers, numberHandlers, recased.filled?, ih]

theorem handlersOf_recased (h : Recased e e') : handlersOf e = handlersOf e' := by
  have found := h.childLike? "faultHandlers"
  rw [handlersOf, handlersOf]
  generalize e.childLike? "faultHandlers" = handlers, e'.childLike? "faultHandlers" = handlers' at found
  cases found with
  | none => rfl
  | some same =>
      refine numberHandlers_recased (List.rel_append ?_ ?_) 1
      · exact List.rel_map (fun _ _ catches => ⟨rfl, catches⟩) (same.childrenLike "catch")
      · exact List.rel_map (fun _ _ catches => ⟨rfl, catches⟩) (same.childrenLike "catchAll")

theorem ofActivity_recased (h : Recased e e') (a : Activity) (body : List Step)
    {parts parts' : List (Element × List Step)} (below : List.Forall₂ SamePart parts parts') :
    Step.ofActivity a e body parts = Step.ofActivity a e' body parts' := by
  unfold Step.ofActivity
  rw [h.filled?, Activity.data_recased h, handlersOf_recased h, Activity.branches_recased h a body below]

end

/-- Two elements are read as the same step, and the same steps stand within them. -/
structure ReadAlike (e e' : Element) : Prop where
  recased : Recased e e'
  step : (readElement e).step = (readElement e').step
  within : stepsWithin e = stepsWithin e'

variable {e e' : Element}

/-- What is read of an element comes from its own tag and attributes, and from its children and what is read of
them. -/
theorem ReadAlike.of_children (h : Recased e e') (below : List.Forall₂ ReadAlike e.children e'.children) :
    ReadAlike e e' := by
  have within : stepsWithin e = stepsWithin e' := by
    rw [stepsWithin_eq, stepsWithin_eq]
    exact filterMap_eq_of_rel below fun same => same.step
  have parts : List.Forall₂ SamePart (e.children.map fun c => (c, stepsWithin c))
      (e'.children.map fun c => (c, stepsWithin c)) :=
    List.rel_map (fun _ _ same => ⟨same.recased, same.within⟩) below
  refine ⟨h, ?_, within⟩
  rw [step_readElement, step_readElement, Activity.ofElement?_recased h, within]
  simp only [ofActivity_recased h _ _ parts]

theorem readAlike (h : Recased e e') : ReadAlike e e' :=
  Recased.induction ReadAlike.of_children h

theorem findProcess?_recased (h : Recased e e') : Option.Rel Recased (findProcess? e) (findProcess? e') :=
  or_rel (find?_rel h.walk fun same => by rw [same.lowerTag]) (find?_rel h.walk fun same => by rw [same.lowerTag])

theorem drawProcess_recased (h : Recased e e') : drawProcess e = drawProcess e' := by
  unfold drawProcess
  rw [(readAlike h).within, handlersOf_recased h]

/-- Documents that are the same but for the case of their tags have the same flow, or both have none. -/
theorem processFlow?_recased (h : Recased e e') : processFlow? e = processFlow? e' := by
  have found := findProcess?_recased h
  rw [processFlow?, processFlow?]
  generalize findProcess? e = process, findProcess? e' = process' at found
  cases found with
  | none => rfl
  | some same =>
      rw [Option.map_some, Option.map_some, drawProcess_recased same, processMetadata, processMetadata,
        same.filled?, same.attribute?]

/-- A process that receives an order, with the tags and the attributes of its first activity as they are given. -/
def orderProcess (process receive invoke : String) (attributes : List (String × String)) : Element :=
  ⟨process, [("name", "Order")], "", [⟨receive, attributes, "", []⟩, ⟨invoke, [], "", []⟩]⟩

/-- The order process in small letters, and in capitals with its attributes the other way round. -/
theorem processFlow?_recased_order :
    processFlow? (orderProcess "process" "receive" "invoke" [("name", "In"), ("operation", "get")]) =
      processFlow? (orderProcess "PROCESS" "Receive" "INVOKE" [("operation", "get"), ("name", "In")]) ∧
    (processFlow? (orderProcess "process" "receive" "invoke" [("name", "In"), ("operation", "get")])).any
      (·.nodes.map (·.name) = ["In", "invoke"]) := by
  have attributes (name : String) :
      (([("name", "In"), ("operation", "get")] : List (String × String)).find? (·.1 = name)).map (·.2) =
        (([("operation", "get"), ("name", "In")] : List (String × String)).find? (·.1 = name)).map (·.2) := by
    by_cases first : "name" = name
    · subst first
      decide
    · by_cases second : "operation" = name <;> simp [first, second]
  have receive : Recased ⟨"receive", [("name", "In"), ("operation", "get")], "", []⟩
      ⟨"Receive", [("operation", "get"), ("name", "In")], "", []⟩ :=
    ⟨by decide, attributes, rfl, .nil⟩
  have invoke : Recased ⟨"invoke", [], "", []⟩ ⟨"INVOKE", [], "", []⟩ :=
    ⟨by decide, fun _ => rfl, rfl, .nil⟩
  refine ⟨processFlow?_recased ?_, by decide⟩
  exact ⟨by decide, fun _ => rfl, rfl, .cons receive (.cons invoke .nil)⟩

end ExportDiff.Flow
