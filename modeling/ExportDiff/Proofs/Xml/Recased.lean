/- Trees whose tags differ in case only: looking up a tag in any case finds the same places in both. -/
import ExportDiff.Proofs.Related
import ExportDiff.Xml.Element

namespace ExportDiff.Xml
open Text

/-- Elements of one shape with the same attributes and texts, whose tags are the same once they are lower-cased. -/
inductive Recased : Element → Element → Prop
  | intro {e e' : Element} (tags : e.lowerTag = e'.lowerTag)
      (attributes : ∀ name, e.attribute? name = e'.attribute? name) (texts : e.text = e'.text)
      (children : List.Forall₂ Recased e.children e'.children) : Recased e e'

namespace Recased

/-- What holds of two elements where it holds of their children holds of all such trees. -/
theorem induction {motive : Element → Element → Prop}
    (step : ∀ {e e'}, Recased e e' → List.Forall₂ motive e.children e'.children → motive e e')
    {e e' : Element} (h : Recased e e') : motive e e' :=
  @Recased.rec (fun e e' _ => motive e e') (fun es es' _ => List.Forall₂ motive es es')
    (fun tags attributes texts children below => step ⟨tags, attributes, texts, children⟩ below)
    .nil (fun _ _ head tail => .cons head tail) e e' h

variable {e e' : Element}

theorem lowerTag (h : Recased e e') : e.lowerTag = e'.lowerTag := by
  obtain ⟨tags, _, _, _⟩ := h
  exact tags

theorem attribute? (h : Recased e e') (name : String) : e.attribute? name = e'.attribute? name := by
  obtain ⟨_, attributes, _, _⟩ := h
  exact attributes name

theorem text (h : Recased e e') : e.text = e'.text := by
  obtain ⟨_, _, texts, _⟩ := h
  exact texts

theorem children (h : Recased e e') : List.Forall₂ Recased e.children e'.children := by
  obtain ⟨_, _, _, children⟩ := h
  exact children

theorem filled? (h : Recased e e') (name : String) : e.filled? name = e'.filled? name := by
  rw [Element.filled?, Element.filled?, h.attribute?]

theorem like (h : Recased e e') (tag : String) : e.like tag = e'.like tag := by
  rw [Element.like, Element.like, h.lowerTag]

theorem childLike? (h : Recased e e') (tag : String) : Option.Rel Recased (e.childLike? tag) (e'.childLike? tag) :=
  find?_rel h.children fun related => related.like tag

theorem childrenLike (h : Recased e e') (tag : String) :
    List.Forall₂ Recased (e.childrenLike tag) (e'.childrenLike tag) :=
  filter_rel h.children fun related => related.like tag

theorem childTextLike? (h : Recased e e') (tag : String) : e.childTextLike? tag = e'.childTextLike? tag := by
  have found := h.childLike? tag
  rw [Element.childTextLike?, Element.childTextLike?]
  generalize e.childLike? tag = child, e'.childLike? tag = child' at found
  cases found with
  | none => rfl
  | some related => rw [Option.bind_some, Option.bind_some, Element.text?, Element.text?, related.text]

theorem walk (h : Recased e e') : List.Forall₂ Recased e.walk e'.walk := by
  refine induction (motive := fun e e' => List.Forall₂ Recased e.walk e'.walk) (fun related below => ?_) h
  rw [Element.walk_eq, Element.walk_eq]
  exact .cons related (List.rel_flatMap below fun _ _ within => within)

end Recased

end ExportDiff.Xml
