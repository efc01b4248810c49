/- Lists that are related place by place: what a search finds in them is related too. -/
import Mathlib.Data.List.Forall2

namespace ExportDiff
variable {α β : Type} {R : α → β → Prop} {xs : List α} {ys : List β}

theorem head?_rel (h : List.Forall₂ R xs ys) : Option.Rel R xs.head? ys.head? := by
  cases h with
  | nil => exact .none
  | cons head _ => exact .some head

theorem filter_rel {p : α → Bool} {q : β → Bool} (h : List.Forall₂ R xs ys) (same : ∀ {x y}, R x y → p x = q y) :
    List.Forall₂ R (xs.filter p) (ys.filter q) :=
  List.rel_filter (fun _ _ related => Bool.eq_iff_iff.mp (same related)) h

theorem find?_rel {p : α → Bool} {q : β → Bool} (h : List.Forall₂ R xs ys) (same : ∀ {x y}, R x y → p x = q y) :
    Option.Rel R (xs.find? p) (ys.find? q) := by
  rw [← List.head?_filter, ← List.head?_filter]
  exact head?_rel (filter_rel h same)

theorem or_rel {a c : Option α} {b d : Option β} (h : Option.Rel R a b) (h' : Option.Rel R c d) :
    Option.Rel R (a.or c) (b.or d) := by
  cases h with
  | none => exact h'
  | some first => exact .some first

theorem map_eq_of_rel {γ : Type} {f : α → γ} {g : β → γ} (h : List.Forall₂ R xs ys)
    (same : ∀ {x y}, R x y → f x = g y) : xs.map f = ys.map g :=
  (congrFun₂ List.forall₂_eq_eq_eq _ _).mp (List.rel_map (fun _ _ related => same related) h)

theorem filterMap_eq_of_rel {γ : Type} {f : α → Option γ} {g : β → Option γ} (h : List.Forall₂ R xs ys)
    (same : ∀ {x y}, R x y → f x = g y) : xs.filterMap f = ys.filterMap g := by
  induction h with
  | nil => rfl
  | cons head _ ih => rw [List.filterMap_cons, List.filterMap_cons, same head, ih]

end ExportDiff
