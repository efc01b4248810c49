/- The nodes of a drawn process: one for each activity that is reached, and those that close or guard one. -/
import ExportDiff.Proofs.Flow.ProcessLayout
import ExportDiff.Proofs.Flow.Site
import Mathlib.Data.List.Perm.Basic

namespace ExportDiff.Flow
open Draft Text Xml

theorem specs_placedHandlers (n : Nat) (handlers : List Handler) :
    (placedHandlers n handlers).map (·.2) = handlers.map Handler.spec := by
  induction handlers generalizing n with
  | nil => rfl
  | cons h rest ih => rw [placedHandlers, List.map_cons, ih, List.map_cons]

namespace Step

section
variable {steps : List Step} {parts : List (Entry × List Step)}

theorem placedAll_specs_of (each : ∀ s ∈ steps, ∀ m n, (s.placed m).map (·.2) = (s.placed n).map (·.2))
    (m n : Nat) : (placedAll m steps).map (·.2) = (placedAll n steps).map (·.2) := by
  induction steps generalizing m n with
  | nil => rfl
  | cons s rest ih =>
      obtain ⟨here, others⟩ := List.forall_mem_cons.mp each
      rw [placedAll, placedAll, List.map_append, List.map_append, here m n,
        ih others (m + s.size) (n + s.size)]

theorem placedParts_specs_of
    (each : ∀ p ∈ parts, ∀ s ∈ p.2, ∀ m n, (s.placed m).map (·.2) = (s.placed n).map (·.2)) (m n : Nat) :
    (placedParts m parts).map (·.2) = (placedParts n parts).map (·.2) := by
  induction parts generalizing m n with
  | nil => rfl
  | cons p rest ih =>
      obtain ⟨here, others⟩ := List.forall_mem_cons.mp each
      rw [placedParts, placedParts, List.map_append, List.map_append, placedAll_specs_of here m n,
        ih others (m + sizeAll p.2) (n + sizeAll p.2)]

end

/-- What is drawn for a step does not depend on its numbers. -/
theorem placed_specs (s : Step) (m n : Nat) : (s.placed m).map (·.2) = (s.placed n).map (·.2) := by
  induction s using shape_induction generalizing m n with
  | chain s plain each =>
      rw [placed_chain m plain, placed_chain n plain, List.map_cons, List.map_cons, List.map_append,
        List.map_append, placedAll_specs_of each (m + 1) (n + 1), specs_placedHandlers, specs_placedHandlers]
  | branches s branching each =>
      rw [placed_branching m branching, placed_branching n branching, List.map_cons, List.map_cons,
        List.map_append, List.map_append, placedParts_specs_of each (m + 2) (n + 2)]
      rfl

/-- What is drawn for a step, in the order of the nodes. -/
def specs (s : Step) : List NodeSpec := (s.placed 0).map (·.2)

def specsAll (steps : List Step) : List NodeSpec := (placedAll 0 steps).map (·.2)

theorem specs_placedAll (n : Nat) (steps : List Step) : (placedAll n steps).map (·.2) = specsAll steps :=
  placedAll_specs_of (fun s _ => s.placed_specs) n 0

/-- What is drawn for a step beside its own node and those within it. -/
def added : Step → List NodeSpec
  | .parallel _ _ => [joinSpec]
  | .conditional h _ => [mergeSpec h.activity]
  | .scope _ _ handlers => handlers.map Handler.spec
  | _ => []

theorem specsAll_eq (steps : List Step) : specsAll steps = steps.flatMap specs := by
  induction steps with
  | nil => rfl
  | cons s rest ih =>
      rw [specsAll, placedAll, List.map_append, specs_placedAll, ih, List.flatMap_cons]
      rfl

theorem specs_placedBranches (n : Nat) (branches : List (String × List Step)) :
    (placedBranches n branches).map (·.2) = (branches.map (·.2)).flatMap specsAll := by
  induction branches generalizing n with
  | nil => rfl
  | cons b rest ih =>
      rw [placedBranches, List.map_append, specs_placedAll, ih, List.map_cons, List.flatMap_cons]

theorem specs_eq (s : Step) : s.specs = s.head.spec :: (s.bodies.flatMap specsAll ++ s.added) := by
  cases s with
  | plain h => rfl
  | sequence h body | loop h body => simp [specs, placed, specs_placedAll, bodies, added, head]
  | parallel h branches => simp [specs, placed, specs_placedAll, bodies, added, head]
  | conditional h branches => simp [specs, placed, specs_placedBranches, bodies, added, head]
  | scope h body handlers =>
      simp [specs, placed, specs_placedAll, specs_placedHandlers, bodies, added, head]

end Step

theorem specs_drawProcess (process : Element) :
    (drawProcess process).nodes.map Node.spec = Step.specsAll (stepsWithin process) ++
      if (stepsWithin process).isEmpty then [] else (handlersOf process).map Handler.spec := by
  have specs := congrArg (List.map Prod.snd) (labels_drawProcess process)
  rw [List.map_map, List.map_map, processNodes, List.map_append] at specs
  change (drawProcess process).nodes.map Node.spec = Step.specsAll (stepsWithin process) ++
    (placedHandlers _ (handlersBeside process)).map (·.2) at specs
  rw [specs, specs_placedHandlers, handlersBeside, apply_ite (List.map Handler.spec), List.map_nil]

/-- What the handler of a fault shows; one without a fault name is called by its number. -/
def faultSpec (c : Element) (number : Nat) : NodeSpec :=
  ⟨.error, (c.filled? "faultName").getD ("Catch " ++ toString number), "catch", some "shield",
    Activity.entry "faultName" (c.filled? "faultName")⟩

def anyFaultSpec (c : Element) : NodeSpec :=
  ⟨.error, "Catch All", "catchAll", some "shield", Activity.entry "faultName" (c.filled? "faultName")⟩

/-- What is drawn for the error handlers of an element, the catch-alls last. -/
def errorSpecs (e : Element) : List NodeSpec :=
  match e.childLike? "faultHandlers" with
  | none => []
  | some handlers =>
      (((handlers.childrenLike "catch").zipIdx 1).map fun x => faultSpec x.1 x.2) ++
        (handlers.childrenLike "catchAll").map anyFaultSpec

theorem numberHandlers_append (n : Nat) (xs ys : List (Bool × Element)) :
    numberHandlers n (xs ++ ys) = numberHandlers n xs ++ numberHandlers (n + xs.length) ys := by
  induction xs generalizing n with
  | nil => rfl
  | cons x xs ih =>
      rw [List.cons_append, numberHandlers, numberHandlers, ih, List.cons_append, List.length_cons,
        Nat.add_assoc, Nat.add_comm 1]

theorem specs_faults (n : Nat) (cs : List Element) :
    (numberHandlers n (cs.map (false, ·))).map Handler.spec =
      (cs.zipIdx n).map fun x => faultSpec x.1 x.2 := by
  induction cs generalizing n with
  | nil => rfl
  | cons c cs ih =>
      rw [List.map_cons, numberHandlers, List.map_cons, ih, List.zipIdx_cons, List.map_cons]
      rfl

theorem specs_anyFaults (n : Nat) (cs : List Element) :
    (numberHandlers n (cs.map (true, ·))).map Handler.spec = cs.map anyFaultSpec := by
  induction cs generalizing n with
  | nil => rfl
  | cons c cs ih =>
      rw [List.map_cons, numberHandlers, List.map_cons, ih, List.map_cons]
      rfl

theorem specs_handlersOf (e : Element) : (handlersOf e).map Handler.spec = errorSpecs e := by
  unfold handlersOf errorSpecs
  cases e.childLike? "faultHandlers" with
  | none => rfl
  | some handlers =>
      dsimp only
      rw [numberHandlers_append, List.map_append, specs_faults, specs_anyFaults]

namespace Activity

theorem numbered_bodies {α} (label : Element → Option String) (word : String) (n : Nat)
    (parts : List (Element × α)) : (numbered label word n parts).map (·.2) = parts.map (·.2) := by
  induction parts generalizing n with
  | nil => rfl
  | cons part rest ih => rw [numbered, List.map_cons, ih, List.map_cons]

end Activity

theorem childSites_elements (tag : String) (e : Element) :
    (childSites tag e).map (·.2) = e.childrenLike tag := by
  have kept := List.filter_map (f := Prod.fst) (p := fun c : Element => c.like tag) (l := e.children.zipIdx)
  rw [List.zipIdx_map_fst] at kept
  rw [childSites, List.map_map, Element.childrenLike, kept]
  rfl

section
variable {α : Type} (f : Element → α) (e : Element)

theorem partsLike_bodies (tag : String) :
    (Activity.partsLike tag (e.children.map fun c => (c, f c))).map (·.2) =
      (childSites tag e).map fun b => f b.2 := by
  have same := congrArg (List.map f) (childSites_elements tag e)
  rw [List.map_map] at same
  rw [Activity.partsLike, List.filter_map, List.map_map]
  exact same.symm

theorem first_bodies (tag label : String) :
    ((Activity.partsLike tag (e.children.map fun c => (c, f c))).head?.map fun p =>
      (label, p.2)).toList.map (·.2) = (childSites tag e).head?.toList.map fun b => f b.2 := by
  have first := congrArg (fun bodies => bodies.head?.toList) (partsLike_bodies f e tag)
  simp only [List.head?_map] at first
  rw [← Option.toList_map, ← Option.toList_map, Option.map_map, ← first]
  rfl

/-- The branches of a conditional are what is held by the elements below it. -/
theorem branches_bodies (a : Activity) (conditional : a ∈ [.choice, .switch, .pick]) :
    (a.branches e (f e) (e.children.map fun c => (c, f c))).map (·.2) =
      (bodySites a e).map fun b => f b.2 := by
  cases a with
  | choice =>
      simp only [Activity.branches, bodySites, List.cons_append, List.map_cons, List.map_append,
        Activity.numbered_bodies, partsLike_bodies, first_bodies]
  | switch =>
      simp only [Activity.branches, bodySites, List.map_append, Activity.numbered_bodies,
        partsLike_bodies, first_bodies]
  | pick =>
      rw [Activity.branches, List.map_append, List.map_map, List.map_map, bodySites, List.map_append]
      exact congrArg₂ (· ++ ·) (partsLike_bodies f e "onMessage") (partsLike_bodies f e "onAlarm")
  | _ => simp at conditional

end

/-- What a step holds is what is held by the elements below its activity. -/
theorem bodies_ofActivity_eq (a : Activity) (e : Element) :
    (Step.ofActivity a e (stepsWithin e) (e.children.map fun c => (c, stepsWithin c))).bodies =
      (bodySites a e).map fun b => stepsWithin b.2 := by
  cases a with
  | choice | switch | pick => exact branches_bodies stepsWithin e _ (by decide)
  | _ => rfl

/-- The node of an activity. -/
def Site.spec (s : Site) : NodeSpec :=
  ⟨s.activity.nodeKind, (s.element.filled? "name").getD s.activity.name, s.activity.name,
    s.activity.icon, s.activity.data s.element⟩

/-- The nodes that close or guard an activity. -/
def Site.added (s : Site) : List NodeSpec :=
  match s.activity with
  | .parallel => [⟨.action, "Join", "flowEnd", none, []⟩]
  | .switch | .choice => [⟨.action, "Merge", "conditionEnd", none, []⟩]
  | .pick => [⟨.action, "Pick End", "pickEnd", none, []⟩]
  | .scope => errorSpecs s.element
  | _ => []

def Site.specs (s : Site) : List NodeSpec := s.spec :: s.added

theorem specs_ofActivity (a : Activity) (e : Element) (path : List Nat) (body : List Step)
    (parts : List (Element × List Step)) :
    (Step.ofActivity a e body parts).head.spec = (Site.mk path a e).spec ∧
      (Step.ofActivity a e body parts).added = (Site.mk path a e).added := by
  refine ⟨by rw [head_ofActivity]; rfl, ?_⟩
  cases a with
  | scope => exact specs_handlersOf e
  | _ => rfl

theorem specsAll_stepsWithin (e : Element) : Step.specsAll (stepsWithin e) =
    e.children.zipIdx.flatMap fun x => (readElement x.1).step.toList.flatMap Step.specs := by
  have children := List.flatMap_map Prod.fst
    (fun c => (readElement c).step.toList.flatMap Step.specs) e.children.zipIdx
  rw [List.zipIdx_map_fst] at children
  rw [Step.specsAll_eq, stepsWithin_eq, List.filterMap_eq_flatMap_toList, List.flatMap_assoc, children]

theorem below_specs (p : List Nat) (sites : List Site) :
    (sites.map (·.below p)).flatMap Site.specs = sites.flatMap Site.specs :=
  List.flatMap_map _ _ _

/-- A child is drawn as the nodes of its activity and of those that are reached from what it holds. -/
theorem specs_readElement (c : Element) (i : Nat)
    (within : ∀ a path b, BodyOf a c path b →
      (Step.specsAll (stepsWithin b)).Perm ((sitesWithin b).flatMap Site.specs)) :
    ((readElement c).step.toList.flatMap Step.specs).Perm ((sitesFrom (c, i)).flatMap Site.specs) := by
  rw [step_readElement, sitesFrom]
  cases Activity.ofElement? c with
  | none => exact .refl _
  | some a =>
      obtain ⟨shown, added⟩ := specs_ofActivity a c [i] (stepsWithin c)
        (c.children.map fun d => (d, stepsWithin d))
      have bodies : ((bodySites a c).flatMap fun b => Step.specsAll (stepsWithin b.2)).Perm
          ((bodySites a c).flatMap fun b => (sitesWithin b.2).flatMap Site.specs) :=
        List.Perm.flatMap_left _ fun b member => within a b.1 b.2 (mem_bodySites.mp member)
      rw [Option.map_some, Option.toList_some, List.flatMap_singleton, Step.specs_eq, shown, added,
        bodies_ofActivity_eq, List.flatMap_map, List.flatMap_cons, List.flatMap_assoc]
      simp only [below_specs]
      exact ((bodies.append_right _).trans List.perm_append_comm).cons _

/-- The steps of an element are drawn as the nodes of the activities that are reached from it. -/
theorem specsAll_perm (e : Element) :
    (Step.specsAll (stepsWithin e)).Perm ((sitesWithin e).flatMap Site.specs) := by
  induction e using induction_on_bodies with
  | up e ih =>
      rw [specsAll_stepsWithin, sitesWithin_eq, List.flatMap_assoc]
      refine List.Perm.flatMap_left _ fun x child => ?_
      exact specs_readElement x.1 x.2 (ih x.1 (List.fst_mem_of_mem_zipIdx child))

/-- Each activity that is reached is drawn as one node, and the only others are those that close or
guard one, and the error handlers of a process with an activity. -/
theorem drawProcess_inventory (process : Element) :
    ∃ sites : List Site, (sites.map Site.path).Nodup ∧ (∀ s, s ∈ sites ↔ Reached process s) ∧
      ((drawProcess process).nodes.map Node.spec).Perm
        (sites.map Site.spec ++ sites.flatMap Site.added ++
          if ∃ c ∈ process.children, (Activity.ofElement? c).isSome then errorSpecs process else []) := by
  refine ⟨sitesWithin process, nodup_sitesWithin process, fun s => mem_sitesWithin_iff, ?_⟩
  have idle : (stepsWithin process).isEmpty ↔
      ¬ ∃ c ∈ process.children, (Activity.ofElement? c).isSome := by
    rw [List.isEmpty_iff, stepsWithin_eq_nil]
    simp
  have own := (specsAll_perm process).trans
    (List.map_append_flatMap_perm (sitesWithin process) Site.spec Site.added).symm
  rw [specs_drawProcess, specs_handlersOf]
  by_cases some : ∃ c ∈ process.children, (Activity.ofElement? c).isSome
  · rw [if_neg fun none => idle.mp none some, if_pos some]
    exact own.append_right _
  · rw [if_pos (idle.mpr some), if_neg some]
    exact own.append_right _

end ExportDiff.Flow
