/- Where the activities of a process stand in its tree of elements, and which of them are reached. -/
import ExportDiff.Flow.Step
import Mathlib.Data.List.Nodup

namespace ExportDiff.Flow
open Text Xml

/-- An activity with the way down to it: a place among the children of each element on the way. -/
structure Site where
  path : List Nat
  activity : Activity
  element : Element

def Site.below (path : List Nat) (s : Site) : Site := { s with path := path ++ s.path }

/-- The first child with a tag in any case. -/
def FirstLike (tag : String) (e : Element) (i : Nat) (c : Element) : Prop :=
  e.children[i]? = some c ∧ c.like tag ∧ ∀ j < i, ∀ d ∈ e.children[j]?, d.like tag = false

/-- The elements whose activities an activity holds, each with the way down to it. -/
inductive BodyOf : Activity → Element → List Nat → Element → Prop
  | own {a e} : a ∈ [.sequence, .parallel, .scope, .whileLoop, .repeatUntil, .forEach, .choice] →
      BodyOf a e [] e
  | elseif {e i c} : e.children[i]? = some c → c.like "elseif" → BodyOf .choice e [i] c
  | otherChoice {e i c} : FirstLike "else" e i c → BodyOf .choice e [i] c
  | case {e i c} : e.children[i]? = some c → c.like "case" → BodyOf .switch e [i] c
  | otherwise {e i c} : FirstLike "otherwise" e i c → BodyOf .switch e [i] c
  | onMessage {e i c} : e.children[i]? = some c → c.like "onMessage" → BodyOf .pick e [i] c
  | onAlarm {e i c} : e.children[i]? = some c → c.like "onAlarm" → BodyOf .pick e [i] c

/-- The activities of a process: those among its children, and those among the children of what a
reached activity holds. -/
inductive Reached (process : Element) : Site → Prop
  | child {i a c} : process.children[i]? = some c → Activity.ofElement? c = some a →
      Reached process ⟨[i], a, c⟩
  | within {s path b i a c} : Reached process s → BodyOf s.activity s.element path b →
      b.children[i]? = some c → Activity.ofElement? c = some a →
      Reached process ⟨s.path ++ path ++ [i], a, c⟩

/-- The children with a tag in any case, with the way down to each. -/
def childSites (tag : String) (e : Element) : List (List Nat × Element) :=
  (e.children.zipIdx.filter fun x => x.1.like tag).map fun x => ([x.2], x.1)

/-- The bodies of an activity in the order in which they are drawn. -/
def bodySites (a : Activity) (e : Element) : List (List Nat × Element) :=
  match a with
  | .sequence | .parallel | .scope | .whileLoop | .repeatUntil | .forEach => [([], e)]
  | .choice => ([], e) :: (childSites "elseif" e ++ (childSites "else" e).head?.toList)
  | .switch => childSites "case" e ++ (childSites "otherwise" e).head?.toList
  | .pick => childSites "onMessage" e ++ childSites "onAlarm" e
  | _ => []

section
variable {tag : String} {a : Activity} {e c : Element} {path : List Nat} {i : Nat}

theorem mem_childSites :
    (path, c) ∈ childSites tag e ↔ ∃ i, path = [i] ∧ e.children[i]? = some c ∧ c.like tag := by
  simp only [childSites, List.mem_map, List.mem_filter, Prod.exists, Prod.mk.injEq,
    List.mem_zipIdx_iff_getElem?]
  constructor
  · rintro ⟨d, i, ⟨there, like⟩, rfl, rfl⟩
    exact ⟨i, rfl, there, like⟩
  · rintro ⟨i, rfl, there, like⟩
    exact ⟨c, i, ⟨there, like⟩, rfl, rfl⟩

theorem mem_firstSite :
    (path, c) ∈ (childSites tag e).head?.toList ↔ ∃ i, path = [i] ∧ FirstLike tag e i c := by
  rw [Option.mem_toList, childSites, List.head?_map, List.head?_filter, Option.map_eq_some_iff]
  constructor
  · rintro ⟨⟨d, i⟩, found, same⟩
    obtain ⟨rfl, rfl⟩ := Prod.mk.inj same
    obtain ⟨like, j, bound, here, first⟩ := List.find?_eq_some_iff_getElem.mp found
    rw [List.getElem_zipIdx, Nat.zero_add] at here
    obtain ⟨there, rfl⟩ := Prod.mk.inj here
    rw [List.length_zipIdx] at bound
    refine ⟨j, rfl, List.getElem?_eq_some_iff.mpr ⟨bound, there⟩, like, ?_⟩
    intro k less d other
    obtain ⟨_, rfl⟩ := List.getElem?_eq_some_iff.mp other
    simpa using first k less
  · rintro ⟨i, rfl, there, like, first⟩
    obtain ⟨bound, here⟩ := List.getElem?_eq_some_iff.mp there
    refine ⟨(c, i), List.find?_eq_some_iff_getElem.mpr ⟨like, i, by simpa using bound, ?_, ?_⟩, rfl⟩
    · simp [here]
    · intro j less
      have before := List.getElem?_eq_getElem (l := e.children) (Nat.lt_trans less bound)
      simpa using first j less _ before

theorem mem_bodySites : (path, c) ∈ bodySites a e ↔ BodyOf a e path c := by
  constructor
  · intro member
    cases a with
    | sequence | parallel | scope | whileLoop | repeatUntil | forEach =>
        obtain ⟨rfl, rfl⟩ := Prod.mk.inj (List.mem_singleton.mp member)
        exact .own (by decide)
    | choice =>
        rw [bodySites, List.mem_cons, List.mem_append, mem_childSites, mem_firstSite] at member
        obtain own | ⟨i, rfl, there, like⟩ | ⟨i, rfl, first⟩ := member
        · obtain ⟨rfl, rfl⟩ := Prod.mk.inj own
          exact .own (by decide)
        · exact .elseif there like
        · exact .otherChoice first
    | switch =>
        rw [bodySites, List.mem_append, mem_childSites, mem_firstSite] at member
        obtain ⟨i, rfl, there, like⟩ | ⟨i, rfl, first⟩ := member
        · exact .case there like
        · exact .otherwise first
    | pick =>
        rw [bodySites, List.mem_append, mem_childSites, mem_childSites] at member
        obtain ⟨i, rfl, there, like⟩ | ⟨i, rfl, there, like⟩ := member
        · exact .onMessage there like
        · exact .onAlarm there like
    | _ => cases member
  · intro body
    cases body with
    | own holds =>
        cases a with
        | sequence | parallel | scope | whileLoop | repeatUntil | forEach | choice =>
            exact List.mem_cons_self
        | _ => simp at holds
    | elseif there like =>
        exact List.mem_cons_of_mem _ (List.mem_append_left _ (mem_childSites.mpr ⟨_, rfl, there, like⟩))
    | otherChoice first =>
        exact List.mem_cons_of_mem _ (List.mem_append_right _ (mem_firstSite.mpr ⟨_, rfl, first⟩))
    | case there like => exact List.mem_append_left _ (mem_childSites.mpr ⟨_, rfl, there, like⟩)
    | otherwise first => exact List.mem_append_right _ (mem_firstSite.mpr ⟨_, rfl, first⟩)
    | onMessage there like => exact List.mem_append_left _ (mem_childSites.mpr ⟨_, rfl, there, like⟩)
    | onAlarm there like => exact List.mem_append_right _ (mem_childSites.mpr ⟨_, rfl, there, like⟩)

theorem BodyOf.down (h : BodyOf a e path c) :
    path = [] ∧ c = e ∨
      ∃ i, path = [i] ∧ e.children[i]? = some c ∧ Activity.ofElement? c = none := by
  have plain {tag : String} (name : tag ∈ ["elseif", "else", "case", "otherwise", "onMessage", "onAlarm"])
      (like : c.like tag) : Activity.ofElement? c = none := by
    have none : ∀ tag ∈ ["elseif", "else", "case", "otherwise", "onMessage", "onAlarm"],
        Activity.all.find? (fun a => lowercase a.name = lowercase tag) = none := by
      decide
    rw [Element.like, decide_eq_true_eq] at like
    rw [Activity.ofElement?, like]
    exact none tag name
  cases h with
  | own => exact .inl ⟨rfl, rfl⟩
  | elseif there like | case there like | onMessage there like | onAlarm there like =>
      exact .inr ⟨_, rfl, there, plain (by decide) like⟩
  | otherChoice first | otherwise first => exact .inr ⟨_, rfl, first.1, plain (by decide) first.2.1⟩

theorem sizeOf_child (member : c ∈ e.children) : sizeOf c < sizeOf e := by
  obtain ⟨tag, attributes, text, children⟩ := e
  have := List.sizeOf_lt_of_mem member
  simp only [Element.mk.sizeOf_spec] at this ⊢
  omega

theorem BodyOf.sizeOf_le (h : BodyOf a e path c) : sizeOf c ≤ sizeOf e := by
  obtain ⟨_, rfl⟩ | ⟨i, _, there, _⟩ := h.down
  · exact Nat.le_refl _
  · exact Nat.le_of_lt (sizeOf_child (List.mem_of_getElem? there))

end

/-- A property of elements that passes from what their activities hold up to them holds for all. -/
theorem induction_on_bodies {P : Element → Prop}
    (up : ∀ e, (∀ c ∈ e.children, ∀ a path b, BodyOf a c path b → P b) → P e) (e : Element) :
    P e := by
  induction size : sizeOf e using Nat.strongRecOn generalizing e with
  | ind n ih =>
      refine up e fun c child a path b body => ih (sizeOf b) ?_ b rfl
      rw [← size]
      exact Nat.lt_of_le_of_lt body.sizeOf_le (sizeOf_child child)

/-- The activities that are reached from an element, in the order of their nodes. -/
def sitesWithin (e : Element) : List Site :=
  e.children.zipIdx.attach.flatMap fun x => match Activity.ofElement? x.val.1 with
    | none => []
    | some a => ⟨[x.val.2], a, x.val.1⟩ :: (bodySites a x.val.1).attach.flatMap fun b =>
        (sitesWithin b.val.2).map (·.below (x.val.2 :: b.val.1))
termination_by sizeOf e
decreasing_by
  exact Nat.lt_of_le_of_lt (mem_bodySites.mp b.property).sizeOf_le
    (sizeOf_child (List.fst_mem_of_mem_zipIdx x.property))

/-- A child with what is reached from it, if it is an activity. -/
def sitesFrom (x : Element × Nat) : List Site :=
  match Activity.ofElement? x.1 with
  | none => []
  | some a => ⟨[x.2], a, x.1⟩ :: (bodySites a x.1).flatMap fun b =>
      (sitesWithin b.2).map (·.below (x.2 :: b.1))

theorem sitesWithin_eq (e : Element) : sitesWithin e = e.children.zipIdx.flatMap sitesFrom := by
  rw [sitesWithin, List.flatMap_subtype (g := sitesFrom), List.unattach_attach]
  intro x member
  unfold sitesFrom
  cases Activity.ofElement? x.1 with
  | none => rfl
  | some a =>
      dsimp only
      rw [List.flatMap_subtype (g := fun b => (sitesWithin b.2).map (·.below (x.2 :: b.1)))
        fun _ _ => rfl, List.unattach_attach]

section
variable {e root : Element} {s : Site}

theorem mem_sitesFrom {x : Element × Nat} : s ∈ sitesFrom x ↔
    ∃ a, Activity.ofElement? x.1 = some a ∧ (s = ⟨[x.2], a, x.1⟩ ∨
      ∃ path b, BodyOf a x.1 path b ∧ ∃ t ∈ sitesWithin b, s = t.below (x.2 :: path)) := by
  unfold sitesFrom
  cases Activity.ofElement? x.1 with
  | none => simp
  | some a =>
      simp only [List.mem_cons, List.mem_flatMap, Prod.exists, mem_bodySites, List.mem_map,
        Option.some.injEq, exists_eq_left', eq_comm (a := s)]

theorem mem_sitesWithin :
    s ∈ sitesWithin e ↔ ∃ i c, e.children[i]? = some c ∧ s ∈ sitesFrom (c, i) := by
  rw [sitesWithin_eq, List.mem_flatMap]
  constructor
  · rintro ⟨⟨c, i⟩, member, found⟩
    exact ⟨i, c, List.mk_mem_zipIdx_iff_getElem?.mp member, found⟩
  · rintro ⟨i, c, there, found⟩
    exact ⟨(c, i), List.mk_mem_zipIdx_iff_getElem?.mpr there, found⟩

theorem child_mem_sitesWithin {i : Nat} {c : Element} {a : Activity} (there : e.children[i]? = some c)
    (activity : Activity.ofElement? c = some a) : ⟨[i], a, c⟩ ∈ sitesWithin e :=
  mem_sitesWithin.mpr ⟨i, c, there, mem_sitesFrom.mpr ⟨a, activity, .inl rfl⟩⟩

/-- What an activity holds that is reached from an element is reached from the element too. -/
theorem within_mem_sitesWithin {path : List Nat} {b c : Element} {i : Nat} {a : Activity}
    (body : BodyOf s.activity s.element path b) (there : b.children[i]? = some c)
    (activity : Activity.ofElement? c = some a) (member : s ∈ sitesWithin e) :
    ⟨s.path ++ path ++ [i], a, c⟩ ∈ sitesWithin e := by
  induction e using induction_on_bodies generalizing s with
  | up e ih =>
      obtain ⟨j, d, place, found⟩ := mem_sitesWithin.mp member
      obtain ⟨k, kind, rfl | ⟨down, h, holds, t, inner, rfl⟩⟩ := mem_sitesFrom.mp found
      · have here := child_mem_sitesWithin there activity
        refine mem_sitesWithin.mpr ⟨j, d, place, mem_sitesFrom.mpr ⟨k, kind, .inr ?_⟩⟩
        exact ⟨path, b, body, _, here, rfl⟩
      · have deeper := ih d (List.mem_of_getElem? place) k down h holds (s := t) body inner
        refine mem_sitesWithin.mpr ⟨j, d, place, mem_sitesFrom.mpr ⟨k, kind, .inr ?_⟩⟩
        refine ⟨down, h, holds, _, deeper, ?_⟩
        simp [Site.below]

theorem reached_of_mem_sitesWithin {p : List Nat}
    (children : ∀ i c a, e.children[i]? = some c → Activity.ofElement? c = some a →
      Reached root ⟨p ++ [i], a, c⟩) (member : s ∈ sitesWithin e) : Reached root (s.below p) := by
  induction e using induction_on_bodies generalizing s p with
  | up e ih =>
      obtain ⟨i, c, there, found⟩ := mem_sitesWithin.mp member
      obtain ⟨a, activity, rfl | ⟨path, b, body, t, inner, rfl⟩⟩ := mem_sitesFrom.mp found
      · exact children i c a there activity
      · have here := children i c a there activity
        have deeper := ih c (List.mem_of_getElem? there) a path b body (p := p ++ [i] ++ path)
          (fun j d k place kind => .within here body place kind) inner
        simpa [Site.below] using deeper

theorem mem_sitesWithin_iff : s ∈ sitesWithin e ↔ Reached e s := by
  constructor
  · exact reached_of_mem_sitesWithin (p := []) fun i c a there activity => .child there activity
  · intro reached
    induction reached with
    | child there activity => exact child_mem_sitesWithin there activity
    | within _ body there activity ih => exact within_mem_sitesWithin body there activity ih

theorem path_of_mem_sitesFrom {x : Element × Nat} (found : s ∈ sitesFrom x) :
    ∃ rest, s.path = x.2 :: rest ∧ (Activity.ofElement? x.1).isSome := by
  obtain ⟨a, activity, rfl | ⟨path, b, _, t, _, rfl⟩⟩ := mem_sitesFrom.mp found
  · exact ⟨[], rfl, Option.isSome_of_eq_some activity⟩
  · exact ⟨path ++ t.path, rfl, Option.isSome_of_eq_some activity⟩

/-- The way down begins at an activity. -/
theorem path_of_mem_sitesWithin (member : s ∈ sitesWithin e) :
    ∃ i rest c, s.path = i :: rest ∧ e.children[i]? = some c ∧ (Activity.ofElement? c).isSome := by
  obtain ⟨i, c, there, found⟩ := mem_sitesWithin.mp member
  obtain ⟨rest, first, activity⟩ := path_of_mem_sitesFrom found
  exact ⟨i, rest, c, first, there, activity⟩

/-- What one body of an activity holds is not held by another. -/
theorem paths_apart {a : Activity} {c b d : Element} {p q : List Nat} {t : Site}
    (body : BodyOf a c p b) (other : BodyOf a c q d) (different : p ≠ q) (member : s ∈ sitesWithin b)
    (member' : t ∈ sitesWithin d) : p ++ s.path ≠ q ++ t.path := by
  intro same
  obtain ⟨i, _, h, first, there, activity⟩ := path_of_mem_sitesWithin member
  obtain ⟨j, _, k, first', there', activity'⟩ := path_of_mem_sitesWithin member'
  rw [first, first'] at same
  obtain ⟨rfl, rfl⟩ | ⟨m, rfl, place, plain⟩ := body.down
  · obtain ⟨rfl, _⟩ | ⟨n, rfl, place', plain'⟩ := other.down
    · exact different rfl
    · -- The own activities of a choice are not among its branches.
      obtain ⟨rfl, _⟩ := List.cons.inj same
      rw [place', Option.some.injEq] at there
      rw [← there, plain'] at activity
      cases activity
  · obtain ⟨rfl, rfl⟩ | ⟨n, rfl, place', plain'⟩ := other.down
    · obtain ⟨rfl, _⟩ := List.cons.inj same
      rw [place, Option.some.injEq] at there'
      rw [← there', plain] at activity'
      cases activity'
    · obtain ⟨rfl, _⟩ := List.cons.inj same
      exact different rfl

end

section
variable (a : Activity) (e : Element)

theorem nodup_places : (e.children.zipIdx.map Prod.snd).Nodup := by
  rw [List.zipIdx_map_snd]
  exact List.nodup_range'

theorem nodup_childSites {t u : String} (apart : lowercase t ≠ lowercase u) :
    ((childSites t e ++ childSites u e).map (·.1)).Nodup := by
  have alone (tag : String) : ((childSites tag e).map (·.1)).Nodup := by
    have places : (e.children.zipIdx.map fun x => [x.2]).Nodup := by
      have single : Function.Injective fun i : Nat => [i] := fun i j same => (List.cons.inj same).1
      have := (nodup_places e).map single
      rwa [List.map_map] at this
    rw [childSites, List.map_map]
    exact places.sublist (List.filter_sublist.map _)
  rw [List.map_append]
  refine (alone t).append (alone u) ?_
  intro path left right
  obtain ⟨⟨_, c⟩, member, rfl⟩ := List.mem_map.mp left
  obtain ⟨⟨_, d⟩, member', same⟩ := List.mem_map.mp right
  obtain ⟨i, rfl, there, like⟩ := mem_childSites.mp member
  obtain ⟨j, rfl, there', like'⟩ := mem_childSites.mp member'
  obtain rfl : j = i := (List.cons.inj same).1
  obtain rfl : c = d := Option.some.inj (there.symm.trans there')
  rw [Element.like, decide_eq_true_eq] at like like'
  exact apart (like.symm.trans like')

theorem nodup_bodySites : ((bodySites a e).map (·.1)).Nodup := by
  have first (tag : String) : (childSites tag e).head?.toList.Sublist (childSites tag e) := by
    cases childSites tag e with
    | nil => exact List.Sublist.refl _
    | cons x rest => simp
  have branches {t u : String} (apart : lowercase t ≠ lowercase u) :
      ((childSites t e ++ (childSites u e).head?.toList).map (·.1)).Nodup :=
    (nodup_childSites e apart).sublist (((List.Sublist.refl _).append (first u)).map _)
  cases a with
  | sequence | parallel | scope | whileLoop | repeatUntil | forEach => simp [bodySites]
  | choice =>
      rw [bodySites, List.map_cons, List.nodup_cons]
      refine ⟨fun own => ?_, branches (by decide)⟩
      obtain ⟨⟨path, c⟩, member, empty⟩ := List.mem_map.mp own
      rw [List.mem_append, mem_childSites, mem_firstSite] at member
      obtain ⟨i, rfl, _⟩ | ⟨i, rfl, _⟩ := member <;> cases empty
  | switch => exact branches (by decide)
  | pick => exact nodup_childSites e (by decide)
  | _ => exact List.nodup_nil

theorem paths_below (p : List Nat) (sites : List Site) :
    (sites.map (·.below p)).map Site.path = (sites.map Site.path).map (p ++ ·) := by
  rw [List.map_map, List.map_map]
  rfl

theorem nodup_sitesFrom (x : Element × Nat)
    (within : ∀ a path b, BodyOf a x.1 path b → ((sitesWithin b).map Site.path).Nodup) :
    ((sitesFrom x).map Site.path).Nodup := by
  unfold sitesFrom
  cases Activity.ofElement? x.1 with
  | none => exact List.nodup_nil
  | some a =>
      simp only [List.map_cons, List.map_flatMap, paths_below]
      rw [List.nodup_cons, List.nodup_flatMap]
      -- An activity is not below itself, and not twice in one body or in two.
      refine ⟨fun again => ?_, fun ⟨path, b⟩ body => ?_, ?_⟩
      · obtain ⟨⟨path, b⟩, _, inner⟩ := List.mem_flatMap.mp again
        obtain ⟨_, below, same⟩ := List.mem_map.mp inner
        obtain ⟨s, member, rfl⟩ := List.mem_map.mp below
        obtain ⟨j, rest, _, first, _⟩ := path_of_mem_sitesWithin member
        simp [first] at same
      · have alone := within a path b (mem_bodySites.mp body)
        exact alone.map (List.append_right_injective _)
      · have apart := List.pairwise_map.mp (nodup_bodySites a x.1)
        refine apart.imp_of_mem ?_
        rintro ⟨p, b⟩ ⟨q, d⟩ body other different path left right
        obtain ⟨_, below, rfl⟩ := List.mem_map.mp left
        obtain ⟨s, member, rfl⟩ := List.mem_map.mp below
        obtain ⟨_, below', same⟩ := List.mem_map.mp right
        obtain ⟨t, member', rfl⟩ := List.mem_map.mp below'
        exact paths_apart (mem_bodySites.mp body) (mem_bodySites.mp other) different member
          member' (List.cons.inj same).2.symm

/-- No activity is listed twice. -/
theorem nodup_sitesWithin : ((sitesWithin e).map Site.path).Nodup := by
  induction e using induction_on_bodies with
  | up e ih =>
      rw [sitesWithin_eq, List.map_flatMap, List.nodup_flatMap]
      constructor
      · intro x child
        exact nodup_sitesFrom x (ih x.1 (List.fst_mem_of_mem_zipIdx child))
      · have apart := List.pairwise_map.mp (nodup_places e)
        refine apart.imp ?_
        intro x y different path left right
        obtain ⟨s, member, rfl⟩ := List.mem_map.mp left
        obtain ⟨t, member', same⟩ := List.mem_map.mp right
        obtain ⟨p, first, _⟩ := path_of_mem_sitesFrom member
        obtain ⟨q, first', _⟩ := path_of_mem_sitesFrom member'
        rw [first, first'] at same
        exact different (List.cons.inj same).1.symm

end

end ExportDiff.Flow
