/- The search with pending values finds what a search by recursion finds, and visits each value at most once. -/
import ExportDiff.Json.Search
import Mathlib.Algebra.BigOperators.Group.List.Basic
import Mathlib.Algebra.GroupWithZero.Nat
import Mathlib.Data.List.Nodup

namespace ExportDiff.Json

/-- What a value holds itself, by its places or in the order of its keys. -/
def children : Json → List Json
  | .arr items => items
  | .obj fields => values fields
  | _ => []

/-- The text that an object has for a key, unless it is empty. -/
def ownText? (key : List CodePoint) : Json → Option (List CodePoint)
  | .obj fields => filledText? (lookup key fields)
  | _ => none

mutual

/-- The text that an object has for a key comes before the texts within what it holds, and these come in order. -/
def firstText? (key : List CodePoint) : Json → Option (List CodePoint)
  | .arr items => firstTextOfItems? key items
  | .obj fields => (filledText? (lookup key fields)).or (firstTextOfFields? key fields)
  | _ => none

def firstTextOfItems? (key : List CodePoint) : List Json → Option (List CodePoint)
  | [] => none
  | v :: items => (v.firstText? key).or (firstTextOfItems? key items)

def firstTextOfFields? (key : List CodePoint) : List (List CodePoint × Json) → Option (List CodePoint)
  | [] => none
  | (_, v) :: fields => (v.firstText? key).or (firstTextOfFields? key fields)

end

/-- The value at a place: each number of it tells which one of the values held comes next. -/
def at? (v : Json) : List Nat → Option Json
  | [] => some v
  | i :: place => v.children[i]?.bind fun c => c.at? place

/-- The same values, one step farther down. -/
def under (i : Nat) (visits : List (List Nat × Json)) : List (List Nat × Json) :=
  visits.map fun p => (i :: p.1, p.2)

mutual

/-- A value and all within it with their places, each one before what it holds. -/
def preorder : Json → List (List Nat × Json)
  | .arr items => ([], .arr items) :: preorderItems 0 items
  | .obj fields => ([], .obj fields) :: preorderFields 0 fields
  | v => [([], v)]

def preorderItems (i : Nat) : List Json → List (List Nat × Json)
  | [] => []
  | v :: items => under i v.preorder ++ preorderItems (i + 1) items

def preorderFields (i : Nat) : List (List CodePoint × Json) → List (List Nat × Json)
  | [] => []
  | (_, v) :: fields => under i v.preorder ++ preorderFields (i + 1) fields

end

/-- The same without the places. -/
def within (v : Json) : List Json := v.preorder.map (·.2)

/-- A search from some pending values visits these values, in this order, and has this result: it ends with a text
of the value that it visits, or turns to what that value holds before all that was pending already. -/
inductive Visits (key : List CodePoint) : List Json → List Json → Option (List CodePoint) → Prop
  | ended : Visits key [] [] none
  | found {v rest s} : v.ownText? key = some s → Visits key (v :: rest) [v] (some s)
  | onward {v rest visited result} : v.ownText? key = none →
      Visits key (v.children ++ rest) visited result → Visits key (v :: rest) (v :: visited) result

section
variable {key : List CodePoint}

theorem firstTextOfItems?_eq (items : List Json) :
    firstTextOfItems? key items = items.findSome? (firstText? key) := by
  induction items with
  | nil => rfl
  | cons v items ih =>
      rw [firstTextOfItems?, List.findSome?_cons, ih]
      cases v.firstText? key <;> rfl

theorem firstTextOfFields?_eq (fields : List (List CodePoint × Json)) :
    firstTextOfFields? key fields = (values fields).findSome? (firstText? key) := by
  induction fields with
  | nil => rfl
  | cons f fields ih =>
      rw [firstTextOfFields?, values, List.findSome?_cons, ih]
      cases f.2.firstText? key <;> rfl

theorem firstText?_eq (v : Json) :
    v.firstText? key = (v.ownText? key).or (v.children.findSome? (firstText? key)) := by
  cases v with
  | arr items => exact firstTextOfItems?_eq items
  | obj fields => exact congrArg (Option.or _) (firstTextOfFields?_eq fields)
  | _ => rfl

end

theorem sizeItems_children (v : Json) : v.size = sizeItems v.children + 1 := by
  cases v with
  | obj fields => rw [size, children, sizeItems_values]
  | _ => rfl

/-- A search comes to its end, as each turn leaves fewer values pending, those within them counted. -/
theorem induction_on_pending {P : List Json → Prop} (nil : P [])
    (cons : ∀ v rest, P (v.children ++ rest) → P (v :: rest)) (pending : List Json) : P pending := by
  induction left : sizeItems pending using Nat.strongRecOn generalizing pending with
  | ind n ih =>
      cases pending with
      | nil => exact nil
      | cons v rest =>
          refine cons v rest (ih _ ?_ _ rfl)
          rw [← left, sizeItems_append, sizeItems, sizeItems_children v]
          omega

theorem size_le_sizeItems {items : List Json} {v : Json} (member : v ∈ items) : v.size ≤ sizeItems items := by
  obtain ⟨before, after, rfl⟩ := List.append_of_mem member
  rw [sizeItems_append, sizeItems]
  omega

theorem induction_on_children {P : Json → Prop} (step : ∀ v, (∀ c ∈ v.children, P c) → P v) (v : Json) : P v := by
  induction size : v.size using Nat.strongRecOn generalizing v with
  | ind n ih =>
      refine step v fun c member => ih _ ?_ c rfl
      have := size_le_sizeItems member
      rw [← size, sizeItems_children v]
      omega

theorem preorderFields_eq (i : Nat) (fields : List (List CodePoint × Json)) :
    preorderFields i fields = preorderItems i (values fields) := by
  induction fields generalizing i with
  | nil => rfl
  | cons f fields ih => rw [preorderFields, values, preorderItems, ih]

theorem preorder_eq (v : Json) : v.preorder = ([], v) :: preorderItems 0 v.children := by
  cases v with
  | obj fields => exact congrArg (_ :: ·) (preorderFields_eq 0 fields)
  | _ => rfl

theorem map_snd_preorderItems (i : Nat) (items : List Json) :
    (preorderItems i items).map (·.2) = items.flatMap within := by
  induction items generalizing i with
  | nil => rfl
  | cons v items ih =>
      have here : (under i v.preorder).map (·.2) = v.within := List.map_map
      rw [preorderItems, List.map_append, here, ih, List.flatMap_cons]

theorem within_eq (v : Json) : v.within = v :: v.children.flatMap within := by
  rw [within, preorder_eq, List.map_cons, map_snd_preorderItems]

theorem sizeItems_eq (items : List Json) : sizeItems items = (items.map size).sum := by
  induction items with
  | nil => rfl
  | cons v items ih => rw [sizeItems, List.map_cons, List.sum_cons, ih]

theorem length_within (v : Json) : v.within.length = v.size := by
  induction v using induction_on_children with
  | step v ih =>
      rw [within_eq, List.length_cons, List.length_flatMap, sizeItems_children, sizeItems_eq, List.map_congr_left ih]

theorem mem_under {i : Nat} {visits : List (List Nat × Json)} {place : List Nat} {w : Json} :
    (place, w) ∈ under i visits ↔ ∃ rest, place = i :: rest ∧ (rest, w) ∈ visits := by
  rw [under, List.mem_map]
  constructor
  · rintro ⟨⟨rest, v⟩, member, same⟩
    cases same
    exact ⟨rest, rfl, member⟩
  · rintro ⟨rest, rfl, member⟩
    exact ⟨(rest, w), member, rfl⟩

theorem mem_preorderItems {i : Nat} {items : List Json} {place : List Nat} {w : Json} :
    (place, w) ∈ preorderItems i items ↔
      ∃ j rest c, place = (i + j) :: rest ∧ items[j]? = some c ∧ (rest, w) ∈ c.preorder := by
  induction items generalizing i with
  | nil => simp [preorderItems]
  | cons v items ih =>
      rw [preorderItems, List.mem_append, mem_under, ih]
      constructor
      · rintro (⟨rest, rfl, member⟩ | ⟨j, rest, c, rfl, here, member⟩)
        · exact ⟨0, rest, v, rfl, rfl, member⟩
        · exact ⟨j + 1, rest, c, by rw [Nat.add_right_comm, Nat.add_assoc], here, member⟩
      · rintro ⟨_ | j, rest, c, rfl, here, member⟩
        · cases here
          exact .inl ⟨rest, rfl, member⟩
        · exact .inr ⟨j, rest, c, by rw [Nat.add_right_comm, Nat.add_assoc], here, member⟩

/-- The places lead to the values that are listed with them, and all places are listed. -/
theorem mem_preorder {v w : Json} {place : List Nat} : (place, w) ∈ v.preorder ↔ v.at? place = some w := by
  induction place generalizing v with
  | nil =>
      rw [preorder_eq, List.mem_cons, mem_preorderItems, at?]
      simp [eq_comm]
  | cons i rest ih =>
      rw [preorder_eq, List.mem_cons, mem_preorderItems, at?, Option.bind_eq_some_iff]
      simp [ih]

theorem nodup_places_under {i : Nat} {visits : List (List Nat × Json)} (distinct : (visits.map (·.1)).Nodup) :
    ((under i visits).map (·.1)).Nodup := by
  have moved : (under i visits).map (·.1) = (visits.map (·.1)).map (i :: ·) := by
    rw [under, List.map_map, List.map_map]
    rfl
  rw [moved]
  exact distinct.map List.cons_injective

theorem nodup_places_preorderItems {items : List Json} (distinct : ∀ c ∈ items, (c.preorder.map (·.1)).Nodup)
    (i : Nat) : ((preorderItems i items).map (·.1)).Nodup := by
  induction items generalizing i with
  | nil => exact List.nodup_nil
  | cons v items ih =>
      obtain ⟨first, others⟩ := List.forall_mem_cons.mp distinct
      rw [preorderItems, List.map_append]
      refine (nodup_places_under first).append (ih others (i + 1)) ?_
      -- The first number of a place tells which of the values it lies in.
      intro place here later
      obtain ⟨⟨_, v⟩, member, rfl⟩ := List.mem_map.mp here
      obtain ⟨⟨_, w⟩, member', same⟩ := List.mem_map.mp later
      obtain ⟨rest, rfl, _⟩ := mem_under.mp member
      obtain ⟨j, rest', _, rfl, _, _⟩ := mem_preorderItems.mp member'
      have number := (List.cons.inj same).1
      omega

/-- No place is listed twice. -/
theorem nodup_places_preorder (v : Json) : (v.preorder.map (·.1)).Nodup := by
  induction v using induction_on_children with
  | step v ih =>
      rw [preorder_eq, List.map_cons, List.nodup_cons]
      refine ⟨?_, nodup_places_preorderItems ih 0⟩
      intro member
      obtain ⟨⟨_, w⟩, member, same⟩ := List.mem_map.mp member
      obtain ⟨j, rest, _, rfl, _, _⟩ := mem_preorderItems.mp member
      exact nomatch same

section
variable {key : List CodePoint}

/-- One turn of the search. -/
theorem findAmong_cons (v : Json) (rest : List Json) :
    findAmong key (v :: rest) = (v.ownText? key).or (findAmong key (v.children ++ rest)) := by
  cases v with
  | obj fields =>
      rw [findAmong, ownText?, children]
      cases filledText? (lookup key fields) <;> rfl
  | arr items =>
      rw [findAmong]
      rfl
  | _ =>
      rw [findAmong]
      · rfl
      · rintro _ ⟨⟩
      · rintro _ ⟨⟩

/-- Whatever is pending, the search goes on as the recursion does from each of the pending values in turn. -/
theorem findAmong_eq (pending : List Json) : findAmong key pending = pending.findSome? (firstText? key) := by
  induction pending using induction_on_pending with
  | nil => rw [findAmong, List.findSome?_nil]
  | cons v rest ih =>
      rw [findAmong_cons, ih, List.findSome?_append, List.findSome?_cons, firstText?_eq, ← Option.or_assoc]
      cases (v.ownText? key).or (v.children.findSome? (firstText? key)) <;> rfl

theorem flatMap_within_cons (v : Json) (rest : List Json) :
    (v :: rest).flatMap within = v :: (v.children ++ rest).flatMap within := by
  rw [List.flatMap_cons, within_eq, List.flatMap_append, List.cons_append]

/-- The text found is that of the first value within the pending ones which has one. -/
theorem findAmong_eq_within (pending : List Json) :
    findAmong key pending = (pending.flatMap within).findSome? (ownText? key) := by
  induction pending using induction_on_pending with
  | nil => rw [findAmong, List.flatMap_nil, List.findSome?_nil]
  | cons v rest ih =>
      rw [findAmong_cons, ih, flatMap_within_cons, List.findSome?_cons]
      cases v.ownText? key <;> rfl

variable (key) in
/-- The values visited are the first ones of those within the pending ones, in their order. -/
theorem exists_visits (pending : List Json) :
    ∃ visited, Visits key pending visited (findAmong key pending) ∧ visited <+: pending.flatMap within := by
  induction pending using induction_on_pending with
  | nil =>
      refine ⟨[], ?_, List.nil_prefix⟩
      rw [findAmong]
      exact .ended
  | cons v rest ih =>
      rw [findAmong_cons, flatMap_within_cons]
      cases own : v.ownText? key with
      | some s => exact ⟨[v], .found own, List.prefix_append [v] _⟩
      | none =>
          obtain ⟨visited, search, first⟩ := ih
          exact ⟨v :: visited, .onward own search, List.cons_prefix_cons.mpr ⟨rfl, first⟩⟩

theorem Visits.unique {pending visited visited' : List Json} {result result' : Option (List CodePoint)}
    (h : Visits key pending visited result) (h' : Visits key pending visited' result') :
    visited' = visited ∧ result' = result := by
  induction h generalizing visited' result' with
  | ended =>
      cases h'
      exact ⟨rfl, rfl⟩
  | found own =>
      cases h' with
      | found own' => exact ⟨rfl, own'.symm.trans own⟩
      | onward none _ => exact nomatch own.symm.trans none
  | onward none _ ih =>
      cases h' with
      | found own => exact nomatch own.symm.trans none
      | onward _ search =>
          obtain ⟨rfl, rfl⟩ := ih search
          exact ⟨rfl, rfl⟩

end

/-- For every value and key, the search with pending values finds what the recursion finds: the text of the first
object, in the order of the document and before what it holds, that has one which is not empty. It visits values in
this order from the first one on, each place at most once, and then it is over. -/
theorem find?_firstText (v : Json) (key : String) :
    v.find? key = v.firstText? (codePoints key) ∧
    v.find? key = v.within.findSome? (ownText? (codePoints key)) ∧
    (∃ n ≤ v.size, ∀ visited result,
      Visits (codePoints key) [v] visited result ↔ visited = v.within.take n ∧ result = v.find? key) ∧
    (v.preorder.map (·.1)).Nodup ∧ ∀ place w, (place, w) ∈ v.preorder ↔ v.at? place = some w := by
  have alone : [v].flatMap within = v.within := List.flatMap_singleton within v
  refine ⟨?_, ?_, ?_, v.nodup_places_preorder, fun _ _ => mem_preorder⟩
  · rw [find?, findAmong_eq, List.findSome?_singleton]
  · rw [find?, findAmong_eq_within, alone]
  · obtain ⟨visited, search, first⟩ := exists_visits (codePoints key) [v]
    rw [alone] at first
    refine ⟨visited.length, length_within v ▸ first.length_le, fun visited' result => ?_⟩
    rw [← List.prefix_iff_eq_take.mp first]
    constructor
    · exact fun other => search.unique other
    · rintro ⟨rfl, rfl⟩
      exact search

end ExportDiff.Json
