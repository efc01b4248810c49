/- The rows of a draft: what is drawn lies above the row that is reached, and links go down the rows. -/
import ExportDiff.Proofs.Flow.Draft
import Mathlib.Algebra.Order.Field.Basic
import Mathlib.Algebra.Order.Ring.Rat

namespace ExportDiff.Flow
open Draft

namespace Coord

theorem value_add (a b : Coord) : (a.add .exact b).value = a.value + b.value := by
  unfold add combine
  split <;> rfl

theorem value_mul (a b : Coord) : (a.mul .exact b).value = a.value * b.value := by
  unfold mul combine
  split <;> rfl

theorem value_max (a b : Coord) : (a.max b).value = Max.max a.value b.value := by
  unfold max
  split
  · next less => exact (max_eq_right less.le).symm
  · next more => exact (max_eq_left (not_lt.mp more)).symm

end Coord

/-- Rows are not rounded, and each is below the one before it. -/
structure Grid.Exact (g : Grid) : Prop where
  rounding : g.rounding = .exact
  apart : 0 < g.spacing.value

namespace Draft

variable {d d' d'' : Draft} {xs ys : List Ends} {pending : Option String} {a b : String}
  {y z bottom bottom' : Rat} {spec : NodeSpec} {offset rows row : Coord} {kind : LinkKind}
  {label : Option String} {parent : Option String}

theorem lt_row_placeAs (exact : d.grid.Exact) (id : String) (spec : NodeSpec) (offset : Coord)
    (down : 0 < rows.value) : d.row.value < (d.placeAs id spec offset rows).row.value := by
  have next : (d.placeAs id spec offset rows).row.value =
      d.row.value + d.grid.spacing.value * rows.value := by
    change (d.row.add d.grid.rounding (d.grid.spacing.mul d.grid.rounding rows)).value = _
    rw [exact.rounding, Coord.value_add, Coord.value_mul]
  rw [next]
  exact lt_add_of_pos_right _ (mul_pos exact.apart down)

/-- The row where a node stands. -/
def At (d : Draft) (id : String) (y : Rat) : Prop := ∃ n ∈ d.nodes, n.id = id ∧ n.y.value = y

/-- One node stands in a higher row than another. -/
def Above (d : Draft) (a b : String) : Prop := ∃ y z, d.At a y ∧ d.At b z ∧ y < z

def AboveRow (d : Draft) (id : String) (bottom : Rat) : Prop := ∃ y, d.At id y ∧ y < bottom

def AboveFrom (d : Draft) (parent : Option String) : Prop := ∀ id ∈ parent, d.AboveRow id d.row.value

/-- A node stands from one row on and above another. -/
def Between (d : Draft) (id : String) (top bottom : Rat) : Prop :=
  ∃ y, d.At id y ∧ top ≤ y ∧ y < bottom

theorem At.aboveRow (h : d.At a y) (higher : y < bottom) : d.AboveRow a bottom := ⟨y, h, higher⟩

theorem AboveRow.above (h : d.AboveRow a z) (at_row : d.At b z) : d.Above a b := by
  obtain ⟨y, here, higher⟩ := h
  exact ⟨y, z, here, at_row, higher⟩

theorem AboveRow.lower (h : d.AboveRow a bottom) (lower : bottom ≤ bottom') : d.AboveRow a bottom' := by
  obtain ⟨y, here, higher⟩ := h
  exact ⟨y, here, higher.trans_le lower⟩

theorem Between.aboveRow (h : d.Between a y bottom) : d.AboveRow a bottom := by
  obtain ⟨z, here, _, higher⟩ := h
  exact ⟨z, here, higher⟩

theorem Between.lt (h : d.Between a y bottom) : y < bottom := by
  obtain ⟨z, _, lower, higher⟩ := h
  exact lower.trans_lt higher

theorem Between.lower (h : d.Between a y bottom) (lower : bottom ≤ bottom') : d.Between a y bottom' := by
  obtain ⟨z, here, above, higher⟩ := h
  exact ⟨z, here, above, higher.trans_le lower⟩

theorem Between.raise (h : d.Between a y bottom) (higher : z ≤ y) : d.Between a z bottom := by
  obtain ⟨x, here, lower, upper⟩ := h
  exact ⟨x, here, higher.trans lower, upper⟩

theorem aboveFrom_none : d.AboveFrom none := by
  intro id member
  cases member

theorem aboveFrom_some : d.AboveFrom (some a) ↔ d.AboveRow a d.row.value := by
  simp [AboveFrom]

section
variable (kept : d.nodes ⊆ d'.nodes)
include kept

theorem At.mono (h : d.At a y) : d'.At a y := by
  obtain ⟨n, member, place⟩ := h
  exact ⟨n, kept member, place⟩

theorem Above.mono (h : d.Above a b) : d'.Above a b := by
  obtain ⟨y, z, first, second, higher⟩ := h
  exact ⟨y, z, first.mono kept, second.mono kept, higher⟩

theorem AboveRow.mono (h : d.AboveRow a bottom) : d'.AboveRow a bottom := by
  obtain ⟨y, here, higher⟩ := h
  exact ⟨y, here.mono kept, higher⟩

theorem Between.mono (h : d.Between a y bottom) : d'.Between a y bottom := by
  obtain ⟨z, here, bounds⟩ := h
  exact ⟨z, here.mono kept, bounds⟩

end

theorem at_placeAs (id : String) : (d.placeAs id spec offset rows).At id d.row.value :=
  ⟨⟨id, _, _, _, _, _, _, _⟩, List.mem_append_right _ List.mem_cons_self, rfl, rfl⟩

/-- Nodes were added, all of them above a row. -/
structure Fills (bottom : Rat) (d d' : Draft) : Prop where
  grid : d'.grid = d.grid
  nodes : ∃ added, d'.nodes = d.nodes ++ added ∧ ∀ n ∈ added, n.y.value < bottom

/-- Links were added too, which go down, except that these go up and that those to a pending node come
from above the row. -/
structure Lays (backs : List Ends) (pending : Option String) (bottom : Rat) (d d' : Draft) : Prop
    extends Fills bottom d d' where
  links : ∃ added, d'.links = d.links ++ added ∧ ∀ l ∈ added, l.ends ∈ backs ∨
    d'.Above l.source l.target ∨ pending = some l.target ∧ d'.AboveRow l.source bottom
  rises : ∀ e ∈ backs, d'.Above e.2.1 e.1

/-- The links go down when what they are to follow is above them. -/
structure LaysFrom (parent : Option String) (backs : List Ends) (d d' : Draft) : Prop where
  fills : Fills d'.row.value d d'
  lays : d.AboveFrom parent → Lays backs none d'.row.value d d'

theorem Fills.kept (h : Fills bottom d d') : d.nodes ⊆ d'.nodes := by
  obtain ⟨added, nodes, _⟩ := h.nodes
  rw [nodes]
  exact List.subset_append_left _ _

theorem Fills.exact (h : Fills bottom d d') (exact : d.grid.Exact) : d'.grid.Exact :=
  h.grid ▸ exact

theorem Fills.refl (bottom : Rat) (d : Draft) : Fills bottom d d :=
  ⟨rfl, [], (List.append_nil _).symm, by simp⟩

theorem Fills.trans (h : Fills bottom d d') (h' : Fills bottom' d' d'') (lower : bottom ≤ bottom') :
    Fills bottom' d d'' := by
  obtain ⟨nodes, placed, above⟩ := h.nodes
  obtain ⟨nodes', placed', above'⟩ := h'.nodes
  refine ⟨h'.grid.trans h.grid, nodes ++ nodes', by rw [placed', placed, List.append_assoc], ?_⟩
  intro n member
  obtain early | late := List.mem_append.mp member
  · exact (above n early).trans_le lower
  · exact above' n late

theorem fills_placeAs {e : Draft} (above : e.row.value < bottom) (grid : e.grid = d.grid)
    (nodes : e.nodes = d.nodes) (id : String) (spec : NodeSpec) (offset rows : Coord) :
    Fills bottom d (e.placeAs id spec offset rows) := by
  refine ⟨grid, [_], congrArg (· ++ [_]) nodes, ?_⟩
  intro n member
  rw [List.mem_singleton.mp member]
  exact above

theorem Fills.lays (h : Fills bottom d d') (links : d'.links = d.links) (pending : Option String) :
    Lays [] pending bottom d d' :=
  ⟨h, ⟨[], by rw [links, List.append_nil], by simp⟩, by simp⟩

theorem Lays.refl (pending : Option String) (bottom : Rat) (d : Draft) : Lays [] pending bottom d d :=
  (Fills.refl bottom d).lays rfl pending

theorem Lays.trans (h : Lays xs pending bottom d d') (h' : Lays ys pending bottom' d' d'')
    (lower : bottom ≤ bottom') : Lays (xs ++ ys) pending bottom' d d'' := by
  obtain ⟨links, linked, down⟩ := h.links
  obtain ⟨links', linked', down'⟩ := h'.links
  refine ⟨h.toFills.trans h'.toFills lower, ⟨links ++ links', ?_, ?_⟩, ?_⟩
  · rw [linked', linked, List.append_assoc]
  · intro l member
    obtain early | late := List.mem_append.mp member
    · obtain back | falls | ⟨waits, source⟩ := down l early
      · exact .inl (List.mem_append_left ys back)
      · exact .inr (.inl (falls.mono h'.kept))
      · exact .inr (.inr ⟨waits, (source.mono h'.kept).lower lower⟩)
    · exact (down' l late).imp_left (List.mem_append_right xs)
  · intro e member
    obtain early | late := List.mem_append.mp member
    · exact (h.rises e early).mono h'.kept
    · exact h'.rises e late

theorem Lays.reorder (h : Lays xs pending bottom d d') (perm : xs.Perm ys) :
    Lays ys pending bottom d d' := by
  obtain ⟨links, linked, down⟩ := h.links
  refine ⟨h.toFills, ⟨links, linked, ?_⟩, fun e member => h.rises e (perm.mem_iff.mpr member)⟩
  exact fun l member => (down l member).imp_left perm.mem_iff.mp

/-- What is laid while nothing waits may be laid while something does. -/
theorem Lays.meanwhile (h : Lays xs none bottom d d') (pending : Option String) :
    Lays xs pending bottom d d' := by
  obtain ⟨links, linked, down⟩ := h.links
  refine ⟨h.toFills, ⟨links, linked, ?_⟩, h.rises⟩
  intro l member
  obtain back | falls | ⟨waits, _⟩ := down l member
  · exact .inl back
  · exact .inr (.inl falls)
  · cases waits

theorem Lays.of_setRow (h : Lays xs pending bottom (d.setRow row) d') : Lays xs pending bottom d d' :=
  ⟨⟨h.grid, h.nodes⟩, h.links, h.rises⟩

theorem Lays.of_newNodeId (h : Lays xs pending bottom d.newNodeId.2 d') :
    Lays xs pending bottom d d' :=
  ⟨⟨h.grid, h.nodes⟩, h.links, h.rises⟩

theorem Lays.link (ends : (a, b, kind, label) ∈ xs ∨ d.Above a b ∨
    pending = some b ∧ d.AboveRow a bottom) (rises : ∀ e ∈ xs, d.Above e.2.1 e.1) :
    Lays xs pending bottom d (d.link a b kind label) := by
  refine ⟨⟨rfl, [], (List.append_nil _).symm, by simp⟩, ⟨[_], links_link, ?_⟩, rises⟩
  intro l member
  rw [List.mem_singleton.mp member]
  exact ends

theorem Lays.onward (h : Lays xs pending bottom d d')
    (ends : d'.Above a b ∨ pending = some b ∧ d'.AboveRow a bottom) (kind : LinkKind)
    (label : Option String) : Lays xs pending bottom d (d'.link a b kind label) := by
  have last : Lays [] pending bottom d' (d'.link a b kind label) := .link (.inr ends) (by simp)
  have all := h.trans last le_rfl
  rwa [List.append_nil] at all

theorem Lays.up (h : Lays xs pending bottom d d') (above : d'.Above b a) (kind : LinkKind)
    (label : Option String) :
    Lays ((a, b, kind, label) :: xs) pending bottom d (d'.link a b kind label) := by
  have back : Lays [(a, b, kind, label)] pending bottom d' (d'.link a b kind label) :=
    .link (.inl List.mem_cons_self) (by simpa using above)
  exact (h.trans back le_rfl).reorder (List.perm_append_singleton _ _)

theorem LaysFrom.trans {backs : List Ends} (h : LaysFrom parent backs d d')
    (h' : Lays xs none d''.row.value d' d'') (lower : d'.row.value ≤ d''.row.value) :
    LaysFrom parent (backs ++ xs) d d'' :=
  ⟨h.fills.trans h'.toFills lower, fun above => (h.lays above).trans h' lower⟩

theorem place_linkFrom_lays (exact : d.grid.Exact) (parent : Option String) (spec : NodeSpec)
    (offset : Coord) (down : 0 < rows.value) (kind : LinkKind) (label : Option String) :
    let placed := d.place spec offset rows
    let linked := placed.2.linkFrom parent placed.1 kind label
    LaysFrom parent [] d linked ∧ linked.At placed.1 d.row.value ∧ d.row.value < linked.row.value := by
  intro placed linked
  have next : d.row.value < placed.2.row.value :=
    lt_row_placeAs (d := d.newNodeId.2) exact _ spec offset down
  have fills : Fills placed.2.row.value d placed.2 :=
    fills_placeAs (d := d) (e := d.newNodeId.2) next rfl rfl d.newNodeId.1 spec offset rows
  have here : placed.2.At placed.1 d.row.value := at_placeAs _
  cases parent with
  | none => exact ⟨⟨fills, fun _ => fills.lays rfl none⟩, here, next⟩
  | some p =>
      refine ⟨⟨⟨fills.grid, fills.nodes⟩, fun above => ?_⟩, here, next⟩
      have falls : placed.2.Above p placed.1 := ((aboveFrom_some.mp above).mono fills.kept).above here
      exact (fills.lays rfl none).onward (.inl falls) kind label

/-- The node that was pending is placed where all links to it come from above. -/
theorem Lays.close {bottom : Coord} (h : Lays xs (some a) bottom.value d d') (exact : d.grid.Exact)
    (spec : NodeSpec) (offset : Coord) (down : 0 < rows.value) :
    let closed := (d'.setRow bottom).placeAs a spec offset rows
    Lays xs none closed.row.value d closed ∧ closed.At a bottom.value ∧
      bottom.value < closed.row.value := by
  intro closed
  have next : bottom.value < closed.row.value :=
    lt_row_placeAs (d := d'.setRow bottom) (h.exact exact) a spec offset down
  have here : closed.At a bottom.value := at_placeAs _
  have last : Fills closed.row.value d' closed :=
    fills_placeAs (d := d') (e := d'.setRow bottom) next rfl rfl a spec offset rows
  obtain ⟨links, linked, down⟩ := h.links
  refine ⟨⟨h.toFills.trans last next.le, ⟨links, linked, ?_⟩, ?_⟩, here, next⟩
  · intro l member
    obtain back | falls | ⟨waits, source⟩ := down l member
    · exact .inl back
    · exact .inr (.inl (falls.mono last.kept))
    · obtain rfl := Option.some.inj waits
      exact .inr (.inl ((source.mono last.kept).above here))
  · exact fun e member => (h.rises e member).mono last.kept

/-- All nodes are above the row that was reached. -/
def Clear (d : Draft) : Prop := ∀ n ∈ d.nodes, n.y.value < d.row.value

theorem clear_start (grid : Grid) (row : Coord) : (start grid row).Clear := by
  intro n member
  cases member

theorem Clear.aboveRow (h : d.Clear) {n : Node} (member : n ∈ d.nodes) :
    d.AboveRow n.id d.row.value := ⟨n.y.value, ⟨n, member, rfl, rfl⟩, h n member⟩

theorem Clear.fills (h : d.Clear) (fills : Fills d'.row.value d d')
    (lower : d.row.value ≤ d'.row.value) : d'.Clear := by
  obtain ⟨added, nodes, above⟩ := fills.nodes
  intro n member
  rw [nodes] at member
  obtain old | new := List.mem_append.mp member
  · exact (h n old).trans_le lower
  · exact above n new

/-- A chain is left as it was entered, or from a node that stands from the row on where it begins. -/
def LeftBelow (d : Draft) (parent : Option String) (drawn : Option String × Draft) : Prop :=
  drawn = (parent, d) ∨ ∃ last, drawn.1 = some last ∧ drawn.2.Between last d.row.value drawn.2.row.value

theorem LeftBelow.row_le {drawn : Option String × Draft} (h : LeftBelow d parent drawn) :
    d.row.value ≤ drawn.2.row.value := by
  obtain same | ⟨_, _, between⟩ := h
  · rw [same]
  · exact between.lt.le

theorem LeftBelow.after {drawn : Option String × Draft} (h : LeftBelow d' (some a) drawn)
    (first : d'.Between a d.row.value d'.row.value) : LeftBelow d parent drawn := by
  obtain same | ⟨last, leaves, between⟩ := h
  · rw [same]
    exact .inr ⟨a, rfl, first⟩
  · exact .inr ⟨last, leaves, between.raise first.lt.le⟩

theorem LeftBelow.getD {drawn : Option String × Draft} (h : LeftBelow d (some a) drawn)
    (here : d.At a y) (higher : y < d.row.value) :
    drawn.2.Between (drawn.1.getD a) y drawn.2.row.value := by
  obtain same | ⟨last, leaves, between⟩ := h
  · rw [same]
    exact ⟨y, here, le_rfl, higher⟩
  · rw [leaves]
    exact between.raise higher.le

end Draft

end ExportDiff.Flow
