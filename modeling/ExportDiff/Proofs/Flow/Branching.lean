/- Branches as they are drawn: each is entered from its node by one link, and left for the closing node. -/
import ExportDiff.Proofs.Flow.WireRange

namespace ExportDiff.Flow
open Draft Xml

/-- A branch as it is drawn: how it is entered, its steps under their numbers, and the number of the
node that it is left from. -/
structure Branch where
  entry : Entry
  steps : List (Nat × Step)
  exit : Nat

namespace Branch

/-- The branches of the node `k` when `n` ids are taken before them. -/
def drawn (k n : Nat) : List (Entry × List Step) → List Branch
  | [] => []
  | (entry, body) :: rest =>
      ⟨entry, Step.numberedAll n body, Step.lastExit k n body⟩ :: drawn k (n + Step.sizeAll body) rest

/-- Into a branch: to its first step, or on to the closing node if it has none. -/
def wireIn (k : Nat) (b : Branch) : Wire := ⟨k, (b.steps.head?.map (·.1)).getD (k + 1), b.entry⟩

/-- Out of a branch, to the closing node. The one out of an empty branch is the one into it. -/
def wireOut (k : Nat) (b : Branch) : Wire := ⟨b.exit, k + 1, if b.steps.isEmpty then b.entry else .plain⟩

/-- Without branches the closing node is linked directly. -/
def wiresIn (k : Nat) (branches : List Branch) : List Wire :=
  if branches.isEmpty then [⟨k, k + 1, .plain⟩] else branches.map (wireIn k)

def wiresOut (k : Nat) (branches : List Branch) : List Wire :=
  if branches.isEmpty then [⟨k, k + 1, .plain⟩] else branches.map (wireOut k)

theorem length_drawn (k n : Nat) (parts : List (Entry × List Step)) :
    (drawn k n parts).length = parts.length := by
  induction parts generalizing n with
  | nil => rfl
  | cons part rest ih =>
      obtain ⟨entry, body⟩ := part
      rw [drawn, List.length_cons, ih, List.length_cons]

theorem length_wiresOut (k : Nat) (branches : List Branch) :
    (wiresOut k branches).length = max branches.length 1 := by
  cases branches with
  | nil => rfl
  | cons b rest =>
      change (List.map (wireOut k) (b :: rest)).length = _
      rw [List.length_map, List.length_cons]
      omega

end Branch

/-- The links that leave a node, but for those to handlers. -/
def Wire.leaves (k : Nat) (w : Wire) : Bool := w.source = k ∧ w.entry.kind ≠ .error

def Wire.comesTo (k : Nat) (w : Wire) : Bool := w.target = k

theorem numberedAll_cons (n : Nat) (s : Step) (rest : List Step) :
    ∃ below, Step.numberedAll n (s :: rest) = (n + 1, s) :: below := by
  obtain ⟨below, numbered⟩ := s.numbered_head n
  exact ⟨below ++ Step.numberedAll (n + s.size) rest, by rw [Step.numberedAll, numbered, List.cons_append]⟩

section
variable {k n : Nat}

/-- Of the wires within a branch only the one into it leaves the node. -/
theorem filter_leaves_wiresAll (before : k < n) {entry : Entry} (kind : entry.kind ≠ .error) (s : Step)
    (rest : List Step) : (Step.wiresAll entry (some k) n (s :: rest)).filter (Wire.leaves k) =
      [⟨k, n + 1, entry⟩] := by
  have inside : (s.wires n).filter (Wire.leaves k) = [] := by
    rw [List.filter_eq_nil_iff]
    intro w member
    have := s.wires_within n w member
    rw [Wire.Within] at this
    simp only [Wire.leaves, decide_eq_true_eq, not_and]
    omega
  have later : (Step.wiresAll .plain (some (s.exit n)) (n + s.size) rest).filter (Wire.leaves k) = [] := by
    rw [List.filter_eq_nil_iff]
    intro w member
    have exits := Step.exit_bounds n s
    have := Step.wiresAll_within .plain (s.exit n) (n + s.size) exits.2 rest member
    simp only [Wire.leaves, decide_eq_true_eq, not_and]
    omega
  have first : (wiresFrom (some k) (n + 1) entry).filter (Wire.leaves k) = [⟨k, n + 1, entry⟩] := by
    simp [wiresFrom, Wire.leaves, kind]
  rw [Step.wiresAll, List.filter_append, List.filter_append, first, inside, later, List.append_nil,
    List.append_nil]

theorem filter_leaves_wiresPart (before : k < n) (p : Entry × List Step) (kind : p.1.kind ≠ .error) :
    (Step.wiresPart k n p).filter (Wire.leaves k) =
      [Branch.wireIn k ⟨p.1, Step.numberedAll n p.2, Step.lastExit k n p.2⟩] := by
  obtain ⟨entry, steps⟩ := p
  cases steps with
  | nil => simp [Step.wiresPart, Wire.leaves, kind, Branch.wireIn, Step.numberedAll]
  | cons s rest =>
      have later := (Step.lastExit_bounds k n before.le (s :: rest)).2.2 (List.cons_ne_nil s rest)
      have out : Wire.leaves k ⟨Step.lastExit k n (s :: rest), k + 1, .plain⟩ = false := by
        simp only [Wire.leaves, decide_eq_false_iff_not, not_and]
        omega
      obtain ⟨below, numbered⟩ := numberedAll_cons n s rest
      rw [Step.wiresPart, if_neg (by simp), List.filter_append, filter_leaves_wiresAll before kind,
        List.filter_cons_of_neg (by rw [out]; decide), List.filter_nil, Branch.wireIn, numbered]
      rfl

theorem filter_comesTo_wiresPart (before : k < n) (p : Entry × List Step) :
    (Step.wiresPart k n p).filter (Wire.comesTo (k + 1)) =
      [Branch.wireOut k ⟨p.1, Step.numberedAll n p.2, Step.lastExit k n p.2⟩] := by
  obtain ⟨entry, steps⟩ := p
  cases steps with
  | nil => simp [Step.wiresPart, Wire.comesTo, Branch.wireOut, Step.numberedAll, Step.lastExit]
  | cons s rest =>
      have inside : (Step.wiresAll entry (some k) n (s :: rest)).filter (Wire.comesTo (k + 1)) = [] := by
        rw [List.filter_eq_nil_iff]
        intro w member
        have := Step.wiresAll_within entry k n before.le (s :: rest) member
        simp only [Wire.comesTo, decide_eq_true_eq]
        omega
      obtain ⟨below, numbered⟩ := numberedAll_cons n s rest
      rw [Step.wiresPart, if_neg (by simp), List.filter_append, inside]
      simp [Wire.comesTo, Branch.wireOut, numbered]

theorem filter_leaves_wiresParts (before : k < n) (parts : List (Entry × List Step))
    (kinds : ∀ p ∈ parts, p.1.kind ≠ .error) :
    (Step.wiresParts k n parts).filter (Wire.leaves k) = (Branch.drawn k n parts).map (Branch.wireIn k) := by
  induction parts generalizing n with
  | nil => rfl
  | cons p rest ih =>
      obtain ⟨kind, others⟩ := List.forall_mem_cons.mp kinds
      rw [Step.wiresParts, List.filter_append, filter_leaves_wiresPart before p kind,
        ih (n := n + Step.sizeAll p.2) (by omega) others]
      rfl

theorem filter_comesTo_wiresParts (before : k < n) (parts : List (Entry × List Step)) :
    (Step.wiresParts k n parts).filter (Wire.comesTo (k + 1)) =
      (Branch.drawn k n parts).map (Branch.wireOut k) := by
  induction parts generalizing n with
  | nil => rfl
  | cons p rest ih =>
      rw [Step.wiresParts, List.filter_append, filter_comesTo_wiresPart before p,
        ih (n := n + Step.sizeAll p.2) (by omega)]
      rfl

end

theorem Step.kind_of_parts (s : Step) : ∀ p ∈ s.parts, p.1.kind ≠ .error := by
  intro p member
  cases s with
  | parallel h branches =>
      obtain ⟨_, _, rfl⟩ := List.mem_map.mp member
      exact fun same => by cases same
  | conditional h branches =>
      obtain ⟨_, _, rfl⟩ := List.mem_map.mp member
      exact fun same => by cases same
  | _ => cases member

section
variable {m : Nat} {t : Step} {ws : List Wire}

theorem filter_leaves_branching (branching : t.isBranching) : (t.wires m).filter (Wire.leaves (m + 1)) =
    Branch.wiresIn (m + 1) (Branch.drawn (m + 1) (m + 2) t.parts) := by
  have parts := filter_leaves_wiresParts (n := m + 2) (Nat.lt_succ_self (m + 1)) t.parts t.kind_of_parts
  rw [Step.wires_branching m branching, List.filter_append, parts]
  cases t.parts with
  | nil => simp [Branch.drawn, Branch.wiresIn, Wire.leaves, Entry.plain]
  | cons part rest => simp [Branch.drawn, Branch.wiresIn]

theorem filter_comesTo_branching (branching : t.isBranching) :
    (t.wires m).filter (Wire.comesTo (m + 2)) =
      Branch.wiresOut (m + 1) (Branch.drawn (m + 1) (m + 2) t.parts) := by
  have parts := filter_comesTo_wiresParts (n := m + 2) (Nat.lt_succ_self (m + 1)) t.parts
  rw [Step.wires_branching m branching, List.filter_append, parts]
  cases t.parts with
  | nil => simp [Branch.drawn, Branch.wiresOut, Wire.comesTo]
  | cons part rest => simp [Branch.drawn, Branch.wiresOut]

theorem Wire.Apart.not_leaves {w : Wire} (h : w.Apart m) : ¬ Wire.leaves (m + 1) w := by
  simp only [Wire.leaves, decide_eq_true_eq, not_and, not_not]
  exact h.1

theorem Wire.Apart.not_comesTo {w : Wire} (h : w.Apart m) : ¬ Wire.comesTo (m + 2) w := by
  simp only [Wire.comesTo, decide_eq_true_eq]
  exact h.2

theorem Located.filter_eq (h : Located m t ws) {p : Wire → Bool} (apart : ∀ w, w.Apart m → ¬ p w) :
    ws.filter p = (t.wires m).filter p := by
  obtain ⟨before, after, rfl, earlier, later⟩ := h
  have none : ∀ xs : List Wire, (∀ w ∈ xs, w.Apart m) → xs.filter p = [] := by
    intro xs all
    rw [List.filter_eq_nil_iff]
    exact fun w member => apart w (all w member)
  rw [List.filter_append, List.filter_append, none before earlier, none after later, List.nil_append,
    List.append_nil]

end

end ExportDiff.Flow
