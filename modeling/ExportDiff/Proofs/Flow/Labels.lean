/- The labels of links: the way into a branch has a short one, a plain link has none. -/
import ExportDiff.Proofs.Flow.Branching

namespace ExportDiff.Flow
open Draft Text Xml

/-- How links are labelled: the way into a branch by a short text, a plain link not at all. -/
def Entry.Fits (e : Entry) : Prop :=
  match e.kind with
  | .plain => e.label = none
  | .conditional => ∃ label, e.label = some label ∧ label ≠ "" ∧ label.length ≤ 30
  | .error => e.label = some "error"

theorem fits_plain : Entry.plain.Fits := rfl

theorem fits_loop : Entry.loop.Fits := ⟨"loop", rfl, by decide, by decide⟩

theorem fits_error : Entry.error.Fits := rfl

/-- The labels of the branches of a step are as they should be. -/
def Step.Labelled (s : Step) : Prop := ∀ p ∈ s.parts, p.1.Fits

theorem wiresHandlers_fit (k n : Nat) (handlers : List Handler) :
    ∀ w ∈ wiresHandlers k n handlers, w.entry.Fits := by
  intro w member
  rw [(wiresHandlers_within k n handlers w member).2.1]
  exact fits_error

theorem wiresFrom_fit {p : Option Nat} {n : Nat} {entry : Entry} (fits : entry.Fits) :
    ∀ w ∈ wiresFrom p n entry, w.entry.Fits := by
  intro w member
  obtain ⟨_, _, rfl⟩ := List.mem_map.mp member
  exact fits

theorem direct_fits {b : Bool} {k n : Nat} {entry : Entry} (fits : entry.Fits) :
    ∀ w ∈ (if b then [⟨k, n, entry⟩] else [] : List Wire), w.entry.Fits := by
  intro w member
  rw [mem_of_mem_ite member]
  exact fits

theorem append_fit {xs ys : List Wire} (first : ∀ w ∈ xs, w.entry.Fits) (last : ∀ w ∈ ys, w.entry.Fits) :
    ∀ w ∈ xs ++ ys, w.entry.Fits := by
  intro w member
  exact (List.mem_append.mp member).elim (first w) (last w)

namespace Step

/-- The wires of a step fit when the branches of all steps in it are labelled as they should be. -/
def WiresFit (s : Step) : Prop :=
  ∀ n, (∀ q ∈ s.numbered n, q.2.Labelled) → ∀ w ∈ s.wires n, w.entry.Fits

section
variable {steps : List Step} {parts : List (Entry × List Step)}

theorem wiresAll_fit_of (each : ∀ s ∈ steps, s.WiresFit) (p : Option Nat) (n : Nat) {entry : Entry}
    (fits : entry.Fits) (labelled : ∀ q ∈ numberedAll n steps, q.2.Labelled) :
    ∀ w ∈ wiresAll entry p n steps, w.entry.Fits := by
  induction steps generalizing entry p n with
  | nil => simp [wiresAll]
  | cons s rest ih =>
      obtain ⟨here, others⟩ := List.forall_mem_cons.mp each
      rw [numberedAll, List.forall_mem_append] at labelled
      rw [wiresAll]
      exact append_fit (append_fit (wiresFrom_fit fits) (here n labelled.1))
        (ih others (some (s.exit n)) (n + s.size) fits_plain labelled.2)

theorem wiresParts_fit_of (each : ∀ p ∈ parts, ∀ s ∈ p.2, s.WiresFit) (k n : Nat)
    (labels : ∀ p ∈ parts, p.1.Fits) (labelled : ∀ q ∈ numberedParts n parts, q.2.Labelled) :
    ∀ w ∈ wiresParts k n parts, w.entry.Fits := by
  induction parts generalizing n with
  | nil => simp [wiresParts]
  | cons p rest ih =>
      obtain ⟨here, others⟩ := List.forall_mem_cons.mp each
      obtain ⟨label, later⟩ := List.forall_mem_cons.mp labels
      rw [numberedParts, List.forall_mem_append] at labelled
      rw [wiresParts, wiresPart]
      refine append_fit ?_ (ih others (n + sizeAll p.2) later labelled.2)
      split
      · exact List.forall_mem_singleton.mpr label
      · exact append_fit (wiresAll_fit_of here (some k) n label labelled.1)
          (List.forall_mem_singleton.mpr fits_plain)

end

theorem wires_fit (s : Step) : s.WiresFit := by
  induction s using shape_induction with
  | chain s plain each =>
      intro n labelled
      rw [numbered_chain n plain, List.forall_mem_cons] at labelled
      rw [wires_chain n plain]
      refine append_fit (append_fit (wiresAll_fit_of each _ _ fits_plain labelled.2) ?_)
        (wiresHandlers_fit _ _ s.handlers)
      intro w back
      obtain ⟨_, _, rfl⟩ := loopWire?_eq_some (Option.mem_toList.mp back)
      exact fits_loop
  | branches s branching each =>
      intro n labelled
      rw [numbered_branching n branching, List.forall_mem_cons] at labelled
      rw [wires_branching n branching]
      exact append_fit (wiresParts_fit_of each _ _ labelled.1 labelled.2) (direct_fits fits_plain)

theorem wiresAll_fit (p : Option Nat) (n : Nat) {entry : Entry} (fits : entry.Fits) (steps : List Step)
    (labelled : ∀ q ∈ numberedAll n steps, q.2.Labelled) : ∀ w ∈ wiresAll entry p n steps, w.entry.Fits :=
  wiresAll_fit_of (fun s _ => s.wires_fit) p n fits labelled

end Step

namespace Activity

theorem branchLabel_fits {label : Option String} {default : String} (filled : ∀ l ∈ label, l ≠ "")
    (named : default ≠ "") : Entry.Fits ⟨.conditional, some (branchLabel label default)⟩ := by
  have whole : label.getD default ≠ "" := by
    cases label with
    | none => exact named
    | some l => exact filled l rfl
  refine ⟨_, rfl, ?_, ?_⟩
  · intro none
    have taken := congrArg String.toList none
    rw [branchLabel, clip, String.toList_ofList, String.toList_empty, List.take_eq_nil_iff] at taken
    exact taken.elim (by decide) fun nothing => whole (String.toList_eq_nil_iff.mp nothing)
  · rw [branchLabel, clip, String.length_ofList]
    exact List.length_take_le _ _

theorem numbered_fit {α : Type} {label : Element → Option String} {word : String}
    (filled : ∀ e, ∀ l ∈ label e, l ≠ "") (n : Nat) (parts : List (Element × α)) :
    ∀ b ∈ numbered label word n parts, Entry.Fits ⟨.conditional, some b.1⟩ := by
  induction parts generalizing n with
  | nil => simp [numbered]
  | cons part rest ih =>
      obtain ⟨e, x⟩ := part
      rw [numbered, List.forall_mem_cons]
      refine ⟨branchLabel_fits (filled e) ?_, ih (n + 1)⟩
      intro none
      have := congrArg String.toList none
      simp at this

theorem filled_of_filled? (e : Element) (name : String) : ∀ l ∈ e.filled? name, l ≠ "" := by
  intro l found
  exact of_decide_eq_true (Option.filter_eq_some_iff.mp found).2

theorem filled_of_condition? (e : Element) : ∀ l ∈ condition? e, l ≠ "" := by
  intro l found
  obtain ⟨c, _, text⟩ := Option.bind_eq_some_iff.mp found
  exact of_decide_eq_true (Option.filter_eq_some_iff.mp text).2

theorem branches_fit {α : Type} (a : Activity) (e : Element) (own : α) (parts : List (Element × α)) :
    ∀ b ∈ a.branches e own parts, Entry.Fits ⟨.conditional, some b.1⟩ := by
  have fixed : ∀ word : String, word ≠ "" → word.length ≤ 30 → ∀ tag : String,
      ∀ b ∈ ((partsLike tag parts).head?.map fun p => (word, p.2)).toList,
        Entry.Fits ⟨.conditional, some b.1⟩ := by
    intro word filled short tag b member
    obtain ⟨p, _, rfl⟩ := Option.map_eq_some_iff.mp (Option.mem_toList.mp member)
    exact ⟨word, rfl, filled, short⟩
  cases a with
  | choice =>
      rw [branches, List.forall_mem_append, List.forall_mem_cons]
      exact ⟨⟨branchLabel_fits (filled_of_condition? e) (by decide), numbered_fit filled_of_condition? 1 _⟩,
        fixed "else" (by decide) (by decide) _⟩
  | switch =>
      rw [branches, List.forall_mem_append]
      refine ⟨numbered_fit ?_ 1 _, fixed "otherwise" (by decide) (by decide) _⟩
      intro c l found
      obtain own | ⟨_, child⟩ := Option.or_eq_some_iff.mp found
      · exact filled_of_filled? c _ l own
      · exact filled_of_condition? c l child
  | pick =>
      rw [branches, List.forall_mem_append]
      constructor
      · intro b member
        obtain ⟨p, _, rfl⟩ := List.mem_map.mp member
        exact branchLabel_fits (filled_of_filled? p.1 _) (by decide)
      · intro b member
        obtain ⟨p, _, rfl⟩ := List.mem_map.mp member
        exact ⟨"onAlarm", rfl, by decide, by decide⟩
  | _ =>
      intro b member
      cases member

end Activity

end ExportDiff.Flow
