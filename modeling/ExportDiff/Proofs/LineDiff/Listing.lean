/- A unified listing can be read back by places alone: signs tell which rows show a side, and behind its numbers
stand its lines. -/
import ExportDiff.LineDiff.Listing
import ExportDiff.Proofs.LineDiff.View
import Mathlib.Data.List.Forall2
import Mathlib.Data.Nat.Digits.Defs

namespace ExportDiff.LineDiff

/-- The character between the numbers and the line. -/
def signAt (row : String) : Option Char := row.toList[12]?

def leftColumn (row : String) : List Char := row.toList.take 5

def rightColumn (row : String) : List Char := (row.toList.drop 6).take 5

/-- A row without its first 14 characters. -/
def lineAt (row : String) : String := String.ofList (row.toList.drop 14)

/-- The rows of a side: lines of both sides have a blank for a sign, and its own have the sign given. -/
def rowsWith (sign : Char) (rows : List String) : List String :=
  rows.filter fun row => signAt row = some ' ' ∨ signAt row = some sign

/-- Five characters: the decimal digits of a number, and blanks before them. -/
def HoldsNumber (column : List Char) (n : Nat) : Prop :=
  column.length = 5 ∧ ∃ k, column = List.replicate k ' ' ++ Nat.toDigits 10 n

/-- The rows with a sign show the lines in order, with their numbers from one on in a column that is blank in
all other rows. -/
structure ReadsBack (sign : Char) (column : String → List Char) (rows lines : List String) : Prop where
  texts : (rowsWith sign rows).map lineAt = lines
  numbers : List.Forall₂ HoldsNumber ((rowsWith sign rows).map column) (List.range' 1 lines.length)
  blanks : ∀ row ∈ rows, row ∉ rowsWith sign rows → column row = List.replicate 5 ' '

def LineKind.sign : LineKind → Char
  | .removed => '-'
  | .added => '+'
  | .unchanged | .gap => ' '

theorem LineKind.toList_marker (k : LineKind) : k.marker.toList = [k.sign] := by
  cases k <;> rfl

/-! One row. -/

@[simp] theorem toList_spaces (n : Nat) : (spaces n).toList = List.replicate n ' ' := String.toList_ofList

theorem toList_numberColumn_some (n : Nat) :
    (numberColumn (some n)).toList = List.replicate (5 - (toString n).length) ' ' ++ Nat.toDigits 10 n := by
  rw [numberColumn, String.toList_append, toList_spaces]
  exact congrArg _ Nat.toList_repr

theorem holdsNumber_numberColumn {n : Nat} (h : n ≤ 99999) : HoldsNumber (numberColumn (some n)).toList n := by
  have short : (toString n).length ≤ 5 := Nat.repr_length n 5 (by decide) (Nat.lt_succ_of_le h)
  refine ⟨?_, _, toList_numberColumn_some n⟩
  rw [numberColumn, String.toList_append, toList_spaces, List.length_append, List.length_replicate,
    String.length_toList]
  omega

/-- The numbers of a line fill no more than their columns. -/
structure StreamLine.Fits (l : StreamLine) : Prop where
  left : ∀ n ∈ l.leftNumber, n ≤ 99999
  right : ∀ n ∈ l.rightNumber, n ≤ 99999

theorem length_numberColumn {number : Option Nat} (h : ∀ n ∈ number, n ≤ 99999) :
    (numberColumn number).toList.length = 5 := by
  cases number with
  | none => rfl
  | some n => exact (holdsNumber_numberColumn (h n rfl)).1

theorem toList_listing (l : StreamLine) :
    l.listing.toList = (numberColumn l.leftNumber).toList ++
      ' ' :: ((numberColumn l.rightNumber).toList ++ ' ' :: l.kind.sign :: ' ' :: l.text.toList) := by
  simp [StreamLine.listing, LineKind.toList_marker]

/-- A column and the character behind it take six places. -/
theorem drop_column {column : List Char} (full : column.length = 5) (c : Char) (s : List Char) (n : Nat) :
    (column ++ c :: s).drop (n + 6) = s.drop n := by
  have places : n + 6 = column.length + (n + 1) := by omega
  rw [places, List.drop_length_add_append, List.drop_succ_cons]

namespace StreamLine.Fits
variable {l : StreamLine}

theorem leftColumn_listing (h : l.Fits) : leftColumn l.listing = (numberColumn l.leftNumber).toList := by
  rw [leftColumn, toList_listing]
  exact List.take_left' (length_numberColumn h.left)

theorem rightColumn_listing (h : l.Fits) : rightColumn l.listing = (numberColumn l.rightNumber).toList := by
  have behind := drop_column (length_numberColumn h.left) ' '
    ((numberColumn l.rightNumber).toList ++ ' ' :: l.kind.sign :: ' ' :: l.text.toList) 0
  rw [rightColumn, toList_listing, behind]
  exact List.take_left' (length_numberColumn h.right)

theorem drop_columns (h : l.Fits) (n : Nat) :
    l.listing.toList.drop (n + 12) = (l.kind.sign :: ' ' :: l.text.toList).drop n := by
  rw [toList_listing]
  exact (drop_column (length_numberColumn h.left) _ _ (n + 6)).trans
    (drop_column (length_numberColumn h.right) _ _ n)

theorem signAt_listing (h : l.Fits) : signAt l.listing = some l.kind.sign := by
  rw [signAt, ← List.head?_drop]
  exact congrArg List.head? (h.drop_columns 0)

theorem lineAt_listing (h : l.Fits) : lineAt l.listing = l.text := by
  have behind : l.listing.toList.drop 14 = l.text.toList := h.drop_columns 2
  rw [lineAt, behind, String.ofList_toList]

end StreamLine.Fits

/-! The stream. -/

/-- The three forms of a line: the numbers of a side stand where it has the line. -/
inductive Shaped : StreamLine → Prop
  | keep (l r : Nat) (line : String) : Shaped ⟨some l, some r, line, .unchanged⟩
  | remove (l : Nat) (line : String) : Shaped ⟨some l, none, line, .removed⟩
  | add (r : Nat) (line : String) : Shaped ⟨none, some r, line, .added⟩

section
variable {left right : List String} {steps : List (Step String)} (l r : Nat)

theorem streamFrom_shaped : ∀ s ∈ streamFrom left right l r steps, Shaped s := by
  induction steps generalizing l r with
  | nil => exact List.forall_mem_nil _
  | cons step steps ih =>
      cases step with
      | keep i j line => exact List.forall_mem_cons.mpr ⟨.keep l r _, ih (l + 1) (r + 1)⟩
      | remove i line => exact List.forall_mem_cons.mpr ⟨.remove l _, ih (l + 1) r⟩
      | add j line => exact List.forall_mem_cons.mpr ⟨.add r _, ih l (r + 1)⟩

theorem leftLines_streamFrom (fits : ∀ s ∈ steps, s.Fits left right) :
    ((streamFrom left right l r steps).filter (·.kind ≠ .added)).map (fun s => (s.leftNumber, s.text)) =
      numberedFrom l ((leftSteps steps).map Step.line) := by
  induction steps generalizing l r with
  | nil => simp [streamFrom, leftSteps]
  | cons step steps ih =>
      obtain ⟨fit, rest⟩ := List.forall_mem_cons.mp fits
      cases step with
      | keep i j line =>
          simpa [streamFrom, leftSteps, Step.kind, Step.line, fit.lineIn_keep.1] using ih (l + 1) (r + 1) rest
      | remove i line =>
          simpa [streamFrom, leftSteps, Step.kind, Step.line, fit.lineIn_remove] using ih (l + 1) r rest
      | add j line => simpa [streamFrom, leftSteps, Step.kind] using ih l (r + 1) rest

/-- A line that is kept is shown as the left side has it, which is as the right side has it. -/
theorem rightLines_streamFrom (fits : ∀ s ∈ steps, s.Fits left right) :
    ((streamFrom left right l r steps).filter (·.kind ≠ .removed)).map (fun s => (s.rightNumber, s.text)) =
      numberedFrom r ((rightSteps steps).map Step.line) := by
  induction steps generalizing l r with
  | nil => simp [streamFrom, rightSteps]
  | cons step steps ih =>
      obtain ⟨fit, rest⟩ := List.forall_mem_cons.mp fits
      cases step with
      | keep i j line =>
          simpa [streamFrom, rightSteps, Step.kind, Step.line, fit.lineIn_keep.1] using ih (l + 1) (r + 1) rest
      | remove i line => simpa [streamFrom, rightSteps, Step.kind] using ih (l + 1) r rest
      | add j line =>
          simpa [streamFrom, rightSteps, Step.kind, Step.line, fit.lineIn_add] using ih l (r + 1) rest

end

theorem numbers_numberedFrom (first : Nat) (lines : List String) :
    (numberedFrom first lines).map Prod.fst = (List.range' first lines.length).map some := by
  induction lines generalizing first with
  | nil => rfl
  | cons line lines ih =>
      rw [numberedFrom_cons, List.map_cons, ih]
      rfl

theorem texts_numberedFrom (first : Nat) (lines : List String) : (numberedFrom first lines).map Prod.snd = lines := by
  induction lines generalizing first with
  | nil => rfl
  | cons line lines ih => rw [numberedFrom_cons, List.map_cons, ih]

/-! One side. -/

/-- How the rows tell a side: by its sign, and in which column they number it. The kind is that of the lines which
the side does not have. -/
structure Told (number : StreamLine → Option Nat) (other : LineKind) (sign : Char)
    (column : String → List Char) : Prop where
  signs : ∀ k : LineKind, (k.sign = ' ' ∨ k.sign = sign) ↔ k ≠ other
  columns : ∀ s : StreamLine, s.Fits → column s.listing = (numberColumn (number s)).toList

theorem left_told : Told StreamLine.leftNumber .added '-' leftColumn where
  signs := by rintro (_ | _ | _ | _) <;> decide
  columns := fun _ fits => fits.leftColumn_listing

theorem right_told : Told StreamLine.rightNumber .removed '+' rightColumn where
  signs := by rintro (_ | _ | _ | _) <;> decide
  columns := fun _ fits => fits.rightColumn_listing

/-- A side as the stream tells it: its lines are numbered, and those of the other side alone have no number. -/
structure SideOf (number : StreamLine → Option Nat) (other : LineKind) (stream : List StreamLine)
    (lines : List String) : Prop where
  numbered : (stream.filter (·.kind ≠ other)).map (fun s => (number s, s.text)) = numberedFrom 1 lines
  blank : ∀ s ∈ stream, s.kind = other → number s = none

section
variable {number : StreamLine → Option Nat} {other : LineKind} {stream : List StreamLine} {lines : List String}
  {sign : Char} {column : String → List Char}

theorem Told.shows (told : Told number other sign column) {s : StreamLine} (fits : s.Fits) :
    (signAt s.listing = some ' ' ∨ signAt s.listing = some sign) ↔ s.kind ≠ other := by
  rw [fits.signAt_listing, Option.some.injEq, Option.some.injEq]
  exact told.signs s.kind

theorem Told.mem_rowsWith (told : Told number other sign column) {s : StreamLine} (fits : s.Fits)
    {rows : List String} (member : s.listing ∈ rows) : s.listing ∈ rowsWith sign rows ↔ s.kind ≠ other := by
  rw [rowsWith, List.mem_filter, decide_eq_true_iff, told.shows fits, and_iff_right member]

theorem Told.rowsWith_listing (told : Told number other sign column) (fits : ∀ s ∈ stream, s.Fits) :
    rowsWith sign (stream.map StreamLine.listing) = (stream.filter (·.kind ≠ other)).map StreamLine.listing := by
  rw [rowsWith, List.filter_map]
  exact congrArg _ (List.filter_congr fun s member => decide_eq_decide.mpr (told.shows (fits s member)))

namespace SideOf

theorem texts (h : SideOf number other stream lines) :
    (stream.filter (·.kind ≠ other)).map StreamLine.text = lines := by
  have second := congrArg (List.map Prod.snd) h.numbered
  rwa [List.map_map, texts_numberedFrom] at second

theorem numbers (h : SideOf number other stream lines) :
    (stream.filter (·.kind ≠ other)).map number = (List.range' 1 lines.length).map some := by
  have first := congrArg (List.map Prod.fst) h.numbered
  rwa [List.map_map, numbers_numberedFrom] at first

theorem number_le (h : SideOf number other stream lines) {s : StreamLine} (member : s ∈ stream) :
    ∀ n ∈ number s, n ≤ lines.length := by
  intro n hn
  by_cases alone : s.kind = other
  · rw [h.blank s member alone] at hn
    cases hn
  · have shown : s ∈ stream.filter (·.kind ≠ other) := List.mem_filter.mpr ⟨member, by simpa using alone⟩
    have counted : number s ∈ (List.range' 1 lines.length).map some := h.numbers ▸ List.mem_map_of_mem shown
    rw [Option.mem_def.mp hn] at counted
    simp [List.mem_range'_1] at counted
    omega

theorem columns_listing (h : SideOf number other stream lines) (told : Told number other sign column)
    (fits : ∀ s ∈ stream, s.Fits) : (rowsWith sign (stream.map StreamLine.listing)).map column =
      (List.range' 1 lines.length).map fun n => (numberColumn (some n)).toList := by
  calc (rowsWith sign (stream.map StreamLine.listing)).map column
      = (stream.filter (·.kind ≠ other)).map fun s => (numberColumn (number s)).toList := by
        rw [told.rowsWith_listing fits, List.map_map]
        exact List.map_congr_left fun s shown => told.columns s (fits s (List.mem_filter.mp shown).1)
    _ = ((stream.filter (·.kind ≠ other)).map number).map fun n => (numberColumn n).toList := by
        rw [List.map_map]
        rfl
    _ = (List.range' 1 lines.length).map fun n => (numberColumn (some n)).toList := by
        rw [h.numbers, List.map_map]
        rfl

theorem readsBack (h : SideOf number other stream lines) (told : Told number other sign column)
    (fits : ∀ s ∈ stream, s.Fits) (few : lines.length ≤ 99999) :
    ReadsBack sign column (stream.map StreamLine.listing) lines := by
  refine ⟨?_, ?_, ?_⟩
  · rw [told.rowsWith_listing fits, List.map_map, ← h.texts]
    exact List.map_congr_left fun s shown => (fits s (List.mem_filter.mp shown).1).lineAt_listing
  · rw [h.columns_listing told fits, List.forall₂_map_left_iff, List.forall₂_same]
    intro n member
    rw [List.mem_range'_1] at member
    exact holdsNumber_numberColumn (by omega)
  · intro row member hidden
    obtain ⟨s, there, rfl⟩ := List.mem_map.mp member
    have alone : s.kind = other := not_ne_iff.mp (mt (told.mem_rowsWith (fits s there) member).mpr hidden)
    rw [told.columns s (fits s there), h.blank s there alone]
    rfl

end SideOf

end

theorem unified_left (left right : Option String) :
    SideOf StreamLine.leftNumber .added (unified left right) (contentLines left) where
  numbered := by
    have covers : Covers (contentLines left) (contentLines right) (steps left right) := align_covers _ _
    rw [unified, leftLines_streamFrom 1 1 covers.fits, covers.leftLines]
  blank := by
    intro s member added
    cases streamFrom_shaped 1 1 s member with
    | add r line => rfl
    | _ => cases added

theorem unified_right (left right : Option String) :
    SideOf StreamLine.rightNumber .removed (unified left right) (contentLines right) where
  numbered := by
    have covers : Covers (contentLines left) (contentLines right) (steps left right) := align_covers _ _
    rw [unified, rightLines_streamFrom 1 1 covers.fits, covers.rightLines]
  blank := by
    intro s member removed
    cases streamFrom_shaped 1 1 s member with
    | remove l line => rfl
    | _ => cases removed

/-- Of contents with no more lines than five digits can count, the listing tells both: the rows with a blank or a
minus are the lines of the left one, those with a blank or a plus the lines of the right one, each behind its
number, and there are no other rows. -/
theorem unifiedListing_readsBack (left right : Option String) (hl : (contentLines left).length ≤ 99999)
    (hr : (contentLines right).length ≤ 99999) :
    ReadsBack '-' leftColumn (unifiedListing left right) (contentLines left) ∧
      ReadsBack '+' rightColumn (unifiedListing left right) (contentLines right) ∧
      ∀ row ∈ unifiedListing left right,
        row ∈ rowsWith '-' (unifiedListing left right) ∨ row ∈ rowsWith '+' (unifiedListing left right) := by
  have inLeft := unified_left left right
  have inRight := unified_right left right
  have fits : ∀ s ∈ unified left right, s.Fits := fun s member =>
    ⟨fun n hn => (inLeft.number_le member n hn).trans hl, fun n hn => (inRight.number_le member n hn).trans hr⟩
  refine ⟨inLeft.readsBack left_told fits hl, inRight.readsBack right_told fits hr, ?_⟩
  intro row member
  obtain ⟨s, there, rfl⟩ := List.mem_map.mp member
  -- A line that the left side lacks has the sign of the right one.
  by_cases added : s.kind = .added
  · have own : s.kind ≠ .removed := by rw [added]; decide
    exact .inr ((right_told.mem_rowsWith (fits s there) member).mpr own)
  · exact .inl ((left_told.mem_rowsWith (fits s there) member).mpr added)

/-- Lines that look like a row of the listing, with a sign or a number first, are read back as they are. -/
theorem unifiedListing_readsBack_signs :
    (contentLines (some "- a\n    2\n+")).length ≤ 99999 ∧ (contentLines (some "+ a\n    2\n\n-")).length ≤ 99999 ∧
      ReadsBack '-' leftColumn (unifiedListing (some "- a\n    2\n+") (some "+ a\n    2\n\n-")) ["- a", "    2", "+"] ∧
      ReadsBack '+' rightColumn (unifiedListing (some "- a\n    2\n+") (some "+ a\n    2\n\n-"))
        ["+ a", "    2", "", "-"] := by
  have lines : contentLines (some "- a\n    2\n+") = ["- a", "    2", "+"] := by decide
  have lines' : contentLines (some "+ a\n    2\n\n-") = ["+ a", "    2", "", "-"] := by decide
  have few : (contentLines (some "- a\n    2\n+")).length ≤ 99999 := by rw [lines]; decide
  have few' : (contentLines (some "+ a\n    2\n\n-")).length ≤ 99999 := by rw [lines']; decide
  obtain ⟨left, right, _⟩ := unifiedListing_readsBack _ _ few few'
  rw [lines] at left
  rw [lines'] at right
  exact ⟨few, few', left, right⟩

end ExportDiff.LineDiff
