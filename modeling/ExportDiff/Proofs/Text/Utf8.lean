/- What bytes are read as: characters where their encodings stand, and a gap for each longest start of a character
that comes to nothing, or for a byte that starts none. -/
import ExportDiff.Proofs.Text.Encoding
import Mathlib.Data.List.Induction
import Mathlib.Data.Nat.Init

namespace ExportDiff.Text
open String (utf8EncodeChar)

/-- Bytes before others that belong to no character: one that starts none, or the start of one, as long as it goes
on. -/
inductive IsGap : List UInt8 → List UInt8 → Prop
  | stray {b rest} : ¬ BeginsChar [b] → IsGap [b] rest
  | cutShort {u rest} : u ≠ [] → BeginsChar u → (∀ c, utf8EncodeChar c ≠ u) →
      (∀ b ∈ rest.head?, ¬ BeginsChar (u ++ [b])) → IsGap u rest

/-- How bytes are read. -/
inductive Reads : List UInt8 → List (Option Char) → Prop
  | done : Reads [] []
  | char {c rest parts} : Reads rest parts → Reads (utf8EncodeChar c ++ rest) (some c :: parts)
  | gap {u rest parts} : IsGap u rest → Reads rest parts → Reads (u ++ rest) (none :: parts)

section
variable {read : List (Option Char)} {b : UInt8} {c : Char} {u rest bytes : List UInt8} {parts : List (Option Char)}

theorem step_between (read : List (Option Char)) (b : UInt8) : (⟨read, none⟩ : Utf8State).step b = .start read b := rfl

theorem step_under (read : List (Option Char)) (g : Begun) (b : UInt8) : (⟨read, some g⟩ : Utf8State).step b =
    if g.takes b then
      if g.owed ≤ 1 then ⟨some (Char.ofNat (g.next b).bits) :: read, none⟩ else ⟨read, some (g.next b)⟩
    else .start (none :: read) b := rfl

theorem not_whole_of_begins (begins : BeginsChar (u ++ [b])) : utf8EncodeChar c ≠ u := by
  intro same
  obtain ⟨d, longer⟩ := begins
  have start : utf8EncodeChar c <+: utf8EncodeChar d := by
    rw [same]
    exact (List.prefix_append u [b]).trans longer
  rw [← eq_of_encode_prefix start, same] at longer
  have := longer.length_le
  rw [List.length_append, List.length_singleton] at this
  omega

/-- The start of a character is under way. -/
theorem foldl_begun (some : u ≠ []) (begins : BeginsChar u) (partly : ∀ c, utf8EncodeChar c ≠ u) :
    ∃ g : Begun, g.Under u ∧ ∀ read, u.foldl Utf8State.step ⟨read, none⟩ = ⟨read, .some g⟩ := by
  induction u using List.reverseRecOn with
  | nil => exact absurd rfl some
  | append_singleton u b ih =>
      by_cases empty : u = []
      · subst empty
        cases first : firstByte b with
        | whole c => exact absurd (encode_of_whole first) (partly c)
        | stray => exact absurd begins (not_begins_of_stray first)
        | begun g =>
            refine ⟨g, under_of_begun first, fun read => ?_⟩
            change Utf8State.start read b = _
            rw [Utf8State.start, first]
      · obtain ⟨g, under, reach⟩ := ih empty (begins.of_prefix (List.prefix_append u [b]))
          fun _ => not_whole_of_begins begins
        have takes := under.takes_iff.mpr begins
        have more : ¬ g.owed ≤ 1 := fun last => partly _ (under.whole takes last)
        refine ⟨g.next b, under.next takes more, fun read => ?_⟩
        rw [List.foldl_concat, reach, step_under, if_pos takes, if_neg more]

/-- The bytes of a character are read as it. -/
theorem foldl_char (c : Char) (read : List (Option Char)) :
    (utf8EncodeChar c).foldl Utf8State.step ⟨read, none⟩ = ⟨some c :: read, none⟩ := by
  obtain ⟨u, b, bytes⟩ := (List.eq_nil_or_concat' (utf8EncodeChar c)).resolve_left String.utf8EncodeChar_ne_nil
  have begins : BeginsChar (u ++ [b]) := bytes ▸ begins_encode c
  rw [bytes]
  by_cases empty : u = []
  · subst empty
    change Utf8State.start read b = _
    cases first : firstByte b with
    | whole d =>
        have same : c = d := encode_injective (bytes.trans (encode_of_whole first).symm)
        rw [Utf8State.start, first, same]
    | stray => exact absurd begins (not_begins_of_stray first)
    | begun g => exact absurd bytes (under_of_begun first).not_whole
  · obtain ⟨g, under, reach⟩ := foldl_begun empty (begins.of_prefix (List.prefix_append u [b]))
      fun _ => not_whole_of_begins begins
    have takes := under.takes_iff.mpr begins
    by_cases last : g.owed ≤ 1
    · have same : c = Char.ofNat (g.next b).bits :=
        encode_injective (bytes.trans (under.whole takes last).symm)
      rw [List.foldl_concat, reach, step_under, if_pos takes, if_pos last, ← same]
    · exact absurd bytes (under.next takes last).not_whole

/-- A gap is noticed at the next byte, or at the end. -/
theorem finish_gap (h : IsGap u rest) (read : List (Option Char)) :
    ((u ++ rest).foldl Utf8State.step ⟨read, none⟩).finish =
      (rest.foldl Utf8State.step ⟨none :: read, none⟩).finish := by
  rw [List.foldl_append]
  cases h with
  | @stray b _ none =>
      have first : firstByte b = .stray := by
        cases first : firstByte b with
        | whole c => exact absurd (encode_of_whole first ▸ begins_encode c) none
        | stray => rfl
        | begun g =>
            obtain ⟨t, c, complete⟩ := g.exists_complete? g.low (takes_low_of_begun first)
            exact absurd ⟨c, t, ((under_of_begun first t c).mp complete).symm⟩ none
      change (rest.foldl Utf8State.step (Utf8State.start read b)).finish = _
      rw [Utf8State.start, first]
  | cutShort some begins partly longest =>
      obtain ⟨g, under, reach⟩ := foldl_begun some begins partly
      rw [reach]
      cases rest with
      | nil => rfl
      | cons b rest =>
          have other : ¬ g.takes b = true := fun takes => longest b rfl (under.takes_iff.mp takes)
          rw [List.foldl_cons, List.foldl_cons, step_under, if_neg other, step_between]

theorem finish_reads (h : Reads bytes parts) (read : List (Option Char)) :
    (bytes.foldl Utf8State.step ⟨read, none⟩).finish = read.reverse ++ parts := by
  induction h generalizing read with
  | done => exact (List.append_nil _).symm
  | char _ ih =>
      rw [List.foldl_append, foldl_char, ih, List.reverse_cons, List.append_assoc, List.singleton_append]
  | gap gap _ ih =>
      rw [finish_gap gap, ih, List.reverse_cons, List.append_assoc, List.singleton_append]

/-- A start of a character can be followed as long as it goes on. -/
theorem exists_longest (begins : BeginsChar u) (t : List UInt8) :
    ∃ v rest, t = v ++ rest ∧ BeginsChar (u ++ v) ∧ ∀ b ∈ rest.head?, ¬ BeginsChar (u ++ v ++ [b]) := by
  induction t generalizing u with
  | nil => exact ⟨[], [], rfl, by rwa [List.append_nil], fun b none => nomatch none⟩
  | cons b t ih =>
      by_cases more : BeginsChar (u ++ [b])
      · obtain ⟨v, rest, rfl, begins', longest⟩ := ih more
        rw [List.append_assoc, List.singleton_append] at begins' longest
        exact ⟨b :: v, rest, rfl, begins', longest⟩
      · refine ⟨[], b :: t, rfl, by rwa [List.append_nil], ?_⟩
        rintro _ ⟨⟩
        rwa [List.append_nil]

theorem exists_reads (bytes : List UInt8) : ∃ parts, Reads bytes parts := by
  induction size : bytes.length using Nat.strong_induction_on generalizing bytes with
  | _ n ih =>
      have later {v rest : List UInt8} (some : v ≠ []) (split : bytes = v ++ rest) : ∃ parts, Reads rest parts := by
        refine ih _ ?_ rest rfl
        have positive := List.length_pos_of_ne_nil some
        rw [← size, split, List.length_append]
        omega
      cases bytes with
      | nil => exact ⟨[], .done⟩
      | cons b t =>
          by_cases begins : BeginsChar [b]
          · obtain ⟨v, rest, rfl, begins', longest⟩ := exists_longest begins t
            rw [← List.singleton_append, ← List.append_assoc]
            obtain ⟨parts, reads⟩ := later (v := [b] ++ v) (List.cons_ne_nil b v) rfl
            by_cases whole : ∃ c, utf8EncodeChar c = [b] ++ v
            · obtain ⟨c, same⟩ := whole
              rw [← same]
              exact ⟨_, .char reads⟩
            · exact ⟨_, .gap (.cutShort (List.cons_ne_nil b v) begins' (not_exists.mp whole) longest) reads⟩
          · obtain ⟨parts, reads⟩ := later (List.cons_ne_nil b []) rfl
            exact ⟨_, .gap (.stray begins) reads⟩

/-- Every text of bytes is read in one way, which is that of the machine. -/
theorem reads_iff : Reads bytes parts ↔ utf8Parts bytes = parts := by
  have sound {parts} (h : Reads bytes parts) : utf8Parts bytes = parts := finish_reads h []
  constructor
  · exact sound
  · rintro rfl
    obtain ⟨parts, reads⟩ := exists_reads bytes
    exact sound reads ▸ reads

theorem reads_utf8Parts (bytes : List UInt8) : Reads bytes (utf8Parts bytes) := reads_iff.mpr rfl

theorem Reads.prepend (s : List Char) (h : Reads bytes parts) :
    Reads (s.flatMap utf8EncodeChar ++ bytes) (s.map some ++ parts) := by
  induction s with
  | nil => exact h
  | cons c s ih =>
      rw [List.flatMap_cons, List.append_assoc]
      exact .char ih

theorem reads_encode (s : List Char) : Reads (s.flatMap utf8EncodeChar) (s.map some) := by
  have reads := Reads.done.prepend s
  rwa [List.append_nil, List.append_nil] at reads

/-- Where there is no gap, the bytes are those of the characters. -/
theorem Reads.encoded (h : Reads bytes parts) (whole : none ∉ parts) :
    ∃ s : List Char, bytes = s.flatMap utf8EncodeChar ∧ parts = s.map some := by
  induction h with
  | done => exact ⟨[], rfl, rfl⟩
  | @char c _ _ _ ih =>
      obtain ⟨s, rfl, rfl⟩ := ih (mt (List.mem_cons_of_mem _) whole)
      exact ⟨c :: s, rfl, rfl⟩
  | gap => exact absurd List.mem_cons_self whole

/-- Bytes that are the encoding of a text. -/
def IsText (bytes : List UInt8) : Prop := ∃ s, encodeUtf8 s = bytes

/-- What a part is shown as. -/
def shownPart (part : Option Char) : Char := part.getD '\uFFFD'

/-- Bytes whose parts are shown alike: one may have a gap where the other has another gap, or the replacement
character itself. -/
def ReadAlike (left right : List UInt8) : Prop :=
  ∃ parts parts', Reads left parts ∧ Reads right parts' ∧ parts.map shownPart = parts'.map shownPart

theorem toList_decodeUtf8 (bytes : List UInt8) : (decodeUtf8 bytes).toList = (utf8Parts bytes).map shownPart :=
  String.toList_ofList

theorem decodeUtf8_eq_iff {left right : List UInt8} : decodeUtf8 left = decodeUtf8 right ↔ ReadAlike left right := by
  rw [← String.toList_inj, toList_decodeUtf8, toList_decodeUtf8]
  constructor
  · exact fun same => ⟨_, _, reads_utf8Parts left, reads_utf8Parts right, same⟩
  · rintro ⟨parts, parts', reads, reads', same⟩
    rwa [reads_iff.mp reads, reads_iff.mp reads']

theorem decodeUtf8_encodeUtf8 (s : String) : decodeUtf8 (encodeUtf8 s) = s := by
  rw [← String.toList_inj, toList_decodeUtf8, encodeUtf8, reads_iff.mp (reads_encode s.toList), List.map_map]
  exact List.map_id _

theorem encodeUtf8_injective : Function.Injective encodeUtf8 :=
  Function.LeftInverse.injective decodeUtf8_encodeUtf8

theorem IsText.encodeUtf8_decodeUtf8 (h : IsText bytes) : encodeUtf8 (decodeUtf8 bytes) = bytes := by
  obtain ⟨s, rfl⟩ := h
  rw [decodeUtf8_encodeUtf8]

/-- No gap is hidden: without a replacement character in what was read, nothing was replaced. -/
theorem isText_of_unmarked (unmarked : '\uFFFD' ∉ (decodeUtf8 bytes).toList) : IsText bytes := by
  rw [toList_decodeUtf8] at unmarked
  have whole : none ∉ utf8Parts bytes := fun gap => unmarked (List.mem_map_of_mem (f := shownPart) gap)
  obtain ⟨s, same, _⟩ := (reads_utf8Parts bytes).encoded whole
  exact ⟨String.ofList s, by rw [encodeUtf8, String.toList_ofList, same]⟩

theorem eq_of_readAlike {left right : List UInt8} (alike : ReadAlike left right) (h : IsText left) (h' : IsText right) :
    left = right := by
  rw [← h.encodeUtf8_decodeUtf8, ← h'.encodeUtf8_decodeUtf8, decodeUtf8_eq_iff.mpr alike]

/-- Just the bytes of a text without replacement characters are told apart from all others by what is read. -/
theorem readAlike_only_self_iff : (∀ other, ReadAlike bytes other → other = bytes) ↔
    IsText bytes ∧ '\uFFFD' ∉ (decodeUtf8 bytes).toList := by
  constructor
  · intro alone
    have again : decodeUtf8 bytes = decodeUtf8 (encodeUtf8 (decodeUtf8 bytes)) := (decodeUtf8_encodeUtf8 _).symm
    have text : IsText bytes := ⟨_, alone _ (decodeUtf8_eq_iff.mp again)⟩
    refine ⟨text, fun marked => ?_⟩
    -- A stray byte in place of the replacement character reads alike.
    obtain ⟨before, after, split⟩ := List.append_of_mem marked
    have stray : ¬ BeginsChar [0xFF] := not_begins_of_stray rfl
    have reads' : Reads (before.flatMap utf8EncodeChar ++ ([0xFF] ++ after.flatMap utf8EncodeChar))
        (before.map some ++ none :: after.map some) := ((reads_encode after).gap (.stray stray)).prepend before
    have whole : bytes = before.flatMap utf8EncodeChar ++ (utf8EncodeChar '\uFFFD' ++ after.flatMap utf8EncodeChar) := by
      rw [← text.encodeUtf8_decodeUtf8, encodeUtf8, split, List.flatMap_append, List.flatMap_cons]
    have reads : Reads bytes (before.map some ++ some '\uFFFD' :: after.map some) :=
      whole ▸ (reads_encode after).char.prepend before
    have same := alone _ ⟨_, _, reads, reads', by simp [shownPart]⟩
    rw [whole, List.append_cancel_left_eq, List.append_cancel_right_eq] at same
    exact absurd same (by decide)
  · rintro ⟨text, unmarked⟩ other alike
    have text' : IsText other := isText_of_unmarked (decodeUtf8_eq_iff.mpr alike ▸ unmarked)
    exact (eq_of_readAlike alike text text').symm

end

end ExportDiff.Text
