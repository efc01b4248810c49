/- The bytes of a character: what begins one, and what completes it. -/
import ExportDiff.Text.Utf8
import Mathlib.Algebra.Group.Nat.Defs
import Mathlib.Data.List.Basic
import Mathlib.Tactic.SplitIfs

namespace ExportDiff.Text
open String (utf8EncodeChar)

/-- How many bytes of a character follow its first one. -/
def trailing (v : Nat) : Nat := if v < 0x80 then 0 else if v < 0x800 then 1 else if v < 0x10000 then 2 else 3

/-- What the first byte has besides bits of the character. -/
def leadMark : Nat → Nat
  | 0 => 0
  | 1 => 0xC0
  | 2 => 0xE0
  | _ => 0xF0

def leadByte (v : Nat) : Nat := v / 64 ^ trailing v + leadMark (trailing v)

/-- The last bytes of a character. -/
def trail : Nat → Nat → List Nat
  | 0, _ => []
  | n + 1, v => (v / 64 ^ n % 64 + 0x80) :: trail n v

/-- The bytes of a character, as numbers. -/
def encoding (v : Nat) : List Nat := leadByte v :: trail (trailing v) v

namespace Begun

/-- The byte is one of those that may come next. -/
def takes (g : Begun) (b : UInt8) : Bool := g.low ≤ b && b ≤ g.high

/-- What is under way with one byte more. -/
def next (g : Begun) (b : UInt8) : Begun := ⟨g.bits * 64 + b.toNat % 64, g.owed - 1, 0x80, 0xBF⟩

/-- The character under way, when these bytes are just what it still needs. -/
def complete? (g : Begun) : List UInt8 → Option Char
  | [] => none
  | b :: t =>
      if g.takes b then
        if g.owed ≤ 1 then if t = [] then some (Char.ofNat (g.next b).bits) else none
        else (g.next b).complete? t
      else none

end Begun

/-- The bytes may go on to be those of a character, or are so already. -/
def BeginsChar (u : List UInt8) : Prop := ∃ c, u <+: utf8EncodeChar c

/-- The state has come as far as these bytes of a character: what completes it there completes them. -/
def Begun.Under (g : Begun) (u : List UInt8) : Prop := ∀ t c, g.complete? t = some c ↔ utf8EncodeChar c = u ++ t

section
variable {b : UInt8} {c d : Char} {t u : List UInt8} {v bits n : Nat} {low high : UInt8} {g : Begun}

theorem toNat_bounds (c : Char) : c.toNat < 0xD800 ∨ 0xDFFF < c.toNat ∧ c.toNat < 0x110000 := c.valid

theorem ofNat_eq_iff (valid : v < 0xD800 ∨ 0xDFFF < v ∧ v < 0x110000) : Char.ofNat v = c ↔ c.toNat = v := by
  constructor
  · rintro rfl
    rw [Char.ofNat, dif_pos valid]
    rfl
  · intro same
    rw [← same, Char.ofNat_toNat]

theorem map_toNat_utf8EncodeChar (c : Char) : (utf8EncodeChar c).map UInt8.toNat = encoding c.toNat := by
  have bounds := toNat_bounds c
  have value : c.val.toNat = c.toNat := rfl
  rw [utf8EncodeChar, value, encoding, leadByte, trailing]
  split_ifs <;> simp [trail, leadMark] <;> omega

theorem utf8EncodeChar_eq_iff : utf8EncodeChar c = u ↔ encoding c.toNat = u.map UInt8.toNat := by
  rw [← map_toNat_utf8EncodeChar, (List.map_injective_iff.mpr fun _ _ => UInt8.toNat_inj.mp).eq_iff]

/-- No encoding is the start of another one. -/
theorem eq_of_encode_prefix (h : utf8EncodeChar c <+: utf8EncodeChar d) : c = d := by
  obtain ⟨t, same⟩ := h
  have here : ((utf8EncodeChar c).toByteArray ++ t.toByteArray).utf8DecodeChar? 0 = some c :=
    ByteArray.utf8DecodeChar?_utf8EncodeChar_append
  have there : ((utf8EncodeChar d).toByteArray ++ ([] : List UInt8).toByteArray).utf8DecodeChar? 0 = some d :=
    ByteArray.utf8DecodeChar?_utf8EncodeChar_append
  rw [← List.toByteArray_append, same] at here
  rw [← List.toByteArray_append, List.append_nil, here] at there
  exact Option.some.inj there

theorem encode_injective (h : utf8EncodeChar c = utf8EncodeChar d) : c = d :=
  eq_of_encode_prefix (h ▸ List.prefix_rfl)

theorem complete?_last : (⟨bits, 1, low, high⟩ : Begun).complete? t = some c ↔
    ∃ x, t = [x] ∧ (low.toNat ≤ x.toNat ∧ x.toNat ≤ high.toNat) ∧ Char.ofNat (bits * 64 + x.toNat % 64) = c := by
  cases t with
  | nil => simp [Begun.complete?]
  | cons x t => cases t <;> simp [Begun.complete?, Begun.takes, Begun.next, UInt8.le_iff_toNat_le]

theorem complete?_more : (⟨bits, n + 2, low, high⟩ : Begun).complete? t = some c ↔
    ∃ x u, t = x :: u ∧ (low.toNat ≤ x.toNat ∧ x.toNat ≤ high.toNat) ∧
      (⟨bits * 64 + x.toNat % 64, n + 1, 0x80, 0xBF⟩ : Begun).complete? u = some c := by
  cases t with
  | nil => simp [Begun.complete?]
  | cons x t => simp [Begun.complete?, Begun.takes, Begun.next, UInt8.le_iff_toNat_le]

/-- The number has these upper bits, and the next of its bytes is in the range. -/
def Continues (bits n : Nat) (low high : UInt8) (v : Nat) : Prop :=
  v / 64 ^ (n + 1) = bits ∧ low.toNat ≤ v / 64 ^ n % 64 + 0x80 ∧ v / 64 ^ n % 64 + 0x80 ≤ high.toNat

theorem continues_next (from80 : 0x80 ≤ low.toNat) (toBF : high.toNat ≤ 0xBF)
    (between : low.toNat ≤ b.toNat ∧ b.toNat ≤ high.toNat) : Continues (bits * 64 + b.toNat % 64) n 0x80 0xBF v ↔
      Continues bits (n + 1) low high v ∧ b.toNat = v / 64 ^ (n + 1) % 64 + 0x80 := by
  have upper : v / 64 ^ (n + 1 + 1) = v / 64 ^ (n + 1) / 64 := by rw [Nat.div_div_eq_div_mul, ← pow_succ]
  simp only [Continues, upper, UInt8.reduceToNat]
  omega

/-- What completes a state are the last bytes of a character that goes on from it. -/
theorem complete?_iff (from80 : 0x80 ≤ low.toNat) (toBF : high.toNat ≤ 0xBF)
    (valid : ∀ v, Continues bits n low high v → v.isValidChar) :
    (⟨bits, n + 1, low, high⟩ : Begun).complete? t = some c ↔
      trail (n + 1) c.toNat = t.map UInt8.toNat ∧ Continues bits n low high c.toNat := by
  -- Only the next byte has a range of its own; those after it may be any byte from 0x80 to 0xBF.
  induction n generalizing bits low high t with
  | zero =>
      rw [complete?_last]
      simp only [trail, Continues, pow_zero, Nat.div_one, Nat.zero_add, pow_one] at valid ⊢
      constructor
      · rintro ⟨x, rfl, between, same⟩
        rw [ofNat_eq_iff (valid _ (by omega))] at same
        rw [List.map_singleton, List.singleton_inj]
        omega
      · rintro ⟨bytes, continues⟩
        obtain ⟨x, rfl, byte⟩ := List.map_eq_singleton_iff.mp bytes.symm
        exact ⟨x, rfl, by omega, (ofNat_eq_iff (valid _ (by omega))).mpr (by omega)⟩
  | succ n ih =>
      have later {x : UInt8} {u : List UInt8} (between : low.toNat ≤ x.toNat ∧ x.toNat ≤ high.toNat) :
          (⟨bits * 64 + x.toNat % 64, n + 1, 0x80, 0xBF⟩ : Begun).complete? u = some c ↔
            trail (n + 1) c.toNat = u.map UInt8.toNat ∧
              Continues bits (n + 1) low high c.toNat ∧ x.toNat = c.toNat / 64 ^ (n + 1) % 64 + 0x80 := by
        rw [ih (by decide) (by decide) fun v next => valid v ((continues_next from80 toBF between).mp next).1,
          continues_next from80 toBF between]
      rw [complete?_more, trail]
      constructor
      · rintro ⟨x, u, rfl, between, complete⟩
        obtain ⟨bytes, continues, first⟩ := (later between).mp complete
        exact ⟨by rw [List.map_cons, first, bytes], continues⟩
      · rintro ⟨bytes, continues⟩
        obtain ⟨x, u, rfl, first, rest⟩ := List.map_eq_cons_iff.mp bytes.symm
        have between : low.toNat ≤ x.toNat ∧ x.toNat ≤ high.toNat := first ▸ continues.2
        exact ⟨x, u, rfl, between, (later between).mpr ⟨rest.symm, continues, first⟩⟩

theorem leadByte_cases (v : Nat) :
    v < 0x80 ∧ trailing v = 0 ∧ leadByte v = v ∨
    (0x80 ≤ v ∧ v < 0x800) ∧ trailing v = 1 ∧ leadByte v = v / 0x40 + 0xC0 ∨
    (0x800 ≤ v ∧ v < 0x10000) ∧ trailing v = 2 ∧ leadByte v = v / 0x1000 + 0xE0 ∨
    0x10000 ≤ v ∧ trailing v = 3 ∧ leadByte v = v / 0x40000 + 0xF0 := by
  unfold leadByte trailing
  split_ifs <;> simp [leadMark] <;> omega

theorem firstByte_cases (b : UInt8) :
    b.toNat < 0x80 ∧ firstByte b = .whole (Char.ofNat b.toNat) ∨
    (0xC2 ≤ b.toNat ∧ b.toNat < 0xE0) ∧ firstByte b = .begun ⟨b.toNat % 0x20, 1, 0x80, 0xBF⟩ ∨
    (0xE0 ≤ b.toNat ∧ b.toNat < 0xF0) ∧ firstByte b = .begun ⟨b.toNat % 0x10, 2,
      if b.toNat = 0xE0 then 0xA0 else 0x80, if b.toNat = 0xED then 0x9F else 0xBF⟩ ∨
    (0xF0 ≤ b.toNat ∧ b.toNat < 0xF5) ∧ firstByte b = .begun ⟨b.toNat % 0x08, 3,
      if b.toNat = 0xF0 then 0x90 else 0x80, if b.toNat = 0xF4 then 0x8F else 0xBF⟩ ∨
    (0x80 ≤ b.toNat ∧ b.toNat < 0xC2 ∨ 0xF5 ≤ b.toNat) ∧ firstByte b = .stray := by
  unfold firstByte
  dsimp only
  split_ifs <;> simp <;> omega

/-- A state stands for its first byte, when it bounds the next one just as the characters with this first byte do. -/
theorem under_lead (from80 : 0x80 ≤ low.toNat) (toBF : high.toNat ≤ 0xBF)
    (size : ∀ v, leadByte v = b.toNat → trailing v = n + 1)
    (lead : ∀ v, Continues bits n low high v ↔ v.isValidChar ∧ leadByte v = b.toNat) :
    (⟨bits, n + 1, low, high⟩ : Begun).Under [b] := by
  intro t c
  rw [complete?_iff from80 toBF fun v continues => ((lead v).mp continues).1, lead, utf8EncodeChar_eq_iff,
    List.singleton_append, List.map_cons, encoding, List.cons.injEq]
  constructor
  · rintro ⟨bytes, _, first⟩
    exact ⟨first, size _ first ▸ bytes⟩
  · rintro ⟨first, bytes⟩
    exact ⟨size _ first ▸ bytes, c.valid, first⟩

theorem under_of_begun (h : firstByte b = .begun g) : g.Under [b] := by
  rcases firstByte_cases b with ⟨_, same⟩ | ⟨range, same⟩ | ⟨range, same⟩ | ⟨range, same⟩ | ⟨_, same⟩ <;>
    cases h.symm.trans same
  -- The range of the second byte leaves out overlong forms, surrogates, and what lies beyond the last character.
  · refine under_lead (by decide) (by decide) (fun v => ?_) fun v => ?_ <;> have cases := leadByte_cases v
    · omega
    · simp only [Continues, Nat.isValidChar, UInt8.reduceToNat, Nat.zero_add, pow_zero, pow_one, Nat.div_one]
      omega
  · refine under_lead (by split_ifs <;> decide) (by split_ifs <;> decide) (fun v => ?_) fun v => ?_ <;>
      have cases := leadByte_cases v
    · omega
    · simp only [Continues, Nat.isValidChar, apply_ite UInt8.toNat, UInt8.reduceToNat, Nat.reduceAdd, Nat.reducePow]
      split_ifs <;> omega
  · refine under_lead (by split_ifs <;> decide) (by split_ifs <;> decide) (fun v => ?_) fun v => ?_ <;>
      have cases := leadByte_cases v
    · omega
    · simp only [Continues, Nat.isValidChar, apply_ite UInt8.toNat, UInt8.reduceToNat, Nat.reduceAdd, Nat.reducePow]
      split_ifs <;> omega

theorem encode_of_whole (h : firstByte b = .whole c) : utf8EncodeChar c = [b] := by
  rcases firstByte_cases b with ⟨small, same⟩ | ⟨_, same⟩ | ⟨_, same⟩ | ⟨_, same⟩ | ⟨_, same⟩ <;>
    cases h.symm.trans same
  rw [utf8EncodeChar_eq_iff, (ofNat_eq_iff (.inl (by omega))).mp rfl]
  have cases := leadByte_cases b.toNat
  obtain ⟨size, first⟩ : trailing b.toNat = 0 ∧ leadByte b.toNat = b.toNat := by omega
  rw [encoding, size, first]
  rfl

theorem not_begins_of_stray (h : firstByte b = .stray) : ¬ BeginsChar [b] := by
  rintro ⟨c, t, same⟩
  have bounds := toNat_bounds c
  have cases := leadByte_cases c.toNat
  rcases firstByte_cases b with ⟨_, other⟩ | ⟨_, other⟩ | ⟨_, other⟩ | ⟨_, other⟩ | ⟨range, _⟩
  · exact nomatch h.symm.trans other
  · exact nomatch h.symm.trans other
  · exact nomatch h.symm.trans other
  · exact nomatch h.symm.trans other
  · have first := utf8EncodeChar_eq_iff.mp same.symm
    rw [List.singleton_append, List.map_cons, encoding, List.cons.injEq] at first
    omega

theorem takes_low_of_begun (h : firstByte b = .begun g) : g.takes g.low = true := by
  rcases firstByte_cases b with ⟨_, same⟩ | ⟨_, same⟩ | ⟨_, same⟩ | ⟨_, same⟩ | ⟨_, same⟩ <;>
    cases h.symm.trans same
  · rfl
  · simp only [Begun.takes]
    split_ifs
    · omega
    all_goals rfl
  · simp only [Begun.takes]
    split_ifs
    · omega
    all_goals rfl

theorem begins_encode (c : Char) : BeginsChar (utf8EncodeChar c) := ⟨c, List.prefix_rfl⟩

theorem BeginsChar.of_prefix {v : List UInt8} (h : BeginsChar u) (start : v <+: u) : BeginsChar v := by
  obtain ⟨c, begins⟩ := h
  exact ⟨c, start.trans begins⟩

namespace Begun

theorem complete?_cons_of_last (takes : g.takes b = true) (last : g.owed ≤ 1) :
    g.complete? (b :: t) = if t = [] then some (Char.ofNat (g.next b).bits) else none := by
  rw [complete?, if_pos takes, if_pos last]

theorem complete?_cons_of_more (takes : g.takes b = true) (more : ¬ g.owed ≤ 1) :
    g.complete? (b :: t) = (g.next b).complete? t := by
  rw [complete?, if_pos takes, if_neg more]

theorem takes_of_complete? (h : g.complete? (b :: t) = some c) : g.takes b = true := by
  by_contra other
  rw [complete?, if_neg other] at h
  exact nomatch h

/-- What may go on can be completed, with the lowest bytes from the next one on. -/
theorem exists_complete? (g : Begun) (b : UInt8) (takes : g.takes b = true) : ∃ t c, g.complete? t = some c := by
  by_cases last : g.owed ≤ 1
  · exact ⟨[b], _, complete?_cons_of_last takes last⟩
  · have fewer : (g.next b).owed < g.owed := by
      change g.owed - 1 < g.owed
      omega
    obtain ⟨t, c, complete⟩ := exists_complete? (g.next b) 0x80 rfl
    exact ⟨b :: t, c, (complete?_cons_of_more takes last).trans complete⟩
termination_by g.owed

namespace Under

/-- The last byte makes the character whole. -/
theorem whole (h : g.Under u) (takes : g.takes b = true) (last : g.owed ≤ 1) :
    utf8EncodeChar (Char.ofNat (g.next b).bits) = u ++ [b] :=
  (h [b] _).mp (complete?_cons_of_last takes last)

theorem next (h : g.Under u) (takes : g.takes b = true) (more : ¬ g.owed ≤ 1) : (g.next b).Under (u ++ [b]) := by
  intro t c
  rw [← complete?_cons_of_more takes more, h, List.append_assoc, List.singleton_append]

/-- The bytes that may come next are those that go on with a character. -/
theorem takes_iff (h : g.Under u) : g.takes b = true ↔ BeginsChar (u ++ [b]) := by
  constructor
  · intro takes
    by_cases last : g.owed ≤ 1
    · exact h.whole takes last ▸ begins_encode _
    · obtain ⟨t, c, complete⟩ := (g.next b).exists_complete? 0x80 rfl
      exact ⟨c, t, ((h.next takes last t c).mp complete).symm⟩
  · rintro ⟨c, t, same⟩
    rw [List.append_assoc, List.singleton_append] at same
    exact takes_of_complete? ((h (b :: t) c).mpr same.symm)

/-- What is under way is no character yet. -/
theorem not_whole (h : g.Under u) : utf8EncodeChar c ≠ u := by
  intro same
  have complete := (h [] c).mpr (same.trans (List.append_nil u).symm)
  exact nomatch complete

end Under

end Begun

end

end ExportDiff.Text
