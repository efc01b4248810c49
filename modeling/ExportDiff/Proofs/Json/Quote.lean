/- A quoted text can be read back, but for halves of a character that stand side by side. -/
import ExportDiff.Json.Parser
import ExportDiff.Json.Printer
import Mathlib.Data.List.Chain
import Mathlib.Tactic.SplitIfs

namespace ExportDiff.Json

/-- The UTF-16 units of a code point. -/
def units (c : CodePoint) : List Nat :=
  if c.val < 0x10000 then [c.val]
  else [0xD800 + (c.val - 0x10000) / 0x400, 0xDC00 + (c.val - 0x10000) % 0x400]

def IsHigh (n : Nat) : Prop := 0xD800 ≤ n ∧ n ≤ 0xDBFF

def IsLow (n : Nat) : Prop := 0xDC00 ≤ n ∧ n ≤ 0xDFFF

instance : DecidablePred IsHigh := fun n => inferInstanceAs (Decidable (0xD800 ≤ n ∧ n ≤ 0xDBFF))

instance : DecidablePred IsLow := fun n => inferInstanceAs (Decidable (0xDC00 ≤ n ∧ n ≤ 0xDFFF))

/-- No two neighbours are the halves of one character, which would be written as that character is. -/
def Unpaired (s : List CodePoint) : Prop := s.IsChain fun c d => ¬ (IsHigh c.val ∧ IsLow d.val)

theorem unpaired_codePoints (s : String) : Unpaired (codePoints s) := by
  refine (List.pairwise_of_forall_mem_list fun c hc d _ both => ?_).isChain
  obtain ⟨ch, _, rfl⟩ := List.mem_map.mp hc
  have valid := ch.valid
  simp only [UInt32.isValidChar, Nat.isValidChar] at valid
  have high : 0xD800 ≤ ch.val.toNat ∧ ch.val.toNat ≤ 0xDBFF := both.1
  omega

theorem units_small {c : CodePoint} (h : c.val < 0x10000) : units c = [c.val] := if_pos h

theorem units_large {c : CodePoint} (h : ¬ c.val < 0x10000) :
    ∃ high low, units c = [high, low] ∧ IsHigh high ∧ IsLow low ∧
      c.val = 0x10000 + (high - 0xD800) * 0x400 + (low - 0xDC00) := by
  have bound := c.isLt
  refine ⟨_, _, if_neg h, ⟨by omega, by omega⟩, ⟨by omega, by omega⟩, by omega⟩

/-- A low half stands alone only where a text has it as a code point. -/
theorem head_of_low {s : List CodePoint} {n : Nat} {ns : List Nat} (low : IsLow n)
    (h : s.flatMap units = n :: ns) : ∃ c rest, s = c :: rest ∧ c.val = n := by
  cases s with
  | nil => exact nomatch h
  | cons c rest =>
      refine ⟨c, rest, rfl, ?_⟩
      rw [List.flatMap_cons] at h
      by_cases small : c.val < 0x10000
      · rw [units_small small] at h
        exact (List.cons.inj h).1
      · obtain ⟨high, _, same, hhigh, _⟩ := units_large small
        rw [same] at h
        have first : high = n := (List.cons.inj h).1
        unfold IsHigh at hhigh
        unfold IsLow at low
        omega

/-- A character is not taken for a code point that is its first half. -/
theorem units_ne_of_unpaired {c d : CodePoint} {s : List CodePoint} {ns : List Nat} (small : c.val < 0x10000)
    (large : ¬ d.val < 0x10000) (hs : Unpaired (c :: s)) : (c :: s).flatMap units ≠ units d ++ ns := by
  intro h
  obtain ⟨high, low, same, hhigh, hlow, _⟩ := units_large large
  rw [List.flatMap_cons, units_small small, same] at h
  obtain ⟨first, rest⟩ := List.cons.inj h
  obtain ⟨e, t, rfl, second⟩ := head_of_low hlow rest
  rw [Unpaired, List.isChain_cons_cons] at hs
  exact hs.1 ⟨first ▸ hhigh, second ▸ hlow⟩

theorem units_injective {s t : List CodePoint} (hs : Unpaired s) (ht : Unpaired t)
    (h : s.flatMap units = t.flatMap units) : s = t := by
  have some (c : CodePoint) : units c ≠ [] := by
    unfold units
    split <;> exact List.cons_ne_nil _ _
  induction s generalizing t with
  | nil =>
      cases t with
      | nil => rfl
      | cons d t => exact absurd (List.append_eq_nil_iff.mp h.symm).1 (some d)
  | cons c s ih =>
      cases t with
      | nil => exact absurd (List.append_eq_nil_iff.mp h).1 (some c)
      | cons d t =>
          have rest : s.flatMap units = t.flatMap units → s = t := ih hs.tail ht.tail
          by_cases small : c.val < 0x10000
          · by_cases small' : d.val < 0x10000
            · rw [List.flatMap_cons, List.flatMap_cons, units_small small, units_small small'] at h
              obtain ⟨first, later⟩ := List.cons.inj h
              rw [Fin.ext first, rest later]
            · exact absurd h (units_ne_of_unpaired small small' hs)
          · by_cases small' : d.val < 0x10000
            · exact absurd h.symm (units_ne_of_unpaired small' small ht)
            · obtain ⟨high, low, same, _, _, value⟩ := units_large small
              obtain ⟨high', low', same', _, _, value'⟩ := units_large small'
              rw [List.flatMap_cons, List.flatMap_cons, same, same'] at h
              obtain ⟨rfl, rfl, later⟩ : high = high' ∧ low = low' ∧ s.flatMap units = t.flatMap units := by
                simpa using h
              rw [Fin.ext (value.trans value'.symm), rest later]

/-- The texts that stand for one unit: a short escape, its code, or the character itself. -/
inductive WritesUnit : Nat → List Char → Prop
  | short {e n} : simpleEscape? e = some n → WritesUnit n ['\\', e]
  | code {n} : n < 0x10000 → WritesUnit n (unitEscape n)
  | plain {c : Char} : c ≠ '\\' → c ≠ '"' → WritesUnit c.toNat [c]

inductive WritesUnits : List Nat → List Char → Prop
  | nil : WritesUnits [] []
  | cons {n ns w t} : WritesUnit n w → WritesUnits ns t → WritesUnits (n :: ns) (w ++ t)

theorem writesUnit_small {c : CodePoint} (small : c.val < 0x10000) : WritesUnit c.val (quotedPoint true c) := by
  have short {n : Nat} (e : Char) (h : simpleEscape? e = some n) (same : c.val = n) :
      WritesUnit c.val ['\\', e] := .short (same ▸ h)
  unfold quotedPoint
  split_ifs with quote slash line carriage tab form back wide
  · exact short '"' rfl quote
  · exact short '\\' rfl slash
  · exact short 'n' rfl line
  · exact short 'r' rfl carriage
  · exact short 't' rfl tab
  · exact short 'f' rfl form
  · exact short 'b' rfl back
  · rw [escape, if_pos small]
    exact .code small
  · have ascii : 0x20 ≤ c.val ∧ c.val ≤ 0x7E := by simpa using wide
    have valid : c.val.isValidChar := .inl (by omega)
    have same : (char c).toNat = c.val := by
      rw [char, if_neg (by simp; omega), Char.ofNat, dif_pos valid]
      rfl
    have plain : WritesUnit (char c).toNat [char c] :=
      .plain (fun is => slash (by rw [← same, is]; rfl)) (fun is => quote (by rw [← same, is]; rfl))
    rwa [same] at plain

/-- Beyond ASCII all is escaped. -/
theorem quotedPoint_wide {c : CodePoint} (wide : 0x7E < c.val) : quotedPoint true c = escape c.val := by
  unfold quotedPoint
  rw [if_neg (by omega), if_neg (by omega), if_neg (by omega), if_neg (by omega), if_neg (by omega),
    if_neg (by omega), if_neg (by omega), if_pos (by simp; omega)]

theorem writesUnits_point (c : CodePoint) {ns : List Nat} {t : List Char} (h : WritesUnits ns t) :
    WritesUnits (units c ++ ns) (quotedPoint true c ++ t) := by
  by_cases small : c.val < 0x10000
  · rw [units_small small]
    exact .cons (writesUnit_small small) h
  · rw [quotedPoint_wide (by omega), escape, units, if_neg small, if_neg small, List.append_assoc]
    have bound := c.isLt
    exact .cons (.code (by omega)) (.cons (.code (by omega)) h)

theorem writesUnits_points (s : List CodePoint) : WritesUnits (s.flatMap units) (s.flatMap (quotedPoint true)) := by
  induction s with
  | nil => exact .nil
  | cons c s ih => exact writesUnits_point c ih

/-- Four hexadecimal digits at the head of a text. -/
def readCode? : List Char → Option (Nat × List Char)
  | a :: b :: c :: d :: s =>
      (hexValue? a).bind fun a => (hexValue? b).bind fun b => (hexValue? c).bind fun c =>
        (hexValue? d).map fun d => (((a * 16 + b) * 16 + c) * 16 + d, s)
  | _ => none

/-- The unit at the head of a quoted text, and what follows it. -/
def readUnit? : List Char → Option (Nat × List Char)
  | [] => none
  | c :: s =>
      if c = '"' then none
      else if c = '\\' then match s with
        | [] => none
        | e :: s => if e = 'u' then readCode? s else (simpleEscape? e).map fun n => (n, s)
      else some (c.toNat, s)

theorem hexValue?_hexDigit : ∀ n < 16, hexValue? (Text.hexDigit n) = some n := by decide

theorem WritesUnit.read {n : Nat} {w : List Char} (h : WritesUnit n w) (s : List Char) :
    readUnit? (w ++ s) = some (n, s) := by
  cases h with
  | @short e n escape =>
      have simple : e ≠ 'u' := by
        rintro rfl
        exact nomatch escape
      change (if e = 'u' then readCode? s else (simpleEscape? e).map fun n => (n, s)) = _
      rw [if_neg simple, escape, Option.map_some]
  | code small =>
      have digit (k : Nat) : hexValue? (Text.hexDigit (k % 16)) = some (k % 16) :=
        hexValue?_hexDigit (k % 16) (Nat.mod_lt _ (by decide))
      change readCode? (Text.hexDigits 4 n ++ s) = _
      simp only [Text.hexDigits, List.nil_append, List.cons_append, readCode?, digit, Option.bind_some,
        Option.map_some]
      congr 2
      omega
  | @plain c slash quote =>
      change (if c = '"' then none else if c = '\\' then _ else some (c.toNat, s)) = _
      rw [if_neg quote, if_neg slash]

theorem WritesUnits.unique {ns ms : List Nat} {t u r r' : List Char} (h : WritesUnits ns t) (h' : WritesUnits ms u)
    (same : t ++ '"' :: r = u ++ '"' :: r') : ns = ms ∧ r = r' := by
  have stop (s : List Char) : readUnit? ('"' :: s) = none := rfl
  induction h generalizing ms u with
  | nil =>
      cases h' with
      | nil => exact ⟨rfl, (List.cons.inj same).2⟩
      | @cons m ms w u hw _ =>
          have read := hw.read (u ++ '"' :: r')
          rw [← List.append_assoc, ← same] at read
          exact nomatch (stop r).symm.trans read
  | @cons n ns w t hw _ ih =>
      have read := hw.read (t ++ '"' :: r)
      rw [← List.append_assoc, same] at read
      cases h' with
      | nil => exact nomatch (stop r').symm.trans read
      | @cons m ms w' u hw' rest' =>
          rw [List.append_assoc, hw'.read, Option.some.injEq, Prod.mk.injEq] at read
          obtain ⟨rfl, later⟩ := ih rest' read.2.symm
          exact ⟨by rw [read.1], later⟩

/-- The quotes of a text show where it ends, and what it is. -/
theorem quote_append_inj {s t : List CodePoint} (hs : Unpaired s) (ht : Unpaired t) {r r' : List Char}
    (h : quote true s ++ r = quote true t ++ r') : s = t ∧ r = r' := by
  rw [quote, quote, List.append_assoc, List.append_assoc, List.cons_append, List.cons_append] at h
  obtain ⟨same, rest⟩ := (writesUnits_points s).unique (writesUnits_points t) (List.cons.inj h).2
  exact ⟨units_injective hs ht same, rest⟩

/-- The character of two halves. -/
def ofHalves (high low : CodePoint) : CodePoint :=
  ⟨(0x10000 + (high.val - 0xD800) * 0x400 + (low.val - 0xDC00)) % 0x110000, Nat.mod_lt _ (by decide)⟩

/-- The text with the halves of a character that stand side by side as that character. -/
def joined : List CodePoint → List CodePoint
  | [] => []
  | [c] => [c]
  | c :: d :: s => if IsHigh c.val ∧ IsLow d.val then ofHalves c d :: joined s else c :: joined (d :: s)

section
variable {c d : CodePoint} {s t : List CodePoint}

/-- The halves can be told from their character, which is none itself. -/
theorem ofHalves_parts (high : IsHigh c.val) (low : IsLow d.val) :
    0x10000 ≤ (ofHalves c d).val ∧ 0xD800 + ((ofHalves c d).val - 0x10000) / 0x400 = c.val ∧
      0xDC00 + ((ofHalves c d).val - 0x10000) % 0x400 = d.val := by
  unfold IsHigh IsLow at *
  have value : (ofHalves c d).val = 0x10000 + (c.val - 0xD800) * 0x400 + (d.val - 0xDC00) :=
    Nat.mod_eq_of_lt (by omega)
  omega

theorem units_ofHalves (high : IsHigh c.val) (low : IsLow d.val) : units (ofHalves c d) = [c.val, d.val] := by
  obtain ⟨large, first, second⟩ := ofHalves_parts high low
  rw [units, if_neg (by omega), first, second]

theorem quotedPoint_ofHalves (high : IsHigh c.val) (low : IsLow d.val) :
    quotedPoint true (ofHalves c d) = quotedPoint true c ++ quotedPoint true d := by
  obtain ⟨large, first, second⟩ := ofHalves_parts high low
  unfold IsHigh IsLow at *
  rw [quotedPoint_wide (by omega), quotedPoint_wide (by omega), quotedPoint_wide (by omega), escape,
    if_neg (by omega), escape, if_pos (by omega), escape, if_pos (by omega), first, second]

theorem units_joined (s : List CodePoint) : (joined s).flatMap units = s.flatMap units := by
  fun_induction joined s with
  | case1 => rfl
  | case2 c => rfl
  | case3 c d s halves ih =>
      have high : units c = [c.val] := units_small (by have := halves.1.2; omega)
      have low : units d = [d.val] := units_small (by have := halves.2.2; omega)
      rw [List.flatMap_cons, ih, units_ofHalves halves.1 halves.2, List.flatMap_cons, List.flatMap_cons, high, low]
      rfl
  | case4 c d s apart ih => rw [List.flatMap_cons, ih, List.flatMap_cons (x := c)]

/-- The two halves of a character are written as that character is. -/
theorem quote_joined (s : List CodePoint) : quote true (joined s) = quote true s := by
  have points : (joined s).flatMap (quotedPoint true) = s.flatMap (quotedPoint true) := by
    fun_induction joined s with
    | case1 => rfl
    | case2 c => rfl
    | case3 c d s halves ih =>
        rw [List.flatMap_cons, ih, quotedPoint_ofHalves halves.1 halves.2, List.flatMap_cons,
          List.flatMap_cons, List.append_assoc]
    | case4 c d s apart ih => rw [List.flatMap_cons, ih, List.flatMap_cons (x := c)]
  rw [quote, quote, points]

/-- Joining puts no low half first. -/
theorem mem_head?_of_joined (first : d ∈ (joined s).head?) (low : IsLow d.val) : d ∈ s.head? := by
  fun_cases joined s with
  | case1 => exact first
  | case2 c => exact first
  | case3 c e s halves =>
      rw [joined, if_pos halves] at first
      obtain rfl : ofHalves c e = d := Option.some.inj first
      have large := (ofHalves_parts halves.1 halves.2).1
      unfold IsLow at low
      omega
  | case4 c e s apart =>
      rw [joined, if_neg apart] at first
      exact first

theorem unpaired_joined (s : List CodePoint) : Unpaired (joined s) := by
  fun_induction joined s with
  | case1 => exact .nil
  | case2 c => exact .singleton c
  | case3 c d s halves ih =>
      refine List.isChain_cons.mpr ⟨fun e _ pair => ?_, ih⟩
      have large := (ofHalves_parts halves.1 halves.2).1
      have small := pair.1.2
      omega
  | case4 c d s apart ih =>
      refine List.isChain_cons.mpr ⟨fun e first pair => apart ⟨pair.1, ?_⟩, ih⟩
      obtain rfl := Option.some.inj (mem_head?_of_joined first pair.2)
      exact pair.2

theorem joined_of_unpaired (h : Unpaired s) : joined s = s := by
  fun_induction joined s with
  | case1 => rfl
  | case2 c => rfl
  | case3 c d s halves _ => exact ((List.isChain_cons_cons.mp h).1 halves).elim
  | case4 c d s _ ih => rw [ih h.tail]

/-- Texts are joined alike if they have the same UTF-16 units. -/
theorem joined_eq_iff : joined s = joined t ↔ s.flatMap units = t.flatMap units := by
  rw [← units_joined s, ← units_joined t]
  exact ⟨congrArg _, units_injective (unpaired_joined s) (unpaired_joined t)⟩

end

example : joined [0xD83D, 0xDE00, 0xDE00] = [0x1F600, 0xDE00] := by decide

end ExportDiff.Json
