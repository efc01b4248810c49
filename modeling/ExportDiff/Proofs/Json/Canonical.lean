/- Canonical texts: two objects have the same one when they are the same but for the order of keys, and
for halves of characters that stand side by side. -/
import ExportDiff.Proofs.Json.Quote
import ExportDiff.Proofs.Text.Replace
import Mathlib.Data.List.Lex
import Mathlib.Data.List.Nodup
import Mathlib.Data.List.Sort
import Mathlib.Data.List.TakeWhile
import Mathlib.Data.Prod.Basic

namespace ExportDiff.Json
open Text

/-- A whole number, a truth value, or any text. -/
inductive Scalar : Json → Prop
  | int (n) : Scalar (.int n)
  | bool (b) : Scalar (.bool b)
  | str (s) : Scalar (.str s)

/-- A whole number, a truth value, or a text that can be read back, as every text of characters can. -/
inductive Plain : Json → Prop
  | int (n) : Plain (.int n)
  | bool (b) : Plain (.bool b)
  | str {s} : Unpaired s → Plain (.str s)

theorem Plain.ofString (s : String) : Plain (ofString s) := .str (unpaired_codePoints s)

theorem Plain.scalar {v : Json} (h : Plain v) : Scalar v := by
  cases h with
  | int n => exact .int n
  | bool b => exact .bool b
  | str _ => exact .str _

/-- One line, in ASCII. -/
abbrev flat : Style := ⟨false, true⟩

section
variable {depth : Nat} {r r' : List Char}

theorem toList_ofNat (n : Nat) : (toString (Int.ofNat n)).toList = Nat.toDigits 10 n := Nat.toList_repr

theorem toList_negSucc (n : Nat) : (toString (Int.negSucc n)).toList = '-' :: Nat.toDigits 10 (n + 1) := by
  change ("-" ++ (n + 1).repr).toList = _
  rw [String.toList_append, Nat.toList_repr]
  rfl

theorem toDigits_injective : Function.Injective (Nat.toDigits 10) := by
  intro m n same
  simpa using congrArg (fun cs => Nat.ofDigitChars 10 cs 0) same

theorem toList_int_injective {m n : Int} (h : (toString m).toList = (toString n).toList) : m = n := by
  have unsigned {a b : Nat} : Nat.toDigits 10 a ≠ '-' :: Nat.toDigits 10 b := by
    intro same
    have sign : '-' ∈ Nat.toDigits 10 a := same ▸ List.mem_cons_self
    exact absurd (Nat.isDigit_of_mem_toDigits (by decide) (by decide) sign) (by decide)
  cases m with
  | ofNat a =>
      cases n with
      | ofNat b =>
          rw [toList_ofNat, toList_ofNat] at h
          rw [toDigits_injective h]
      | negSucc b =>
          rw [toList_ofNat, toList_negSucc] at h
          exact (unsigned h).elim
  | negSucc a =>
      cases n with
      | ofNat b =>
          rw [toList_ofNat, toList_negSucc] at h
          exact (unsigned h.symm).elim
      | negSucc b =>
          rw [toList_negSucc, toList_negSucc] at h
          rw [Nat.succ.inj (toDigits_injective (List.cons.inj h).2)]

def isNumeral (c : Char) : Bool := c.isDigit || c == '-'

theorem isNumeral_of_mem {n : Int} {c : Char} (hc : c ∈ (toString n).toList) : isNumeral c = true := by
  have digit {m : Nat} (h : c ∈ Nat.toDigits 10 m) : isNumeral c = true :=
    Bool.or_eq_true_iff.mpr (.inl (Nat.isDigit_of_mem_toDigits (by decide) (by decide) h))
  cases n with
  | ofNat m =>
      rw [toList_ofNat] at hc
      exact digit hc
  | negSucc m =>
      rw [toList_negSucc] at hc
      rcases List.mem_cons.mp hc with rfl | hc
      · rfl
      · exact digit hc

/-- The value is over: another field follows, or the object ends. -/
def EndsValue (r : List Char) : Prop := r.head? = some ',' ∨ r.head? = some '\x7d'

theorem EndsValue.not_numeral (h : EndsValue r) : r.head?.any isNumeral = false := by
  rcases h with comma | brace
  · rw [comma]
    rfl
  · rw [brace]
    rfl

theorem toList_int_ne_nil (n : Int) : (toString n).toList ≠ [] := by
  cases n with
  | ofNat m =>
      rw [toList_ofNat]
      exact Nat.toDigits_ne_nil
  | negSucc m =>
      rw [toList_negSucc]
      exact List.cons_ne_nil _ _

theorem isNumeral_head {n : Int} {c : Char} {s : List Char} (h : (toString n).toList ++ r = c :: s) :
    isNumeral c = true := by
  cases digits : (toString n).toList with
  | nil => exact absurd digits (toList_int_ne_nil n)
  | cons d t =>
      rw [digits] at h
      have same : d = c := (List.cons.inj h).1
      exact isNumeral_of_mem (n := n) (by rw [digits, same]; exact List.mem_cons_self)

theorem int_append_inj {m n : Int} (hr : EndsValue r) (hr' : EndsValue r')
    (h : (toString m).toList ++ r = (toString n).toList ++ r') : m = n ∧ r = r' := by
  have taken {k : Int} {t : List Char} (ht : EndsValue t) :
      ((toString k).toList ++ t).takeWhile isNumeral = (toString k).toList := by
    rw [takeWhile_append_of_stop ht.not_numeral, List.takeWhile_eq_self_iff]
    exact fun c => isNumeral_of_mem
  have same : (toString m).toList = (toString n).toList := by rw [← taken hr, h, taken hr']
  exact ⟨toList_int_injective same, List.append_cancel_left (same ▸ h)⟩

/-- The value that a first character shows to begin: a text, a truth value, or a whole number. -/
inductive Begins : Char → Json → Prop
  | quote {s} : Begins '"' (.str s)
  | yes : Begins 't' (.bool true)
  | no : Begins 'f' (.bool false)
  | numeral {c n} : isNumeral c = true → Begins c (.int n)

theorem begins_write {v : Json} (hv : Plain v) {c : Char} {s : List Char} (h : v.write flat depth ++ r = c :: s) :
    Begins c v := by
  cases hv with
  | int n => exact .numeral (isNumeral_head h)
  | bool b =>
      cases b with
      | true => exact (List.cons.inj h).1 ▸ .yes
      | false => exact (List.cons.inj h).1 ▸ .no
  | str _ => exact (List.cons.inj h).1 ▸ .quote

theorem write_ne_nil {v : Json} (hv : Plain v) : v.write flat depth ≠ [] := by
  cases hv with
  | int n => exact toList_int_ne_nil n
  | bool b => cases b <;> exact List.cons_ne_nil _ _
  | str _ => exact List.cons_ne_nil _ _

/-- A plain value can be told from the text in which it stands. -/
theorem write_append_inj {v w : Json} (hv : Plain v) (hw : Plain w) (hr : EndsValue r) (hr' : EndsValue r')
    (h : v.write flat depth ++ r = w.write flat depth ++ r') : v = w ∧ r = r' := by
  obtain ⟨c, s, first⟩ := List.exists_cons_of_ne_nil (List.append_ne_nil_of_left_ne_nil (write_ne_nil hv) r)
  have begins := begins_write hv first
  have begins' := begins_write hw (h.symm.trans first)
  cases begins with
  | quote =>
      cases begins' with
      | quote =>
          cases hv with
          | str hs =>
              cases hw with
              | str ht =>
                  obtain ⟨same, rest⟩ := quote_append_inj hs ht h
                  exact ⟨congrArg Json.str same, rest⟩
      | numeral wrong => exact absurd wrong (by decide)
  | yes =>
      cases begins' with
      | yes => exact ⟨rfl, List.append_cancel_left h⟩
      | numeral wrong => exact absurd wrong (by decide)
  | no =>
      cases begins' with
      | no => exact ⟨rfl, List.append_cancel_left h⟩
      | numeral wrong => exact absurd wrong (by decide)
  | numeral numeral =>
      cases begins' with
      | numeral _ =>
          obtain ⟨same, rest⟩ := int_append_inj hr hr' h
          exact ⟨congrArg Json.int same, rest⟩
      | quote | yes | no => exact absurd numeral (by decide)

end

/-- Fields whose keys can be read back, with plain values. -/
def PlainFields (fields : List (List CodePoint × Json)) : Prop := ∀ f ∈ fields, Unpaired f.1 ∧ Plain f.2

section
variable {fields fields' : List (List CodePoint × Json)} {k k' : List CodePoint} {v v' : Json} {depth : Nat}
  {r r' : List Char}

theorem PlainFields.tail (h : PlainFields ((k, v) :: fields)) : PlainFields fields :=
  fun f member => h f (List.mem_cons_of_mem _ member)

theorem field_append_inj (hk : Unpaired k) (hk' : Unpaired k') (hv : Plain v) (hv' : Plain v') (hr : EndsValue r)
    (hr' : EndsValue r')
    (h : quote true k ++ ':' :: ' ' :: (v.write flat depth ++ r) =
      quote true k' ++ ':' :: ' ' :: (v'.write flat depth ++ r')) : (k, v) = (k', v') ∧ r = r' := by
  obtain ⟨rfl, values⟩ := quote_append_inj hk hk' h
  obtain ⟨rfl, rest⟩ := write_append_inj hv hv' hr hr' (List.cons.inj (List.cons.inj values).2).2
  exact ⟨rfl, rest⟩

theorem writeFields_cons : writeFields flat depth ((k, v) :: fields) =
    ',' :: ' ' :: (quote true k ++ ':' :: ' ' :: (v.write flat depth ++ writeFields flat depth fields)) := by
  simp [writeFields, Style.comma, Style.lineBreak]

theorem write_obj_cons : (obj ((k, v) :: fields)).write flat depth =
    '\x7b' :: (quote true k ++ ':' :: ' ' ::
      (v.write flat (depth + 1) ++ (writeFields flat (depth + 1) fields ++ ['\x7d']))) := by
  simp [write, Style.lineBreak]

theorem endsValue_writeFields : EndsValue (writeFields flat depth fields ++ ['\x7d']) := by
  cases fields with
  | nil => exact .inr rfl
  | cons f fields =>
      rw [writeFields_cons]
      exact .inl rfl

theorem writeFields_inj (plain : PlainFields fields) (plain' : PlainFields fields')
    (h : writeFields flat depth fields ++ ['\x7d'] = writeFields flat depth fields' ++ ['\x7d']) :
    fields = fields' := by
  induction fields generalizing fields' with
  | nil =>
      cases fields' with
      | nil => rfl
      | cons f' fields' =>
          rw [writeFields_cons] at h
          exact absurd (List.cons.inj h).1 (by decide)
  | cons f fields ih =>
      cases fields' with
      | nil =>
          rw [writeFields_cons] at h
          exact absurd (List.cons.inj h).1 (by decide)
      | cons f' fields' =>
          obtain ⟨hk, hv⟩ := plain f List.mem_cons_self
          obtain ⟨hk', hv'⟩ := plain' f' List.mem_cons_self
          rw [writeFields_cons, writeFields_cons] at h
          simp only [List.cons_append, List.append_assoc] at h
          obtain ⟨same, rest⟩ := field_append_inj hk hk' hv hv' endsValue_writeFields endsValue_writeFields
            (List.cons.inj (List.cons.inj h).2).2
          rw [show f = f' from same, ih plain.tail plain'.tail rest]

/-- Keys and plain values can be read back from the text of an object. -/
theorem write_obj_inj (plain : PlainFields fields) (plain' : PlainFields fields')
    (h : (obj fields).write flat depth = (obj fields').write flat depth) : fields = fields' := by
  cases fields with
  | nil =>
      cases fields' with
      | nil => rfl
      | cons f' fields' =>
          rw [write_obj_cons] at h
          exact absurd (List.cons.inj (List.cons.inj h).2).1 (by decide)
  | cons f fields =>
      cases fields' with
      | nil =>
          rw [write_obj_cons] at h
          exact absurd (List.cons.inj (List.cons.inj h).2).1 (by decide)
      | cons f' fields' =>
          obtain ⟨hk, hv⟩ := plain f List.mem_cons_self
          obtain ⟨hk', hv'⟩ := plain' f' List.mem_cons_self
          rw [write_obj_cons, write_obj_cons] at h
          obtain ⟨same, rest⟩ :=
            field_append_inj hk hk' hv hv' endsValue_writeFields endsValue_writeFields (List.cons.inj h).2
          rw [show f = f' from same, writeFields_inj plain.tail plain'.tail rest]

end

theorem precedes_iff {s t : List CodePoint} : precedes s t = true ↔ s ≤ t := by
  induction s generalizing t with
  | nil => cases t <;> simp [precedes, ← not_lt]
  | cons c s ih =>
      cases t with
      | nil => simp [precedes, ← not_lt]
      | cons d t =>
          rw [precedes, ← not_lt, List.cons_lt_cons_iff]
          by_cases same : c = d
          · simp [same, ih]
          · rw [if_neg same, decide_eq_true_iff, ← Ne.le_iff_lt same, ← not_lt]
            simp [Ne.symm same]

def keyLE (f g : List CodePoint × Json) : Prop := precedes f.1 g.1 = true

instance : DecidableRel keyLE := fun f g => inferInstanceAs (Decidable (precedes f.1 g.1 = true))

instance : Std.Total keyLE := ⟨fun f g => by
  rw [keyLE, keyLE, precedes_iff, precedes_iff]
  exact le_total f.1 g.1⟩

instance : IsTrans (List CodePoint × Json) keyLE := ⟨fun f g h hfg hgh => by
  rw [keyLE, precedes_iff] at *
  exact hfg.trans hgh⟩

section
variable {fields fields' : List (List CodePoint × Json)}

theorem insertSorted_eq (f : List CodePoint × Json) (fields : List (List CodePoint × Json)) :
    insertSorted f fields = fields.orderedInsert keyLE f := by
  induction fields with
  | nil => rfl
  | cons g fields ih =>
      rw [insertSorted, ih]
      rfl

theorem sorted_scalar {v : Json} (hv : Scalar v) : v.sorted = v := by cases hv <;> rfl

theorem sortedFields_eq (scalar : ∀ f ∈ fields, Scalar f.2) :
    sortedFields fields = fields.insertionSort keyLE := by
  induction fields with
  | nil => rfl
  | cons f fields ih =>
      obtain ⟨first, rest⟩ := List.forall_mem_cons.mp scalar
      rw [sortedFields, sorted_scalar first, insertSorted_eq, ih rest, List.insertionSort_cons]

theorem PlainFields.scalar (h : PlainFields fields) : ∀ f ∈ fields, Scalar f.2 :=
  fun f member => (h f member).2.scalar

theorem PlainFields.perm (h : PlainFields fields) (same : fields'.Perm fields) : PlainFields fields' :=
  fun f member => h f (same.subset member)

/-- There is one order of fields with different keys. -/
theorem insertionSort_congr (distinct : (fields.map Prod.fst).Nodup) (same : fields.Perm fields') :
    fields.insertionSort keyLE = fields'.insertionSort keyLE := by
  have member {f} {gs : List (List CodePoint × Json)} (hf : f ∈ gs.insertionSort keyLE) : f ∈ gs :=
    (List.perm_insertionSort keyLE gs).subset hf
  refine List.Perm.eq_of_pairwise ?_ (List.pairwise_insertionSort keyLE _) (List.pairwise_insertionSort keyLE _)
    (((List.perm_insertionSort keyLE _).trans same).trans (List.perm_insertionSort keyLE _).symm)
  intro f g hf hg hfg hgf
  rw [keyLE, precedes_iff] at hfg hgf
  exact List.inj_on_of_nodup_map distinct (member hf) (same.symm.subset (member hg)) (le_antisymm hfg hgf)

/-- Two objects of plain values have one canonical text if and only if they have the same fields. -/
theorem canonical_obj_iff (plain : PlainFields fields) (plain' : PlainFields fields')
    (distinct : (fields.map Prod.fst).Nodup) :
    (obj fields).canonical = (obj fields').canonical ↔ fields.Perm fields' := by
  have order := List.perm_insertionSort keyLE fields
  have order' := List.perm_insertionSort keyLE fields'
  rw [canonical, canonical, sorted, sorted, sortedFields_eq plain.scalar, sortedFields_eq plain'.scalar]
  constructor
  · intro h
    have same := write_obj_inj (plain.perm order) (plain'.perm order') (String.ofList_injective h)
    exact order.symm.trans (same ▸ order')
  · intro same
    rw [insertionSort_congr distinct same]

end

theorem codePoints_injective : Function.Injective codePoints := by
  have point : Function.Injective codePoint := fun _ _ h => Char.toNat_inj.mp (congrArg (fun p : CodePoint => p.val) h)
  intro s t h
  exact String.toList_inj.mp (List.map_injective_iff.mpr point h)

section
variable {α β : Type} [DecidableEq α] {d e : List (α × β)}

theorem mem_iff_lookup (distinct : (d.map Prod.fst).Nodup) {key : α} {v : β} :
    (key, v) ∈ d ↔ d.lookup key = some v := by
  rw [List.lookup_eq_some_iff]
  constructor
  · intro member
    obtain ⟨before, after, rfl⟩ := List.append_of_mem member
    refine ⟨before, after, rfl, fun p earlier => bne_iff_ne.mpr ?_⟩
    rw [List.map_append, List.map_cons, List.nodup_append] at distinct
    exact (distinct.2.2 _ (List.mem_map_of_mem earlier) _ List.mem_cons_self).symm
  · rintro ⟨before, after, rfl, _⟩
    exact List.mem_append_right _ List.mem_cons_self

theorem perm_iff_lookup (distinct : (d.map Prod.fst).Nodup) (distinct' : (e.map Prod.fst).Nodup) :
    d.Perm e ↔ ∀ key, d.lookup key = e.lookup key := by
  rw [List.perm_ext_iff_of_nodup (.of_map _ distinct) (.of_map _ distinct'), Prod.forall]
  refine forall_congr' fun key => ?_
  rw [Option.ext_iff]
  exact forall_congr' fun v => by rw [mem_iff_lookup distinct, mem_iff_lookup distinct']

end

/-- A map from texts to plain values. -/
structure PlainMap (d : List (String × Json)) : Prop where
  distinct : (d.map Prod.fst).Nodup
  plain : ∀ p ∈ d, Plain p.2

/-- Two maps have one canonical text if and only if they have the same value for every key. -/
theorem canonical_object_iff {d e : List (String × Json)} (hd : PlainMap d) (he : PlainMap e) :
    (object d).canonical = (object e).canonical ↔ ∀ key, d.lookup key = e.lookup key := by
  let field : String × Json → List CodePoint × Json := Prod.map codePoints id
  have inj : Function.Injective field := codePoints_injective.prodMap Function.injective_id
  have plain {m : List (String × Json)} (hm : PlainMap m) : PlainFields (m.map field) := by
    intro f member
    obtain ⟨p, here, rfl⟩ := List.mem_map.mp member
    exact ⟨unpaired_codePoints p.1, hm.plain p here⟩
  have distinct : ((d.map field).map Prod.fst).Nodup := by
    rw [List.map_map, show Prod.fst ∘ field = codePoints ∘ Prod.fst from rfl, ← List.map_map]
    exact hd.distinct.map codePoints_injective
  calc (object d).canonical = (object e).canonical
      ↔ (d.map field).Perm (e.map field) := canonical_obj_iff (plain hd) (plain he) distinct
    _ ↔ d.Perm e := List.map_perm_map_iff inj
    _ ↔ ∀ key, d.lookup key = e.lookup key := perm_iff_lookup hd.distinct he.distinct

/-- The value that its text is read back as: halves of a character that stand side by side are that
character. -/
def readable : Json → Json
  | .str s => .str (joined s)
  | v => v

section
variable {v : Json} {fields : List (List CodePoint × Json)}

theorem Scalar.plain_readable (h : Scalar v) : Plain v.readable := by
  cases h with
  | int n => exact .int n
  | bool b => exact .bool b
  | str s => exact .str (unpaired_joined s)

theorem Plain.readable_eq (h : Plain v) : v.readable = v := by
  cases h with
  | int n => rfl
  | bool b => rfl
  | str unpaired => exact congrArg Json.str (joined_of_unpaired unpaired)

theorem write_readable (v : Json) (depth : Nat) : v.readable.write flat depth = v.write flat depth := by
  cases v with
  | str s => exact quote_joined s
  | _ => rfl

/-- The same fields with readable values. -/
def readableFields (fields : List (List CodePoint × Json)) : List (List CodePoint × Json) :=
  fields.map (Prod.map id readable)

theorem writeFields_readable (depth : Nat) (fields : List (List CodePoint × Json)) :
    writeFields flat depth (readableFields fields) = writeFields flat depth fields := by
  induction fields with
  | nil => rfl
  | cons f fields ih =>
      change writeFields flat depth ((f.1, f.2.readable) :: readableFields fields) = _
      rw [writeFields_cons, write_readable, ih]
      exact writeFields_cons.symm

theorem write_obj_readable (fields : List (List CodePoint × Json)) :
    (obj (readableFields fields)).write flat 0 = (obj fields).write flat 0 := by
  cases fields with
  | nil => rfl
  | cons f fields =>
      change (obj ((f.1, f.2.readable) :: readableFields fields)).write flat 0 = _
      rw [write_obj_cons, write_readable, writeFields_readable]
      exact write_obj_cons.symm

theorem canonical_readable (scalar : ∀ f ∈ fields, Scalar f.2) :
    (obj (readableFields fields)).canonical = (obj fields).canonical := by
  have still : ∀ f ∈ readableFields fields, Scalar f.2 := by
    intro f member
    obtain ⟨g, here, rfl⟩ := List.mem_map.mp member
    exact (scalar g here).plain_readable.scalar
  have order : (readableFields fields).insertionSort keyLE = readableFields (fields.insertionSort keyLE) :=
    (List.map_insertionSort keyLE keyLE (Prod.map id readable) fields fun _ _ _ _ => Iff.rfl).symm
  rw [canonical, canonical, sorted, sorted, sortedFields_eq still, sortedFields_eq scalar, order, print,
    print, write_obj_readable]

end

/-- A map from texts to texts, whole numbers and truth values. -/
structure ScalarMap (d : List (String × Json)) : Prop where
  distinct : (d.map Prod.fst).Nodup
  scalar : ∀ p ∈ d, Scalar p.2

theorem PlainMap.scalar {d : List (String × Json)} (h : PlainMap d) : ScalarMap d :=
  ⟨h.distinct, fun p member => (h.plain p member).scalar⟩

theorem lookup_map_snd {α β γ : Type} [BEq α] (f : β → γ) (d : List (α × β)) (key : α) :
    (d.map (Prod.map id f)).lookup key = (d.lookup key).map f := by
  induction d with
  | nil => rfl
  | cons p d ih =>
      obtain ⟨k, v⟩ := p
      rw [List.map_cons, Prod.map_apply, id, List.lookup_cons, List.lookup_cons, ih]
      cases key == k <;> rfl

/-- Two maps of scalars have one canonical text if and only if they have the same value for every key
once those values are readable. -/
theorem canonical_object_readable_iff {d e : List (String × Json)} (hd : ScalarMap d) (he : ScalarMap e) :
    (object d).canonical = (object e).canonical ↔
      ∀ key, (d.lookup key).map readable = (e.lookup key).map readable := by
  have plain {m : List (String × Json)} (hm : ScalarMap m) : PlainMap (m.map (Prod.map id readable)) := by
    refine ⟨?_, ?_⟩
    · rw [List.map_map]
      exact hm.distinct
    · intro p member
      obtain ⟨q, here, rfl⟩ := List.mem_map.mp member
      exact (hm.scalar q here).plain_readable
  have text {m : List (String × Json)} (hm : ScalarMap m) :
      (object (m.map (Prod.map id readable))).canonical = (object m).canonical := by
    have fields : ∀ f ∈ m.map (Prod.map codePoints id), Scalar f.2 := by
      intro f member
      obtain ⟨p, here, rfl⟩ := List.mem_map.mp member
      exact hm.scalar p here
    have same := canonical_readable fields
    rw [readableFields, List.map_map] at same
    rw [object, List.map_map]
    exact same
  rw [← text hd, ← text he, canonical_object_iff (plain hd) (plain he)]
  simp only [lookup_map_snd]

end ExportDiff.Json
