/- Reading a text that starts with a tag and refers to no entities. -/
import ExportDiff.Xml.Document

namespace ExportDiff.Xml

def Token.isPlain : Token → Bool
  | .entity _ => false
  | _ => true

theorem resolveTokens_plain (d : Doctype) (level : Nat) {tokens : List Token}
    (plain : tokens.all Token.isPlain) : resolveTokens d level tokens = some tokens := by
  induction tokens with
  | nil => rw [resolveTokens]
  | cons t rest ih =>
      rw [List.all_cons, Bool.and_eq_true] at plain
      have kept := ih plain.2
      cases t with
      | start | stop | chars | given => simp [resolveTokens, kept]
      | entity => cases plain.1

theorem isNameStart_mark : isNameStart '?' = false ∧ isNameStart '!' = false := by
  decide

theorem opening_tag {c : Char} (start : isNameStart c) (s : List Char) :
    opening ('<' :: c :: s) = some (false, '<' :: c :: s) := by
  have other : c ≠ '?' := by
    rintro rfl
    rw [isNameStart_mark.1] at start
    cases start
  have none : strip? "<?xml".toList ('<' :: c :: s) = none := by
    simp [strip?, other.symm]
  rw [opening, none]

theorem prolog_tag (standalone : Bool) {c : Char} (start : isNameStart c) (s : List Char) :
    prolog standalone none ('<' :: c :: s) = some (.empty standalone, '<' :: c :: s) := by
  have marks : c ≠ '?' ∧ c ≠ '!' := by
    constructor
    · rintro rfl
      rw [isNameStart_mark.1] at start
      cases start
    · rintro rfl
      rw [isNameStart_mark.2] at start
      cases start
  rw [prolog]
  simp [isSpace, marks, start]

/-- Nothing but the tokens decides how such a text is read. -/
theorem read_tag (text : String) {c : Char} {s : List Char} (chars : text.toList = '<' :: c :: s)
    (start : isNameStart c) (legal : text.toList.all isLegal)
    (unbroken : Text.unifyBreaks text.toList = text.toList)
    (plain : (tokens? (.empty false) text.toList).all (·.all Token.isPlain)) :
    read text = match (tokens? (.empty false) text.toList).bind root? with
      | some e => if e.depth ≤ maxDepth then .ok e else .error .tooDeep
      | none => .error .malformed := by
  have opened : opening text.toList = some (false, text.toList) := by
    rw [chars]
    exact opening_tag start s
  have begun : prolog false none text.toList = some (.empty false, text.toList) := by
    rw [chars]
    exact prolog_tag false start s
  have unmarked : ¬ text.toList.head? = some '\uFEFF' := by
    rw [chars, List.head?_cons]
    decide
  have resolved : ((tokens? (.empty false) text.toList).bind fun ts =>
      (resolveTokens (.empty false) 1 ts).bind root?) = (tokens? (.empty false) text.toList).bind root? := by
    cases found : tokens? (.empty false) text.toList with
    | none => rfl
    | some ts =>
        rw [found] at plain
        rw [Option.bind_some, Option.bind_some, resolveTokens_plain _ _ plain, Option.bind_some]
  rw [read]
  simp only [unmarked, if_false, legal, if_true, unbroken, opened, begun, Option.bind_some]
  rw [← resolved]
  rfl

end ExportDiff.Xml
