/- What is compared of a connection string, and so which changes of it are noted. -/
import ExportDiff.Change.Wording
import ExportDiff.Proofs.Text.Pieces
import ExportDiff.Proofs.Text.Stretch
import Mathlib.Data.List.TakeWhile

namespace ExportDiff.Change
open Artifact Text

/-- The note that a connection string is another one. -/
def connectionNote : String := "Database connection string was updated"

/-- A content with the property that holds the connection string. -/
def withConnection (a v b : String) : String := a ++ "name=\"ConnectionString\" value=\"" ++ v ++ "\"/>" ++ b

/-- The first twenty characters, if there is no quote among them. -/
def unquotedStart (s : List Char) : Option (List Char) :=
  if 20 ≤ (s.takeWhile (isNot '"')).length then some (s.take 20) else none

/-- What is compared of a value with this text behind its tag: the start of the value. But where the value ends as if
another one followed, its closing quote is taken for an opening one, and what stands behind is read first. -/
def comparedPart (v b : String) : Option (List Char) :=
  (if endsIn v ["value="] then unquotedStart ("/>" ++ b).toList else none).or (unquotedStart v.toList)

/-- The value, as far as it is looked at. -/
def valuePieces : List Piece := [.text "value=\"", .captureExactly 20 (isNot '"')]

def propertyPieces : List Piece := .text "ConnectionString\"" :: .stretch (isNot '>') :: valuePieces

theorem connectionStringPattern_eq : connectionStringPattern = .of propertyPieces := rfl

/-- A property from its name on, with what stands behind. -/
def propertyText (v b : List Char) : List Char :=
  "ConnectionString\"".toList ++ ([' '] ++ ("value=\"".toList ++ (v ++ '"' :: '/' :: '>' :: b)))

section
variable {s t b v x : List Char} {c : Char}

theorem captured_valuePieces (s : List Char) :
    (matchPieces valuePieces ("value=\"".toList ++ s)).map (·.captured) = unquotedStart s := by
  rw [valuePieces, matchPieces_text_append, map_captured_after, unquotedStart, ← takeExactly_eq_ite, matchPieces]
  cases takeExactly (isNot '"') 20 s with
  | none => rfl
  | some tr => exact congrArg some (List.append_nil tr.1)

theorem matchPieces_value_of_not_mem (h : 'v' ∉ t) (some : x ≠ []) (suffix : x <:+ t) :
    matchPieces valuePieces (x ++ s) = none :=
  matchPieces_text_of_not_mem (w := "value=\"") rfl h some suffix

theorem matchPieces_value_of_ne (other : 'v' ≠ c) (s : List Char) : matchPieces valuePieces (c :: s) = none :=
  matchPieces_value_of_not_mem (mt List.mem_singleton.mp other) (List.cons_ne_nil c []) List.suffix_rfl

/-- The tag ends behind the closing quote. -/
theorem longest_tagEnd (b : List Char) : longest (isNot '>') (matchPieces valuePieces) ('/' :: '>' :: b) = none := by
  have stop : longest (isNot '>') (matchPieces valuePieces) ('>' :: b) = none := by
    rw [longest, if_neg (by decide), matchPieces_value_of_ne (by decide)]
  rw [longest_of_none stop, matchPieces_value_of_ne (by decide)]

/-- Behind the opening quote only the closing one can be taken for another opening one. -/
theorem captured_within (hv : '"' ∉ v) (hv' : '>' ∉ v) (b : List Char) :
    (longest (isNot '>') (matchPieces valuePieces) (v ++ '"' :: '/' :: '>' :: b)).map (·.captured) =
      if "value=".toList <:+ v then unquotedStart ('/' :: '>' :: b) else none := by
  induction v with
  | nil =>
      rw [List.nil_append, longest_of_none (longest_tagEnd b), matchPieces_value_of_ne (by decide), if_neg (by decide)]
      rfl
  | cons c v ih =>
      have later := ih (mt (List.mem_cons_of_mem c) hv) (mt (List.mem_cons_of_mem c) hv')
      have first : isNot '>' c = true := bne_iff_ne.mpr fun same => hv' (same ▸ List.mem_cons_self)
      have here : (matchPieces valuePieces (c :: v ++ '"' :: '/' :: '>' :: b)).map (·.captured) =
          if "value=".toList = c :: v then unquotedStart ('/' :: '>' :: b) else none := by
        by_cases whole : "value=".toList = c :: v
        · rw [if_pos whole, ← whole]
          exact captured_valuePieces _
        · have other := mt (closed_prefix_iff (s := '/' :: '>' :: b) (by decide : '"' ∉ "value=".toList) hv).mp whole
          rw [if_neg whole, valuePieces, matchPieces_text_eq_none (w := "value=\"") other]
          rfl
      rw [List.cons_append] at here ⊢
      rw [longest_cons first, Option.map_or, map_captured_after, later, here, if_congr List.suffix_cons_iff rfl rfl]
      by_cases whole : "value=".toList = c :: v
      · have short : ¬ "value=".toList <:+ v := fun suffix => by
          have := suffix.length_le
          rw [whole, List.length_cons] at this
          omega
        rw [if_neg short, if_pos whole, if_pos (.inl whole), Option.none_or]
      · rw [if_neg whole, Option.or_none, if_congr (or_iff_right whole) rfl rfl]

theorem unquotedStart_closed (v s : List Char) : unquotedStart (v ++ '"' :: s) = unquotedStart v := by
  have stop : ('"' :: s).head?.any (isNot '"') = false := rfl
  have size : (v.takeWhile (isNot '"')).length ≤ v.length := (List.takeWhile_prefix _).length_le
  rw [unquotedStart, unquotedStart, takeWhile_append_of_stop stop]
  split
  · rw [List.take_append_of_le_length (by omega)]
  · rfl

/-- What is given back of the property. -/
theorem captured_property (hv : '"' ∉ v) (hv' : '>' ∉ v) (b : List Char) :
    (matchPieces propertyPieces (propertyText v b)).map (·.captured) =
      (if "value=".toList <:+ v then unquotedStart ('/' :: '>' :: b) else none).or (unquotedStart v) := by
  unfold propertyText
  rw [propertyPieces, matchPieces_text_append, map_captured_after]
  have opening : "value=\"".toList = 'v' :: "alue=\"".toList := rfl
  -- The stretch takes all of the tag first, and gives back one character after the other.
  calc (longest (isNot '>') (matchPieces valuePieces)
        ([' '] ++ ("value=\"".toList ++ (v ++ '"' :: '/' :: '>' :: b)))).map (·.captured)
      = (longest (isNot '>') (matchPieces valuePieces)
          ("value=\"".toList ++ (v ++ '"' :: '/' :: '>' :: b))).map (·.captured) :=
        captured_longest_skip (by decide) fun _ => matchPieces_value_of_not_mem (by decide)
    _ = ((longest (isNot '>') (matchPieces valuePieces)
          ("alue=\"".toList ++ (v ++ '"' :: '/' :: '>' :: b))).map (·.captured)).or
          (unquotedStart (v ++ '"' :: '/' :: '>' :: b)) := by
        rw [← captured_valuePieces, opening, List.cons_append, longest_cons (by decide), Option.map_or,
          map_captured_after]
    _ = _ := by
        rw [captured_longest_skip (by decide) fun _ => matchPieces_value_of_not_mem (by decide),
          captured_within hv hv', unquotedStart_closed]

theorem matchAt_of_not_mem (h : 'C' ∉ t) (s : List Char) (some : x ≠ []) (suffix : x <:+ t) (before : Option Char) :
    connectionStringPattern.matchAt before (x ++ s) = none := by
  rw [connectionStringPattern_eq, Pattern.matchAt_anywhere]
  exact matchPieces_text_of_not_mem (w := "ConnectionString\"") rfl h some suffix

/-- No match begins in a text without the name, even where the property begins behind it. -/
theorem matchAt_before (h : ¬ "ConnectionString".toList <:+: t) (s : List Char) (suffix : x <:+ t)
    (before : Option Char) : connectionStringPattern.matchAt before (x ++ ("name=\"".toList ++ s)) = none := by
  rw [connectionStringPattern_eq, Pattern.matchAt_anywhere]
  refine matchPieces_text_eq_none fun start => ?_
  -- The name holds no quote, so it would stand before that of the property.
  have short : "ConnectionString".toList <+: x ++ "name=".toList := by
    refine prefix_of_not_mem (c := '"') (s := s) (by decide) ?_
    rw [List.append_assoc]
    exact List.IsPrefix.trans ⟨['"'], rfl⟩ start
  rcases List.prefix_or_prefix_of_prefix short (List.prefix_append x _) with inside | ⟨y, same⟩
  · exact h (inside.isInfix.trans suffix.isInfix)
  · rw [← same, List.prefix_append_right_inj] at short
    have ends : y <:+ "ConnectionString".toList := ⟨x, same⟩
    have none_across : ∀ y ∈ "name=".toList.inits, y <:+ "ConnectionString".toList → y = [] := by decide
    have empty := none_across y ((List.mem_inits _ _).mpr short) ends
    rw [empty, List.append_nil] at same
    exact h (same ▸ suffix.isInfix)

theorem matchAt_within (hv : '"' ∉ v) (b : List Char) (suffix : x <:+ v) (before : Option Char) :
    connectionStringPattern.matchAt before (x ++ '"' :: '/' :: '>' :: b) = none := by
  rw [connectionStringPattern_eq, Pattern.matchAt_anywhere]
  by_cases same : "ConnectionString".toList = x
  · have quoted : "ConnectionString\"".toList = "ConnectionString".toList ++ ['"'] := by decide
    have tag : x ++ '"' :: '/' :: '>' :: b = "ConnectionString\"".toList ++ ('/' :: '>' :: b) := by
      rw [quoted, same, List.append_assoc, List.singleton_append]
    rw [tag, propertyPieces, matchPieces_text_append, Option.map_eq_none_iff]
    exact longest_tagEnd b
  · have apart := mt (closed_prefix_iff (s := '/' :: '>' :: b) (by decide : '"' ∉ "ConnectionString".toList)
      (mt (fun h => suffix.subset h) hv)).mp same
    exact matchPieces_text_eq_none (w := "ConnectionString\"") apart

theorem searchFrom_eq_none (h : ¬ "ConnectionString".toList <:+: t) (before : Option Char) :
    connectionStringPattern.searchFrom before t = none := by
  have nowhere {x : List Char} (suffix : x <:+ t) (before : Option Char) :
      connectionStringPattern.matchAt before x = none := by
    rw [connectionStringPattern_eq, Pattern.matchAt_anywhere]
    refine matchPieces_text_eq_none fun start => h (List.IsInfix.trans ?_ suffix.isInfix)
    exact (List.IsPrefix.trans ⟨['"'], rfl⟩ start).isInfix
  calc connectionStringPattern.searchFrom before t
      = connectionStringPattern.searchFrom before (t ++ []) := by rw [List.append_nil]
    _ = connectionStringPattern.searchFrom (t.getLast?.or before) [] :=
        Pattern.searchFrom_skip fun x _ suffix before => by rw [List.append_nil, nowhere suffix]
    _ = none := nowhere List.nil_suffix _

/-- Only the property itself can be found. -/
theorem searchFrom_property {a : List Char} (ha : ¬ "ConnectionString".toList <:+: a)
    (hb : ¬ "ConnectionString".toList <:+: b) (hv : '"' ∉ v) :
    connectionStringPattern.searchFrom none (a ++ ("name=\"".toList ++ propertyText v b)) =
      matchPieces propertyPieces (propertyText v b) := by
  have behind (before : Option Char) : connectionStringPattern.searchFrom before ('"' :: '/' :: '>' :: b) = none :=
    (Pattern.searchFrom_skip (a := "\"/>".toList) fun _ => matchAt_of_not_mem (by decide) b).trans
      (searchFrom_eq_none hb _)
  have later : connectionStringPattern.searchFrom (some 'C')
      ("onnectionString\" value=\"".toList ++ (v ++ '"' :: '/' :: '>' :: b)) = none := by
    rw [Pattern.searchFrom_skip fun _ => matchAt_of_not_mem (by decide) _,
      Pattern.searchFrom_skip fun _ _ => matchAt_within hv b, behind]
  rw [Pattern.searchFrom_skip fun _ _ => matchAt_before ha _,
    Pattern.searchFrom_skip fun _ => matchAt_of_not_mem (by decide) _]
  exact (congrArg (Option.or _) later).trans (Option.or_none.trans (Pattern.matchAt_anywhere _ _ _))

end

section
variable {a b v w : String}

theorem toList_withConnection (a v b : String) : (withConnection a v b).toList =
    a.toList ++ ("name=\"".toList ++ propertyText v.toList b.toList) := by
  unfold propertyText
  simp [withConnection]

theorem find?_withConnection (ha : mentions a "ConnectionString" = false) (hb : mentions b "ConnectionString" = false)
    (hv : '"' ∉ v.toList) (hv' : '>' ∉ v.toList) :
    connectionStringPattern.find? (withConnection a v b) = (comparedPart v b).map String.ofList := by
  rw [← Bool.not_eq_true, mentions_iff] at ha hb
  have captured := captured_property hv hv' b.toList
  rw [← searchFrom_property ha hb hv, ← toList_withConnection] at captured
  have ends : endsIn v ["value="] = true ↔ "value=".toList <:+ v.toList := by
    rw [endsIn, List.any_cons, List.any_nil, Bool.or_false, List.isSuffixOf_iff_suffix]
  have tag : ("/>" ++ b).toList = '/' :: '>' :: b.toList := String.toList_append
  rw [Pattern.find?, Pattern.search, comparedPart, if_congr ends rfl rfl, tag, ← captured, Option.map_map]
  rfl

theorem mentions_withConnection (a v b : String) : mentions (withConnection a v b) "ConnectionString" = true := by
  rw [mentions_iff, toList_withConnection]
  have inside : "ConnectionString".toList <+: propertyText v.toList b.toList :=
    List.IsPrefix.trans ⟨['"'], rfl⟩ (List.prefix_append "ConnectionString\"".toList _)
  exact inside.isInfix.trans ((List.suffix_append _ _).trans (List.suffix_append _ _)).isInfix

theorem isSome_changed?_iff (p : Pattern) (old new : String) :
    (changed? p old new).isSome ↔ ∃ x y, p.find? old = some x ∧ p.find? new = some y ∧ x ≠ y := by
  unfold changed?
  cases p.find? old with
  | none => simp
  | some x =>
      cases p.find? new with
      | none => simp
      | some y => by_cases same : x = y <;> simp [same]

/-- The note stands for nothing but a difference in what the pattern gives back. -/
theorem mem_specificChanges_iff (old new path : String) : connectionNote ∈ specificChanges old new path ↔
    mentions old "ConnectionString" = true ∧ mentions new "ConnectionString" = true ∧
      (changed? connectionStringPattern old new).isSome := by
  simp only [specificChanges, List.mem_append]
  constructor
  · rintro (((note | note) | note) | note)
    · split at note
      · rename_i all
        rwa [Bool.and_eq_true, Bool.and_eq_true, and_assoc] at all
      · exact nomatch note
    · split at note
      · have first := congrArg (·.toList.head?) (List.mem_singleton.mp note)
        simp [connectionNote] at first
      · exact nomatch note
    · split at note
      · exact absurd (List.mem_singleton.mp note) (by decide)
      · exact nomatch note
    · split at note
      · exact absurd (List.mem_singleton.mp note) (by decide)
      · exact nomatch note
  · rintro ⟨left, right, differ⟩
    rw [if_pos (by rw [left, right, differ]; rfl)]
    exact .inl (.inl (.inl List.mem_cons_self))

theorem note_iff_comparedParts (ha : mentions a "ConnectionString" = false)
    (hb : mentions b "ConnectionString" = false) (hv : '"' ∉ v.toList ∧ '>' ∉ v.toList)
    (hw : '"' ∉ w.toList ∧ '>' ∉ w.toList) (path : String) :
    connectionNote ∈ specificChanges (withConnection a v b) (withConnection a w b) path ↔
      ∃ x y, comparedPart v b = some x ∧ comparedPart w b = some y ∧ x ≠ y := by
  rw [mem_specificChanges_iff, isSome_changed?_iff, find?_withConnection ha hb hv.1 hv.2,
    find?_withConnection ha hb hw.1 hw.2]
  simp only [mentions_withConnection, true_and, Option.map_eq_some_iff]
  constructor
  · rintro ⟨_, _, ⟨x, left, rfl⟩, ⟨y, right, rfl⟩, differ⟩
    exact ⟨x, y, left, right, mt (congrArg String.ofList) differ⟩
  · rintro ⟨x, y, left, right, differ⟩
    exact ⟨_, _, ⟨x, left, rfl⟩, ⟨y, right, rfl⟩, mt String.ofList_inj.mp differ⟩

theorem comparedPart_of_plain (hv : '"' ∉ v.toList) (plain : endsIn v ["value="] = false) (b : String) :
    comparedPart v b = if 20 ≤ v.toList.length then some (v.toList.take 20) else none := by
  have whole : v.toList.takeWhile (isNot '"') = v.toList :=
    List.takeWhile_eq_self_iff.mpr fun c member => bne_iff_ne.mpr fun same => hv (same ▸ member)
  rw [comparedPart, if_neg (Bool.eq_false_iff.mp plain), Option.none_or, unquotedStart, whole]

theorem exists_comparedParts_iff (hv : '"' ∉ v.toList) (hw : '"' ∉ w.toList) (plain : endsIn v ["value="] = false)
    (plain' : endsIn w ["value="] = false) (b : String) :
    (∃ x y, comparedPart v b = some x ∧ comparedPart w b = some y ∧ x ≠ y) ↔
      20 ≤ v.toList.length ∧ 20 ≤ w.toList.length ∧ v.toList.take 20 ≠ w.toList.take 20 := by
  rw [comparedPart_of_plain hv plain, comparedPart_of_plain hw plain']
  simp only [Option.ite_none_right_eq_some, Option.some.injEq]
  constructor
  · rintro ⟨_, _, ⟨long, rfl⟩, ⟨long', rfl⟩, differ⟩
    exact ⟨long, long', differ⟩
  · rintro ⟨long, long', differ⟩
    exact ⟨_, _, ⟨long, rfl⟩, ⟨long', rfl⟩, differ⟩

end

/-- The note on another connection string in a tag compares what the pattern gives back: it stands just when both sides
have something to compare, and that differs. Values that do not end like an attribute are compared by their first
twenty characters, and not at all when one of them is shorter. -/
theorem connectionNote_iff {a b v w : String} (ha : mentions a "ConnectionString" = false)
    (hb : mentions b "ConnectionString" = false) (hv : '"' ∉ v.toList ∧ '>' ∉ v.toList)
    (hw : '"' ∉ w.toList ∧ '>' ∉ w.toList) (path : String) :
    (connectionNote ∈ specificChanges (withConnection a v b) (withConnection a w b) path ↔
      ∃ x y, comparedPart v b = some x ∧ comparedPart w b = some y ∧ x ≠ y) ∧
    (endsIn v ["value="] = false → endsIn w ["value="] = false →
      (connectionNote ∈ specificChanges (withConnection a v b) (withConnection a w b) path ↔
        20 ≤ v.toList.length ∧ 20 ≤ w.toList.length ∧ v.toList.take 20 ≠ w.toList.take 20)) := by
  have note := note_iff_comparedParts ha hb hv hw path
  exact ⟨note, fun plain plain' => note.trans (exists_comparedParts_iff hv.1 hw.1 plain plain' b)⟩

theorem connectionNote_iff_hosts : connectionNote ∈ specificChanges
    (withConnection "<property " "jdbc:db2://test/orders" "") (withConnection "<property " "jdbc:db2://prod/orders" "")
    "db.jca" := by
  have plain := (connectionNote_iff (a := "<property ") (b := "") (v := "jdbc:db2://test/orders")
    (w := "jdbc:db2://prod/orders") (by decide) (by decide) (by decide) (by decide) "db.jca").2
  exact (plain (by decide) (by decide)).mpr (by decide)

/-- Addresses that begin alike are taken for the same one, and short ones are not compared. -/
theorem connectionNote_missing :
    connectionNote ∉ specificChanges (withConnection "<property " "jdbc:oracle:thin:@db-test/orders" "")
      (withConnection "<property " "jdbc:oracle:thin:@db-prod/orders" "") "db.jca" ∧
    connectionNote ∉ specificChanges (withConnection "<property " "test" "") (withConnection "<property " "prod" "")
      "db.jca" := by
  constructor
  · rw [note_iff_comparedParts (by decide) (by decide) (by decide) (by decide),
      exists_comparedParts_iff (by decide) (by decide) (by decide) (by decide)]
    decide
  · rw [note_iff_comparedParts (by decide) (by decide) (by decide) (by decide),
      exists_comparedParts_iff (by decide) (by decide) (by decide) (by decide)]
    decide

end ExportDiff.Change
