/- The activities of a process document: their tags, their node data, and their branches. -/
import ExportDiff.Flow.Basic
import ExportDiff.Text.Search
import ExportDiff.Xml.Element

namespace ExportDiff.Flow
open Text Xml

inductive Activity where
  | receive
  | invoke
  | reply
  | assign
  | raise
  | raiseAgain
  | exit
  | wait
  | nothing
  | sequence
  | parallel
  | switch
  | choice
  | whileLoop
  | repeatUntil
  | forEach
  | pick
  | scope
  | compensate
  | compensateScope
  | validate
  | extension
  deriving DecidableEq

namespace Activity

def all : List Activity :=
  [.receive, .invoke, .reply, .assign, .raise, .raiseAgain, .exit, .wait, .nothing, .sequence,
   .parallel, .switch, .choice, .whileLoop, .repeatUntil, .forEach, .pick, .scope, .compensate,
   .compensateScope, .validate, .extension]

/-- The tag of an activity in its usual spelling. -/
def name : Activity → String
  | .receive => "receive"
  | .invoke => "invoke"
  | .reply => "reply"
  | .assign => "assign"
  | .raise => "throw"
  | .raiseAgain => "rethrow"
  | .exit => "exit"
  | .wait => "wait"
  | .nothing => "empty"
  | .sequence => "sequence"
  | .parallel => "flow"
  | .switch => "switch"
  | .choice => "if"
  | .whileLoop => "while"
  | .repeatUntil => "repeatUntil"
  | .forEach => "forEach"
  | .pick => "pick"
  | .scope => "scope"
  | .compensate => "compensate"
  | .compensateScope => "compensateScope"
  | .validate => "validate"
  | .extension => "extensionActivity"

def nodeKind : Activity → NodeKind
  | .receive => .trigger
  | .reply | .exit => .final
  | .raise | .raiseAgain => .error
  | .sequence | .parallel | .scope => .scope
  | .switch | .choice | .pick => .switch
  | .whileLoop | .repeatUntil | .forEach => .loop
  | .invoke | .assign | .wait | .nothing | .compensate | .compensateScope | .validate
  | .extension => .action

def icon : Activity → Option String
  | .receive => some "inbox"
  | .invoke => some "send"
  | .reply => some "reply"
  | .assign => some "copy"
  | .raise => some "alert-triangle"
  | .wait => some "clock"
  | .sequence => some "list"
  | .parallel => some "git-branch"
  | .switch | .choice => some "git-fork"
  | .whileLoop | .forEach => some "repeat"
  | .pick => some "mouse-pointer"
  | .scope => some "box"
  | .raiseAgain | .exit | .nothing | .repeatUntil | .compensate | .compensateScope | .validate
  | .extension => none

/-- The activity of a tag in any case. -/
def ofElement? (e : Element) : Option Activity := all.find? fun a => lowercase a.name = e.lowerTag

/-- The attributes that go into node data as they are. -/
def dataAttributes : List String :=
  ["partnerLink", "operation", "variable", "inputVariable", "outputVariable", "faultName",
   "createInstance"]

/-- A text under a key, if there is one. -/
def entry (key : String) (value : Option String) : Data :=
  (value.map fun v => (key, Json.ofString v)).toList

def attributeEntries (e : Element) (names : List String) : Data :=
  names.flatMap fun n => entry n (e.filled? n)

def data (a : Activity) (e : Element) : Data :=
  attributeEntries e dataAttributes ++
    match a with
    | .forEach =>
        attributeEntries e ["counterName", "parallel"] ++
          entry "startValue" (e.childTextLike? "startCounterValue") ++
          entry "finalValue" (e.childTextLike? "finalCounterValue")
    | .wait => entry "duration" (e.childTextLike? "for") ++ entry "deadline" (e.childTextLike? "until")
    | .assign =>
        let copies := (e.childrenLike "copy").length
        if copies = 0 then [] else [("copyCount", Json.ofNat copies)]
    | _ => []

/-- Labels of branches are cut after this many characters. -/
def labelLimit : Nat := 30

def branchLabel (label : Option String) (default : String) : String := clip labelLimit (label.getD default)

/-- Branches numbered from one, labelled by what a function finds in them. -/
def numbered {α} (label : Element → Option String) (word : String) :
    Nat → List (Element × α) → List (String × α)
  | _, [] => []
  | n, (e, x) :: rest =>
      (branchLabel (label e) (word ++ " " ++ toString n), x) :: numbered label word (n + 1) rest

def condition? (e : Element) : Option String := e.childTextLike? "condition"

/-- The children with a tag in any case, each with what belongs to it. -/
def partsLike {α} (tag : String) (parts : List (Element × α)) : List (Element × α) :=
  parts.filter fun p => p.1.like tag

/-- The branches of a conditional activity in layout order. `parts` holds its children, each with
what its branch would be, and `own` is what the element itself would be as a branch. -/
def branches {α} (a : Activity) (e : Element) (own : α) (parts : List (Element × α)) :
    List (String × α) :=
  match a with
  | .choice =>
      (branchLabel (condition? e) "condition", own) ::
        numbered condition? "elseif" 1 (partsLike "elseif" parts) ++
        ((partsLike "else" parts).head?.map fun p => ("else", p.2)).toList
  | .switch =>
      numbered (fun c => (c.filled? "condition").or (condition? c)) "case" 1 (partsLike "case" parts) ++
        ((partsLike "otherwise" parts).head?.map fun p => ("otherwise", p.2)).toList
  | .pick =>
      (partsLike "onMessage" parts).map (fun p => (branchLabel (p.1.filled? "operation") "onMessage", p.2)) ++
        (partsLike "onAlarm" parts).map (fun p => ("onAlarm", p.2))
  | _ => []

end Activity

end ExportDiff.Flow
