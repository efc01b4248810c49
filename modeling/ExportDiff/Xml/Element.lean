/- Elements of a document by their local names, and looking things up in them. -/
import ExportDiff.Text.Lowercase

namespace ExportDiff.Xml
open Text

/-- An element without namespaces; its text is what stands before its first child. -/
structure Element where
  tag : String
  attributes : List (String × String)
  text : String
  children : List Element

namespace Element

def lowerTag (e : Element) : String := lowercase e.tag

def attribute? (e : Element) (name : String) : Option String :=
  (e.attributes.find? (·.1 = name)).map (·.2)

/-- An attribute that is present and not empty. -/
def filled? (e : Element) (name : String) : Option String :=
  (e.attribute? name).filter (· ≠ "")

def child? (e : Element) (tag : String) : Option Element := e.children.find? (·.tag = tag)

def childrenNamed (e : Element) (tag : String) : List Element := e.children.filter (·.tag = tag)

/-- The tag is this one in any case. -/
def like (e : Element) (tag : String) : Bool := e.lowerTag = lowercase tag

def childLike? (e : Element) (tag : String) : Option Element := e.children.find? (·.like tag)

def childrenLike (e : Element) (tag : String) : List Element := e.children.filter (·.like tag)

/-- The text of an element that has some. -/
def text? (e : Element) : Option String := some e.text |>.filter (· ≠ "")

def childText? (e : Element) (tag : String) : Option String := (e.child? tag).bind text?

def childTextLike? (e : Element) (tag : String) : Option String := (e.childLike? tag).bind text?

mutual

/-- The element and all below it, in document order. -/
def walk : Element → List Element
  | ⟨tag, attributes, text, children⟩ => ⟨tag, attributes, text, children⟩ :: walkAll children

def walkAll : List Element → List Element
  | [] => []
  | e :: es => e.walk ++ walkAll es

end

theorem walkAll_eq (es : List Element) : walkAll es = es.flatMap walk := by
  induction es with
  | nil => rfl
  | cons e es ih => rw [walkAll, ih, List.flatMap_cons]

theorem walk_eq (e : Element) : e.walk = e :: e.children.flatMap walk := by
  obtain ⟨tag, attributes, text, children⟩ := e
  rw [walk, walkAll_eq]

mutual

/-- The number of levels of an element. -/
def depth : Element → Nat
  | ⟨_, _, _, children⟩ => depthAll children + 1

def depthAll : List Element → Nat
  | [] => 0
  | e :: es => max e.depth (depthAll es)

end

end Element

end ExportDiff.Xml
