/- The steps of a process: its activities as a tree, apart from how they are written and drawn. -/
import ExportDiff.Flow.Activity

namespace ExportDiff.Flow
open Xml

/-- What a step shows of itself. -/
structure StepHead where
  activity : Activity
  name : String
  data : Data

/-- A handler of errors beside a scope; one without a fault name that is no catch-all is numbered. -/
structure Handler where
  catchAll : Bool
  number : Nat
  faultName : Option String

inductive Step where
  | plain (head : StepHead)
  | sequence (head : StepHead) (body : List Step)
  | parallel (head : StepHead) (branches : List Step)
  | conditional (head : StepHead) (branches : List (String × List Step))
  | loop (head : StepHead) (body : List Step)
  | scope (head : StepHead) (body : List Step) (handlers : List Handler)

def Step.head : Step → StepHead
  | .plain h | .sequence h _ | .parallel h _ | .conditional h _ | .loop h _ | .scope h _ _ => h

def numberHandlers : Nat → List (Bool × Element) → List Handler
  | _, [] => []
  | n, (catchAll, e) :: rest => ⟨catchAll, n, e.filled? "faultName"⟩ :: numberHandlers (n + 1) rest

/-- The handlers of an element: catches first, then catch-alls, all numbered from one. -/
def handlersOf (e : Element) : List Handler :=
  match e.childLike? "faultHandlers" with
  | some h =>
      numberHandlers 1 ((h.childrenLike "catch").map (false, ·) ++ (h.childrenLike "catchAll").map (true, ·))
  | none => []

/-- The step of an activity, from the steps among its children and what its branches hold. -/
def Step.ofActivity (a : Activity) (e : Element) (body : List Step)
    (parts : List (Element × List Step)) : Step :=
  let head : StepHead := ⟨a, (e.filled? "name").getD a.name, a.data e⟩
  match a with
  | .sequence => .sequence head body
  | .parallel => .parallel head body
  | .switch | .choice | .pick => .conditional head (a.branches e body parts)
  | .whileLoop | .repeatUntil | .forEach => .loop head body
  | .scope => .scope head body (handlersOf e)
  | _ => .plain head

/-- An element as a step, if it is an activity, and the steps among its children. -/
structure Reading where
  element : Element
  step : Option Step
  body : List Step

mutual

def readElement : Element → Reading
  | ⟨tag, attributes, text, children⟩ =>
      let e : Element := ⟨tag, attributes, text, children⟩
      let parts := readElements children
      let body := parts.filterMap (·.step)
      let step := (Activity.ofElement? e).map fun a =>
        Step.ofActivity a e body (parts.map fun r => (r.element, r.body))
      ⟨e, step, body⟩

def readElements : List Element → List Reading
  | [] => []
  | e :: es => readElement e :: readElements es

end

/-- The steps among the children of an element. -/
def stepsWithin (e : Element) : List Step := (readElement e).body

end ExportDiff.Flow
