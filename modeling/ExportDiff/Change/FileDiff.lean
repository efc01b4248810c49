/- Comparing the files of two snapshots. -/
import ExportDiff.Change.PathIndex
import ExportDiff.Change.Summary

namespace ExportDiff.Change
open Snapshot

/-- Both contents are known and equal once export noise is gone. -/
def sameContent (l r : FileRecord) : Bool :=
  match l.content, r.content with
  | some a, some b => Noise.bareContent a l.path = Noise.bareContent b r.path
  | _, _ => false

/-- What happened to the file of a key; nothing, when the versions agree. -/
def classify (key : String) : Sides FileRecord → Option (ChangeKind × Rating)
  | .right _ => some (.added, ratePresence key .added)
  | .left _ => some (.removed, ratePresence key .removed)
  | .both l r =>
      if l.hash = r.hash || sameContent l r then none
      else some (.modified, rateModification key l.content r.content)

/-- The keys of the left side, then those that only the right side has. -/
def allKeys (left right : PathIndex) : List String :=
  left.entries.map (·.1) ++ (right.entries.map (·.1)).filter fun k => (left.get? k).isNone

def itemFor (lineLimit : Int) (left right : PathIndex) (key : String) : Option Item :=
  (Sides.ofOptions? (left.get? key) (right.get? key)).bind fun files =>
    (classify key files).map fun (change, rating) => Item.ofFiles key change rating files lineLimit

structure FileDiff where
  items : List Item
  summary : Summary
  collisions : List Collision
  /-- How many keys have no item. -/
  unchanged : Nat

def FileDiff.warnings (d : FileDiff) : List String := d.collisions.map Collision.message

def compareFiles (lineLimit : Int) (left right : List FileRecord) : FileDiff :=
  let l := PathIndex.ofFiles .left left
  let r := PathIndex.ofFiles .right right
  let keys := allKeys l r
  let items := reportOrder (keys.filterMap (itemFor lineLimit l r))
  ⟨items, summarize items, l.collisions ++ r.collisions, keys.length - items.length⟩

end ExportDiff.Change
