/- The files of one side by path key. -/
import ExportDiff.Noise.PathKey
import ExportDiff.Snapshot.Record

namespace ExportDiff.Change
open Noise Snapshot

inductive Side where
  | left
  | right
  deriving DecidableEq

def Side.name : Side → String
  | .left => "left"
  | .right => "right"

/-- Two paths of one side with one key: the later file takes the place of the earlier. -/
structure Collision where
  side : Side
  dropped : String
  kept : String
  key : String
  deriving DecidableEq

def Collision.message (c : Collision) : String :=
  c.side.name ++ ": '" ++ c.dropped ++ "' and '" ++ c.kept ++ "' both normalize to '" ++ c.key ++
    "'; keeping '" ++ c.kept ++ "'"

structure PathIndex where
  entries : List (String × FileRecord)
  collisions : List Collision

def PathIndex.empty : PathIndex := ⟨[], []⟩

def lookupKey (key : String) : List (String × FileRecord) → Option FileRecord
  | [] => none
  | (k, f) :: rest => if k = key then some f else lookupKey key rest

def PathIndex.get? (ix : PathIndex) (key : String) : Option FileRecord := lookupKey key ix.entries

/-- A key keeps its place with its last file. -/
def putKey (key : String) (f : FileRecord) : List (String × FileRecord) → List (String × FileRecord)
  | [] => [(key, f)]
  | (k, g) :: rest => if k = key then (k, f) :: rest else (k, g) :: putKey key f rest

/-- The file with the key is replaced; this is a collision when its path is another one. -/
def PathIndex.add (side : Side) (ix : PathIndex) (f : FileRecord) : PathIndex :=
  let key := pathKey f.path
  let clash := match ix.get? key with
    | some g => if g.path = f.path then [] else [⟨side, g.path, f.path, key⟩]
    | none => []
  ⟨putKey key f ix.entries, ix.collisions ++ clash⟩

def PathIndex.ofFiles (side : Side) (files : List FileRecord) : PathIndex :=
  files.foldl (PathIndex.add side) .empty

end ExportDiff.Change
