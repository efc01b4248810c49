/- Everything computed for two snapshots: the changed files, and the flows where they are wanted. -/
import ExportDiff.Change.FileDiff
import ExportDiff.Flow.Comparison
import ExportDiff.Flow.Discovery

namespace ExportDiff.Snapshot
open Change ExportDiff.Flow

structure Options where
  lineLimit : Int
  includeFlows : Bool

def Options.usual : Options := ⟨50, true⟩

structure Comparison where
  diff : FileDiff
  leftFlow : Option Flow
  rightFlow : Option Flow
  flows : Flow.Comparison

def compare (options : Options) (left right : List FileRecord) : Comparison :=
  let diff := compareFiles options.lineLimit left right
  if options.includeFlows then
    let l := flowOfFiles? left
    let r := flowOfFiles? right
    ⟨diff, l, r, compareFlows l r⟩
  else ⟨diff, none, none, compareFlows none none⟩

end ExportDiff.Snapshot
