import CodeAtlas.Host.Basic
import CodeAtlas.Language
import CodeAtlas.Profile.Basic
import CodeAtlas.Sorted
import CodeAtlas.Text.Lines

/-!
# Numbers about code

* `Metrics.ofFiles`: the numbers for fetched files.
* `complexityOf`, `maintainabilityOf`: what depends on the counts alone.
-/

namespace CodeAtlas

/-- High above 50 files or 10000 lines, medium above 20 files or 5000 lines. -/
def complexityOf (files lines : Nat) : Complexity :=
  if 50 < files || 10000 < lines then .high
  else if 20 < files || 5000 < lines then .medium
  else .low

/-- Ten less one for every ten files, and at least one. -/
def maintainabilityOf (files : Nat) : Float :=
  let x := 10.0 - Float.ofNat files / 10.0
  if x < 1.0 then 1.0 else if 10.0 < x then 10.0 else x

/-- Every file counts; lines and languages are those of program source only. -/
def Metrics.ofFiles (files : List SourceFile) : Metrics :=
  let code := files.filter fun f => isCodeLabel (labelOfPath f.path)
  let lines := code.foldl (fun n f => n + (Text.lines f.content).length) 0
  { linesOfCode := lines, fileCount := files.length
    complexity := complexityOf files.length lines
    maintainability := maintainabilityOf files.length
    languages := code.foldl (fun counts f => Sorted.count (labelOfPath f.path) counts) [] }

end CodeAtlas
