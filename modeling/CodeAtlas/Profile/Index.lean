import CodeAtlas.Host.Basic
import CodeAtlas.Profile.Basic
import CodeAtlas.Sorted
import CodeAtlas.Text.Blank
import CodeAtlas.Text.Find
import CodeAtlas.Text.Lower

/-!
# Words to find a repository by

* `Index.build`: the words of a profile, and the directories and extensions of its files.
* `firstWords`: words in lower case, each at its first place.
-/

namespace CodeAtlas

/-- A text as it is compared: trimmed and in lower case. -/
def normalized (s : String) : String := Text.lower (Text.trim s)

/-- The members of a list that are not empty, each at its first place; `seen` holds those met before. -/
def firstWordsFrom (seen : List String) : List String → List String
  | [] => []
  | w :: ws =>
    if w = "" || seen.contains w then firstWordsFrom seen ws else w :: firstWordsFrom (w :: seen) ws

/-- The texts of a list as they are compared, without blank ones, each at its first place. -/
def firstWords (l : List String) : List String := firstWordsFrom [] (l.map normalized)

namespace Index

/-- The texts that keywords are made of, in their order. -/
def keywordSources (features : FeatureSet) (layout : Structure) (stack : TechStack) : List String :=
  features.features.flatMap (fun f => [f.name, f.category]) ++
    (if layout.architecture = "unknown" then [] else [layout.architecture]) ++
    layout.patterns ++ stack.lists.flatten

/-- A directory of a structure, without the slashes at its end. -/
def declaredDirectories (layout : Structure) : List String :=
  (layout.directories.map fun d => Text.dropBackAll d.path "/").filter (· ≠ "")

def directoryOf? (path : String) : Option String := (Text.splitLast? path "/").map (·.1)

/-- What follows the last point of a file name, if something stands before it. -/
def fileType? (path : String) : Option String :=
  let name := ((Text.splitLast? path "/").map (·.2)).getD path
  match Text.splitLast? name "." with
  | some (stem, extension) => if stem = "" then none else some (Text.lower extension)
  | none => none

def build (features : FeatureSet) (layout : Structure) (stack : TechStack) (files : List SourceFile) : Index :=
  { keywords := firstWords (keywordSources features layout stack)
    directories := Sorted.ofList (declaredDirectories layout ++ files.filterMap fun f => directoryOf? f.path)
    fileTypes := Sorted.ofList (files.filterMap fun f => fileType? f.path) }

end Index

end CodeAtlas
