/-!
# Profiles of repositories

What is found out about a repository besides the outlines of its files: its features, its structure, the
technology it is built with, numbers about its code, and the words under which it can be found.
-/

namespace CodeAtlas

/-- Something that a repository offers to its users. -/
structure Feature where
  name : String := ""
  description : String := ""
  category : String := ""
  /-- The paths that implement it. -/
  files : List String := []
deriving Repr, DecidableEq, Inhabited

structure FeatureSet where
  features : List Feature := []
deriving Repr, DecidableEq, Inhabited

/-- What a directory is for. -/
structure DirectoryRole where
  path : String := ""
  purpose : String := ""
deriving Repr, DecidableEq, Inhabited

/-- How a repository is laid out. -/
structure Structure where
  architecture : String := "unknown"
  patterns : List String := []
  directories : List DirectoryRole := []
  entryPoints : List String := []
deriving Repr, DecidableEq, Inhabited

/-- What a repository is built with. -/
structure TechStack where
  languages : List String := []
  frameworks : List String := []
  libraries : List String := []
  tools : List String := []
  databases : List String := []
deriving Repr, DecidableEq, Inhabited

/-- The five lists of a stack, in their order. -/
def TechStack.lists (t : TechStack) : List (List String) :=
  [t.languages, t.frameworks, t.libraries, t.tools, t.databases]

inductive Complexity where
  | low
  | medium
  | high
deriving Repr, DecidableEq, Inhabited

def Complexity.label : Complexity → String
  | .low => "low"
  | .medium => "medium"
  | .high => "high"

/-- Numbers about the code of a repository. -/
structure Metrics where
  linesOfCode : Nat := 0
  fileCount : Nat := 0
  complexity : Complexity := .low
  /-- From 1 to 10. -/
  maintainability : Float := 0
  /-- The number of files of each language, in order of the labels. -/
  languages : List (String × Nat) := []
deriving Repr, Inhabited

/-- The words under which a repository can be found. -/
structure Index where
  keywords : List String := []
  directories : List String := []
  fileTypes : List String := []
deriving Repr, DecidableEq, Inhabited

end CodeAtlas
