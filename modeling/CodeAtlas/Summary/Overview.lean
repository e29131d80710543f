import CodeAtlas.Profile.Basic
import CodeAtlas.Summary.Basic

/-!
# Overview of a repository

A few sentences written by a generator from what the other summaries found, or one sentence put together from
the same findings.

* `Overview.summarize`: the overview.
* `Overview.plain`: the sentence that stands in for it.
-/

namespace CodeAtlas.Overview

/-- What has been found out before. -/
structure Findings where
  features : FeatureSet := {}
  layout : Structure := {}
  techStack : TechStack := {}
  metrics : Metrics := {}
deriving Inhabited

def commaList (l : List String) : String := ", ".intercalate l

def request (s : Snapshot) (f : Findings) : Request where
  label := "summary"
  messages := [
    .system "You write brief technical summaries of software repositories.",
    .user (
      "Repository: " ++ s.fullName ++ "\n\n" ++ s.readmeSection ++
      "Architecture: " ++ f.layout.architecture ++ "\nPatterns: " ++ commaList f.layout.patterns ++
      "\nLanguages: " ++ commaList f.techStack.languages ++ "\nFrameworks: " ++ commaList f.techStack.frameworks ++
      "\nFeatures: " ++ commaList (f.features.features.map (·.name)) ++
      "\nFiles analyzed: " ++ toString f.metrics.fileCount ++ ", lines of code: " ++ toString f.metrics.linesOfCode ++
      ", complexity: " ++ f.metrics.complexity.label ++ "\n\n" ++
      "Write a concise 2-4 sentence summary of what this repository does and how it is built.")]

/-- One sentence that needs no generator. -/
def plain (s : Snapshot) (f : Findings) : String :=
  let languages := if f.techStack.languages.isEmpty then s.rankedLanguages else f.techStack.languages
  let writtenIn := if languages.isEmpty then "" else ", written in " ++ commaList languages
  s.fullName ++ " (" ++ f.layout.architecture ++ " architecture" ++ writtenIn ++ "): " ++
    toString f.metrics.fileCount ++ " analyzed files, " ++ toString f.metrics.linesOfCode ++ " lines of code, " ++
    f.metrics.complexity.label ++ " complexity, " ++ toString f.features.features.length ++ " identified features."

def summarize {σ : Type} (generator : Generator σ) (s : Snapshot) (f : Findings) (state : σ) :
    Summary String × σ :=
  match generator (request s f) state with
  | (.ok text, state) =>
    if Text.isAllBlank text then ({ value := plain s f, error := some "empty summary" }, state)
    else ({ value := Text.trim text }, state)
  | (.error e, state) => ({ value := plain s f, error := some e.message }, state)

end CodeAtlas.Overview
