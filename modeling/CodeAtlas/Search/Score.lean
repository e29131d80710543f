import CodeAtlas.Outline.Codec
import CodeAtlas.Search.Match
import CodeAtlas.Search.Query
import CodeAtlas.Text.Find
import CodeAtlas.Text.Lower

/-!
# Scores

An element of an outline earns points for each part of a query that is found in it. All comparisons are made in
lower case; functions, classes and variables are searched in their written form.

* `Needles`: a query and its patterns, prepared.
* `Needles.fitsPath`: paths and file patterns.
* `elementAwards`, `importAwards`, `commentAwards`: the points and the reasons for them.
* `Candidate.match?_eq_some_iff`: what is found.
* `matchArtifact`, `matchIndex`: the elements whose score lies above a threshold.
-/

namespace CodeAtlas.Search

/-- A query and its patterns as they are looked for. -/
structure Needles where
  query : String := ""
  terms : List String := []
  codePatterns : List String := []
  frameworkHints : List String := []
  /-- The parts of each file pattern that stand between its asterisks. -/
  filePatterns : List (List String) := []
deriving Repr, DecidableEq

/-- Trimmed texts in lower case, without empty ones. -/
def prepared (l : List String) : List String :=
  (l.map fun s => Text.lower (Text.trim s)).filter (· ≠ "")

/-- The parts of a pattern between its asterisks. -/
def fragments (pattern : String) : List String := (Text.split pattern "*").filter (· ≠ "")

namespace Needles

def prepare (query : String) (patterns : PatternSet) : Needles :=
  { query := Text.lower (Text.trim query)
    terms := prepared patterns.terms
    codePatterns := prepared patterns.codePatterns
    frameworkHints := prepared patterns.frameworkHints
    filePatterns := ((prepared patterns.filePatterns).map fragments).filter (!·.isEmpty) }

/-- The parts stand one after the other in a text, each at the first place where it can. -/
def inOrder : List String → List Char → Bool
  | [], _ => true
  | p :: ps, s =>
    match Text.cutFirst? p.toList s with
    | some (_, rest) => inOrder ps rest
    | none => false

/-- A path fits if the parts of one pattern stand in it in order. -/
def fitsPath (n : Needles) (path : String) : Bool :=
  n.filePatterns.any fun parts => inOrder parts (Text.lower path).toList

end Needles

/-! ## Points -/

/-- Points with the reason for them. -/
structure Award where
  points : Nat
  reason : String
deriving Repr, DecidableEq

/-- The greatest score. -/
def maxScore : Nat := 100

/-- The sum of the points, up to the greatest score. -/
def scoreOf (awards : List Award) : Nat :=
  -- the sum is kept in 32 bits
  min (awards.foldl (fun n a => n + a.points) 0 % UInt32.size) maxScore

def explanationOf (awards : List Award) : String := "; ".intercalate (awards.map (·.reason))

/-- Points if a query is not empty and something holds. -/
def queryAward (query : String) (holds : Bool) (points : Nat) (reason : String) : List Award :=
  if query ≠ "" && holds then [⟨points, reason⟩] else []

/-- Points for each pattern that occurs in a text. -/
def patternAwards (points : Nat) (word text : String) (patterns : List String) : List Award :=
  (patterns.filter (Text.contains text ·)).map fun p => ⟨points, word ++ " \"" ++ p ++ "\""⟩

/-- The points of an element by its name and its written form in lower case. -/
def elementAwards (name written : String) (n : Needles) : List Award :=
  queryAward n.query (Text.contains (Text.lower name) n.query) 50 "name contains query" ++
    patternAwards 30 "term" written n.terms ++
    patternAwards 25 "code pattern" written n.codePatterns ++
    patternAwards 20 "framework" written n.frameworkHints

def importAwards (source : String) (n : Needles) : List Award :=
  let source := Text.lower source
  queryAward n.query (Text.contains source n.query) 60 "source contains query" ++
    patternAwards 40 "framework" source n.frameworkHints ++
    patternAwards 35 "term" source n.terms

def commentAwards (text : String) (isDoc : Bool) (n : Needles) : List Award :=
  let text := Text.lower text
  queryAward n.query (Text.contains text n.query) 40 "comment mentions query" ++
    patternAwards 20 "term" text n.terms ++
    (if isDoc then [⟨10, "doc comment"⟩] else [])

/-- A keyword earns points for being the query and for each term in it. -/
def keywordAwards (keyword : String) (n : Needles) : List Award :=
  let keyword := Text.lower keyword
  queryAward n.query (keyword = n.query) 50 "keyword equals query" ++ patternAwards 30 "term" keyword n.terms

/-! ## Elements -/

/-- Something that can be found: what it is called, where it stands and what it earned. -/
structure Candidate where
  kind : MatchKind
  name : String
  snippet : String
  location : Outline.Location
  awards : List Award
  /-- The score has to be above this. -/
  threshold : Nat
deriving Repr, DecidableEq

def Candidate.match? (c : Candidate) : Option Match :=
  let score := scoreOf c.awards
  if c.threshold < score then
    some ⟨c.kind, c.name, c.snippet, c.location.startLine, c.location.endLine, score, explanationOf c.awards⟩
  else none

/-- What a candidate gives if its score lies above the threshold. -/
theorem Candidate.match?_eq_some_iff {c : Candidate} {m : Match} :
    c.match? = some m ↔ c.threshold < scoreOf c.awards ∧
      m = ⟨c.kind, c.name, c.snippet, c.location.startLine, c.location.endLine, scoreOf c.awards,
        explanationOf c.awards⟩ := by
  unfold Candidate.match?
  dsimp only
  by_cases habove : c.threshold < scoreOf c.awards
  · rw [if_pos habove, Option.some.injEq]
    exact ⟨fun h => ⟨habove, h.symm⟩, fun h => h.2.symm⟩
  · rw [if_neg habove]
    exact ⟨fun h => (nomatch h), fun h => absurd h.1 habove⟩

open Outline in
/-- The elements of an outline, sort by sort. -/
def candidates (a : Artifact) (n : Needles) : List Candidate :=
  let written (j : Json) : String := Text.lower j.compact
  a.functions.map (fun f =>
    ⟨.function, f.name, f.snippet, f.location, elementAwards f.name (written f.encode) n, 20⟩) ++
  a.classes.map (fun c =>
    ⟨if c.kind = .interface then .interface else .classType, c.name, c.snippet, c.location,
      elementAwards c.name (written c.encode) n, 20⟩) ++
  a.bindings.map (fun v =>
    ⟨.variable, v.name, v.snippet, v.location, elementAwards v.name (written v.encode) n, 25⟩) ++
  a.imports.map (fun i => ⟨.imported, i.source, i.snippet, i.location, importAwards i.source n, 30⟩) ++
  a.comments.map fun c => ⟨.comment, "comment", c.text, c.location, commentAwards c.text c.isDoc n, 15⟩

/-- Matches with the best first; those of one score stay in order. -/
def bestFirst (ms : List Match) : List Match := ms.mergeSort fun a b => b.score ≤ a.score

/-- The elements of an outline that are found. -/
def matchArtifact (a : Outline.Artifact) (n : Needles) : List Match :=
  bestFirst ((candidates a n).filterMap Candidate.match?)

/-- The words of an index that are found. -/
def matchIndex (i : Index) (n : Needles) : List Match :=
  bestFirst ((i.keywords ++ i.directories ++ i.fileTypes).filterMap fun word =>
    Candidate.match? ⟨.general, word, word, {}, keywordAwards word n, 25⟩)

/-! ## Repositories -/

/-- One line about a repository. -/
def contextOf (r : Repository) (a : Analysis) : String :=
  r.fullName ++
    (match a.result with
      | some result =>
        ", " ++ result.layout.architecture ++ " architecture" ++
          (if result.techStack.languages.isEmpty then ""
           else ", " ++ "/".intercalate result.techStack.languages)
      | none => "") ++
    (match r.description with
      | some d => ": " ++ d
      | none => "")

/-- The files of a repository in which something is found. A repository without any parsed file is searched by
its index. -/
def matchRepository (n : Needles) (r : Repository) (a : Analysis) : List FileMatches :=
  match a.result with
  | none => []
  | some result =>
    let found (file : FileRef) (ms : List Match) : Option FileMatches :=
      if ms.isEmpty then none else some ⟨⟨r.id, r.fullName⟩, file, ms, contextOf r a⟩
    let parsed := result.artifacts.filter (·.parseSuccess)
    if parsed.isEmpty then (found ⟨".", "index"⟩ (matchIndex result.index n)).toList
    else parsed.filterMap fun artifact => found ⟨artifact.path, artifact.language⟩ (matchArtifact artifact n)

/-- The files of all repositories; those whose path fits a file pattern come first. -/
def matchAll (n : Needles) (pairs : List (Repository × Analysis)) : List FileMatches :=
  (pairs.flatMap fun p => matchRepository n p.1 p.2).mergeSort fun a b =>
    n.fitsPath a.file.path || !n.fitsPath b.file.path

end CodeAtlas.Search
