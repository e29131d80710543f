import CodeAtlas.Batches
import CodeAtlas.Decimal.Shortest
import CodeAtlas.Search.Match
import CodeAtlas.Settings
import CodeAtlas.Summary.Basic

/-!
# Ranking of files

The score of a file is the average of its matches. A generator may score it as well; then its score counts more
than the average. A file that the generator does not score keeps its average.

* `rank`: files by score, the best first, at most so many.
* `summarizeResults`: a few sentences about the best files.
-/

namespace CodeAtlas.Search

open Json

variable {σ : Type}

/-- The average score of the matches of a file. -/
def average (f : FileMatches) : Float :=
  if f.matched.isEmpty then 0.0
  -- the sum is kept in 32 bits
  else Float.ofNat (f.matched.foldl (fun n m => n + m.score) 0 % UInt32.size) / Float.ofNat f.matched.length

/-- Three parts of the average and seven of the generator's score. -/
def blend (average score : Float) : Float := 0.3 * average + 0.7 * score

/-! ## The generator's score -/

structure Rescore where
  score : Float
  explanation : String

namespace Rescore

def decode : Decoder Rescore :=
  (Form.start Rescore.mk |>.req "score" Decode.float |>.dflt "explanation" Decode.str "").decode "Rescore"

def schema : Json :=
  Schema.object [("score", Schema.percentage), ("explanation", Schema.text)] ["score", "explanation"]

/-- The number of matches that are shown. -/
def shownMatches : Nat := 8

/-- The number of characters shown of a match. -/
def shownSnippetChars : Nat := 400

/-- A match with its place, its score and its text. -/
def matchLine (m : Match) : String :=
  "- " ++ m.kind.title ++ " " ++ m.name ++ " (lines " ++ toString m.lineStart ++ "-" ++ toString m.lineEnd ++
    ", heuristic " ++ toString m.score ++ "):\n" ++ Text.truncate shownSnippetChars m.snippet ++ "\n"

def request (query : String) (f : FileMatches) : Request where
  label := "rescore"
  schema := some schema
  messages := [
    .system ("You judge the relevance of code search results. " ++
      "Respond with ONLY a JSON object matching the schema."),
    .user (
      "Query: \"" ++ sanitize query ++ "\"\nRepository: " ++ sanitize f.context ++ "\nFile: " ++ f.file.path ++
      " (" ++ f.file.language ++ ")\n\nMatches:\n" ++
      sanitize (String.join ((f.matched.take shownMatches).map matchLine)) ++ "\n" ++
      "Rate from 0 to 100 how well this file answers the query and explain in one sentence.")]

/-- A score from 0 to 100. -/
def isValid (r : Rescore) : Bool := 0.0 ≤ r.score && r.score ≤ 100.0

/-- The generator's score of a file, if it gives a valid one. -/
def ask (generator : Generator σ) (query : String) (f : FileMatches) (state : σ) : Option Rescore × σ :=
  match generateStructured generator decode (request query f) state with
  | (.ok r, state) => (if r.isValid then some r else none, state)
  | (.error _, state) => (none, state)

end Rescore

/-! ## The order -/

/-- A file with its score. -/
def scored (f : FileMatches) (rescore : Option Rescore) : SearchResult :=
  { repository := f.repository, file := f.file, matched := f.matched
    score := match rescore with
      | some r => blend (average f) r.score
      | none => average f
    explanation := rescore.map (·.explanation) }

def scoreFile (generator : Generator σ) (settings : SearchSettings) (query : String) (f : FileMatches) (state : σ) :
    SearchResult × σ :=
  if settings.rescoring then
    let (r, state) := Rescore.ask generator query f state
    (scored f r, state)
  else (scored f none, state)

/-- Files one after the other. -/
def scoreBatch (generator : Generator σ) (settings : SearchSettings) (query : String) :
    List FileMatches → σ → List SearchResult × σ
  | [], state => ([], state)
  | f :: fs, state =>
    let (r, state) := scoreFile generator settings query f state
    let (rs, state) := scoreBatch generator settings query fs state
    (r :: rs, state)

/-- Batches one after the other. -/
def scoreBatches (generator : Generator σ) (settings : SearchSettings) (query : String) :
    List (List FileMatches) → σ → List SearchResult × σ
  | [], state => ([], state)
  | b :: bs, state =>
    let (rs, state) := scoreBatch generator settings query b state
    let (more, state) := scoreBatches generator settings query bs state
    (rs ++ more, state)

/-- Results with the best first; those of one score stay in order. -/
def byScore (rs : List SearchResult) : List SearchResult := rs.mergeSort fun a b => b.score ≤ a.score

/-- The best files. -/
def rank (generator : Generator σ) (settings : SearchSettings) (query : String) (files : List FileMatches)
    (state : σ) : List SearchResult × σ :=
  let (rs, state) := scoreBatches generator settings query (batches settings.batchSize files) state
  ((byScore rs).take settings.maxResults, state)

/-! ## A summary -/

/-- The number of results that a summary is made of. -/
def shownResults : Nat := 10

def resultLine (r : SearchResult) : String :=
  "- " ++ r.repository.fullName ++ " " ++ r.file.path ++ " (score " ++ Decimal.wholeText r.score ++
    ", top match " ++ ((r.matched.head?).map (·.name)).getD "" ++ ")\n"

def summaryRequest (query : String) (rs : List SearchResult) : Request where
  label := "search_summary"
  messages := [
    .system ("Summarize code search results for a developer in two or three sentences. " ++
      "Mention the most relevant files."),
    .user (
      "Query: \"" ++ sanitize query ++ "\"\nResults:\n" ++
      sanitize (String.join ((rs.take shownResults).map resultLine)))]

/-- The sentence that needs no generator. -/
def plainSummary (query : String) (rs : List SearchResult) : String :=
  "Found " ++ toString rs.length ++ " results for \"" ++ query ++ "\""

/-- A few sentences about results. -/
def summarizeResults (generator : Generator σ) (query : String) (rs : List SearchResult) (state : σ) : String × σ :=
  if rs.isEmpty then (plainSummary query rs, state)
  else
    match generator (summaryRequest query rs) state with
    | (.ok text, state) => (if Text.isAllBlank text then plainSummary query rs else Text.trim text, state)
    | (.error _, state) => (plainSummary query rs, state)

end CodeAtlas.Search
