import CodeAtlas.Search.Query
import CodeAtlas.Summary.Basic
import CodeAtlas.Text.Lines

/-!
# Patterns for a query

* `PatternSet.generate`: what a generator would look for; without it there is nothing to match.
-/

namespace CodeAtlas.Search

/-- The languages and frameworks of the repositories that are searched. -/
structure Hints where
  languages : List String := []
  frameworks : List String := []
deriving Repr, DecidableEq, Inhabited

namespace PatternSet

/-- The number of terms that are kept. -/
def maxTerms : Nat := 10

def schema : Json :=
  let names := ["search_terms", "file_patterns", "code_patterns", "framework_hints"]
  Schema.object (names.map fun n => (n, Schema.list Schema.text)) names

/-- A line that names what is in a list, if anything is. -/
def scopeLine (title : String) (l : List String) : String :=
  if l.isEmpty then "" else title ++ ": " ++ ", ".intercalate l ++ "\n"

def request (query : String) (hints : Hints) (filters : Filters) : Request where
  label := "patterns"
  schema := some schema
  messages := [
    .system ("You turn natural-language code search queries into lexical search patterns. " ++
      "Respond with ONLY a JSON object matching the schema."),
    .user (
      "Search query: \"" ++ sanitize (Text.truncate maxQueryChars query) ++ "\"\n" ++
      scopeLine "Languages in scope" hints.languages ++ scopeLine "Frameworks in scope" hints.frameworks ++
      scopeLine "Only languages" filters.languages ++ scopeLine "Only frameworks" filters.frameworks ++
      "\nProduce search patterns for finding this in source code:\n" ++
      "- search_terms: identifiers, keywords and package names likely to appear in matching code\n" ++
      "- file_patterns: path fragments or globs of files likely to contain it\n" ++
      "- code_patterns: short code fragments (calls, decorators, type names)\n" ++
      "- framework_hints: frameworks or libraries involved")]

/-- Clean lists; there has to be a term. -/
def tidy (p : PatternSet) : Except Failure PatternSet :=
  let terms := cleanList p.terms
  if terms.isEmpty then .error (.invalidResponse "pattern set has no search terms")
  else
    .ok { terms := terms.take maxTerms, filePatterns := cleanList p.filePatterns
          codePatterns := cleanList p.codePatterns, frameworkHints := cleanList p.frameworkHints }

/-- The patterns for a query. -/
def generate {σ : Type} (generator : Generator σ) (query : String) (hints : Hints) (filters : Filters) (state : σ) :
    Except Failure PatternSet × σ :=
  match generateStructured generator PatternSet.decode (request query hints filters) state with
  | (.ok p, state) => (p.tidy, state)
  | (.error e, state) => (.error e, state)

end PatternSet

end CodeAtlas.Search
