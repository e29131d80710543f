import CodeAtlas.Ident
import CodeAtlas.Profile.Codec
import CodeAtlas.Text.Blank

/-!
# What is asked of a search

A query is a short text with optional filters. The kind of answer it wants is its intent; what to look for in
code is a set of patterns.

* `checkQuery`: the trimmed query, if it is one.
* `Filters`, `QueryContext`, `IntentResult`, `PatternSet`: the parts, and their written form.
-/

namespace CodeAtlas.Search

open Json

structure Filters where
  languages : List String := []
  frameworks : List String := []
  complexity : Option Complexity := none
deriving Repr, DecidableEq, Inhabited

structure QueryContext where
  query : String := ""
  /-- The repositories to search; nothing stands for all. -/
  repositories : Option (List Ident) := none
  filters : Filters := {}
deriving Repr, DecidableEq, Inhabited

inductive Intent where
  | codeSearch
  | casualConversation
  | helpRequest
deriving Repr, DecidableEq, Inhabited

structure IntentResult where
  intent : Intent
  /-- From 0 to 100. -/
  confidence : Nat
  reasoning : String
  suggestedResponse : Option String
deriving Repr, DecidableEq, Inhabited

/-- What to look for in code. -/
structure PatternSet where
  terms : List String := []
  filePatterns : List String := []
  codePatterns : List String := []
  frameworkHints : List String := []
deriving Repr, DecidableEq, Inhabited

/-! ## Valid queries -/

/-- The greatest number of characters of a query. -/
def maxQueryChars : Nat := 1000

/-- Why a text is no query. -/
inductive QueryFault where
  | empty
  | tooLong
deriving Repr, DecidableEq

def QueryFault.message : QueryFault → String
  | .empty => "query must not be empty"
  | .tooLong => "query longer than " ++ toString maxQueryChars ++ " characters"

/-- The trimmed query. -/
def checkQuery (text : String) : Except QueryFault String :=
  let query := Text.trim text
  if query = "" then .error .empty
  else if maxQueryChars < query.length then .error .tooLong
  else .ok query

/-! ## Written form -/

def Filters.decode : Decoder Filters :=
  (Form.start Filters.mk |>.dflt "languages" Decode.strings [] |>.dflt "frameworks" Decode.strings []
    |>.opt "complexity" Complexity.decode).decode "SearchFilters"

def Filters.encode (f : Filters) : Json :=
  .obj [("languages", .strings f.languages), ("frameworks", .strings f.frameworks),
    ("complexity", .ofOption (fun c => .str c.label) f.complexity)]

def QueryContext.decode : Decoder QueryContext :=
  (Form.start QueryContext.mk |>.req "query" Decode.str |>.opt "repository_ids" (Decode.list Ident.decode)
    |>.dflt "filters" Filters.decode {}).decode "QueryContext"

def Intent.label : Intent → String
  | .codeSearch => "code_search"
  | .casualConversation => "casual_conversation"
  | .helpRequest => "help_request"

def Intent.all : List Intent := [.codeSearch, .casualConversation, .helpRequest]

def Intent.decode : Decoder Intent := Decode.label (Intent.all.map fun i => (i.label, i))

def IntentResult.encode (r : IntentResult) : Json :=
  .obj [("intent", .str r.intent.label), ("confidence", .nat r.confidence), ("reasoning", .str r.reasoning),
    ("suggested_response", .ofOption .str r.suggestedResponse)]

def IntentResult.decode : Decoder IntentResult :=
  (Form.start IntentResult.mk |>.req "intent" Intent.decode |>.req "confidence" (Decode.natOfBits 8 "u8")
    |>.req "reasoning" Decode.str |>.opt "suggested_response" Decode.str).decode "IntentResult"

def PatternSet.encode (p : PatternSet) : Json :=
  .obj [("search_terms", .strings p.terms), ("file_patterns", .strings p.filePatterns),
    ("code_patterns", .strings p.codePatterns), ("framework_hints", .strings p.frameworkHints)]

def PatternSet.decode : Decoder PatternSet :=
  (Form.start PatternSet.mk |>.req "search_terms" Decode.strings |>.dflt "file_patterns" Decode.strings []
    |>.dflt "code_patterns" Decode.strings []
    |>.dflt "framework_hints" Decode.strings []).decode "SearchPatternSet"

end CodeAtlas.Search
