import CodeAtlas.Search.Query
import CodeAtlas.Summary.Basic
import CodeAtlas.Text.Lines

/-!
# The intent of a query

* `classify`: the intent as a generator sees it; without its help every query is a search for code.
* `cannedReply`: what is said to a query that is not about code.
-/

namespace CodeAtlas.Search

open Json

namespace Intent

def schema : Json :=
  Schema.object
    [("intent", .obj [("type", .str "string"),
       ("enum", .strings (Intent.all.map Intent.label))]),
     ("confidence", Schema.percentage), ("reasoning", Schema.text),
     ("suggested_response", .obj [("type", .strings ["string", "null"])])]
    ["intent", "confidence", "reasoning"]

def instruction : Message :=
  .system ("You classify messages sent to a code search engine.\n" ++
    "- code_search: the user wants to find code, implementations, APIs, patterns or files in their repositories.\n" ++
    "- casual_conversation: greetings, thanks, small talk.\n" ++
    "- help_request: questions about how to use this search tool itself.\n" ++
    "When a message is ambiguous, choose code_search. For casual_conversation and help_request, include a short " ++
    "friendly suggested_response.\n" ++
    "Respond with ONLY a JSON object matching the schema.")

def request (query : String) : Request where
  label := "intent"
  schema := some schema
  messages := [instruction, .user ("Message: \"" ++ sanitize (Text.truncate maxQueryChars query) ++ "\"")]

/-- An answer before it is tidied. -/
structure Raw where
  intent : Intent
  confidence : Float
  reasoning : String
  suggestedResponse : Option String

def Raw.decode : Decoder Raw :=
  (Form.start Raw.mk |>.req "intent" Intent.decode |>.req "confidence" Decode.float
    |>.dflt "reasoning" Decode.str ""
    |>.dflt "suggested_response" (Decode.option Decode.str) none).decode "RawIntent"

/-- A number of percent as a whole number. -/
def wholePercent (x : Float) : Nat :=
  (Float.round (if x < 0.0 then 0.0 else if 100.0 < x then 100.0 else x)).toUInt8.toNat

def Raw.tidy (r : Raw) : IntentResult :=
  { intent := r.intent, confidence := wholePercent r.confidence, reasoning := r.reasoning
    suggestedResponse := (r.suggestedResponse.map Text.trim).filter (· ≠ "") }

/-- A search for code, because there is no classification. -/
def assumed (e : Failure) : IntentResult :=
  { intent := .codeSearch, confidence := 0
    reasoning := "classification unavailable (" ++ e.message ++ "); defaulting to code search"
    suggestedResponse := none }

/-- The intent of a query. -/
def classify {σ : Type} (generator : Generator σ) (query : String) (state : σ) : IntentResult × σ :=
  match generateStructured generator Raw.decode (request query) state with
  | (.ok raw, state) => (raw.tidy, state)
  | (.error e, state) => (assumed e, state)

/-- What is said if the generator suggests nothing. -/
def cannedReply : Intent → String
  | .casualConversation =>
    "Hi! Ask me about code in your analyzed repositories, for example \"where is authentication handled?\""
  | .helpRequest =>
    "Describe the code you are looking for in plain words, such as \"OAuth login\" or \"database connection " ++
    "pooling\". You can narrow a search by repository, language, framework or complexity."
  | .codeSearch => ""

end Intent

end CodeAtlas.Search
