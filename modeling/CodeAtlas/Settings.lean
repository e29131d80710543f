import CodeAtlas.Json.Decode
import CodeAtlas.Text.Find

/-!
# Settings

What can be chosen from outside, with the values that hold if nothing is chosen.

* `Settings.ofEnvironment`: the settings chosen by variables; a value that is not of the right form is passed over.
* The settings as JSON, and back.
-/

namespace CodeAtlas

/-- The generator that is asked. -/
structure GeneratorSettings where
  /-- `ollama` or `openai`. -/
  provider : String := "ollama"
  baseUrl : String := "http://localhost:11434"
  chatModel : String := "llama3.2"
  apiKey : Option String := none
  /-- Attempts for each request, the first included. -/
  maxAttempts : Nat := 3
  /-- The delay before the second attempt, in milliseconds. -/
  initialBackoff : Nat := 500
deriving Repr, DecidableEq, Inhabited

/-- The host of the repositories. -/
structure HostSettings where
  apiUrl : String := "https://api.github.com"
  token : Option String := none
deriving Repr, DecidableEq, Inhabited

/-- How much is fetched for an analysis. -/
structure AnalysisSettings where
  maxFiles : Nat := 80
  /-- The number of plain source files among them. -/
  mediumCap : Nat := 30
  batchSize : Nat := 10
  /-- The pause between batches, in milliseconds. -/
  batchDelay : Nat := 250
deriving Repr, DecidableEq, Inhabited

structure SearchSettings where
  batchSize : Nat := 5
  maxResults : Nat := 50
  /-- Whether a generator scores the files as well. -/
  rescoring : Bool := true
deriving Repr, DecidableEq, Inhabited

structure Settings where
  /-- The directory of the store. -/
  dataDirectory : String := "./data"
  bindAddress : String := "127.0.0.1:9000"
  generator : GeneratorSettings := {}
  host : HostSettings := {}
  analysis : AnalysisSettings := {}
  search : SearchSettings := {}
deriving Repr, DecidableEq, Inhabited

namespace Settings

/-! ## Variables -/

/-- A whole number below a bound, with or without a plus sign. -/
def readNat? (bound : Nat) (s : String) : Option Nat :=
  let digits := match s.toList with
    | '+' :: r => r
    | r => r
  if digits.isEmpty || !digits.all Char.isDigit then none
  else
    let n := digits.foldl (fun n c => n * 10 + (c.toNat - '0'.toNat)) 0
    if n < bound then some n else none

def readBool? (s : String) : Option Bool :=
  if s = "true" then some true else if s = "false" then some false else none

/-- What is chosen by the variables of an environment. -/
def ofEnvironment (lookup : String → Option String) : Settings :=
  let text (name default : String) : String := (lookup name).getD default
  let nat (bound : Nat) (name : String) (default : Nat) : Nat :=
    ((lookup name).bind (readNat? bound)).getD default
  let word := Nat.pow 2 64
  { dataDirectory := text "REPO_INSIGHT_DATA_DIR" "./data"
    bindAddress := text "REPO_INSIGHT_BIND_ADDR" "127.0.0.1:9000"
    generator := {
      provider := text "LLM_PROVIDER" "ollama"
      baseUrl := text "LLM_BASE_URL" "http://localhost:11434"
      chatModel := text "LLM_CHAT_MODEL" "llama3.2"
      apiKey := lookup "LLM_API_KEY"
      maxAttempts := max 1 (nat (Nat.pow 2 32) "LLM_MAX_ATTEMPTS" 3)
      initialBackoff := nat word "LLM_INITIAL_BACKOFF_MS" 500 }
    host := {
      apiUrl := ((lookup "GITHUB_API_URL").map (Text.dropBackAll · "/")).getD "https://api.github.com"
      token := lookup "GITHUB_TOKEN" }
    analysis := {
      maxFiles := nat word "REPO_INSIGHT_MAX_FILES" 80
      batchSize := max 1 (nat word "REPO_INSIGHT_FETCH_BATCH" 10)
      batchDelay := nat word "REPO_INSIGHT_FETCH_DELAY_MS" 250 }
    search := {
      maxResults := nat word "REPO_INSIGHT_MAX_RESULTS" 50
      rescoring := ((lookup "REPO_INSIGHT_MODEL_RESCORE").bind readBool?).getD true } }

/-- The path of a file in a directory. -/
def joinPath (directory name : String) : String :=
  if directory = "" then name
  else if Text.endsWith directory "/" then directory ++ name else directory ++ "/" ++ name

/-- The file of the store. -/
def storePath (s : Settings) : String := joinPath s.dataDirectory "store.json"

end Settings

/-! ## Written form -/

open Json

namespace GeneratorSettings

def encode (s : GeneratorSettings) : Json :=
  .obj [("provider", .str s.provider), ("base_url", .str s.baseUrl), ("chat_model", .str s.chatModel),
    ("api_key", .ofOption .str s.apiKey), ("max_attempts", .nat s.maxAttempts),
    ("initial_backoff_ms", .nat s.initialBackoff)]

def decode : Decoder GeneratorSettings :=
  (Form.start GeneratorSettings.mk |>.req "provider" Decode.str |>.req "base_url" Decode.str
    |>.req "chat_model" Decode.str |>.opt "api_key" Decode.str
    |>.req "max_attempts" (Decode.natOfBits 32 "u32")
    |>.req "initial_backoff_ms" (Decode.natOfBits 64 "u64")).decode "LlmConfig"

end GeneratorSettings

namespace AnalysisSettings

def encode (s : AnalysisSettings) : Json :=
  .obj [("max_selected_files", .nat s.maxFiles), ("medium_priority_cap", .nat s.mediumCap),
    ("fetch_batch_size", .nat s.batchSize), ("fetch_batch_delay_ms", .nat s.batchDelay)]

def decode : Decoder AnalysisSettings :=
  (Form.start AnalysisSettings.mk |>.req "max_selected_files" Decode.size
    |>.req "medium_priority_cap" Decode.size |>.req "fetch_batch_size" Decode.size
    |>.req "fetch_batch_delay_ms" (Decode.natOfBits 64 "u64")).decode "PipelineConfig"

end AnalysisSettings

namespace SearchSettings

def encode (s : SearchSettings) : Json :=
  .obj [("rank_batch_size", .nat s.batchSize), ("max_results", .nat s.maxResults),
    ("use_model_rescoring", .bool s.rescoring)]

def decode : Decoder SearchSettings :=
  (Form.start SearchSettings.mk |>.req "rank_batch_size" Decode.size |>.req "max_results" Decode.size
    |>.req "use_model_rescoring" Decode.bool).decode "SearchConfig"

end SearchSettings

def Settings.encode (s : Settings) : Json :=
  .obj [("data_dir", .str s.dataDirectory), ("bind_addr", .str s.bindAddress), ("llm", s.generator.encode),
    ("github", .obj [("api_url", .str s.host.apiUrl), ("token", .ofOption .str s.host.token)]),
    ("pipeline", s.analysis.encode), ("search", s.search.encode)]

end CodeAtlas
