import CodeAtlas.Generation.Retry
import CodeAtlas.Host.Address
import CodeAtlas.Http
import CodeAtlas.Settings

/-!
# Providers of generators

Two kinds of provider understand requests, each in its own form. Which one is asked is a setting.

* `Provider.ofName?`: the provider of a name.
* `Provider.generator`: a generator behind a transport.
* `policyOf`: how often the settings allow to try again.
-/

namespace CodeAtlas

open Json

inductive Provider where
  | ollama
  | openAI
deriving Repr, DecidableEq

namespace Provider

def ofName? : String → Option Provider
  | "ollama" => some .ollama
  | "openai" => some .openAI
  | _ => none

/-- What is said of a name that no provider has. -/
def unknown (name : String) : String := "Unknown LLM provider: " ++ name

def title : Provider → String
  | .ollama => "Ollama"
  | .openAI => "OpenAI"

/-- The path of the provider's interface. -/
def path : Provider → String
  | .ollama => "/api/chat"
  | .openAI => "/v1/chat/completions"

/-- The body of a request. -/
def body (p : Provider) (settings : GeneratorSettings) (r : Request) : Json :=
  let model := ("model", Json.str settings.chatModel)
  let messages := ("messages", Json.arr (r.messages.map Message.encode))
  let temperature := ("temperature", Json.float r.temperature)
  match p with
  | .ollama =>
    .obj ([model, messages, ("stream", .bool false)] ++ (r.schema.map fun s => ("format", s)).toList ++
      [("options", .obj [temperature])])
  | .openAI =>
    .obj ([model, messages, temperature] ++ (r.schema.map fun s =>
      ("response_format", .obj [("type", .str "json_schema"),
        ("json_schema", .obj [("name", .str r.label), ("schema", s)])])).toList)

def headers (p : Provider) (settings : GeneratorSettings) : List (String × String) :=
  let json := ("content-type", "application/json")
  match p with
  | .ollama => [json]
  | .openAI => [("authorization", "Bearer " ++ settings.apiKey.getD ""), json]

/-- The text in a reply. -/
def replyText (p : Provider) : Decoder String :=
  match p with
  | .ollama =>
    (Form.start (fun (m : Message) => m.content) |>.req "message" Message.decode).decode "OllamaChatResponse"
  | .openAI =>
    let message : Decoder (Option String) :=
      (Form.start (fun (c : Option String) => c) |>.opt "content" Decode.str).decode "OpenAiResponseMessage"
    let choice : Decoder (Option String) :=
      (Form.start (fun (m : Option String) => m) |>.req "message" message).decode "OpenAiChoice"
    (Form.start (fun (cs : List (Option String)) => (cs.head?.bind id).getD "")
      |>.req "choices" (Decode.list choice)).decode "OpenAiChatResponse"

/-- Sends a request to where the settings say. -/
def send {σ : Type} (transport : Http.Transport σ) (p : Provider) (settings : GeneratorSettings) (r : Request)
    (state : σ) : Except String Http.Reply × σ :=
  match Address.ofText (settings.baseUrl ++ p.path) with
  | .error _ => (.error "builder error", state)
  | .ok a =>
    transport { method := "POST", url := a.text, headers := p.headers settings, body := some (p.body settings r) }
      state

/-- The generator of a provider. -/
def generator {σ : Type} (transport : Http.Transport σ) (p : Provider) (settings : GeneratorSettings) :
    Generator σ := fun r state =>
  match send transport p settings r state with
  | (.error m, state) => (.error (.transport ("Failed to call " ++ p.title ++ ": " ++ m)), state)
  | (.ok reply, state) =>
    if !reply.isSuccess then (.error (.provider reply.status reply.body), state)
    else
      ((reply.decode p.replyText).mapError fun m =>
        .invalidResponse ("Failed to parse " ++ p.title ++ " response: " ++ m), state)

end Provider

/-- At least one attempt; delays begin where the settings say. -/
def policyOf (settings : GeneratorSettings) : Retry.Policy :=
  { maxAttempts := max 1 settings.maxAttempts, initialDelay := settings.initialBackoff * 1000000 }

end CodeAtlas
