import CodeAtlas.Json.Decode

/-!
# Generators of text

A request is a short conversation; what comes back is one text or a failure. A request that carries a schema asks
for JSON of that shape. A generator has a state of its own: whatever decides its answers.

* `Generator`: requests answered one after the other.
* `Failure.message`, `Failure.isRetryable`: the failures.
-/

namespace CodeAtlas

/-- One turn of a conversation. -/
structure Message where
  role : String
  content : String
deriving Repr, DecidableEq, Inhabited

namespace Message

def system (content : String) : Message := ⟨"system", content⟩

def user (content : String) : Message := ⟨"user", content⟩

def encode (m : Message) : Json := .obj [("role", .str m.role), ("content", .str m.content)]

def decode : Json.Decoder Message :=
  (Json.Form.start Message.mk |>.req "role" Decode.str |>.req "content" Decode.str).decode "ChatMessage"

end Message

structure Request where
  /-- The step that asks. -/
  label : String
  messages : List Message
  /-- The shape of the JSON to answer with; nothing asks for free text. -/
  schema : Option Json := none
deriving Inhabited

namespace Request

/-- Free text is allowed a little variation, JSON none. -/
def temperature (r : Request) : Float := if r.schema.isSome then 0.0 else 0.3

def temperatureText (r : Request) : String := if r.schema.isSome then "0" else "0.3"

end Request

/-- Why a generator has no answer. -/
inductive Failure where
  | transport (message : String)
  | provider (status : Nat) (body : String)
  | invalidResponse (message : String)
  | exhausted (attempts : Nat) (last : String)
deriving Repr, DecidableEq

namespace Failure

def message : Failure → String
  | .transport m => "transport error: " ++ m
  | .provider status body => "provider returned " ++ toString status ++ ": " ++ body
  | .invalidResponse m => "invalid response: " ++ m
  | .exhausted n last => "gave up after " ++ toString n ++ " attempts: " ++ last

/-- Whether another attempt may help: the request did not get through, or the provider was busy or broken. -/
def isRetryable : Failure → Bool
  | .transport _ => true
  | .provider status _ => status = 429 || 500 ≤ status
  | .invalidResponse _ => false
  | .exhausted .. => false

end Failure

/-- Answers requests from states in `σ`. -/
abbrev Generator (σ : Type) := Request → σ → Except Failure String × σ

end CodeAtlas
