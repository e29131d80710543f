import CodeAtlas.Json.Decode

/-!
# Requests over the network

A request has a method, an address, headers and possibly a JSON body; the reply has a status and a text.

* `Transport`: whatever carries requests.
* `Reply.decode`: the body of a reply as a typed value.
-/

namespace CodeAtlas.Http

structure Request where
  method : String
  url : String
  headers : List (String × String) := []
  body : Option Json := none
deriving Inhabited

structure Reply where
  status : Nat
  body : String
deriving Repr, DecidableEq, Inhabited

def Reply.isSuccess (r : Reply) : Bool := 200 ≤ r.status && r.status < 300

/-- Carries requests from states in `σ`; a request may not get through. -/
abbrev Transport (σ : Type) := Request → σ → Except String Reply × σ

/-- What is said of a request that does not get through. -/
def unsent (url : String) : String := "error sending request for url (" ++ url ++ ")"

/-- What is said of a body that cannot be read. -/
def undecodable : String := "error decoding response body"

/-- The body as a value of a type. -/
def Reply.decode {α : Type} (decode : Json.Decoder α) (r : Reply) : Except String α :=
  (Json.decodeText decode r.body).mapError fun _ => undecodable

end CodeAtlas.Http
