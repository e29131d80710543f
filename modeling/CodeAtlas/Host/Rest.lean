import CodeAtlas.Host.Address
import CodeAtlas.Host.Basic
import CodeAtlas.Http
import CodeAtlas.Settings
import CodeAtlas.Sorted

/-!
# The host's network interface

The four questions about a repository as requests, and what the replies to them mean.

* `Rest.endpoint`, `Rest.contentsAddress`: the addresses.
* `Rest.host`: a host behind a transport.
-/

namespace CodeAtlas.Rest

variable {σ α : Type}

/-- The address of something about a repository. -/
def endpoint (settings : HostSettings) (fullName : String) (tail : List String) : Except HostError Address :=
  match Address.ofText settings.apiUrl with
  | .error f => .error (.request settings.apiUrl f.message)
  | .ok a =>
    match a.extend? ("repos" :: Text.split fullName "/" ++ tail) with
    | none => .error (.request settings.apiUrl "API URL cannot take a path")
    | some a => .ok a

/-- The address of a file. -/
def contentsAddress (settings : HostSettings) (fullName path : String) : Except HostError Address :=
  endpoint settings fullName ("contents" :: (Text.split path "/").filter (· ≠ ""))

def request (settings : HostSettings) (url accept : String) : Http.Request where
  method := "GET"
  url := url
  headers :=
    [("accept", accept), ("user-agent", "repo-insight"), ("x-github-api-version", "2022-11-28")] ++
      (settings.token.map fun t => ("authorization", "Bearer " ++ t)).toList

/-- Asks for a text; where there is nothing, the answer is nothing. -/
def getText (transport : Http.Transport σ) (settings : HostSettings) (a : Address) (state : σ) :
    Except HostError (Option String) × σ :=
  match transport (request settings a.text "application/vnd.github.raw+json") state with
  | (.error m, state) => (.error (.request a.text m), state)
  | (.ok r, state) =>
    if r.status = 404 then (.ok none, state)
    else if !r.isSuccess then (.error (.status a.text r.status), state)
    else (.ok (some r.body), state)

/-- Asks for a value of a type. -/
def getJson (transport : Http.Transport σ) (settings : HostSettings) (decode : Json.Decoder α) (a : Address)
    (state : σ) : Except HostError α × σ :=
  match transport (request settings a.text "application/vnd.github+json") state with
  | (.error m, state) => (.error (.request a.text m), state)
  | (.ok r, state) =>
    if !r.isSuccess then (.error (.status a.text r.status), state)
    else ((r.decode decode).mapError (.decode a.text), state)

/-- A tree as the host sends it. -/
def decodeTree : Json.Decoder (List Entry) :=
  (Json.Form.start (fun (tree : List Entry) (_ : Bool) => tree) |>.req "tree" (Decode.list Entry.decode)
    |>.dflt "truncated" Decode.bool false).decode "GitTreeResponse"

/-- Counts under names, in order of the names. -/
def decodeCounts : Json.Decoder (List (String × Nat)) := fun d =>
  (Decode.map (Decode.natOfBits 64 "u64") d).map Sorted.ofPairs

/-- Goes on with an address if there is one. -/
def withAddress (a : Except HostError Address) (f : Address → σ → Except HostError α × σ) (state : σ) :
    Except HostError α × σ :=
  match a with
  | .error e => (.error e, state)
  | .ok a => f a state

/-- Contents one path after the other; a path that fails has none. -/
def contents (transport : Http.Transport σ) (settings : HostSettings) (fullName : String) :
    List String → σ → List (String × Option String) × σ
  | [], state => ([], state)
  | p :: ps, state =>
    let (content, state) :=
      withAddress (contentsAddress settings fullName p) (getText transport settings) state
    let (rest, state) := contents transport settings fullName ps state
    ((p, match content with
      | .ok c => c
      | .error _ => none) :: rest, state)

/-- The host behind a transport. -/
def host (transport : Http.Transport σ) (settings : HostSettings) (pause : Nat → σ → σ) : Host σ where
  tree fullName := withAddress
    ((endpoint settings fullName ["git", "trees", "HEAD"]).map (·.appendPair "recursive" "1"))
    (getJson transport settings decodeTree)
  contents fullName paths state :=
    let (l, state) := contents transport settings fullName paths state
    (.ok l, state)
  readme fullName := withAddress (endpoint settings fullName ["readme"]) (getText transport settings)
  languages fullName :=
    withAddress (endpoint settings fullName ["languages"]) (getJson transport settings decodeCounts)
  pause := pause

end CodeAtlas.Rest
