import CodeAtlas.Text.Blank
import CodeAtlas.Text.Find

/-!
# Addresses

An address has a scheme, mostly an authority, a path of segments, and possibly a query and a fragment. Characters
that would end a part are written as their bytes in hexadecimal. Segments pushed onto a path are encoded whole, so
that they stay single segments.

* `Address.ofText`: the address that a text is, with its parts in their regular form.
* `Address.text`: the written form.
* `Address.push`, `Address.popIfEmpty`: changes of the path.
-/

namespace CodeAtlas

/-- Where a path leads: segments, or a text without structure. -/
inductive AddressPath where
  | segments (l : List String)
  | opaqueText (s : String)
deriving Repr, DecidableEq

structure Address where
  scheme : String
  /-- User, host and port as written; nothing if the address has no host. -/
  authority : Option String
  path : AddressPath
  query : Option String := none
  fragment : Option String := none
deriving Repr, DecidableEq

namespace Address

/-- Why a text is no address. -/
inductive Fault where
  | noBase
  | emptyHost
  | invalidPort
  | invalidHost
deriving Repr, DecidableEq

def Fault.message : Fault → String
  | .noBase => "relative URL without a base"
  | .emptyHost => "empty host"
  | .invalidPort => "invalid port number"
  | .invalidHost => "invalid international domain name"

/-! ## Encoding -/

/-- A byte as it is written when it may not stand for itself. -/
def encodeByte (b : UInt8) : List Char :=
  let digit (n : Nat) : Char := (Nat.digitChar n).toUpper
  ['%', digit (b.toNat / 16), digit (b.toNat % 16)]

/-- A character in a part of which some characters are encoded. -/
def encodeChar (isEncoded : Char → Bool) (c : Char) : List Char :=
  if c.toNat < 0x20 || 0x7E < c.toNat || isEncoded c then (String.utf8EncodeChar c).flatMap encodeByte else [c]

def encodeText (isEncoded : Char → Bool) (s : List Char) : String := String.ofList (s.flatMap (encodeChar isEncoded))

def inFragment (c : Char) : Bool := [' ', '"', '<', '>', '\x60'].contains c

def inPath (c : Char) : Bool := inFragment c || ['#', '?', '{', '}'].contains c

def inQuery (isSpecial : Bool) (c : Char) : Bool :=
  [' ', '"', '#', '<', '>'].contains c || (isSpecial && c = '\'')

def inUser (c : Char) : Bool := inPath c || ['/', ':', ';', '=', '@', '[', '\\', ']', '^', '|'].contains c

/-- In a pushed segment, what ends a segment is encoded as well. -/
def inSegment (isSpecial : Bool) (c : Char) : Bool :=
  inPath c || c = '/' || c = '%' || (isSpecial && c = '\\')

/-! ## Schemes -/

/-- The schemes whose addresses have a host, with the ports that need not be written. -/
def specialPorts : List (String × Option Nat) :=
  [("http", some 80), ("https", some 443), ("ws", some 80), ("wss", some 443), ("ftp", some 21), ("file", none)]

def isSpecialScheme (scheme : String) : Bool := specialPorts.any (·.1 == scheme)

/-! ## Reading -/

def isControlOrSpace (c : Char) : Bool := c.toNat ≤ 0x20

def isTabOrLineEnd (c : Char) : Bool := c = '\t' || c = '\n' || c = '\r'

/-- The scheme at the front, in lower case, and what follows its colon. -/
def splitScheme? (s : List Char) : Option (String × List Char) :=
  match s with
  | c :: _ =>
    if c.isAlpha then
      let word := s.takeWhile fun c => c.isAlphanum || c = '+' || c = '-' || c = '.'
      match s.drop word.length with
      | ':' :: rest => some (String.ofList (word.map Char.toLower), rest)
      | _ => none
    else none
  | [] => none

def isDoubleDot (s : String) : Bool :=
  ["..", "%2e%2e", ".%2e", "%2e."].contains (String.ofList (s.toList.map Char.toLower))

def isSingleDot (s : String) : Bool := [".", "%2e"].contains (String.ofList (s.toList.map Char.toLower))

/-- Adds a segment to a path that is held last first; `more` says whether another segment follows. -/
def addSegment (path : List String) (segment : String) (more : Bool) : List String :=
  if isDoubleDot segment then (if more then path.drop 1 else "" :: path.drop 1)
  else if isSingleDot segment then (if more then path else "" :: path)
  else segment :: path

/-- Reads segments between slashes. -/
def readSegments (path : List String) : List (List Char) → List String
  | [] => path.reverse
  | [s] => (addSegment path (encodeText inPath s) false).reverse
  | s :: rest => readSegments (addSegment path (encodeText inPath s) true) rest

/-- Splits at each slash, and at each backslash where it counts as one. -/
def splitPath (isSpecial : Bool) (s : List Char) : List (List Char) :=
  s.foldr (fun c pieces =>
    if c = '/' || (isSpecial && c = '\\') then [] :: pieces
    else
      match pieces with
      | p :: ps => (c :: p) :: ps
      | [] => [[c]]) [[]]

/-- The segments of a path that begins with a slash or is empty. -/
def readPath (isSpecial : Bool) (s : List Char) : List String :=
  match splitPath isSpecial s with
  | [] => []
  | [[]] => if isSpecial then [""] else []
  | [] :: rest => readSegments [] rest
  | pieces => readSegments [] pieces

/-- The text before the first character of a class, and the text from there on. -/
def cutBefore (p : Char → Bool) (s : List Char) : List Char × List Char :=
  (s.takeWhile (!p ·), s.dropWhile (!p ·))

/-- The part after a mark, if the mark stands here. -/
def afterMark (mark : Char) (s : List Char) : Option (List Char) :=
  match s with
  | c :: r => if c = mark then some r else none
  | [] => none

/-- Query and fragment. -/
def readTail (isSpecial : Bool) (s : List Char) : Option String × Option String :=
  let (beforeFragment, fromFragment) := cutBefore (· = '#') s
  ((afterMark '?' beforeFragment).map (encodeText (inQuery isSpecial)),
   (afterMark '#' fromFragment).map (encodeText inFragment))

/-- Characters that stand in no host. -/
def isForbiddenInHost (c : Char) : Bool :=
  c.toNat ≤ 0x20 || 0x7E < c.toNat ||
    ['#', '/', ':', '<', '>', '?', '@', '[', '\\', ']', '^', '|', '%', '\x60', '{', '}'].contains c

/-- A host in lower case. -/
def readHost (isSpecial : Bool) (s : List Char) : Except Fault String :=
  if s.isEmpty then (if isSpecial then .error .emptyHost else .ok "")
  else if s.head? = some '[' && s.getLast? = some ']' then .ok (String.ofList (s.map Char.toLower))
  else if s.any isForbiddenInHost then .error .invalidHost
  else .ok (String.ofList (if isSpecial then s.map Char.toLower else s))

/-- A port, unless it is the one that need not be written. -/
def readPort (scheme : String) (s : List Char) : Except Fault String :=
  if s.isEmpty then .ok ""
  else if !s.all Char.isDigit then .error .invalidPort
  else
    let n := s.foldl (fun n c => n * 10 + (c.toNat - '0'.toNat)) 0
    if 65535 < n then .error .invalidPort
    else if (specialPorts.find? (·.1 == scheme)).any (·.2 = some n) then .ok ""
    else .ok (":" ++ toString n)

/-- User, host and port. -/
def readAuthority (scheme : String) (isSpecial : Bool) (s : List Char) : Except Fault String := do
  let (user, place) := match Text.cutLast? ['@'] s with
    | some (u, p) => (encodeText (fun c => inUser c && c ≠ ':') u ++ "@", p)
    | none => ("", s)
  -- the colons within brackets are part of the host
  let (host, port) := match place.head?, Text.cutLast? [':'] place with
    | some '[', some (h, p) => if h.getLast? = some ']' then (h, p) else (place, [])
    | _, some (h, p) => (h, p)
    | _, none => (place, [])
  return user ++ (← readHost isSpecial host) ++ (← readPort scheme port)

/-- Reads an address. -/
def ofText (text : String) : Except Fault Address :=
  let s := (Text.trimChars isControlOrSpace text.toList).filter (!isTabOrLineEnd ·)
  match splitScheme? s with
  | none => .error .noBase
  | some (scheme, rest) =>
    let isSpecial := isSpecialScheme scheme
    let isSlash (c : Char) : Bool := c = '/' || (isSpecial && c = '\\')
    let endsPath (c : Char) : Bool := c = '?' || c = '#'
    let withPath (authority : Option String) (rest : List Char) : Address :=
      let (path, tail) := cutBefore endsPath rest
      let (query, fragment) := readTail isSpecial tail
      ⟨scheme, authority, .segments (readPath isSpecial path), query, fragment⟩
    if isSpecial && scheme ≠ "file" then do
      let (authority, rest) := cutBefore (fun c => isSlash c || endsPath c) (rest.dropWhile isSlash)
      return withPath (some (← readAuthority scheme true authority)) rest
    else
      match rest with
      | '/' :: '/' :: rest => do
        let (authority, rest) := cutBefore (fun c => isSlash c || endsPath c) rest
        return withPath (some (← readAuthority scheme false authority)) rest
      | '/' :: _ => .ok (withPath (if isSpecial then some "" else none) rest)
      | _ =>
        if isSpecial then .ok (withPath (some "") rest)
        else
          let (path, tail) := cutBefore endsPath rest
          let (query, fragment) := readTail false tail
          .ok ⟨scheme, none, .opaqueText (encodeText (fun _ => false) path), query, fragment⟩

/-! ## Writing -/

def text (a : Address) : String :=
  a.scheme ++ ":" ++ ((a.authority.map ("//" ++ ·)).getD "") ++
    (match a.path with
      | .segments l => String.join (l.map ("/" ++ ·))
      | .opaqueText s => s) ++
    ((a.query.map ("?" ++ ·)).getD "") ++ ((a.fragment.map ("#" ++ ·)).getD "")

/-! ## Changing -/

/-- Removes an empty last segment, unless it is the only one. -/
def popIfEmpty (l : List String) : List String :=
  if 1 < l.length && l.getLast? = some "" then l.dropLast else l

/-- Adds a segment at the end. A segment that stands for a directory itself is left out. Tabs and line ends are not
written, and what stands for a directory without them is read as such. -/
def push (isSpecial : Bool) (l : List String) (segment : String) : List String :=
  if segment = "." || segment = ".." then l
  else
    let encoded := encodeText (inSegment isSpecial) (segment.toList.filter (!isTabOrLineEnd ·))
    -- the first segment takes the place of the empty one of a bare slash
    (addSegment (if l = [""] then [] else l.reverse) encoded false).reverse

/-- Adds segments at the end; an address without segments takes none. -/
def extend? (a : Address) (segments : List String) : Option Address :=
  match a.path with
  | .opaqueText _ => none
  | .segments l =>
    some { a with path := .segments (segments.foldl (push (isSpecialScheme a.scheme)) (popIfEmpty l)) }

/-- Adds a pair to the query. The pair is written as it is. -/
def appendPair (a : Address) (name value : String) : Address :=
  let pair := name ++ "=" ++ value
  { a with query := some (match a.query with
      | none => pair
      | some q => if q = "" then pair else q ++ "&" ++ pair) }

end Address

end CodeAtlas
