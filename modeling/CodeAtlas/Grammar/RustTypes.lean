import CodeAtlas.Grammar.RustWords

/-!
# Types, paths and patterns of Rust

The readers here contain each other and the readers of expressions. Each takes the rules of the next level
of nesting as an argument.
-/

namespace CodeAtlas.Grammar.Rust

open SyntaxTree Reader

/-- The rules that nest. -/
structure Rules where
  /-- An expression of operators that bind at least as tightly as a level; the flag says whether a name
  followed by an opening brace may begin a value of a structure. -/
  expr : Bool → Nat → Reader Node
  /-- An expression that a form ending with a block closes when it begins with one. -/
  leading : Reader Node
  /-- A form that ends with a block. -/
  blockForm : Reader Node
  /-- A type; the flag says whether `+` may follow with further bounds. -/
  type : Bool → Reader Node
  /-- A pattern; the flag says whether `|` may follow with alternatives. -/
  pattern : Bool → Reader Node
  block : Reader Node
  statement : Reader (Option Node)
  tokens : Reader Node
  useClause : Reader Node

variable (r : Rules)

def Rules.value : Reader Node := r.expr true 0

/-! ## Token trees and attributes -/

/-- One token of a macro's argument. -/
def plainToken : Reader (Option Node) := do
  match ← literal? with
  | some n => return some n
  | none =>
    match ← peek with
    | '$' :: c :: _ =>
      if Text.isNameStart c then return some (← metavariable)
      else return some (← sym "$")
    | c :: _ =>
      if c = ')' || c = ']' || c = '}' then return none
      else if Text.isNameStart c then
        let w ← wordHere
        return some (← anyWord (if pathRoots.contains w then w else "identifier"))
      else
        let s ← get
        next
        return some (← leaf (String.singleton c) false s)
    | [] => return none

/-- A bracket with everything inside it. -/
def tokenTree : Reader Node := do
  let (o, c) ← match ← peek with
    | '(' :: _ => pure ("(", ")")
    | '[' :: _ => pure ("[", "]")
    | '{' :: _ => pure ("\x7b", "\x7d")
    | _ => fail
  let first ← sym o
  let inner ← many do
    match ← peek with
    | '(' :: _ | '[' :: _ | '{' :: _ => return some (← r.tokens)
    | _ => plainToken
  finish "token_tree" (first :: inner ++ [← sym c])

/-! ## Paths -/

/-- Arguments of a type, in angle brackets. -/
def typeArguments : Reader Node := do
  let argument : Reader (List Node) := do
    match ← peek with
    | '\'' :: _ =>
      if quoteIsLifetime (← peek) then return [← lifetime "lifetime"]
      else return (← literal?).toList
    | '{' :: _ => return [← r.block]
    | '-' :: _ =>
      let m ← sym "-"
      match ← literal? with
      | some n => return [← finish "negative_literal" [m, n]]
      | none => fail
    | _ =>
      match ← literal? with
      | some n => return [n]
      | none =>
        let t ← r.type true
        match ← peek with
        | '=' :: _ =>
          let e ← sym "="
          return [← finish "type_binding" [t.as "name", e, (← r.type true).as "type"]]
        | ':' :: _ =>
          let c ← sym ":"
          return [t, ← finish "trait_bounds" [c, ← r.type true]]
        | _ => return [t]
  finish "type_arguments" (← bracketed "<" ">" argument)

/-- `<T as Trait>` at the front of a path. -/
def bracketedType : Reader Node := do
  let o ← sym "<"
  let t ← r.type true
  let inner ← do
    if ← atWord "as" then
      let a ← word "as"
      finish "qualified_type" [t.as "type", a, (← r.type true).as "alias"]
    else pure t
  finish "bracketed_type" [o, inner, ← sym ">"]

/-- Whether `::` and then a `<` stand here. -/
def atTurbofish : Reader Bool := ahead do
  if ← atSym "::" then
    discard <| sym "::"
    return ← atSym "<"
  else return false

/-- The first part of a path; `kind` is that of a plain name. -/
def pathHead (kind : String) : Reader Node := do
  match ← peek with
  | '<' :: _ => bracketedType r
  | '$' :: _ => metavariable
  | _ =>
    let w ← wordHere
    if pathRoots.contains w then anyWord w else name kind

/-- One more part of a path. `longer` is the kind of the longer path, `kind` that of a plain name. -/
def pathStep (longer kind : String) (path : Node) : Reader (Option Node) := do
  if !(← atSym "::") then return none
  else if ← atTurbofish then
    let mark ← sym "::"
    let args ← typeArguments r
    let g ← finish "generic_type" [path.as "type", mark, args.as "type_arguments"]
    if ← atSym "::" then
      let m ← sym "::"
      return some (← finish longer [g.as "path", m, (← pathName).as "name"])
    else return some g
  else
    match ← attempt (do
      let m ← sym "::"
      finish longer [path.as "path", m, (← pathName).as "name"]) with
    | some n => return some n
    | none => return none
where
  pathName : Reader Node := do
    let w ← wordHere
    if pathRoots.contains w then anyWord w
    else if (← peek).head? = some '$' then metavariable
    else name kind

/-- A path of names. -/
def path (longer kind : String) : Reader Node := do
  let head ← do
    if ← atSym "::" then
      let m ← sym "::"
      finish longer [m, (← name kind).as "name"]
    else pathHead r kind
  grow (pathStep r longer kind) head

/-- Whether a `!` that calls a macro stands here. -/
def atBang : Reader Bool := do
  match ← peek with
  | '!' :: c :: _ => return c ≠ '='
  | _ => return false

/-- The call of the macro that a path names. -/
def macroCall (path : Node) : Reader Node := do
  let bang ← sym "!"
  finish "macro_invocation" [path.as "macro", bang, ← r.tokens]

/-- `#[…]`, or `#![…]` for the surrounding item. -/
def attributeItem : Reader Node := do
  let h ← sym "#"
  let bang ← optSym "!"
  let o ← sym "["
  let p ← path r "scoped_identifier" "identifier"
  let argument ← do
    if ← atSym "=" then
      let e ← sym "="
      pure [e, (← r.value).as "value"]
    else if ← atSym "]" then pure []
    else pure [(← r.tokens).as "arguments"]
  let a ← finish "attribute" (p :: argument)
  finish (if bang.isEmpty then "attribute_item" else "inner_attribute_item") (h :: bang ++ [o, a, ← sym "]"])

def attributes? : Reader (List Node) := many do
  if ← atSym "#" then return some (← attributeItem r) else return none

/-! ## Types -/

def visibility? : Reader (List Node) := do
  if ← atWord "pub" then
    let p ← word "pub"
    let scope ← attempt do
      let o ← sym "("
      let inner ← do
        if ← atWord "in" then
          let i ← word "in"
          pure [i, ← path r "scoped_identifier" "identifier"]
        else
          let w ← wordHere
          if pathRoots.contains w then pure [← anyWord w] else fail
      pure (o :: inner ++ [← sym ")"])
    return [← finish "visibility_modifier" (p :: scope.getD [])]
  else if ← atWord "crate" then
    let v ← attempt do
      let c ← anyWord "crate"
      if ← atSym "::" then fail else finish "visibility_modifier" [c]
    return v.toList
  else return []

def externModifier : Reader Node := do
  let e ← word "extern"
  let abi ← literal?
  finish "extern_modifier" (e :: abi.toList)

def forLifetimes? : Reader (List Node) := do
  if ← atWord "for" then
    let f ← word "for"
    let l ← finish "type_parameters" (← bracketed "<" ">" (return [← lifetime "lifetime"]))
    return [← finish "for_lifetimes" [f, l]]
  else return []

/-- One parameter of a function; a bare type is one in the type of a function. -/
def parameter : Reader (List Node) := do
  let attributes ← attributes? r
  let selfParameter : Reader Node := do
    let amp ← optSym "&"
    let life ← if amp.isEmpty then pure [] else do
      if quoteIsLifetime (← peek) then pure [← lifetime "lifetime"] else pure []
    let mutable ← if ← atWord "mut" then pure [← wordAs "mut" "mutable_specifier"] else pure []
    let self ← if ← atWord "self" then anyWord "self" else fail
    if ← atSym ":" then fail else finish "self_parameter" (amp ++ life ++ mutable ++ [self])
  let typed : Reader Node := do
    let mutable ← if ← atWord "mut" then pure [← wordAs "mut" "mutable_specifier"] else pure []
    let p ← if ← atWord "self" then anyWord "self" else r.pattern true
    let c ← sym ":"
    if ← atSym "::" then fail
    finish "parameter" (mutable ++ [p.as "pattern", c, (← r.type true).as "type"])
  let variadic : Reader Node := do finish "variadic_parameter" [← sym "..."]
  let p ← orElse selfParameter (orElse typed (orElse variadic (r.type true)))
  return attributes ++ [p]

def parameters : Reader Node := do finish "parameters" (← bracketed "(" ")" (parameter r))

def returnType? : Reader (List Node) := do
  if ← atSym "->" then
    let a ← sym "->"
    return [a, (← r.type true).as "return_type"]
  else return []

/-- Words in front of `fn`. -/
def functionModifiers? : Reader (List Node) := do
  let ms ← many do
    let w ← wordHere
    if ["async", "default", "const", "unsafe", "gen"].contains w then return some (← word w)
    else if w = "extern" then return some (← externModifier)
    else return none
  if ms.isEmpty then return [] else return [← finish "function_modifiers" ms]

def functionType : Reader Node := do
  let lifetimes ← forLifetimes?
  if ← atAnyWord ["fn", "unsafe", "extern", "const", "async"] then
    let ms ← functionModifiers?
    let f ← word "fn"
    let ps ← parameters r
    finish "function_type" (lifetimes ++ ms ++ [f, ps.as "parameters"] ++ (← returnType? r))
  else
    let t ← r.type false
    if lifetimes.isEmpty then return t
    else finish "higher_ranked_trait_bound" (lifetimes ++ [t.as "type"])

/-- The words for numbers, truth values and text; as types they take no arguments. -/
def primitiveTypes : List String :=
  ["u8", "i8", "u16", "i16", "u32", "i32", "u64", "i64", "u128", "i128", "isize", "usize", "f32", "f64", "bool",
    "str", "char"]

/-- A type named by a path, with its arguments. -/
def namedType : Reader Node := do
  let primitive := primitiveTypes.contains (← wordHere)
  let head ← do
    if ← atSym "::" then
      let m ← sym "::"
      finish "scoped_type_identifier" [m, (← name "type_identifier").as "name"]
    else if (← peek).head? = some '<' then bracketedType r
    else if (← peek).head? = some '$' then metavariable
    else
      let w ← wordHere
      if pathRoots.contains w then anyWord w
      else if w = "_" then anyWord "type_identifier" else name "type_identifier"
  let t ← grow (fun t => do
    if ← atSym "::" then
      if ← atTurbofish then
        let m ← sym "::"
        return some (← finish "generic_type" [t.as "type", m, (← typeArguments r).as "type_arguments"])
      else
        let m ← sym "::"
        return some (← finish "scoped_type_identifier" [t.as "path", m, (← anyWord "type_identifier").as "name"])
    else
      match ← peek with
      | '<' :: _ =>
        if primitive then return none
        return some (← finish "generic_type" [t.as "type", (← typeArguments r).as "type_arguments"])
      | '(' :: _ =>
        let ps ← parameters r
        return some (← finish "function_type" ([t.as "trait", ps.as "parameters"] ++ (← returnType? r)))
      | _ => return none) head
  if ← atBang then macroCall r t else return t

/-- A type without further bounds. -/
def plainType : Reader Node := do
  match ← peek with
  | '&' :: _ =>
    let a ← sym "&"
    let life ← if quoteIsLifetime (← peek) then pure [← lifetime "lifetime"] else pure []
    let mutable ← if ← atWord "mut" then pure [← wordAs "mut" "mutable_specifier"] else pure []
    finish "reference_type" (a :: life ++ mutable ++ [(← r.type false).as "type"])
  | '*' :: _ =>
    let a ← sym "*"
    let m ← if ← atWord "mut" then wordAs "mut" "mutable_specifier" else word "const"
    finish "pointer_type" [a, m, (← r.type false).as "type"]
  | '(' :: _ =>
    let parts ← bracketed "(" ")" (return [← r.type true])
    finish (if parts.length = 2 then "unit_type" else "tuple_type") parts
  | '[' :: _ =>
    let o ← sym "["
    let t ← r.type true
    let length ← do
      if ← atSym ";" then
        let s ← sym ";"
        pure [s, (← r.value).as "length"]
      else pure []
    finish "array_type" ([o, t.as "element"] ++ length ++ [← sym "]"])
  | '!' :: _ => finish "never_type" [← sym "!"]
  | '?' :: _ =>
    let q ← sym "?"
    finish "removed_trait_bound" [q, ← r.type false]
  | '\'' :: _ => lifetime "lifetime"
  | _ =>
    let w ← wordHere
    if w = "impl" then
      let i ← word "impl"
      finish "abstract_type" [i, (← r.type true).as "trait"]
    else if w = "dyn" && !(← succeeds (do discard <| word "dyn"; discard <| sym "::")) then
      let d ← word "dyn"
      finish "dynamic_type" [d, (← r.type true).as "trait"]
    else if ["for", "fn", "unsafe", "extern"].contains w then functionType r
    else namedType r

/-- A type, with further bounds after `+` if they are allowed. -/
def typeExpr (bounds : Bool) : Reader Node := do
  let t ← plainType r
  if bounds then
    grow (fun t => do
      match ← peek with
      | '+' :: c :: _ =>
        if c = '=' then return none
        else
          let p ← sym "+"
          if ← atAnyWord ["for"] then return some (← finish "bounded_type" [t, p, ← functionType r])
          else return some (← finish "bounded_type" [t, p, ← r.type false])
      | _ => return none) t
  else return t

/-- Bounds after a colon. -/
def traitBounds? : Reader (List Node) := do
  if ← atSym ":" then
    let c ← sym ":"
    let bound : Reader Node := r.type false
    let first ← if ← atAnyBoundEnd then pure [] else pure [← bound]
    let rest ← many do
      if ← atSym "+" then
        let p ← sym "+"
        if ← atAnyBoundEnd then return some [p] else return some [p, ← bound]
      else return none
    return [← finish "trait_bounds" (c :: first ++ rest.flatten)]
  else return []
where
  atAnyBoundEnd : Reader Bool := do
    match ← peek with
    | c :: _ => return [',', '>', '=', '{', ';', ')'].contains c
    | [] => return true

def typeParameters? : Reader (List Node) := do
  if ← atSym "<" then
    let one : Reader (List Node) := do
      let attrs ← attributes? r
      let p ← do
        if quoteIsLifetime (← peek) then
          let l ← lifetime "lifetime"
          finish "lifetime_parameter" ([l.as "name"] ++ (← traitBounds? r))
        else if ← atWord "const" then
          let c ← word "const"
          let n ← name "identifier"
          let colon ← sym ":"
          let t ← r.type true
          let default ← do
            if ← atSym "=" then
              let e ← sym "="
              match ← peek with
              | '{' :: _ => pure [e, (← r.block).as "value"]
              | _ => pure [e, (← r.expr false 6).as "value"]
            else pure []
          finish "const_parameter" ([c, n.as "name", colon, t.as "type"] ++ default)
        else
          let n ← if (← peek).head? = some '$' then metavariable else name "type_identifier"
          let bounds ← traitBounds? r
          let default ← do
            if ← atSym "=" then
              let e ← sym "="
              pure [e, (← r.type true).as "default_type"]
            else pure []
          finish "type_parameter" ([n.as "name"] ++ bounds ++ default)
      return attrs ++ [p]
    return [(← finish "type_parameters" (← bracketed "<" ">" one)).as "type_parameters"]
  else return []

def whereClause? : Reader (List Node) := do
  if ← atWord "where" then
    let w ← word "where"
    let closed : Reader Bool := do
      match ← peek with
      | c :: _ => return c = '{' || c = ';' || c = '='
      | [] => return true
    let parts ← commaList closed do
      let left ← if ← atWord "for" then functionType r else r.type false
      return [← finish "where_predicate" ([left.as "left"] ++ (← traitBounds? r))]
    return [← finish "where_clause" (w :: parts)]
  else return []

/-! ## Patterns -/

def literalPattern? : Reader (Option Node) := do
  match ← peek with
  | '-' :: _ =>
    let m ← sym "-"
    match ← literal? with
    | some n => return some (← finish "negative_literal" [m, n])
    | none => fail
  | _ => literal?

def fieldPattern : Reader (List Node) := do
  let attributes ← attributes? r
  if ← atSym ".." then
    return attributes ++ [← finish "remaining_field_pattern" [← sym ".."]]
  else
    let ref ← optWord "ref"
    let mutable ← if ← atWord "mut" then pure [← wordAs "mut" "mutable_specifier"] else pure []
    let n ← match ← literal? with
      | some n => pure n
      | none => name "field_identifier"
    if ← atSym ":" then
      let c ← sym ":"
      let p ← r.pattern true
      return attributes ++ [← finish "field_pattern" (ref ++ mutable ++ [n.as "name", c, p.as "pattern"])]
    else
      let n := { n with kind := "shorthand_field_identifier" }
      return attributes ++ [← finish "field_pattern" (ref ++ mutable ++ [n.as "name"])]

/-- A pattern without alternatives and ranges. -/
def plainPattern : Reader Node := do
  match ← literalPattern? with
  | some n => return n
  | none =>
    match ← peek with
    | '&' :: _ =>
      let a ← sym "&"
      let mutable ← if ← atWord "mut" then pure [← wordAs "mut" "mutable_specifier"] else pure []
      finish "reference_pattern" (a :: mutable ++ [← r.pattern false])
    | '(' :: _ => finish "tuple_pattern" (← bracketed "(" ")" (return [← r.pattern true]))
    | '[' :: _ => finish "slice_pattern" (← bracketed "[" "]" (return [← r.pattern true]))
    | '.' :: '.' :: '=' :: _ =>
      let d ← sym "..="
      finish "range_pattern" [d, ← r.pattern false]
    | '.' :: '.' :: _ => finish "remaining_field_pattern" [← sym ".."]
    | _ =>
      let w ← wordHere
      if w = "_" then word "_"
      else if w = "ref" then
        let f ← word "ref"
        finish "ref_pattern" [f, ← r.pattern false]
      else if w = "mut" then
        let m ← wordAs "mut" "mutable_specifier"
        finish "mut_pattern" [m, ← r.pattern false]
      else if w = "const" then
        let c ← word "const"
        finish "const_block" [c, (← r.block).as "body"]
      else
        let p ← path r "scoped_identifier" "identifier"
        if ← atBang then macroCall r p
        else
          match ← peek with
          | '(' :: _ =>
            let inner ← bracketed "(" ")" (return [← r.pattern true])
            finish "tuple_struct_pattern" (p.as "type" :: inner)
          | '{' :: _ =>
            let inner ← bracketed "\x7b" "\x7d" (fieldPattern r)
            finish "struct_pattern" (p.as "type" :: inner)
          | '@' :: _ =>
            let a ← sym "@"
            finish "captured_pattern" [p, a, ← r.pattern false]
          | _ => return p

/-- Whether the end of a range can begin here. -/
def atRangeEnd : Reader Bool := do
  match ← peek with
  | c :: _ => return c.isDigit || c = '\'' || c = '"' || c = '-' || c = '<' || c = ':' ||
      (Text.isNameStart c && !(← atAnyWord ["if", "in"]))
  | [] => return false

def patternExpr (alternatives : Bool) : Reader Node := do
  let one : Reader Node := do
    let p ← plainPattern r
    grow (fun p => do
      match ← peek with
      | '.' :: '.' :: _ =>
        let d ← if ← atSym "..=" then sym "..=" else if ← atSym "..." then sym "..." else sym ".."
        if ← atRangeEnd then return some (← finish "range_pattern" [p, d, ← plainPattern r])
        else return some (← finish "range_pattern" [p, d])
      | _ => return none) p
  let atBar : Reader Bool := do
    match ← peek with
    | '|' :: '|' :: _ => return false
    | '|' :: _ => return alternatives
    | _ => return false
  let first ← do
    if ← atBar then
      let b ← sym "|"
      finish "or_pattern" [b, ← one]
    else one
  grow (fun p => do
    if ← atBar then
      let b ← sym "|"
      return some (← finish "or_pattern" [p, b, ← one])
    else return none) first

end CodeAtlas.Grammar.Rust
