import CodeAtlas.Grammar.ScriptWords

/-!
# Types, patterns and parameters of JavaScript and TypeScript

The readers here contain each other and the readers of expressions. Each takes the rules of the next level
of nesting as an argument.
-/

namespace CodeAtlas.Grammar.Script

open SyntaxTree Reader

/-- The rules that nest. -/
structure Rules where
  dialect : Dialect
  /-- An expression of operators that bind at least as tightly as a level: 0 several expressions with commas,
  1 assignments, 2 conditions, 3 to 14 binary operators, 15 signs, 16 what stands between operators. -/
  expr : Nat → Reader Node
  statement : Reader (Option Node)
  /-- A block of statements; the flag says whether a binary operator could follow. -/
  block : Bool → Reader Node
  type : Reader Node
  pattern : Reader Node
  parameters : Reader Node
  element : Reader Node
  /-- A substitution in a template. -/
  substitution : Reader Node

variable (r : Rules)

/-- One expression without commas. -/
def Rules.value : Reader Node := r.expr 1

/-- Runs a reader inside a bracket. -/
def inBrackets {α : Type} (p : Reader α) : Reader α := do
  modify fun s => { s with brackets := s.brackets + 1 }
  let a ← p
  modify fun s => { s with brackets := s.brackets - 1 }
  return a

/-- Runs a reader of statements inside brackets that may be open around them. -/
def outsideBrackets {α : Type} (p : Reader α) : Reader α := do
  let outer := (← get).brackets
  modify fun s => { s with brackets := 0 }
  let a ← p
  modify fun s => { s with brackets := outer }
  return a

/-- A list in brackets. -/
def bracketed (opening closing : String) (item : Reader (List Node)) : Reader (List Node) := do
  let o ← sym opening
  inBrackets do
    let inner ← commaList closing item
    return o :: inner ++ [← sym closing]

/-! ## Names of members -/

def computedName : Reader Node := do
  let o ← sym "["
  inBrackets do
    let e ← r.expr 0
    finish "computed_property_name" [o, e, ← sym "]"]

/-- The name of a member. -/
def memberName : Reader Node := do
  match ← peek with
  | '[' :: _ => computedName r
  | '"' :: _ | '\'' :: _ => string
  | '#' :: _ =>
    gap
    let s ← get
    next
    skip (nameLength (← get).rest)
    leaf "private_property_identifier" true s
  | c :: d :: _ => if c.isDigit || (c = '.' && d.isDigit) then number else anyWord "property_identifier"
  | [c] => if c.isDigit then number else anyWord "property_identifier"
  | [] => fail

/-- Whether a word here is a modifier of the name of a member after it and not that name itself. -/
def atModifier (w : String) : Reader Bool := succeeds do
  discard <| word w
  match ← peek with
  | c :: _ =>
    if ['(', '=', ';', ',', '}', ':', '?', '!', '<', ')'].contains c then fail
    else if (← lineAhead) && w ≠ "static" && w ≠ "async" then pure ()
  | [] => fail

/-- Modifiers in front of the name of a member, of those given. -/
def modifiers (ws : List String) : Reader (List Node) := many do
  let w ← wordHere
  if ws.contains w && (← atModifier w) then
    if ["public", "private", "protected"].contains w then
      return some (← finish "accessibility_modifier" [← word w])
    else if w = "override" then return some (← finish "override_modifier" [← word w])
    else return some (← word w)
  else return none

/-! ## Types -/

def typeAnnotation : Reader Node := do
  let c ← sym ":"
  finish "type_annotation" [c, ← r.type]

def optTypeAnnotation : Reader (List Node) := do
  if r.dialect.typed && (← atSym ":") then return [(← typeAnnotation r).as "type"] else return []

def typeParameters? : Reader (List Node) := do
  if r.dialect.typed && (← atSym "<") then
    let ps ← bracketed "<" ">" do
      let front ← modifiers ["const", "in", "out"]
      let n ← anyWord "type_identifier"
      let bound ← do
        if ← atWord "extends" then
          let e ← word "extends"
          pure [(← finish "constraint" [e, ← r.type]).as "constraint"]
        else pure []
      let default ← do
        if ← atSym "=" then
          let e ← sym "="
          pure [(← finish "default_type" [e, ← r.type]).as "value"]
        else pure []
      return [← finish "type_parameter" (front ++ n.as "name" :: bound ++ default)]
    return [(← finish "type_parameters" ps).as "type_parameters"]
  else return []

def typeArguments : Reader Node := do
  finish "type_arguments" (← bracketed "<" ">" (return [← r.type]))

/-- A type after the parameters of a function, where a claim about a parameter may stand. -/
def returnType : Reader Node := do
  let claim (front : List Node) : Reader Node := do
    let n ← if ← atWord "this" then anyWord "this" else identifier
    if ← lineAhead then fail
    let i ← word "is"
    finish "type_predicate" (front ++ [n.as "name", i, (← r.type).as "type"])
  let asserted : Reader Node := do
    let a ← word "asserts"
    if ← lineAhead then fail
    match ← attempt (claim []) with
    | some p => finish "asserts" [a, p]
    | none =>
      let n ← if ← atWord "this" then anyWord "this" else identifier
      finish "asserts" [a, n]
  orElse (claim []) (orElse asserted r.type)

def optReturnType : Reader (List Node) := do
  if r.dialect.typed && (← atSym ":") then
    let c ← sym ":"
    let t ← returnType r
    let kind := match t.kind with
      | "type_predicate" => "type_predicate_annotation"
      | "asserts" => "asserts_annotation"
      | _ => "type_annotation"
    return [(← finish kind [c, t]).as "return_type"]
  else return []

/-- Type parameters, parameters and result of a function. -/
def callSignature : Reader (List Node) := do
  let ts ← typeParameters? r
  let ps ← r.parameters
  return ts ++ ps.as "parameters" :: (← optReturnType r)

/-- The type of a function or of a constructor. -/
def functionType : Reader Node := do
  let front ← if (← atWord "abstract") then optWord "abstract" else pure []
  let newWord ← if (← atWord "new") then optWord "new" else pure []
  let ts ← typeParameters? r
  let ps ← r.parameters
  let arrow ← sym "=>"
  let result ← returnType r
  finish (if newWord.isEmpty then "function_type" else "constructor_type")
    (front ++ newWord ++ ts ++ [ps.as "parameters", arrow, result.as "return_type"])

/-- `[key: T]: U` or `[K in T]: U`. -/
def indexSignature : Reader Node := do
  let sign ← if ← atSym "-" then optSym "-" else optSym "+"
  let readonly ← optWord "readonly"
  let o ← sym "["
  let inner ← inBrackets do
    let n ← anyWord "identifier"
    if ← atSym ":" then
      let c ← sym ":"
      pure [n.as "name", c, (← r.type).as "index_type"]
    else
      let i ← word "in"
      let t ← r.type
      let renamed ← do
        if ← atWord "as" then
          let a ← word "as"
          pure [a, (← r.type).as "alias"]
        else pure []
      pure [← finish "mapped_type_clause" ([{ n with kind := "type_identifier" }.as "name", i, t.as "type"] ++ renamed)]
  let close ← sym "]"
  let mark ← if ← atSym "-" then optSym "-" else optSym "+"
  let optional ← optSym "?"
  let t ← if ← atSym ":" then pure [(← typeAnnotation r).as "type"] else pure []
  finish "index_signature" (sign ++ readonly ++ o :: inner ++ close :: mark ++ optional ++ t)

/-- A member of the type of an object. -/
def typeMember : Reader Node := do
  match ← attempt (indexSignature r) with
  | some n => return n
  | none =>
    let front ← modifiers ["export", "public", "private", "protected", "static", "override", "readonly", "async",
      "declare", "abstract"]
    let kindWord ← modifiers ["get", "set"]
    match ← peek with
    | '(' :: _ | '<' :: _ => finish "call_signature" (← callSignature r)
    | _ =>
      let construct ← attempt do
        let n ← word "new"
        if (← atSym "(") || (← atSym "<") then finish "construct_signature" (n :: (← callSignature r)) else fail
      match construct with
      | some n => return n
      | none =>
        let n ← memberName r
        let optional ← optSym "?"
        if (← atSym "(") || (← atSym "<") then
          finish "method_signature" (front ++ kindWord ++ n.as "name" :: optional ++ (← callSignature r))
        else
          finish "property_signature" (front ++ kindWord ++ n.as "name" :: optional ++ (← optTypeAnnotation r))

/-- The members of the type of an object, in braces. -/
def objectType (kind : String) : Reader Node := do
  let o ← sym "\x7b"
  let members ← outsideBrackets <| many do
    if ← atSym "\x7d" then return none
    else if ← atSym ";" then return some [← sym ";"]
    else if ← atSym "," then return some [← sym ","]
    else
      let m ← typeMember r
      if (← atSym ",") || (← atSym ";") then return some [m]
      else return some [m, ← semicolon r.dialect false]
  finish kind (o :: members.flatten ++ [← sym "\x7d"])

/-- A type in the backquotes of a template. -/
def templateType : Reader Node := do
  gap
  let s ← get
  next
  let o ← leaf "\x60" false s
  let parts ← many do
    match (← get).rest with
    | '\x60' :: _ => return none
    | '$' :: '{' :: _ =>
      let t ← get
      skip 2
      let o ← leaf "$\x7b" false t
      let inner ← inBrackets r.type
      return some (← finish "template_type" [o, inner, ← sym "\x7d"])
    | '\\' :: _ :: _ => skip 2; return some (← mark)
    | _ :: _ => next; return some (← mark)
    | [] => fail
  finish "template_literal_type" (o :: parts ++ [← sym "\x60"])

/-- A call of `import` where a value is asked for its type. -/
def importType : Reader Node := do
  let i ← anyWord "import"
  let args ← finish "arguments" (← bracketed "(" ")" (return [← string]))
  finish "call_expression" [i.as "function", args.as "arguments"]

/-- A name with dots, as a type. -/
def namedType (query : Bool) : Reader Node := do
  let first ← do
    if query && (← atWord "import") then importType
    else if ← atWord "this" then anyWord "this"
    else anyWord (if query then "identifier" else "type_identifier")
  let t ← grow (fun t => do
    if ← atSym "." then
      let d ← sym "."
      let n ← memberName r
      let kind := if query then "member_expression" else "nested_type_identifier"
      return some (← finish kind [t.as (if query then "object" else "module"), d,
        n.as (if query then "property" else "name")])
    else return none) first
  if (← atSym "<") && !(← lineAhead) then
    match ← attempt (typeArguments r) with
    | some args => finish "generic_type" [t.as "name", args.as "type_arguments"]
    | none => return t
  else return t

/-- Names of types that the language has from the start. -/
def predefinedTypes : List String :=
  ["any", "number", "boolean", "string", "symbol", "void", "unknown", "never", "object"]

/-- A type without operators. -/
def plainType : Reader Node := do
  match ← peek with
  | '(' :: _ =>
    let o ← sym "("
    inBrackets do
      let t ← r.type
      finish "parenthesized_type" [o, t, ← sym ")"]
  | '{' :: _ => objectType r "object_type"
  | '[' :: _ =>
    finish "tuple_type" (← bracketed "[" "]" do
      let labelled ← attempt do
        let dots ← optSym "..."
        let n ← identifier
        let optional ← optSym "?"
        let t ← typeAnnotation r
        let kind := if optional.isEmpty then "required_parameter" else "optional_parameter"
        finish kind (dots ++ n.as "name" :: optional ++ [t.as "type"])
      match labelled with
      | some l => return [l]
      | none =>
        if ← atSym "..." then
          let d ← sym "..."
          return [← finish "rest_type" [d, ← r.type]]
        else
          let t ← r.type
          if ← atSym "?" then return [← finish "optional_type" [t, ← sym "?"]] else return [t])
  | '"' :: _ | '\'' :: _ => finish "literal_type" [← string]
  | '\x60' :: _ => templateType r
  | '-' :: _ =>
    let m ← sym "-"
    let n ← number
    finish "literal_type" [← finish "unary_expression" [m, n]]
  | '*' :: _ => finish "existential_type" [← sym "*"]
  | '?' :: _ =>
    let q ← sym "?"
    finish "flow_maybe_type" [q, ← r.type]
  | c :: _ =>
    if c.isDigit then finish "literal_type" [← number]
    else
      let w ← wordHere
      if predefinedTypes.contains w then
        if ← succeeds (do discard <| anyWord "x"; discard <| sym ".") then namedType r false
        else finish "predefined_type" [← word w]
      else if ["true", "false", "null", "undefined"].contains w then finish "literal_type" [← anyWord w]
      else if w = "typeof" then
        let t ← word w
        finish "type_query" [t, ← namedType r true]
      else if w = "import" then importType
      else if w = "unique" && (← succeeds (do discard <| word "unique"; discard <| word "symbol")) then
        finish "predefined_type" [← word "unique", ← word "symbol"]
      else if reserved.contains w && w ≠ "this" then fail
      else namedType r false
  | [] => fail

/-- A type with the words in front of it and the brackets after it. -/
def tightType : Reader Node := do
  let w ← wordHere
  let applies : Reader Bool := succeeds do
    discard <| word w
    match ← peek with
    | c :: _ =>
      if [',', ';', ')', ']', '}', '>', '=', '|', '&', ':', '?', '.', '<'].contains c then fail
      else if c = '[' && w ≠ "keyof" && w ≠ "readonly" then fail
    | [] => fail
  if w = "keyof" && (← applies) then
    let k ← word w
    finish "index_type_query" [k, ← r.type]
  else if w = "readonly" && (← applies) then
    let k ← word w
    finish "readonly_type" [k, ← r.type]
  else if w = "infer" && (← applies) then
    let k ← word w
    let n ← anyWord "type_identifier"
    let bound ← if ← atWord "extends" then attempt (return [← word "extends", ← r.type]) else pure none
    finish "infer_type" (k :: n :: bound.getD [])
  else
    let t ← plainType r
    grow (fun t => do
      if (← atSym "[") && !(← lineAhead) then
        let o ← sym "["
        if ← atSym "]" then return some (← finish "array_type" [t, o, ← sym "]"])
        else
          let i ← inBrackets r.type
          return some (← finish "lookup_type" [t, o, i, ← sym "]"])
      else return none) t

/-- Types with `&` and `|` between them. -/
def unionType : Reader Node := do
  let intersection : Reader Node := do
    let first ← do
      if ← atSym "&" then
        let a ← sym "&"
        finish "intersection_type" [a, ← tightType r]
      else tightType r
    grow (fun t => do
      if (← atSym "&") && !(← atSym "&&") then
        let a ← sym "&"
        return some (← finish "intersection_type" [t, a, ← tightType r])
      else return none) first
  let operand : Reader Node := do
    match ← peek with
    | '(' :: _ => orElse (functionType r) intersection
    | _ => intersection
  let first ← do
    if ← atSym "|" then
      let a ← sym "|"
      finish "union_type" [a, ← operand]
    else intersection
  grow (fun t => do
    if (← atSym "|") && !(← atSym "||") then
      let a ← sym "|"
      return some (← finish "union_type" [t, a, ← operand])
    else return none) first

def typeExpr : Reader Node := do
  let functional ← do
    match ← peek with
    | '(' :: _ | '<' :: _ => attempt (functionType r)
    | _ =>
      if (← atWord "new") || (← atWord "abstract") then attempt (functionType r) else pure none
  match functional with
  | some t => return t
  | none =>
    let t ← unionType r
    if (← atWord "extends") && !((← lineAhead) && (← get).brackets = 0) then
      let conditional ← attempt do
        let e ← word "extends"
        let right ← orElse (do
          let u ← unionType r
          if ← atSym "?" then pure u else fail) (functionType r)
        let q ← sym "?"
        let yes ← r.type
        let c ← sym ":"
        let no ← r.type
        finish "conditional_type"
          [t.as "left", e, right.as "right", q, yes.as "consequence", c, no.as "alternative"]
      return conditional.getD t
    else return t

/-! ## Patterns and parameters -/

/-- A member of a pattern in braces. -/
def fieldPattern : Reader (List Node) := do
  if ← atSym "..." then
    let d ← sym "..."
    return [← finish "rest_pattern" [d, ← r.pattern]]
  else
    let n ← memberName r
    if ← atSym ":" then
      let c ← sym ":"
      let p ← r.pattern
      if ← atSym "=" then
        let e ← sym "="
        let p ← finish "assignment_pattern" [p.as "left", e, (← r.value).as "right"]
        return [← finish "pair_pattern" [n.as "key", c, p.as "value"]]
      else return [← finish "pair_pattern" [n.as "key", c, p.as "value"]]
    else if n.kind ≠ "property_identifier" then fail
    else
      let n := { n with kind := "shorthand_property_identifier_pattern" }
      if ← atSym "=" then
        let e ← sym "="
        return [← finish "object_assignment_pattern" [n.as "left", e, (← r.value).as "right"]]
      else return [n]

/-- What a declaration binds. -/
def bindingPattern : Reader Node := do
  match ← peek with
  | '{' :: _ => finish "object_pattern" (← bracketed "\x7b" "\x7d" (fieldPattern r))
  | '[' :: _ =>
    finish "array_pattern" (← bracketed "[" "]" do
      if ← atSym "..." then
        let d ← sym "..."
        return [← finish "rest_pattern" [d, ← r.pattern]]
      else
        let p ← r.pattern
        if ← atSym "=" then
          let e ← sym "="
          return [← finish "assignment_pattern" [p.as "left", e, (← r.value).as "right"]]
        else return [p])
  | _ => identifier

/-- `@` and what it names. -/
def decorator : Reader Node := do
  let a ← sym "@"
  if ← atSym "(" then
    let o ← sym "("
    let e ← inBrackets (r.expr 0)
    let p ← finish "parenthesized_expression" [o, e, ← sym ")"]
    finish "decorator" [a, p]
  else
    let first ← identifier
    let named ← grow (fun e => do
      if (← atSym ".") && !(← lineAhead) then
        let d ← sym "."
        return some (← finish "member_expression" [e.as "object", d, (← anyWord "property_identifier").as "property"])
      else return none) first
    let ts ← do
      if r.dialect.typed && (← atSym "<") then
        let found ← attempt do
          let t ← typeArguments r
          if ← atSym "(" then pure t else fail
        pure found.toList
      else pure []
    if ← atSym "(" then
      let args ← finish "arguments" (← bracketed "(" ")" do
        if ← atSym "..." then
          let d ← sym "..."
          return [← finish "spread_element" [d, ← r.value]]
        else return [← r.value])
      let c ← finish "call_expression"
        (named.as "function" :: ts.map (·.as "type_arguments") ++ [args.as "arguments"])
      finish "decorator" [a, c]
    else finish "decorator" [a, named]

def decorators? : Reader (List Node) := many do
  if ← atSym "@" then return some (← decorator r) else return none

/-- A parameter where there are no types. -/
def plainParameter : Reader (List Node) := do
  let p ← do
    if ← atSym "..." then
      let d ← sym "..."
      finish "rest_pattern" [d, ← r.pattern]
    else r.pattern
  if ← atSym "=" then
    let e ← sym "="
    return [← finish "assignment_pattern" [p.as "left", e, (← r.value).as "right"]]
  else return [p]

/-- A parameter with its modifiers, type and default. -/
def typedParameter : Reader (List Node) := do
  let ds ← decorators? r
  let ms ← modifiers ["public", "private", "protected", "override", "readonly"]
  let p ← do
    if ← atSym "..." then
      let d ← sym "..."
      finish "rest_pattern" [d, ← r.pattern]
    else if ← atWord "this" then anyWord "this"
    else r.pattern
  let optional ← optSym "?"
  let t ← optTypeAnnotation r
  let value ← do
    if ← atSym "=" then
      let e ← sym "="
      pure [e, (← r.value).as "value"]
    else pure []
  let kind := if optional.isEmpty then "required_parameter" else "optional_parameter"
  return [← finish kind (ds ++ ms ++ p.as "pattern" :: optional ++ t ++ value)]

def formalParameters : Reader Node := do
  finish "formal_parameters"
    (← bracketed "(" ")" (if r.dialect.typed then typedParameter r else plainParameter r))

end CodeAtlas.Grammar.Script
