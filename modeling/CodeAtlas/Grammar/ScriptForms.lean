import CodeAtlas.Grammar.ScriptTypes

/-!
# Expressions and statements of JavaScript and TypeScript

The readers of expressions, markup and statements, and the reader of a whole file.

* `rules`: the rules that nest, tied together by a number of levels.
* `readScript`: the tree of a file in a dialect.
-/

namespace CodeAtlas.Grammar.Script

open SyntaxTree Reader

variable (r : Rules)

/-! ## Functions -/

/-- The body of a function or a block of statements. -/
def blockBody (operatorFits : Bool) : Reader Node := do
  let o ← sym "\x7b"
  let inner ← outsideBrackets (many r.statement)
  let c ← do
    statementGap
    sym "\x7d"
  let m ← lineMark? r.dialect operatorFits false
  finish "statement_block" (o :: inner ++ c :: m.toList)

/-- `function` as an expression. -/
def functionExpression : Reader Node := do
  let a ← optWord "async"
  let f ← word "function"
  let star ← optSym "*"
  let n ← if (← atSym "(") || (← atSym "<") then pure [] else pure [(← identifier).as "name"]
  let sig ← callSignature r
  let body ← r.block true
  let kind := if star.isEmpty then "function_expression" else "generator_function"
  finish kind (a ++ f :: star ++ n ++ sig ++ [body.as "body"])

/-- Whether what stands in braces here could be the members of an object. -/
def atObject : Reader Bool := succeeds do
  discard <| sym "\x7b"
  match ← peek with
  | '.' :: _ => pure ()
  | '[' :: _ => pure ()
  | '"' :: _ | '\'' :: _ => do
    discard string
    discard <| sym ":"
  | c :: _ =>
    if c.isDigit then discard number else discard <| anyWord "identifier"
    match ← peek with
    | c :: _ => if [':', ',', '(', '}'].contains c then pure () else fail
    | [] => fail
  | [] => fail

/-- The body of an arrow function: a block where it can be read as one, else an object or another value. -/
def arrowBody : Reader Node := do
  if ← atSym "\x7b" then
    if ← atObject then orElse (r.block true) r.value else r.block true
  else r.value

/-- `=>` on the line of the parameters. -/
def arrow : Reader Node := do
  if ← lineAhead then fail else sym "=>"

/-- An arrow function, if one stands here. -/
def arrowFunction : Reader Node := do
  let a ← do
    if ← atWord "async" then
      let found ← attempt do
        let w ← word "async"
        if ← lineAhead then fail
        if (← atSym "(") || (← atSym "<") then pure w
        else if ← atSym "=>" then fail
        else pure w
      pure found.toList
    else pure []
  if (← atSym "(") || (← atSym "<") then
    let sig ← callSignature r
    let arr ← arrow
    finish "arrow_function" (a ++ sig ++ [arr, (← arrowBody r).as "body"])
  else
    let p ← identifier
    let arr ← arrow
    finish "arrow_function" (a ++ [p.as "parameter", arr, (← arrowBody r).as "body"])

/-! ## Templates, objects and arrays -/

def substitutionPart : Reader Node := do
  let t ← get
  skip 2
  let o ← leaf "$\x7b" false t
  inBrackets do
    let e ← r.expr 0
    finish "template_substitution" [o, e, ← sym "\x7d"]

def template : Reader Node := do
  gap
  let s ← get
  next
  let o ← leaf "\x60" false s
  let parts ← many do
    match (← get).rest with
    | '\x60' :: _ => return none
    | '$' :: '{' :: _ => return some (← r.substitution)
    | '\\' :: _ :: _ => skip 2; return some (← mark)
    | _ :: _ =>
      next
      skipWhile fun c => c ≠ '\x60' && c ≠ '$' && c ≠ '\\'
      return some (← mark)
    | [] => fail
  let e ← get
  next
  finish "template_string" (o :: parts ++ [← leaf "\x60" false e])

/-- A method: name, parameters and body, with the modifiers in front. -/
def methodDefinition (front : List Node) (words : List String) : Reader Node := do
  let ms ← modifiers words
  let star ← optSym "*"
  let n ← memberName r
  let optional ← if r.dialect.typed then optSym "?" else pure []
  let sig ← callSignature r
  let body ← r.block false
  finish "method_definition" (front ++ ms ++ star ++ n.as "name" :: optional ++ sig ++ [body.as "body"])

/-- Words in front of a method's name. -/
def methodWords : List String := ["static", "async", "get", "set"]

def spreadElement : Reader Node := do
  let d ← sym "..."
  finish "spread_element" [d, ← r.value]

def objectMember : Reader (List Node) := do
  if ← atSym "..." then return [← spreadElement r]
  else
    match ← attempt (methodDefinition r [] methodWords) with
    | some m => return [m]
    | none =>
      let n ← memberName r
      if ← atSym ":" then
        let c ← sym ":"
        return [← finish "pair" [n.as "key", c, (← r.value).as "value"]]
      else if n.kind ≠ "property_identifier" then fail
      else if (← atSym "=") && !(← atSym "==") then
        let e ← sym "="
        let n := { n with kind := "shorthand_property_identifier_pattern" }
        return [← finish "object_assignment_pattern" [n.as "left", e, (← r.value).as "right"]]
      else return [{ n with kind := "shorthand_property_identifier" }]

def object : Reader Node := do finish "object" (← bracketed "\x7b" "\x7d" (objectMember r))

def array : Reader Node := do
  finish "array" (← bracketed "[" "]" do
    if ← atSym "..." then return [← spreadElement r] else return [← r.value])

def arguments : Reader Node := do
  finish "arguments" (← bracketed "(" ")" do
    if ← atSym "..." then return [← spreadElement r] else return [← r.value])

/-! ## Markup -/

def elementName : Reader Node := do
  gap
  let s ← get
  if !(s.rest.head?.any isNameStart) then fail
  skipWhile fun c => isNameMore c || c = '-'
  let first ← leaf "identifier" true s
  grow (fun n => do
    if ← atSym "." then
      let d ← sym "."
      return some (← finish "member_expression" [n.as "object", d, (← anyWord "property_identifier").as "property"])
    else if ← atSym ":" then
      let c ← sym ":"
      gap
      let s ← get
      skipWhile fun c => isNameMore c || c = '-'
      return some (← finish "jsx_namespace_name" [n, c, ← leaf "identifier" true s])
    else return none) first

/-- An expression in braces. -/
def markupExpression : Reader Node := do
  let o ← sym "\x7b"
  inBrackets do
    if ← atSym "\x7d" then finish "jsx_expression" [o, ← sym "\x7d"]
    else if ← atSym "..." then
      let e ← spreadElement r
      finish "jsx_expression" [o, e, ← sym "\x7d"]
    else
      let e ← r.expr 0
      finish "jsx_expression" [o, e, ← sym "\x7d"]

/-- A string of markup, which has no escapes and may go over lines. -/
def markupString : Reader Node := do
  gap
  let s ← get
  match s.rest with
  | q :: _ =>
    next
    skipWhile (· ≠ q)
    if (← get).rest.isEmpty then fail
    next
    leaf "string" true s
  | [] => fail

def attribute? : Reader (Option Node) := do
  match ← peek with
  | '{' :: _ => return some (← markupExpression r)
  | c :: _ =>
    if !isNameStart c then return none
    else
      let n ← elementName
      if ← atSym "=" then
        let e ← sym "="
        let v ← do
          match ← peek with
          | '{' :: _ => markupExpression r
          | '<' :: _ => r.element
          | _ => markupString
        return some (← finish "jsx_attribute" [n, e, v])
      else return some (← finish "jsx_attribute" [n])
  | [] => return none

/-- An element of markup with everything inside it. -/
def markupElement : Reader Node := do
  let o ← sym "<"
  let (tag, attrs, ts) ← do
    if ← atSym ">" then pure ([], [], [])
    else
      let n ← elementName
      let ts ← if r.dialect.typed && (← atSym "<") then pure [(← typeArguments r).as "type_arguments"] else pure []
      let attrs ← many (attribute? r)
      pure ([n.as "name"], attrs.map (·.as "attribute"), ts)
  if ← atSym "/" then
    let slash ← sym "/"
    let close ← do
      gap
      let s ← get
      match s.rest with
      | '>' :: _ => next; leaf ">" false s
      | _ => fail
    finish "jsx_self_closing_element" (o :: tag ++ ts ++ attrs ++ [slash, close])
  else
    gap
    let s ← get
    match s.rest with
    | '>' :: _ => next
    | _ => fail
    let opening ← finish "jsx_opening_element" (o :: tag ++ ts ++ attrs ++ [← leaf ">" false s])
    let children ← many do
      let s ← get
      match s.rest with
      | '<' :: '/' :: _ => return none
      | '<' :: r' =>
        match r'.dropWhile isGap with
        | '/' :: _ => return none
        | _ => return some (← r.element)
      | '{' :: _ => return some (← markupExpression r)
      | [] => fail
      | _ =>
        skipWhile fun c => c ≠ '<' && c ≠ '{'
        if (s.rest.take (s.left - (← get).left)).all isGap then return some (← mark)
        else return some (← leaf "jsx_text" true s)
    let lt ← sym "<"
    let slash ← sym "/"
    let name ← if ← atSym ">" then pure [] else pure [(← elementName).as "name"]
    gap
    let e ← get
    match e.rest with
    | '>' :: _ => next
    | _ => fail
    let closing ← finish "jsx_closing_element" (lt :: slash :: name ++ [← leaf ">" false e])
    finish "jsx_element" (opening.as "open_tag" :: children ++ [closing.as "close_tag"])

/-! ## Classes -/

def heritage : Reader (List Node) := do
  let ext ← do
    if ← atWord "extends" then
      let e ← word "extends"
      let first ← r.expr 16
      let ts ← if r.dialect.typed && (← atSym "<") then pure [(← typeArguments r).as "type_arguments"] else pure []
      if r.dialect.typed then pure [← finish "extends_clause" (e :: first.as "value" :: ts)] else pure [e, first]
    else pure []
  let impl ← do
    if r.dialect.typed && (← atWord "implements") then
      let i ← word "implements"
      let first ← r.type
      let rest ← many do
        if ← atSym "," then return some [← sym ",", ← r.type] else return none
      pure [← finish "implements_clause" (i :: first :: rest.flatten)]
    else pure []
  if ext.isEmpty && impl.isEmpty then return []
  else return [← finish "class_heritage" (ext ++ impl)]

/-- A field or an index of a class, up to its end. -/
def classField (front : List Node) : Reader (List Node) := do
  let ms ← modifiers (if r.dialect.typed then
    ["declare", "public", "private", "protected", "static", "override", "readonly", "abstract", "accessor"]
    else ["static"])
  let n ← memberName r
  let optional ← if r.dialect.typed then (do
    if ← atSym "?" then optSym "?"
    else if ← atSym "!" then optSym "!"
    else pure []) else pure []
  let t ← optTypeAnnotation r
  let value ← do
    if ← atSym "=" then
      let e ← sym "="
      pure [e, (← outsideBrackets r.value).as "value"]
    else pure []
  let kind := if r.dialect.typed then "public_field_definition" else "field_definition"
  let field ← finish kind (front ++ ms ++ n.as (if r.dialect.typed then "name" else "property") :: optional ++ t ++ value)
  if r.dialect.typed && (← atSym ",") then return [field, ← sym ","]
  else return [field, ← semicolon r.dialect (!value.isEmpty)]

/-- A method without a body, up to its end. -/
def classSignature : Reader (List Node) := do
  let ms ← modifiers ["declare", "public", "private", "protected", "static", "override", "readonly", "abstract",
    "async", "get", "set"]
  let star ← optSym "*"
  let n ← memberName r
  let optional ← optSym "?"
  let sig ← callSignature r
  if ← atSym "\x7b" then fail
  let isAbstract := ms.any (·.kind == "abstract")
  let s ← finish (if isAbstract then "abstract_method_signature" else "method_signature")
    (ms ++ star ++ n.as "name" :: optional ++ sig)
  if ← atSym "," then return [s, ← sym ","]
  else
    match ← lineMark? r.dialect false true with
    | some m => return [s, m]
    | none => return [s, ← sym ";"]

def classMember : Reader (Option (List Node)) := do
  statementGap
  if ← atSym "\x7d" then return none
  else if ← atSym ";" then return some [← sym ";"]
  else
    let isBlock ← succeeds (do discard <| word "static"; discard <| sym "\x7b")
    if isBlock then
      let s ← word "static"
      let b ← r.block false
      return some [← finish "class_static_block" [s, b.as "body"]]
    else
      let ds ← decorators? r
      if r.dialect.typed then
        let method ← attempt do
          methodDefinition r [] ["public", "private", "protected", "static", "override", "readonly", "async", "get", "set"]
        match method with
        | some m =>
          if ← atSym ";" then return some (ds ++ [m, ← sym ";"])
          else return some (ds ++ [m])
        | none =>
          match ← attempt (classSignature r) with
          | some s => return some (ds ++ s)
          | none =>
            let index ← attempt do
              let ms ← modifiers ["static", "readonly"]
              let i ← indexSignature r
              if ← atSym "," then return ms ++ [i, ← sym ","]
              else return ms ++ [i, ← semicolon r.dialect false]
            match index with
            | some i => return some (ds ++ i)
            | none => return some (← classField r ds)
      else
        match ← attempt (methodDefinition r (ds.map (·.as "decorator")) methodWords) with
        | some m =>
          if ← atSym ";" then return some [m.as "member", ← sym ";"] else return some [m.as "member"]
        | none => return some (← classField r ds)

def classBody : Reader Node := do
  let o ← sym "\x7b"
  let members ← outsideBrackets (many (classMember r))
  finish "class_body" (o :: members.flatten ++ [← sym "\x7d"])

def classExpression : Reader Node := do
  let ds ← decorators? r
  let c ← word "class"
  let n ← do
    if (← atSym "\x7b") || (← atWord "extends") || (← atWord "implements") || (← atSym "<") then pure []
    else pure [(← identifier).as "name"]
  let ts ← typeParameters? r
  let h ← heritage r
  let body ← classBody r
  finish "class" (ds ++ c :: n ++ ts ++ h ++ [body.as "body"])

/-! ## Primary expressions -/

def parenthesized : Reader Node := do
  let o ← sym "("
  inBrackets do
    let e ← r.expr 0
    let t ← optTypeAnnotation r
    finish "parenthesized_expression" (o :: e :: t ++ [← sym ")"])

/-- `namespace A { … }` and `module A { … }`. -/
def namespaceForm (w kind : String) : Reader Node := do
  let k ← word w
  let n ← do
    if ← atString then string
    else
      let first ← identifier
      grow (fun n => do
        if ← atSym "." then
          let d ← sym "."
          return some (← finish "nested_identifier" [n.as "object", d, (← anyWord "property_identifier").as "property"])
        else return none) first
  if ← atSym "\x7b" then finish kind [k, n.as "name", (← r.block false).as "body"]
  else finish kind [k, n.as "name"]

/-- What `new` makes: an operand without calls. -/
def newExpression : Reader Node := do
  let n ← word "new"
  if ← atSym "." then
    let d ← sym "."
    finish "meta_property" [n, d, ← word "target"]
  else
    let constructor ← do
      if ← atWord "new" then r.expr 17
      else
        let first ← r.expr 18
        grow (fun e => do
          match ← peek with
          | '.' :: c :: _ =>
            if c = '.' then return none
            else
              let d ← sym "."
              return some (← finish "member_expression" [e.as "object", d, (← memberName r).as "property"])
          | '[' :: _ =>
            let o ← sym "["
            return some (← inBrackets do
              let i ← r.expr 0
              finish "subscript_expression" [e.as "object", o, i.as "index", ← sym "]"])
          | _ => return none) first
    let ts ← do
      if r.dialect.typed && (← atSym "<") then
        let found ← attempt do
          let t ← typeArguments r
          if ← atSym "(" then pure t else fail
        pure found.toList
      else pure []
    if ← atSym "(" then
      finish "new_expression"
        (n :: constructor.as "constructor" :: ts.map (·.as "type_arguments") ++ [(← arguments r).as "arguments"])
    else finish "new_expression" [n, constructor.as "constructor"]

/-- An expression without operators and trailers. -/
def primary : Reader Node := do
  match ← peek with
  | '(' :: _ => parenthesized r
  | '[' :: _ => array r
  | '{' :: _ => object r
  | '"' :: _ | '\'' :: _ => string
  | '\x60' :: _ => template r
  | '/' :: _ => regex
  | '@' :: _ => classExpression r
  | '<' :: _ => if r.dialect.markup then r.element else fail
  | '#' :: _ => memberName r
  | '.' :: c :: _ => if c.isDigit then number else fail
  | c :: _ =>
    if c.isDigit then number
    else
      let w ← wordHere
      if w = "function" then functionExpression r
      else if w = "async" && (← succeeds (do discard <| word "async"; discard <| word "function")) then
        functionExpression r
      else if w = "class" then classExpression r
      else if w = "new" then newExpression r
      else if ["this", "super", "true", "false", "null", "undefined"].contains w then anyWord w
      else if w = "import" then
        let i ← anyWord "import"
        if ← atSym "." then
          let d ← sym "."
          finish "meta_property" [i, d, ← word "meta"]
        else return i
      else identifier
  | [] => fail

/-- A call, an index or a member after an operand. -/
def trailerStep (e : Node) : Reader (Option Node) := do
  match ← peek with
  | '?' :: '.' :: c :: _ =>
    if c.isDigit then return none
    else
      let q ← sym "?."
      let chain ← finish "optional_chain" [q]
      match ← peek with
      | '(' :: _ =>
        return some (← finish "call_expression" [e.as "function", chain, (← arguments r).as "arguments"])
      | '[' :: _ =>
        let o ← sym "["
        return some (← inBrackets do
          let i ← r.expr 0
          finish "subscript_expression" [e.as "object", chain, o, i.as "index", ← sym "]"])
      | _ => return some (← finish "member_expression" [e.as "object", chain, (← memberName r).as "property"])
  | '.' :: c :: _ =>
    if c = '.' then return none
    else
      let d ← sym "."
      return some (← finish "member_expression" [e.as "object", d, (← memberName r).as "property"])
  | '[' :: _ =>
    if r.dialect.typed && (← get).brackets = 0 && (← endsByLine r.dialect true false) then return none
    else
      let o ← sym "["
      return some (← inBrackets do
        let i ← r.expr 0
        finish "subscript_expression" [e.as "object", o, i.as "index", ← sym "]"])
  | '(' :: _ =>
    return some (← finish "call_expression" [e.as "function", (← arguments r).as "arguments"])
  | '\x60' :: _ =>
    return some (← finish "call_expression" [e.as "function", (← template r).as "arguments"])
  | '!' :: c :: _ =>
    if r.dialect.typed && c ≠ '=' && !(← lineAhead) then
      return some (← finish "non_null_expression" [e, ← sym "!"])
    else return none
  | '<' :: c :: _ =>
    if r.dialect.typed && c ≠ '=' && c ≠ '<' then
      attempt do
        let ts ← typeArguments r
        match ← peek with
        | '(' :: _ =>
          finish "call_expression" [e.as "function", ts.as "type_arguments", (← arguments r).as "arguments"]
        | '\x60' :: _ =>
          finish "call_expression" [e.as "function", ts.as "type_arguments", (← template r).as "arguments"]
        | c :: _ =>
          if [';', ',', ')', ']', '}', ':', '.', '?', '='].contains c || (← lineAhead) then
            finish "instantiation_expression" [e, ts.as "type_arguments"]
          else fail
        | [] => finish "instantiation_expression" [e, ts.as "type_arguments"]
    else return none
  | _ => return none

/-! ## Operators -/

/-- Operators between two operands, with their level; longer ones come before their fronts. -/
def binaryOperators : List (String × Nat) :=
  [(">>>=", 0), ("===", 9), ("!==", 9), ("**=", 0), ("<<=", 0), (">>=", 0), (">>>", 11), ("&&=", 0), ("||=", 0),
   ("??=", 0), ("**", 14), ("==", 9), ("!=", 9), ("<=", 10), (">=", 10), ("<<", 11), (">>", 11), ("&&", 5),
   ("||", 4), ("??", 3), ("+=", 0), ("-=", 0), ("*=", 0), ("/=", 0), ("%=", 0), ("&=", 0), ("|=", 0), ("^=", 0),
   ("++", 0), ("--", 0), ("=>", 0), ("|", 6), ("^", 7), ("&", 8), ("<", 10), (">", 10), ("+", 12), ("-", 12),
   ("*", 13), ("/", 13), ("%", 13)]

def binaryOperator? (level : Nat) : Reader (Option (String × Nat)) := do
  let rest ← peek
  match binaryOperators.find? fun o => Text.beginsWith o.1.toList rest with
  | some (o, l) => if l = 0 || l < level then return none else return some (o, l)
  | none =>
    if 10 < level then return none
    else if beginsWithWord "instanceof" rest then return some ("instanceof", 10)
    else if beginsWithWord "in" rest then return some ("in", 10)
    else return none

def assigning : List String :=
  [">>>=", "**=", "<<=", ">>=", "&&=", "||=", "??=", "+=", "-=", "*=", "/=", "%=", "&=", "|=", "^="]

/-- The form of an expression on the left of an assignment. -/
def asTarget (n : Node) : Node :=
  match n.kind with
  | "object" => { n with kind := "object_pattern" }
  | "array" => { n with kind := "array_pattern" }
  | _ => n

/-- What can stand on the left of an assignment. -/
def isTarget (n : Node) : Bool :=
  ["identifier", "undefined", "member_expression", "subscript_expression", "object", "array",
   "parenthesized_expression", "non_null_expression"].contains n.kind

/-- The assignment that an operand is the left side of, or the operand itself. -/
def assigned (e : Node) : Reader Node := do
  let rest ← peek
  if rest.head? = some '=' && !Text.beginsWith ['=', '='] rest && !Text.beginsWith ['=', '>'] rest then
    let op ← sym "="
    finish "assignment_expression" [(asTarget e).as "left", op, (← r.value).as "right"]
  else
    match assigning.find? fun o => Text.beginsWith o.toList rest with
    | some o =>
      let op ← sym o
      finish "augmented_assignment_expression" [e.as "left", op.as "operator", (← r.value).as "right"]
    | none => return e

/-- Whether an arrow function can begin here. -/
def atArrowStart : Reader Bool := do
  match ← peek with
  | '(' :: _ => return true
  | '<' :: _ => return r.dialect.typed
  | _ =>
    let w ← wordHere
    if w = "" || reserved.contains w then return false
    else if w = "async" then return true
    else succeeds do
      discard identifier
      discard <| sym "=>"

def yieldExpression : Reader Node := do
  let y ← word "yield"
  if ← atSym "*" then
    let s ← sym "*"
    finish "yield_expression" [y, s, ← r.value]
  else
    let ends ← do
      if ← lineAhead then pure true
      else
        match ← peek with
        | [] => pure true
        | c :: _ => pure ([')', ']', '}', ',', ';', ':'].contains c || (← atWord "in"))
    if ends then finish "yield_expression" [y] else finish "yield_expression" [y, ← r.value]

/-- An operand after an operator. A function with an arrow and a `yield` reach as far as they can. -/
def operand (level : Nat) : Reader Node := do
  let arrowFound ← do
    if ← atArrowStart r then attempt (arrowFunction r) else pure none
  match arrowFound with
  | some a => grow (trailerStep r) a
  | none => if ← atWord "yield" then yieldExpression r else r.expr level

/-- Signs that stand in front of an operand. -/
def signs : List String := ["++", "--", "!", "~", "-", "+"]

def signWords : List String := ["typeof", "void", "delete"]

/-- An operand with the signs around it. -/
def unary : Reader Node := do
  let rest ← peek
  match signs.find? fun o => Text.beginsWith o.toList rest with
  | some o =>
    let op ← sym o
    let e ← operand r 15
    finish (if o = "++" || o = "--" then "update_expression" else "unary_expression") [op.as "operator", e.as "argument"]
  | none =>
    let w ← wordHere
    if signWords.contains w then
      let op ← word w
      finish "unary_expression" [op.as "operator", (← operand r 15).as "argument"]
    else if w = "await" && !(← succeeds (do
        discard <| word "await"
        match ← peek with
        | c :: _ => if [')', ';', ',', '=', ':', '.', ']', '}'].contains c then pure () else fail
        | [] => pure ())) then
      let a ← word "await"
      finish "await_expression" [a, ← operand r 15]
    else if rest.head? = some '<' && r.dialect.typed && !r.dialect.markup then
      let ts ← typeArguments r
      finish "type_assertion" [ts, ← operand r 15]
    else
      let e ← grow (trailerStep r) (← primary r)
      let rest ← peek
      if (Text.beginsWith ['+', '+'] rest || Text.beginsWith ['-', '-'] rest) && !(← lineAhead) then
        let op ← if Text.beginsWith ['+', '+'] rest then sym "++" else sym "--"
        finish "update_expression" [e.as "argument", op.as "operator"]
      else if isTarget e then assigned r e
      else return e

/-- Whether the next word is an operator on types that may stand here. -/
def atTypeOperator (w : String) : Reader Bool := do
  if r.dialect.typed && (← atWord w) then return !((← lineAhead) && (← get).brackets = 0) else return false

/-- Operands and the operators from a level up. -/
def operators (level : Nat) : Reader Node := do
  let step (e : Node) : Reader (Option Node) := do
    if level ≤ 10 && (← atTypeOperator r "as") then
      let a ← word "as"
      let t ← if ← atWord "const" then word "const" else r.type
      return some (← finish "as_expression" [e, a, t])
    else if level ≤ 10 && (← atTypeOperator r "satisfies") then
      let a ← word "satisfies"
      return some (← finish "satisfies_expression" [e, a, ← r.type])
    else
      match ← binaryOperator? level with
      | some (o, l) =>
        let op ← if o = "in" || o = "instanceof" then word o else sym o
        let right ← operand r (if l = 14 then 14 else l + 1)
        return some (← finish "binary_expression" [e.as "left", op.as "operator", right.as "right"])
      | none => return none
  grow step (← unary r)

/-! ## Assignments and conditions -/

/-- One expression without commas. -/
def assignment : Reader Node := do
  let arrowFound ← do
    if ← atArrowStart r then attempt (arrowFunction r) else pure none
  match arrowFound with
  | some a => grow (trailerStep r) a
  | none =>
    if ← atWord "yield" then yieldExpression r
    else
      let e ← operators r 3
      let rest ← peek
      if rest.head? = some '?' && !Text.beginsWith ['?', '.'] rest ||
          (match rest with | '?' :: '.' :: c :: _ => c.isDigit | _ => false) then
        let q ← sym "?"
        let branch (p : Reader Node) : Reader (Node × Node) := do
          let yes ← p
          pure (yes, ← sym ":")
        let (yes, c) ← inBrackets do
          if r.dialect.typed && (← atSym "(") then orElse (branch r.value) (branch (operators r 3))
          else branch r.value
        let no ← r.value
        finish "ternary_expression" [e.as "condition", q, yes.as "consequence", c, no.as "alternative"]
      else assigned r e

/-- An expression of operators that bind at least as tightly as a level. -/
def expression (level : Nat) : Reader Node := do
  match level with
  | 0 =>
    let first ← assignment r
    let rest ← many do
      if ← atSym "," then return some [← sym ",", ← r.value] else return none
    if rest.isEmpty then return first else finish "sequence_expression" (first :: rest.flatten)
  | 1 => assignment r
  | 16 => grow (trailerStep r) (← primary r)
  | 17 => newExpression r
  | 18 => primary r
  | n => if n = 15 then unary r else operators r n

/-! ## Declarations -/

def declarator : Reader Node := do
  let p ← r.pattern
  let sure ← if r.dialect.typed && (← atSym "!") then optSym "!" else pure []
  let t ← optTypeAnnotation r
  let value ← do
    if (← atSym "=") && !(← atSym "==") then
      let e ← sym "="
      pure [e, (← r.value).as "value"]
    else pure []
  finish "variable_declarator" (p.as "name" :: sure ++ t ++ value)

/-- `var`, `let` or `const` with what it declares. -/
def variableDeclaration (w : String) : Reader Node := do
  let k ← word w
  let first ← declarator r
  let rest ← many do
    if ← atSym "," then return some [← sym ",", ← declarator r] else return none
  let all := first :: rest.flatten
  let valued := (all.getLast?.map fun d => (d.child? "value").isSome).getD false
  let kind := if w = "var" then "variable_declaration" else "lexical_declaration"
  let k := if w = "var" then k else k.as "kind"
  finish kind (k :: all ++ [← semicolon r.dialect valued])

def functionDeclaration : Reader Node := do
  let a ← optWord "async"
  let f ← word "function"
  let star ← optSym "*"
  let n ← identifier
  let sig ← callSignature r
  if ← atSym "\x7b" then
    let body ← r.block false
    let m ← lineMark? r.dialect false false
    let kind := if star.isEmpty then "function_declaration" else "generator_function_declaration"
    finish kind (a ++ f :: star ++ n.as "name" :: sig ++ body.as "body" :: m.toList)
  else if r.dialect.typed then
    let close ← do
      match ← lineMark? r.dialect false true with
      | some m => pure m
      | none => sym ";"
    finish "function_signature" (a ++ f :: star ++ n.as "name" :: sig ++ [close])
  else fail

def classDeclaration (ds : List Node) : Reader Node := do
  let front ← if ← atWord "abstract" then optWord "abstract" else pure []
  let c ← word "class"
  let n ← identifier
  let ts ← typeParameters? r
  let h ← heritage r
  let body ← classBody r
  if front.isEmpty then
    let m ← lineMark? r.dialect false false
    finish "class_declaration" (ds.map (·.as "decorator") ++ c :: n.as "name" :: ts ++ h ++ body.as "body" :: m.toList)
  else
    finish "abstract_class_declaration"
      (ds.map (·.as "decorator") ++ front ++ c :: n.as "name" :: ts ++ h ++ [body.as "body"])

def interfaceDeclaration : Reader Node := do
  let i ← word "interface"
  let n ← identifier
  let ts ← typeParameters? r
  let ext ← do
    if ← atWord "extends" then
      let e ← word "extends"
      let first ← r.type
      let rest ← many do
        if ← atSym "," then return some [← sym ",", ← r.type] else return none
      pure [← finish "extends_type_clause" (e :: first :: rest.flatten)]
    else pure []
  let body ← objectType r "interface_body"
  finish "interface_declaration" (i :: n.as "name" :: ts ++ ext ++ [body.as "body"])

def typeAlias : Reader Node := do
  let t ← word "type"
  let n ← identifier
  let ts ← typeParameters? r
  let e ← sym "="
  let v ← r.type
  finish "type_alias_declaration" (t :: n.as "name" :: ts ++ [e, v.as "value", ← semicolon r.dialect false])

def enumDeclaration : Reader Node := do
  let c ← optWord "const"
  let e ← word "enum"
  let n ← identifier
  let body ← finish "enum_body" (← bracketed "\x7b" "\x7d" do
    let m ← memberName r
    if ← atSym "=" then
      let q ← sym "="
      return [← finish "enum_assignment" [m.as "name", q, (← r.value).as "value"]]
    else return [m.as "name"])
  finish "enum_declaration" (c ++ [e, n.as "name", body.as "body"])

/-- Whether a word and then a name on the same line stand here. -/
def atWordThenName (w : String) : Reader Bool := succeeds do
  discard <| word w
  if ← lineAhead then fail
  let n ← wordHere
  if n = "" || n = "in" || n = "instanceof" || n = "of" && w ≠ "let" || n = "as" || n = "satisfies" then fail

def ambientDeclaration : Reader Node := do
  let d ← word "declare"
  if ← succeeds (do discard <| word "global"; discard <| sym "\x7b") then
    let g ← word "global"
    finish "ambient_declaration" [d, g, ← r.block false]
  else
    match ← r.statement with
    | some s => finish "ambient_declaration" [d, s]
    | none => fail

/-- `import a = b.c` -/
def importAlias : Reader Node := do
  let i ← word "import"
  let n ← identifier
  let e ← sym "="
  let first ← identifier
  let v ← grow (fun v => do
    if ← atSym "." then
      let d ← sym "."
      return some (← finish "nested_identifier" [v.as "object", d, (← anyWord "property_identifier").as "property"])
    else return none) first
  finish "import_alias" [i, n, e, v, ← semicolon r.dialect false]

/-- A declaration, if one stands here. -/
def declaration? (ds : List Node) : Reader (Option Node) := do
  let w ← wordHere
  match w with
  | "function" => attempt (functionDeclaration r)
  | "async" =>
    if ← succeeds (do
        discard <| word "async"
        if ← lineAhead then fail
        discard <| word "function") then attempt (functionDeclaration r) else return none
  | "class" => attempt (classDeclaration r ds)
  | "var" => return some (← variableDeclaration r w)
  | "const" =>
    if r.dialect.typed && (← succeeds (do discard <| word "const"; discard <| word "enum")) then
      return some (← enumDeclaration r)
    else return some (← variableDeclaration r w)
  | "let" =>
    if (← atWordThenName "let") || (← succeeds (do
        discard <| word "let"
        if (← atSym "[") || (← atSym "\x7b") then pure () else discard identifier)) then
      return some (← variableDeclaration r w)
    else return none
  | _ =>
    if !r.dialect.typed then return none
    else
      match w with
      | "abstract" =>
        if ← succeeds (do discard <| word "abstract"; discard <| word "class") then
          return some (← classDeclaration r ds)
        else return none
      | "interface" => if ← atWordThenName w then return some (← interfaceDeclaration r) else return none
      | "type" => if ← atWordThenName w then return some (← typeAlias r) else return none
      | "enum" => if ← atWordThenName w then return some (← enumDeclaration r) else return none
      | "declare" => if ← atWordThenName w then return some (← ambientDeclaration r) else return none
      | "namespace" =>
        if ← atWordThenName w then
          let n ← namespaceForm r "namespace" "internal_module"
          return some n
        else return none
      | "module" =>
        if (← atWordThenName w) || (← succeeds (do discard <| word "module"; discard string)) then
          return some (← namespaceForm r "module" "module")
        else return none
      | "import" =>
        if ← succeeds (do discard <| word "import"; discard identifier; discard <| sym "=") then
          attempt (importAlias r)
        else return none
      | _ => return none

/-! ## Imports and exports -/

/-- A name in an import or export list; a string may stand for one. -/
def moduleName : Reader Node := do
  if ← atString then string
  else if (← wordHere) = "default" then word "default" else anyWord "identifier"

/-- `with {…}` after the source of an import. -/
def importAttribute? : Reader (List Node) := do
  if ((← atWord "with") || (← atWord "assert")) && !(← lineAhead) then
    let w ← if ← atWord "with" then word "with" else word "assert"
    return [← finish "import_attribute" [w, ← object r]]
  else return []

def fromClause : Reader (List Node) := do
  let f ← word "from"
  return [f, (← string).as "source"]

/-- A name in an import list, as it is and as it is used here. -/
def importSpecifier : Reader (List Node) := do
  let kindWord ← do
    if r.dialect.typed && ((← atWord "type") || (← atWord "typeof")) then
      let found ← attempt do
        let w ← wordHere
        let t ← word w
        if (← atSym ",") || (← atSym "\x7d") || (← atWord "as") then fail else pure t
      pure found.toList
    else pure []
  let n ← moduleName
  if ← atWord "as" then
    let a ← word "as"
    return [← finish "import_specifier" (kindWord ++ [n.as "name", a, (← anyWord "identifier").as "alias"])]
  else return [← finish "import_specifier" (kindWord ++ [n.as "name"])]

def importClause : Reader Node := do
  let named : Reader Node := do finish "named_imports" (← bracketed "\x7b" "\x7d" (importSpecifier r))
  let all : Reader Node := do
    let s ← sym "*"
    let a ← word "as"
    finish "namespace_import" [s, a, ← identifier]
  if ← atSym "\x7b" then finish "import_clause" [← named]
  else if ← atSym "*" then finish "import_clause" [← all]
  else
    let n ← identifier
    if ← atSym "," then
      let c ← sym ","
      finish "import_clause" [n, c, ← if (← atSym "*") then all else named]
    else finish "import_clause" [n]

def importStatement : Reader Node := do
  let i ← word "import"
  if ← atString then
    let s ← string
    let attr ← importAttribute? r
    finish "import_statement" (i :: s.as "source" :: attr ++ [← semicolon r.dialect false])
  else
    let kindWord ← do
      if r.dialect.typed && ((← atWord "type") || (← atWord "typeof")) then
        let found ← attempt do
          let w ← wordHere
          let t ← word w
          if (← atSym ",") || (← atWord "from") && !(← succeeds (do
              discard <| word "from"; discard <| word "from")) || (← atSym "=") then fail else pure t
        pure found.toList
      else pure []
    let required ← attempt do
      if !r.dialect.typed then fail
      let n ← identifier
      let e ← sym "="
      let q ← word "require"
      let o ← sym "("
      let s ← string
      finish "import_require_clause" [n, e, q, o, s.as "source", ← sym ")"]
    match required with
    | some c => finish "import_statement" (i :: kindWord ++ [c, ← semicolon r.dialect false])
    | none =>
      let c ← importClause r
      let origin ← fromClause
      let attr ← importAttribute? r
      finish "import_statement" (i :: kindWord ++ c :: origin ++ attr ++ [← semicolon r.dialect false])

def exportSpecifier : Reader (List Node) := do
  let kindWord ← do
    if r.dialect.typed && ((← atWord "type") || (← atWord "typeof")) then
      let found ← attempt do
        let w ← wordHere
        let t ← word w
        if (← atSym ",") || (← atSym "\x7d") || (← atWord "as") then fail else pure t
      pure found.toList
    else pure []
  let n ← moduleName
  if ← atWord "as" then
    let a ← word "as"
    return [← finish "export_specifier" (kindWord ++ [n.as "name", a, (← moduleName).as "alias"])]
  else return [← finish "export_specifier" (kindWord ++ [n.as "name"])]

def exportStatement (ds : List Node) : Reader Node := do
  let front := ds.map (·.as "decorator")
  let x ← word "export"
  let clause : Reader Node := do finish "export_clause" (← bracketed "\x7b" "\x7d" exportSpecifier')
  let close : Reader Node := semicolon r.dialect false
  if ← atSym "*" then
    let s ← sym "*"
    if ← atWord "as" then
      let a ← word "as"
      let ns ← finish "namespace_export" [s, a, ← moduleName]
      let origin ← fromClause
      let attr ← importAttribute? r
      finish "export_statement" (front ++ x :: ns :: origin ++ attr ++ [← close])
    else
      let origin ← fromClause
      let attr ← importAttribute? r
      finish "export_statement" (front ++ x :: s :: origin ++ attr ++ [← close])
  else if ← atSym "\x7b" then
    let c ← clause
    if ← atWord "from" then
      let origin ← fromClause
      let attr ← importAttribute? r
      finish "export_statement" (front ++ x :: c :: origin ++ attr ++ [← close])
    else finish "export_statement" (front ++ [x, c, ← close])
  else if ← atWord "default" then
    let d ← word "default"
    match ← declaration? r (← decorators? r) with
    | some n => finish "export_statement" (front ++ [x, d, n.as "declaration"])
    | none =>
      let e ← outsideBrackets r.value
      finish "export_statement" (front ++ [x, d, e.as "value", ← semicolon r.dialect true])
  else
    let typedForm ← attempt do
      if !r.dialect.typed then fail
      if ← atSym "=" then
        let e ← sym "="
        let v ← r.value
        finish "export_statement" (front ++ [x, e, v, ← semicolon r.dialect true])
      else if ← atWord "as" then
        let a ← word "as"
        let n ← word "namespace"
        finish "export_statement" (front ++ [x, a, n, ← identifier, ← close])
      else if ← atWord "type" then
        let t ← word "type"
        if ← atSym "\x7b" then
          let c ← clause
          let origin ← if ← atWord "from" then fromClause else pure []
          finish "export_statement" (front ++ x :: t :: c :: origin ++ [← close])
        else if ← atSym "*" then
          let s ← sym "*"
          let ns ← do
            if ← atWord "as" then
              let a ← word "as"
              pure [← finish "namespace_export" [s, a, ← moduleName]]
            else pure [s]
          let origin ← fromClause
          finish "export_statement" (front ++ x :: t :: ns ++ origin ++ [← close])
        else fail
      else fail
    match typedForm with
    | some n => return n
    | none =>
      match ← declaration? r (← decorators? r) with
      | some n => finish "export_statement" (front ++ [x, n.as "declaration"])
      | none => fail
where
  exportSpecifier' : Reader (List Node) := exportSpecifier r

/-! ## Statements -/

/-- A statement inside a statement. -/
def body : Reader Node := do
  match ← r.statement with
  | some s => return s
  | none => fail

def condition : Reader Node := do
  let o ← sym "("
  inBrackets do
    let e ← r.expr 0
    finish "parenthesized_expression" [o, e, ← sym ")"]

def ifStatement : Reader Node := do
  let i ← word "if"
  let c ← condition r
  let yes ← body r
  let no ← do
    if ← atWord "else" then
      let e ← word "else"
      pure [(← finish "else_clause" [e, ← body r]).as "alternative"]
    else pure []
  finish "if_statement" ([i, c.as "condition", yes.as "consequence"] ++ no)

/-- The head of a loop over the members of something. -/
def forInHead : Reader (List Node) := do
  let o ← sym "("
  inBrackets do
    let w ← wordHere
    let left ← do
      if ["var", "let", "const", "using"].contains w && (← succeeds (do
          discard <| word w; discard r.pattern)) then
        let k ← word w
        let p ← r.pattern
        pure [k.as "kind", p.as "left"]
      else
        let e ← r.expr 16
        pure [(asTarget e).as "left"]
    let op ← if ← atWord "of" then word "of" else word "in"
    let right ← r.expr 0
    return o :: left ++ [op.as "operator", right.as "right", ← sym ")"]

/-- The head of a counting loop. -/
def forHead : Reader (List Node) := do
  let o ← sym "("
  inBrackets do
    let w ← wordHere
    let first ← do
      if ← atSym ";" then finish "empty_statement" [← sym ";"]
      else if ["var", "let", "const"].contains w then variableDeclaration r w
      else
        let e ← r.expr 0
        finish "expression_statement" [e, ← sym ";"]
    let test ← do
      if ← atSym ";" then finish "empty_statement" [← sym ";"]
      else
        let e ← r.expr 0
        finish "expression_statement" [e, ← sym ";"]
    let step ← if ← atSym ")" then pure [] else pure [(← r.expr 0).as "increment"]
    return o :: first.as "initializer" :: test.as "condition" :: step ++ [← sym ")"]

def forStatement : Reader Node := do
  let f ← word "for"
  let a ← optWord "await"
  match ← attempt (forInHead r) with
  | some head => finish "for_in_statement" (f :: a ++ head ++ [(← body r).as "body"])
  | none =>
    let head ← forHead r
    finish "for_statement" (f :: head ++ [(← body r).as "body"])

def switchStatement : Reader Node := do
  let s ← word "switch"
  let v ← condition r
  let o ← sym "\x7b"
  let cases ← many do
    statementGap
    if ← atWord "case" then
      let c ← word "case"
      let e ← outsideBrackets (inBrackets (r.expr 0))
      let colon ← sym ":"
      let inner ← outsideBrackets (many r.statement)
      return some (← finish "switch_case" (c :: e.as "value" :: colon :: inner.map (·.as "body")))
    else if ← atWord "default" then
      let d ← word "default"
      let colon ← sym ":"
      let inner ← outsideBrackets (many r.statement)
      return some (← finish "switch_default" (d :: colon :: inner.map (·.as "body")))
    else return none
  let b ← finish "switch_body" (o :: cases ++ [← sym "\x7d"])
  finish "switch_statement" [s, v.as "value", b.as "body"]

def tryStatement : Reader Node := do
  let t ← word "try"
  let b ← r.block false
  let handler ← do
    if ← atWord "catch" then
      let c ← word "catch"
      let p ← do
        if ← atSym "(" then
          let o ← sym "("
          inBrackets do
            let p ← r.pattern
            let ty ← optTypeAnnotation r
            pure (o :: p.as "parameter" :: ty ++ [← sym ")"])
        else pure []
      pure [(← finish "catch_clause" (c :: p ++ [(← r.block false).as "body"])).as "handler"]
    else pure []
  let last ← do
    if ← atWord "finally" then
      let f ← word "finally"
      pure [(← finish "finally_clause" [f, (← r.block false).as "body"]).as "finalizer"]
    else pure []
  finish "try_statement" (t :: b.as "body" :: handler ++ last)

/-- `return`, `throw`, `break` and the like. -/
def jumpStatement (w kind : String) (argument : Reader Node) : Reader Node := do
  let k ← word w
  match ← lineMark? r.dialect false false with
  | some m => finish kind [k, m]
  | none =>
    if ← atSym ";" then finish kind [k, ← sym ";"]
    else
      let e ← argument
      finish kind [k, e, ← semicolon r.dialect (w = "return" || w = "throw")]

def doStatement : Reader Node := do
  let d ← word "do"
  let b ← body r
  let w ← word "while"
  let c ← condition r
  let close ← attempt (semicolon r.dialect false)
  finish "do_statement" (d :: b.as "body" :: w :: c.as "condition" :: close.toList)

def expressionStatement : Reader Node := do
  let e ← r.expr 0
  finish "expression_statement" [e, ← semicolon r.dialect true]

/-- Whether a label stands here. -/
def atLabel : Reader Bool := succeeds do
  discard identifier
  discard <| sym ":"

/-- A statement, if one stands here. -/
def statement? : Reader (Option Node) := do
  statementGap
  match ← peek with
  | [] => return none
  | '}' :: _ => return none
  | ';' :: _ => return some (← finish "empty_statement" [← sym ";"])
  | '{' :: _ =>
    if ← atObject then return some (← orElse (r.block false) (expressionStatement r))
    else return some (← r.block false)
  | '@' :: _ =>
    let ds ← decorators? r
    if ← atWord "export" then return some (← exportStatement r ds)
    else
      match ← declaration? r ds with
      | some n => return some n
      | none => fail
  | _ =>
    let w ← wordHere
    match w with
    | "case" | "default" => return none
    | "export" => return some (← exportStatement r [])
    | "if" => return some (← ifStatement r)
    | "for" => return some (← forStatement r)
    | "while" =>
      let k ← word w
      let c ← condition r
      return some (← finish "while_statement" [k, c.as "condition", (← body r).as "body"])
    | "do" => return some (← doStatement r)
    | "switch" => return some (← switchStatement r)
    | "try" => return some (← tryStatement r)
    | "with" =>
      let k ← word w
      let c ← condition r
      return some (← finish "with_statement" [k, c.as "object", (← body r).as "body"])
    | "return" => return some (← jumpStatement r w "return_statement" (r.expr 0))
    | "throw" => return some (← jumpStatement r w "throw_statement" (r.expr 0))
    | "break" => return some (← jumpStatement r w "break_statement" (return (← anyWord "statement_identifier").as "label"))
    | "continue" =>
      return some (← jumpStatement r w "continue_statement" (return (← anyWord "statement_identifier").as "label"))
    | "debugger" =>
      let k ← word w
      return some (← finish "debugger_statement" [k, ← semicolon r.dialect false])
    | _ =>
      match ← declaration? r [] with
      | some n => return some n
      | none =>
        if w = "import" && !(← succeeds (do
            discard <| word "import"
            if (← atSym "(") || (← atSym ".") then pure () else fail)) then
          return some (← importStatement r)
        else if ← atLabel then
          let l ← anyWord "statement_identifier"
          let c ← sym ":"
          return some (← finish "labeled_statement" [l.as "label", c, (← body r).as "body"])
        else return some (← expressionStatement r)

/-! ## Tying the rules together -/

/-- The rules that nest, for a number of levels. -/
def rules (dialect : Dialect) : Nat → Rules
  | 0 =>
    { dialect, expr := fun _ => throw .tooDeep, statement := throw .tooDeep, block := fun _ => throw .tooDeep,
      type := throw .tooDeep, pattern := throw .tooDeep, parameters := throw .tooDeep, element := throw .tooDeep,
      substitution := throw .tooDeep }
  | n + 1 =>
    { dialect
      expr := fun level s => expression (rules dialect n) level s
      statement := fun s => statement? (rules dialect n) s
      block := fun operatorFits s => blockBody (rules dialect n) operatorFits s
      type := fun s => typeExpr (rules dialect n) s
      pattern := fun s => bindingPattern (rules dialect n) s
      parameters := fun s => formalParameters (rules dialect n) s
      element := fun s => markupElement (rules dialect n) s
      substitution := fun s => substitutionPart (rules dialect n) s }

/-- A line that names the program to run the file with. -/
def hashBang? : Reader (List Node) := do
  match (← get).rest with
  | '#' :: '!' :: _ =>
    let s ← get
    skipWhile (!isLineEnd ·)
    return [← leaf "hash_bang_line" true s]
  | _ => return []

/-- A whole file. -/
def file (dialect : Dialect) : Reader Node := do
  let top ← hashBang?
  let inner ← many (rules dialect nestingFollowed).statement
  statementGap
  finishRoot "program" (top ++ inner)

end CodeAtlas.Grammar.Script

namespace CodeAtlas.Grammar

/-- The tree of a file in a dialect of JavaScript. -/
def readScript (dialect : Script.Dialect) (source : String) : Option SyntaxTree.Node :=
  readTree (Script.file dialect) source

end CodeAtlas.Grammar
