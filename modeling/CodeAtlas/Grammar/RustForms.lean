import CodeAtlas.Grammar.RustTypes

/-!
# Expressions and items of Rust

The readers of expressions, statements and items, and the reader of a whole file.

* `rules`: the rules that nest, tied together by a number of levels.
* `readRust`: the tree of a file.
-/

namespace CodeAtlas.Grammar.Rust

open SyntaxTree Reader

variable (r : Rules)

/-! ## Blocks and conditions -/

def label? : Reader (List Node) := do
  if quoteIsLifetime (← peek) then
    let found ← attempt do
      let l ← lifetime "label"
      let c ← sym ":"
      pure [l, c]
    return found.getD []
  else return []

/-- Statements up to a closing brace, and a last expression. -/
def blockBody : Reader Node := do
  let label ← label?
  let o ← sym "\x7b"
  let inner ← many r.statement
  finish "block" (label ++ o :: inner ++ [← sym "\x7d"])

/-- What is tested by `if` and `while`. -/
def condition : Reader Node := do
  let operand : Reader Node := do
    if ← atWord "let" then
      let l ← word "let"
      let p ← r.pattern true
      let e ← sym "="
      finish "let_condition" [l, p.as "pattern", e, (← r.expr false 5).as "value"]
    else r.expr false 5
  if !(← atWord "let") then
    match ← attempt (do
      let e ← r.expr false 0
      if ← atSym "&&" then fail else pure e) with
    | some e => return e
    | none => pure ()
  let first ← operand
  let rest ← many do
    if ← atSym "&&" then
      let a ← sym "&&"
      return some [a, ← operand]
    else return none
  if rest.isEmpty then return first else finish "let_chain" (first :: rest.flatten)

def ifExpression : Reader Node := do
  let i ← word "if"
  let c ← condition r
  let b ← r.block
  let other ← do
    if ← atWord "else" then
      let e ← word "else"
      let alternative ← if ← atWord "if" then r.blockForm else r.block
      pure [(← finish "else_clause" [e, alternative]).as "alternative"]
    else pure []
  finish "if_expression" ([i, c.as "condition", b.as "consequence"] ++ other)

/-- Whether an expression just read may stand as a statement without `;`. -/
def endsWithBlock (n : Node) : Bool :=
  ["if_expression", "match_expression", "while_expression", "loop_expression", "for_expression",
   "unsafe_block", "async_block", "gen_block", "try_block", "const_block", "block"].contains n.kind

def matchArm : Reader (Option Node) := do
  if ← atSym "\x7d" then return none
  let attrs ← attributes? r
  let p ← r.pattern true
  let guards ← do
    if ← atWord "if" then
      let i ← word "if"
      pure [i, (← condition r).as "condition"]
    else pure []
  let p ← finish "match_pattern" (p :: guards)
  let arrow ← sym "=>"
  let v ← r.leading
  let comma ← optSym ","
  -- only the last arm and one with a block do without a comma
  if comma.isEmpty && !endsWithBlock v && !(← atSym "\x7d") then fail
  return some (← finish "match_arm" (attrs ++ [p.as "pattern", arrow, v.as "value"] ++ comma))

def matchExpression : Reader Node := do
  let m ← word "match"
  let v ← r.expr false 0
  let o ← sym "\x7b"
  let inner ← attributes? r
  let arms ← many (matchArm r)
  let body ← finish "match_block" (o :: inner ++ arms ++ [← sym "\x7d"])
  finish "match_expression" [m, v.as "value", body.as "body"]

/-- An expression that ends with a block, if one stands here. -/
def blockExpression? : Reader (Option Node) := do
  let rest ← peek
  if rest.head? = some '{' then return some (← r.block)
  else
    let label ← label?
    let w ← wordHere
    if (← peek).head? = some '{' && !label.isEmpty then
      let b ← r.block
      return some { b with
        children := label ++ b.children
        span := { b.span with start := (label.head?.getD b).span.start, startRow := (label.head?.getD b).span.startRow } }
    else if w = "if" then return some (← ifExpression r)
    else if w = "match" then return some (← matchExpression r)
    else if w = "loop" then
      let l ← word "loop"
      return some (← finish "loop_expression" (label ++ [l, (← r.block).as "body"]))
    else if w = "while" then
      let l ← word "while"
      let c ← condition r
      return some (← finish "while_expression" (label ++ [l, c.as "condition", (← r.block).as "body"]))
    else if w = "for" && !(← succeeds (do discard <| word "for"; discard <| sym "<")) then
      let l ← word "for"
      let p ← r.pattern true
      let i ← word "in"
      let v ← r.expr false 0
      return some (← finish "for_expression"
        (label ++ [l, p.as "pattern", i, v.as "value", (← r.block).as "body"]))
    else if !label.isEmpty then fail
    else if ["unsafe", "try"].contains w then
      attempt do finish (w ++ "_block") [← word w, ← r.block]
    else if w = "const" then
      attempt do finish "const_block" [← word w, (← r.block).as "body"]
    else if ["async", "gen"].contains w then
      attempt do finish (w ++ "_block") ([← word w] ++ (← optWord "move") ++ [← r.block])
    else return none

/-! ## Primary expressions -/

def closure : Reader Node := do
  let heads ← many do
    let w ← wordHere
    if ["static", "async", "move"].contains w then return some (← word w) else return none
  let ps ← do
    let o ← sym "|"
    let inner ← commaList (atSym "|") do
      let attrs ← attributes? r
      let p ← r.pattern false
      if ← atSym ":" then
        let c ← sym ":"
        return attrs ++ [← finish "parameter" [p.as "pattern", c, (← r.type true).as "type"]]
      else return attrs ++ [p]
    finish "closure_parameters" (o :: inner ++ [← sym "|"])
  let ret ← returnType? r
  let body ← if ret.isEmpty then r.value else r.block
  finish "closure_expression" (heads ++ ps.as "parameters" :: ret ++ [body.as "body"])

def callArguments : Reader Node := do
  finish "arguments" (← bracketed "(" ")" (return (← attributes? r) ++ [← r.value]))

def fieldInitializer : Reader (List Node) := do
  if ← atSym ".." then
    let d ← sym ".."
    if ← atSym "\x7d" then return [← finish "base_field_initializer" [d]]
    else return [← finish "base_field_initializer" [d, ← r.value]]
  else
    let attrs ← attributes? r
    let n ← match ← literal? with
      | some n => pure n
      | none => name "field_identifier"
    if ← atSym ":" then
      let c ← sym ":"
      return [← finish "field_initializer" (attrs ++ [n.as "field", c, (← r.value).as "value"])]
    else
      return [← finish "shorthand_field_initializer" (attrs ++ [{ n with kind := "identifier" }])]

def structExpression (type : Node) : Reader Node := do
  let body ← finish "field_initializer_list" (← bracketed "\x7b" "\x7d" (fieldInitializer r))
  finish "struct_expression" [type.as "name", body.as "body"]

def arrayExpression : Reader Node := do
  let o ← sym "["
  let attrs ← attributes? r
  if ← atSym "]" then finish "array_expression" (o :: attrs ++ [← sym "]"])
  else
    let first ← r.value
    if ← atSym ";" then
      let s ← sym ";"
      let n ← r.value
      finish "array_expression" (o :: attrs ++ [first, s, n.as "length", ← sym "]"])
    else
      let rest ← many do
        if ← atSym "]" then return none
        let c ← sym ","
        if ← atSym "]" then return some [c]
        let attrs ← attributes? r
        return some (c :: attrs ++ [← r.value])
      finish "array_expression" (o :: attrs ++ first :: rest.flatten ++ [← sym "]"])

def parenthesized : Reader Node := do
  let o ← sym "("
  let attrs ← attributes? r
  if ← atSym ")" then finish "unit_expression" (o :: attrs ++ [← sym ")"])
  else
    let first ← r.value
    if ← atSym ")" then finish "parenthesized_expression" (o :: attrs ++ [first, ← sym ")"])
    else
      let rest ← many do
        if ← atSym ")" then return none
        let c ← sym ","
        if ← atSym ")" then return some [c] else return some [c, ← r.value]
      finish "tuple_expression" (o :: attrs ++ first :: rest.flatten ++ [← sym ")"])

/-- Whether no operand can begin here. -/
def atOperandEnd (structs : Bool) : Reader Bool := do
  match ← peek with
  | '{' :: _ => return !structs
  | '=' :: '>' :: _ => return true
  | c :: _ => return [')', ']', '}', ',', ';'].contains c
  | [] => return true

/-- A name, a path, a macro call or the value of a structure. -/
def pathExpression (structs : Bool) : Reader Node := do
  let p ← path r "scoped_identifier" "identifier"
  if ← atBang then macroCall r p
  else if structs && (← atSym "\x7b") && p.kind ≠ "self" then
    orElse (structExpression r p) (pure p)
  else if p.kind = "generic_type" then return { p with kind := "generic_function" }
  else return p

/-- An expression without operators around it. -/
def primary (structs : Bool) : Reader Node := do
  match ← literal? with
  | some n => return n
  | none =>
    match ← peek with
    | '(' :: _ => parenthesized r
    | '[' :: _ => arrayExpression r
    | '|' :: _ => closure r
    | '.' :: '.' :: _ =>
      let d ← if ← atSym "..=" then sym "..=" else sym ".."
      if ← atOperandEnd structs then finish "range_expression" [d]
      else finish "range_expression" [d, ← r.expr structs 3]
    | _ =>
      match ← blockExpression? r with
      | some b => return b
      | none =>
        let w ← wordHere
        if ["move", "static", "async"].contains w then closure r
        else if w = "return" then
          let k ← word w
          if ← atOperandEnd structs then finish "return_expression" [k]
          else finish "return_expression" [k, ← r.expr structs 0]
        else if w = "yield" then
          let k ← word w
          if ← atOperandEnd structs then finish "yield_expression" [k]
          else finish "yield_expression" [k, ← r.expr structs 0]
        else if w = "break" then
          let k ← word w
          let l ← if quoteIsLifetime (← peek) then pure [← lifetime "label"] else pure []
          if ← atOperandEnd structs then finish "break_expression" (k :: l)
          else finish "break_expression" (k :: l ++ [← r.expr structs 0])
        else if w = "continue" then
          let k ← word w
          let l ← if quoteIsLifetime (← peek) then pure [← lifetime "label"] else pure []
          finish "continue_expression" (k :: l)
        else if w = "_" then anyWord "identifier"
        else pathExpression r structs

/-- What follows an operand and belongs to it. -/
def postfixStep (e : Node) : Reader (Option Node) := do
  match ← peek with
  | '.' :: '.' :: _ => return none
  | '.' :: _ =>
    let d ← sym "."
    let w ← wordHere
    if w = "await" then return some (← finish "await_expression" [e, d, ← word "await"])
    else
      let field ← do
        if w = "" then
          gap
          let s ← get
          skipWhile Char.isDigit
          if (← get).byte = s.byte then fail else leaf "integer_literal" true s
        else anyWord "field_identifier"
      let f ← finish "field_expression" [e.as "value", d, field.as "field"]
      if ← atTurbofish then
        let m ← sym "::"
        return some (← finish "generic_function" [f.as "function", m, (← typeArguments r).as "type_arguments"])
      else return some f
  | '(' :: _ =>
    return some (← finish "call_expression" [e.as "function", (← callArguments r).as "arguments"])
  | '[' :: _ =>
    let o ← sym "["
    let i ← r.value
    return some (← finish "index_expression" [e, o, i, ← sym "]"])
  | '?' :: _ => return some (← finish "try_expression" [e, ← sym "?"])
  | _ => return none

/-- Operators in front of an operand, and the operand. -/
def unary (structs statementLike : Bool) : Reader Node := do
  match ← peek with
  | '-' :: _ => return ← finish "unary_expression" [← sym "-", ← r.expr structs 13]
  | '!' :: _ => return ← finish "unary_expression" [← sym "!", ← r.expr structs 13]
  | '*' :: _ => return ← finish "unary_expression" [← sym "*", ← r.expr structs 13]
  | '&' :: _ =>
    let a ← sym "&"
    let raw ← do
      if ← atWord "raw" then
        let found ← attempt do
          let w ← word "raw"
          let k ← if ← atWord "mut" then wordAs "mut" "mutable_specifier" else word "const"
          pure [w, k]
        pure (found.getD [])
      else pure []
    let mutable ← if ← atWord "mut" then pure [← wordAs "mut" "mutable_specifier"] else pure []
    return ← finish "reference_expression" (a :: raw ++ mutable ++ [(← r.expr structs 13).as "value"])
  | _ => pure ()
  let e ← primary r structs
  if statementLike && endsWithBlock e then
    -- a block at the start of a statement takes only what cannot begin the next one
    match ← peek with
    | '.' :: c :: _ => if c = '.' then return e else grow (postfixStep r) e
    | '?' :: _ => grow (postfixStep r) e
    | _ => return e
  else grow (postfixStep r) e

/-- Operators between two operands, with their level; longer ones come before their fronts. -/
def binaryOperators : List (String × Nat) :=
  [("<<=", 1), (">>=", 1), ("...", 2), ("..=", 2), ("..", 2), ("||", 3), ("&&", 4), ("==", 5), ("!=", 5),
   ("<=", 5), (">=", 5), ("<<", 9), (">>", 9), ("+=", 1), ("-=", 1), ("*=", 1), ("/=", 1), ("%=", 1),
   ("&=", 1), ("|=", 1), ("^=", 1), ("=>", 0), ("=", 1), ("<", 5), (">", 5), ("|", 6), ("^", 7), ("&", 8),
   ("+", 10), ("-", 10), ("*", 11), ("/", 11), ("%", 11)]

/-- The operator here, if it binds at least as tightly as a level. -/
def operator? (level : Nat) : Reader (Option (String × Nat)) := do
  let rest ← peek
  match binaryOperators.find? fun o => Text.beginsWith o.1.toList rest with
  | some (o, l) =>
    if l = 0 || l < level then return none
    else if o = "&&" then
      if ← succeeds (do discard <| sym "&&"; discard <| word "let") then return none else return some (o, l)
    else return some (o, l)
  | none => return none

/-- The kind of the node for an operator between two operands. -/
def operatorKind (o : String) (level : Nat) : String :=
  if level = 2 then "range_expression"
  else if o = "=" then "assignment_expression"
  else if level = 1 then "compound_assignment_expr"
  else "binary_expression"

/-- One more operator with its right operand. -/
def operatorStep (structs : Bool) (level : Nat) (e : Node) : Reader (Option Node) := do
  if (← atWord "as") && level ≤ 12 then
    let a ← word "as"
    return some (← finish "type_cast_expression" [e.as "value", a, (← r.type false).as "type"])
  match ← operator? level with
  | none => return none
  | some (o, l) =>
    let op ← sym o
    if l = 2 && (← atOperandEnd structs) then return some (← finish "range_expression" [e, op])
    else
      let right ← r.expr structs (l + 1)
      return some (← finish (operatorKind o l) [e.as "left", op.as "operator", right.as "right"])

/-- An expression of operators that bind at least as tightly as a level. -/
def expression (structs : Bool) (level : Nat) : Reader Node := do
  grow (operatorStep r structs level) (← unary r structs false)

/-- An expression that a form ending with a block closes when it begins with one. -/
def leadingExpression : Reader Node := do
  let e ← unary r true true
  if endsWithBlock e then return e else grow (operatorStep r true 0) e

/-- A form that ends with a block. -/
def blockForm : Reader Node := do
  match ← blockExpression? r with
  | some e => return e
  | none => fail

/-! ## Items -/

def declarationList : Reader Node := do
  let o ← sym "\x7b"
  let inner ← many r.statement
  finish "declaration_list" (o :: inner ++ [← sym "\x7d"])

def fieldDeclarations : Reader Node := do
  finish "field_declaration_list" (← bracketed "\x7b" "\x7d" do
    let attrs ← attributes? r
    let v ← visibility? r
    let n ← name "field_identifier"
    let c ← sym ":"
    return attrs ++ [← finish "field_declaration" (v ++ [n.as "name", c, (← r.type true).as "type"])])

def orderedFields : Reader Node := do
  finish "ordered_field_declaration_list" (← bracketed "(" ")" do
    let attrs ← attributes? r
    let v ← visibility? r
    return attrs ++ v ++ [(← r.type true).as "type"])

/-- The name after the word of an item. -/
def itemName (kind : String) : Reader Node := do
  if (← peek).head? = some '$' then return (← metavariable).as "name" else return (← anyWord kind).as "name"

def functionItem (vis : List Node) : Reader Node := do
  let ms ← functionModifiers?
  let f ← word "fn"
  let n ← itemName "identifier"
  let tps ← typeParameters? r
  let ps ← parameters r
  let ret ← returnType? r
  let w ← whereClause? r
  let front := vis ++ ms ++ [f, n] ++ tps ++ [ps.as "parameters"] ++ ret ++ w
  if ← atSym ";" then finish "function_signature_item" (front ++ [← sym ";"])
  else finish "function_item" (front ++ [(← r.block).as "body"])

def structItem (vis : List Node) : Reader Node := do
  let s ← word "struct"
  let n ← itemName "type_identifier"
  let tps ← typeParameters? r
  let w ← whereClause? r
  let front := vis ++ [s, n] ++ tps ++ w
  if ← atSym "\x7b" then finish "struct_item" (front ++ [(← fieldDeclarations r).as "body"])
  else if ← atSym "(" then
    let b ← orderedFields r
    let w ← whereClause? r
    finish "struct_item" (front ++ [b.as "body"] ++ w ++ [← sym ";"])
  else finish "struct_item" (front ++ [← sym ";"])

def unionItem (vis : List Node) : Reader Node := do
  let s ← word "union"
  let n ← itemName "type_identifier"
  let tps ← typeParameters? r
  let w ← whereClause? r
  finish "union_item" (vis ++ [s, n] ++ tps ++ w ++ [(← fieldDeclarations r).as "body"])

def enumItem (vis : List Node) : Reader Node := do
  let s ← word "enum"
  let n ← itemName "type_identifier"
  let tps ← typeParameters? r
  let w ← whereClause? r
  let variants ← bracketed "\x7b" "\x7d" do
    let attrs ← attributes? r
    let v ← visibility? r
    let n ← itemName "identifier"
    let body ← do
      if ← atSym "\x7b" then pure [(← fieldDeclarations r).as "body"]
      else if ← atSym "(" then pure [(← orderedFields r).as "body"]
      else pure []
    let value ← do
      if ← atSym "=" then
        let e ← sym "="
        pure [e, (← r.value).as "value"]
      else pure []
    return attrs ++ [← finish "enum_variant" (v ++ [n] ++ body ++ value)]
  let body ← finish "enum_variant_list" variants
  finish "enum_item" (vis ++ [s, n] ++ tps ++ w ++ [body.as "body"])

def traitItem (vis : List Node) : Reader Node := do
  let u ← optWord "unsafe"
  let t ← word "trait"
  let n ← itemName "type_identifier"
  let tps ← typeParameters? r
  let bs ← traitBounds? r
  let w ← whereClause? r
  finish "trait_item" (vis ++ u ++ [t, n] ++ tps ++ bs ++ w ++ [(← declarationList r).as "body"])

def implItem : Reader Node := do
  let u ← optWord "unsafe"
  let i ← word "impl"
  let tps ← typeParameters? r
  let bang ← optSym "!"
  let t ← r.type false
  let types ← do
    if ← atWord "for" then
      let f ← word "for"
      pure (bang ++ [t.as "trait", f, (← r.type true).as "type"])
    else pure (bang ++ [t.as "type"])
  let w ← whereClause? r
  let body ← if ← atSym ";" then sym ";" else pure ((← declarationList r).as "body")
  finish "impl_item" (u ++ [i] ++ tps ++ types ++ w ++ [body])

def typeItem (vis : List Node) : Reader Node := do
  let t ← word "type"
  let n ← itemName "type_identifier"
  let tps ← typeParameters? r
  let bs ← traitBounds? r
  let w ← whereClause? r
  if ← atSym "=" then
    let e ← sym "="
    let v ← r.type true
    let last ← whereClause? r
    finish "type_item" (vis ++ [t, n] ++ tps ++ bs ++ w ++ [e, v.as "type"] ++ last ++ [← sym ";"])
  else finish "associated_type" (vis ++ [t, n] ++ tps ++ bs ++ w ++ [← sym ";"])

def constItem (vis : List Node) : Reader Node := do
  let c ← word "const"
  let n ← itemName "identifier"
  let colon ← sym ":"
  let t ← r.type true
  let value ← do
    if ← atSym "=" then
      let e ← sym "="
      pure [e, (← r.value).as "value"]
    else pure []
  finish "const_item" (vis ++ [c, n, colon, t.as "type"] ++ value ++ [← sym ";"])

def staticItem (vis : List Node) : Reader Node := do
  let c ← word "static"
  let ref ← optWord "ref"
  let mutable ← if ← atWord "mut" then pure [← wordAs "mut" "mutable_specifier"] else pure []
  let n ← itemName "identifier"
  let colon ← sym ":"
  let t ← r.type true
  let value ← do
    if ← atSym "=" then
      let e ← sym "="
      pure [e, (← r.value).as "value"]
    else pure []
  finish "static_item" (vis ++ [c] ++ ref ++ mutable ++ [n, colon, t.as "type"] ++ value ++ [← sym ";"])

def modItem (vis : List Node) : Reader Node := do
  let m ← word "mod"
  let n ← itemName "identifier"
  if ← atSym ";" then finish "mod_item" (vis ++ [m, n, ← sym ";"])
  else finish "mod_item" (vis ++ [m, n, (← declarationList r).as "body"])

def externItem (vis : List Node) : Reader Node := do
  let found ← attempt do
    let e ← word "extern"
    let c ← anyWord "crate"
    if c.span.stop - c.span.start = 5 then pure () else fail
    let n ← anyWord "identifier"
    let renamed ← do
      if ← atWord "as" then
        let a ← word "as"
        pure [a, (← anyWord "identifier").as "alias"]
      else pure []
    finish "extern_crate_declaration" (vis ++ [e, c, n.as "name"] ++ renamed ++ [← sym ";"])
  match found with
  | some n => return n
  | none =>
    let e ← externModifier
    if ← atSym ";" then finish "foreign_mod_item" (vis ++ [e, ← sym ";"])
    else finish "foreign_mod_item" (vis ++ [e, (← declarationList r).as "body"])

/-- What a `use` declaration names. -/
def useClause : Reader Node := do
  let list : Reader Node := do finish "use_list" (← bracketed "\x7b" "\x7d" (return [← r.useClause]))
  match ← peek with
  | '{' :: _ => list
  | '*' :: _ => finish "use_wildcard" [← sym "*"]
  | ':' :: ':' :: c :: _ =>
    if c = '{' then
      let m ← sym "::"
      finish "scoped_use_list" [m, (← list).as "list"]
    else if c = '*' then finish "use_wildcard" [← sym "::", ← sym "*"]
    else pathClause list
  | _ => pathClause list
where
  pathClause (list : Reader Node) : Reader Node := do
    let p ← path r "scoped_identifier" "identifier"
    if ← atSym "::" then
      let m ← sym "::"
      if ← atSym "*" then finish "use_wildcard" [p, m, ← sym "*"]
      else finish "scoped_use_list" [p.as "path", m, (← list).as "list"]
    else if ← atWord "as" then
      let a ← word "as"
      finish "use_as_clause" [p.as "path", a, (← anyWord "identifier").as "alias"]
    else return p

def useDeclaration (vis : List Node) : Reader Node := do
  let u ← word "use"
  let c ← r.useClause
  finish "use_declaration" (vis ++ [u, c.as "argument", ← sym ";"])

def macroDefinition : Reader Node := do
  let m ← word "macro_rules"
  let b ← sym "!"
  let n ← itemName "identifier"
  let (o, c) ← match ← peek with
    | '(' :: _ => pure ("(", ")")
    | '[' :: _ => pure ("[", "]")
    | _ => pure ("\x7b", "\x7d")
  let first ← sym o
  let rules ← many do
    if ← atSym c then return none
    let left ← r.tokens
    let arrow ← sym "=>"
    let right ← r.tokens
    let rule ← finish "macro_rule"
      [{ left with kind := "token_tree_pattern", role := some "left" }, arrow, right.as "right"]
    return some (rule :: (← optSym ";"))
  let last ← sym c
  let semi ← if o = "\x7b" then pure [] else pure [← sym ";"]
  finish "macro_definition" (m :: b :: n :: first :: rules.flatten ++ last :: semi)

def letDeclaration : Reader Node := do
  let l ← word "let"
  let mutable ← do
    if ← atWord "mut" then pure [← wordAs "mut" "mutable_specifier"] else pure []
  let p ← r.pattern true
  let type ← do
    if ← atSym ":" then
      let c ← sym ":"
      pure [c, (← r.type true).as "type"]
    else pure []
  let value ← do
    if ← atSym "=" then
      let e ← sym "="
      pure [e, (← r.value).as "value"]
    else pure []
  let other ← do
    if ← atWord "else" then
      let e ← word "else"
      pure [e, (← r.block).as "alternative"]
    else pure []
  finish "let_declaration" (l :: mutable ++ p.as "pattern" :: type ++ value ++ other ++ [← sym ";"])

/-- Whether the words here lead up to `fn`. -/
def atFunction : Reader Bool := succeeds do
  discard functionModifiers?
  discard <| word "fn"

/-- Whether some words stand here one after the other. -/
def atWords (ws : List String) : Reader Bool := succeeds (ws.forM fun w => discard (word w))

/-- Whether a word and then a name stand here. -/
def atWordThenName (w : String) : Reader Bool := succeeds do
  discard <| word w
  discard <| name "identifier"

/-- An item, if one stands here. -/
def item? : Reader (Option Node) := do
  let vis ← visibility? r
  let w ← wordHere
  if w = "fn" || (["const", "async", "unsafe", "extern", "default", "gen"].contains w && (← atFunction)) then
    return some (← functionItem r vis)
  else if w = "struct" then return some (← structItem r vis)
  else if w = "enum" then return some (← enumItem r vis)
  else if w = "union" && (← atWordThenName "union") then return some (← unionItem r vis)
  else if w = "trait" || (w = "unsafe" && (← atWords ["unsafe", "trait"])) then return some (← traitItem r vis)
  else if w = "impl" || (w = "unsafe" && (← atWords ["unsafe", "impl"])) then return some (← implItem r)
  else if w = "type" then return some (← typeItem r vis)
  else if w = "const" && !(← succeeds (do discard <| word "const"; discard <| sym "\x7b")) then
    return some (← constItem r vis)
  else if w = "static" then
    if ← succeeds (discard (closure r)) then return none else return some (← staticItem r vis)
  else if w = "mod" then return some (← modItem r vis)
  else if w = "extern" then return some (← externItem r vis)
  else if w = "use" then return some (← useDeclaration r vis)
  else if w = "let" then return some (← letDeclaration r)
  else if w = "macro_rules" && (← succeeds (do
      discard <| word "macro_rules"; discard <| sym "!"; discard <| itemName "identifier")) then
    return some (← macroDefinition r)
  else if vis.isEmpty then return none
  else fail

/-- A statement, if one stands here: an item, an expression with `;`, an expression that ends with a block, or
the last expression of a block. -/
def statement? : Reader (Option Node) := do
  match ← peek with
  | [] => return none
  | '}' :: _ => return none
  | ';' :: _ => return some (← finish "empty_statement" [← sym ";"])
  | '#' :: _ => return some (← attributeItem r)
  | _ =>
    match ← item? r with
    | some n => return some n
    | none =>
      let e ← r.leading
      if ← atSym ";" then return some (← finish "expression_statement" [e, ← sym ";"])
      else if endsWithBlock e then return some (← finish "expression_statement" [e])
      else if e.kind = "macro_invocation" || (← atSym "\x7d") then return some e
      else fail

/-! ## Tying the rules together -/

/-- The rules that nest, for a number of levels. -/
def rules : Nat → Rules
  | 0 =>
    { expr := fun _ _ => throw .tooDeep, leading := throw .tooDeep, blockForm := throw .tooDeep,
      type := fun _ => throw .tooDeep, pattern := fun _ => throw .tooDeep, block := throw .tooDeep,
      statement := throw .tooDeep, tokens := throw .tooDeep, useClause := throw .tooDeep }
  | n + 1 =>
    { expr := fun structs level s => expression (rules n) structs level s
      leading := fun s => leadingExpression (rules n) s
      blockForm := fun s => blockForm (rules n) s
      type := fun bounds s => typeExpr (rules n) bounds s
      pattern := fun alternatives s => patternExpr (rules n) alternatives s
      block := fun s => blockBody (rules n) s
      statement := fun s => statement? (rules n) s
      tokens := fun s => tokenTree (rules n) s
      useClause := fun s => useClause (rules n) s }

/-- A line that names the program to run the file with. -/
def shebang? : Reader (List Node) := do
  match (← get).rest with
  | '#' :: '!' :: rest =>
    if (rest.dropWhile fun c => Text.isBlank c && c ≠ '\n').head? = some '[' then return []
    else
      let s ← get
      skipWhile (· ≠ '\n')
      return [← leaf "shebang" true s]
  | _ => return []

/-- A whole file. -/
def file : Reader Node := do
  let top ← shebang?
  let inner ← many (rules nestingFollowed).statement
  gap
  finishRoot "source_file" (top ++ inner)

end CodeAtlas.Grammar.Rust

namespace CodeAtlas.Grammar

/-- The tree of a Rust file. -/
def readRust (source : String) : Option SyntaxTree.Node := readTree Rust.file source

end CodeAtlas.Grammar
