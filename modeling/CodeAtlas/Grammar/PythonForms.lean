import CodeAtlas.Grammar.PythonWords

/-!
# Expressions and statements of Python

The readers of expressions, statements and blocks, and the reader of a whole file.

* `rules`: the rules that nest, tied together by a number of levels.
* `readPython`: the tree of a file.
-/

namespace CodeAtlas.Grammar.Python

open SyntaxTree Reader

/-- The rules that nest. -/
structure Rules where
  /-- An expression of operators that bind at least as tightly as a level. -/
  expr : Nat → Reader Node
  /-- A pattern of a `case`. -/
  pattern : Reader Node
  /-- The inside of a string up to its closing quote. -/
  replacement : Reader Node
  /-- The next statement of a block, or the statements of the next line. -/
  statements : Reader (Option (List Node))

variable (r : Rules)

/-! Levels of operators: 0 an expression with `lambda` or a condition, 10 `or`, 11 `and`, 12 `not`,
13 comparisons, 14 to 16 bits, 17 shifts, 18 sums, 19 products, 20 signs, 21 powers. -/

def Rules.value : Reader Node := r.expr 0

/-- Several expressions after each other, as one node if there is a comma. -/
def expressions (kind : String) (closed : Reader Bool) (item : Reader Node) : Reader Node := do
  let first ← item
  if ← atSym "," then
    let rest ← many do
      if ← atSym "," then
        let c ← sym ","
        if ← closed then return some [c] else return some [c, ← item]
      else return none
    finish kind (first :: rest.flatten)
  else return first

/-- Whether no expression can begin here. -/
def atExpressionEnd : Reader Bool := do
  match ← peek with
  | [] => return true
  | c :: _ =>
    if [')', ']', '}', '=', ':', ';', '\n', '\r', '#', ',', '!'].contains c then return true
    else
      let w ← wordHere
      return ["for", "in", "if", "else", "from", "as", "async"].contains w

/-- An expression that may have a star in front. -/
def starred (level : Nat) : Reader Node := do
  if ← atSym "**" then
    let s ← sym "**"
    finish "dictionary_splat" [s, ← r.expr level]
  else if ← atSym "*" then
    let s ← sym "*"
    finish "list_splat" [s, ← r.expr level]
  else r.expr level

/-- One or more expressions, as on the right of an assignment. -/
def expressionList : Reader Node := expressions "expression_list" atExpressionEnd (starred r 0)

/-- The form of an expression on the left of an assignment. -/
def asTarget (n : Node) : Node :=
  match n.kind with
  | "expression_list" => { n with kind := "pattern_list" }
  | "tuple" => { n with kind := "tuple_pattern" }
  | "parenthesized_expression" => { n with kind := "tuple_pattern" }
  | "list" => { n with kind := "list_pattern" }
  | "list_splat" => { n with kind := "list_splat_pattern" }
  | _ => n

/-- What is bound by `for`. -/
def targetList : Reader Node := do
  return asTarget (← expressions "expression_list" atExpressionEnd (starred r 14))

def yieldExpression : Reader Node := do
  let y ← word "yield"
  if ← atWord "from" then
    let f ← word "from"
    finish "yield" [y, f, ← r.value]
  else if ← atExpressionEnd then finish "yield" [y]
  else finish "yield" [y, ← expressionList r]

/-! ## Comprehensions -/

def atFor : Reader Bool := do
  if ← atWord "for" then return true
  else if ← atWord "async" then succeeds (do discard <| word "async"; discard <| word "for")
  else return false

/-- The clauses after the body of a comprehension. -/
def comprehensionClauses : Reader (List Node) := many do
  if ← atFor then
    let a ← optWord "async"
    let f ← word "for"
    let left ← targetList r
    let i ← word "in"
    let right ← expressions "expression_list" atExpressionEnd
      (if (← atWord "lambda") then r.value else starred r 10)
    return some (← finish "for_in_clause" (a ++ [f, left.as "left", i, right.as "right"]))
  else if ← atWord "if" then
    let i ← word "if"
    return some (← finish "if_clause" [i, ← if (← atWord "lambda") then r.value else r.expr 10])
  else return none

/-! ## Strings -/

/-- A replacement field of a string. -/
def replacementField : Reader Node := do
  let o ← sym "\x7b"
  inBrackets do
    let e ← if ← atWord "yield" then yieldExpression r else expressionList r
    let eq ← if ← atSym "=" then pure [← sym "="] else pure []
    let conversion ← do
      if ← atSym "!" then
        let s ← get
        next
        skipWhile Text.isNameMore
        pure [← leaf "type_conversion" true s]
      else pure []
    let format ← do
      if (← peek).head? = some ':' then
        let s ← get
        next
        let colon ← leaf ":" false s
        let parts ← many do
          match (← get).rest with
          | '{' :: _ => return some (← r.replacement)
          | '}' :: _ => return none
          | [] => return none
          | _ => skipWhile (fun c => c ≠ '{' && c ≠ '}'); return some (← mark)
        pure [← finish "format_specifier" (colon :: parts)]
      else pure []
    let c ← sym "\x7d"
    finish "interpolation" (o :: e.as "expression" :: eq ++ conversion ++ format ++ [c])

/-- The parts of a string up to its closing quote. -/
def stringParts (formatted : Bool) (quote : List Char) : Reader (List Node) := many do
  let s ← get
  if Text.beginsWith quote s.rest then return none
  match s.rest with
  | '{' :: c :: _ =>
    if formatted && c ≠ '{' then return some (← r.replacement)
    else if formatted then skip 2; return some (← mark)
    else next; return some (← mark)
  | '\\' :: 'N' :: '{' :: _ => skipWhile (· ≠ '}'); next; return some (← mark)
  | '\\' :: c :: _ => skip (if formatted && c = '{' then 1 else 2); return some (← mark)
  | '\n' :: _ => if quote.length = 1 then fail else next; return some (← mark)
  | _ :: _ =>
    let stops (c : Char) : Bool := c = '{' || c = '\\' || c = '\n' || some c = quote.head?
    next
    skipWhile fun c => !stops c
    return some (← mark)
  | [] => fail

def string : Reader Node := do
  match stringOpening (← peek) with
  | none => fail
  | some (letters, quote) =>
    let s ← get
    skip (letters.length + quote.length)
    let first ← leaf "string_start" true s
    let formatted := letters.any fun c => c = 'f' || c = 'F'
    let parts ← stringParts r formatted quote
    let e ← get
    skip quote.length
    finish "string" (first :: parts ++ [← leaf "string_end" true e])

/-- A string, or several strings after each other as one node. -/
def strings : Reader Node := do
  let first ← string r
  let rest ← many do
    if (stringOpening (← peek)).isSome then return some (← string r) else return none
  if rest.isEmpty then return first else finish "concatenated_string" (first :: rest)

/-! ## Parameters -/

def typeNode : Reader Node := do
  if ← atSym "*" then
    let s ← sym "*"
    let t ← finish "splat_type" [s, ← r.expr 10]
    finish "type" [t]
  else finish "type" [← r.value]

/-- One parameter; `typed` says whether it may have an annotation. -/
def parameter (typed : Bool) : Reader Node := do
  let annotation : Reader (List Node) := do
    if typed && (← atSym ":") then
      let c ← sym ":"
      pure [c, (← typeNode r).as "type"]
    else pure []
  if ← atSym "**" then
    let s ← sym "**"
    let p ← finish "dictionary_splat_pattern" [s, ← identifier]
    let t ← annotation
    if t.isEmpty then return p else finish "typed_parameter" (p :: t)
  else if ← atSym "*" then
    let s ← sym "*"
    if (← atSym ",") || (← atSym ")") || (← atSym ":") then finish "keyword_separator" [s]
    else
      let p ← finish "list_splat_pattern" [s, ← identifier]
      let t ← annotation
      if t.isEmpty then return p else finish "typed_parameter" (p :: t)
  else if ← atSym "/" then finish "positional_separator" [← sym "/"]
  else if ← atSym "(" then
    let t := asTarget (← r.expr 21)
    if ← atSym "=" then
      let e ← sym "="
      finish "default_parameter" [t.as "name", e, (← r.value).as "value"]
    else return t
  else
    let n ← identifier
    let t ← annotation
    if ← atSym "=" then
      let e ← sym "="
      let v ← r.value
      let kind := if t.isEmpty then "default_parameter" else "typed_default_parameter"
      finish kind (n.as "name" :: t ++ [e, v.as "value"])
    else if t.isEmpty then return n
    else finish "typed_parameter" (n :: t)

def parameters : Reader Node := do
  let o ← sym "("
  inBrackets do
    let ps ← commaList (atSym ")") (parameter r true)
    finish "parameters" (o :: ps ++ [← sym ")"])

def lambda : Reader Node := do
  let l ← word "lambda"
  let ps ← do
    if ← atSym ":" then pure []
    else
      let list ← commaList (atSym ":") (parameter r false)
      pure [(← finish "lambda_parameters" list).as "parameters"]
  let c ← sym ":"
  finish "lambda" (l :: ps ++ [c, (← r.value).as "body"])

/-! ## Primary expressions -/

/-- Whether `=` stands here and not `==`. -/
def atEquals : Reader Bool := do
  match ← peek with
  | '=' :: '=' :: _ => return false
  | '=' :: _ => return true
  | _ => return false

def argument : Reader Node := do
  let keyword ← attempt do
    let n ← identifier
    if ← atEquals then
      let e ← sym "="
      pure (n, e)
    else fail
  match keyword with
  | some (n, e) => finish "keyword_argument" [n.as "name", e, (← r.value).as "value"]
  | none => starred r 0

def arguments : Reader Node := do
  let o ← sym "("
  inBrackets do
    if ← atSym ")" then finish "argument_list" [o, ← sym ")"]
    else
      let first ← argument r
      if ← atFor then
        let cs ← comprehensionClauses r
        finish "generator_expression" (o :: first.as "body" :: cs ++ [← sym ")"])
      else
        let rest ← many do
          if ← atSym "," then
            let c ← sym ","
            if ← atSym ")" then return some [c] else return some [c, ← argument r]
          else return none
        finish "argument_list" (o :: first :: rest.flatten ++ [← sym ")"])

/-- `(…)`, `[…]`: empty, one expression, several, or a comprehension. -/
def collection (opening closing alone several made : String) : Reader Node := do
  let o ← sym opening
  inBrackets do
    let element : Reader Node := do
      if ← atWord "yield" then yieldExpression r else starred r 0
    if ← atSym closing then finish several [o, ← sym closing]
    else
      let first ← element
      if ← atFor then
        let cs ← comprehensionClauses r
        finish made (o :: first.as "body" :: cs ++ [← sym closing])
      else if ← atSym closing then finish alone [o, first, ← sym closing]
      else
        let rest ← many do
          if ← atSym "," then
            let c ← sym ","
            if ← atSym closing then return some [c] else return some [c, ← element]
          else return none
        finish several (o :: first :: rest.flatten ++ [← sym closing])

/-- A set, a dictionary, or a comprehension of either. -/
def braces : Reader Node := do
  let o ← sym "\x7b"
  inBrackets do
    let element : Reader Node := do
      let e ← starred r 0
      if ← atSym ":" then
        let c ← sym ":"
        finish "pair" [e.as "key", c, (← r.value).as "value"]
      else return e
    if ← atSym "\x7d" then finish "dictionary" [o, ← sym "\x7d"]
    else
      let first ← element
      let keyed := first.kind = "pair" || first.kind = "dictionary_splat"
      if ← atFor then
        let cs ← comprehensionClauses r
        finish (if keyed then "dictionary_comprehension" else "set_comprehension")
          (o :: first.as "body" :: cs ++ [← sym "\x7d"])
      else
        let rest ← many do
          if ← atSym "," then
            let c ← sym ","
            if ← atSym "\x7d" then return some [c] else return some [c, ← element]
          else return none
        finish (if keyed then "dictionary" else "set") (o :: first :: rest.flatten ++ [← sym "\x7d"])

def primary : Reader Node := do
  let rest ← peek
  if (stringOpening rest).isSome then strings r
  else
    match rest with
    | '(' :: _ => collection r "(" ")" "parenthesized_expression" "tuple" "generator_expression"
    | '[' :: _ => collection r "[" "]" "list" "list" "list_comprehension"
    | '{' :: _ => braces r
    | '.' :: '.' :: '.' :: _ => finish "ellipsis" [← sym "..."]
    | '.' :: c :: _ => if c.isDigit then number else fail
    | c :: _ =>
      if c.isDigit then number
      else
        let w ← wordHere
        if w = "True" then finish "true" [← word w]
        else if w = "False" then finish "false" [← word w]
        else if w = "None" then finish "none" [← word w]
        else identifier
    | [] => fail

/-- A subscript: an expression or a slice. -/
def subscript : Reader Node := do
  let atBound : Reader Bool := do
    return !((← atSym ":") || (← atSym ",") || (← atSym "]"))
  let first ← if ← atBound then pure [← starred r 0] else pure []
  if ← atSym ":" then
    let c ← sym ":"
    let upper ← if ← atBound then pure [← r.value] else pure []
    let step ← do
      if ← atSym ":" then
        let c ← sym ":"
        if ← atBound then pure [c, ← r.value] else pure [c]
      else pure []
    finish "slice" (first ++ c :: upper ++ step)
  else
    match first with
    | [e] => return e
    | _ => fail

/-- What follows an operand and belongs to it. -/
def trailerStep (e : Node) : Reader (Option Node) := do
  match ← peek with
  | '(' :: _ =>
    return some (← finish "call" [e.as "function", (← arguments r).as "arguments"])
  | '[' :: _ =>
    let o ← sym "["
    return some (← inBrackets do
      let items ← commaList (atSym "]") (return (← subscript r).as "subscript")
      finish "subscript" (e.as "value" :: o :: items ++ [← sym "]"]))
  | '.' :: c :: _ =>
    if c = '.' || c.isDigit then return none
    else
      let d ← sym "."
      gap
      let s ← get
      let w ← wordHere
      if w = "" then fail
      skip w.length
      return some (← finish "attribute" [e.as "object", d, (← leaf "identifier" true s).as "attribute"])
  | _ => return none

/-! ## Operators -/

/-- Operators between two operands, with their level; longer ones come before their fronts. -/
def binaryOperators : List (String × Nat) :=
  [("**=", 0), ("//=", 0), ("<<=", 0), (">>=", 0), ("**", 21), ("//", 19), ("<<", 17), (">>", 17), ("+=", 0),
   ("-=", 0), ("*=", 0), ("/=", 0), ("%=", 0), ("@=", 0), ("&=", 0), ("|=", 0), ("^=", 0), ("->", 0), ("+", 18),
   ("-", 18), ("*", 19), ("/", 19), ("%", 19), ("@", 19), ("&", 16), ("^", 15), ("|", 14)]

def binaryOperator? (level : Nat) : Reader (Option (String × Nat)) := do
  let rest ← peek
  match binaryOperators.find? fun o => Text.beginsWith o.1.toList rest with
  | some (o, l) => if l = 0 || l < level then return none else return some (o, l)
  | none => return none

/-- The operator of a comparison, if one stands here. -/
def comparison? : Reader (Option Node) := do
  match ← peek with
  | '=' :: '=' :: _ => return some (← sym "==")
  | '!' :: '=' :: _ => return some (← sym "!=")
  | '<' :: '=' :: _ => return some (← sym "<=")
  | '<' :: '>' :: _ => return some (← sym "<>")
  | '>' :: '=' :: _ => return some (← sym ">=")
  | '<' :: '<' :: _ => return none
  | '>' :: '>' :: _ => return none
  | '<' :: _ => return some (← sym "<")
  | '>' :: _ => return some (← sym ">")
  | _ =>
    if ← atWord "in" then return some (← word "in")
    else if ← atWord "is" then
      let i ← word "is"
      if ← atWord "not" then
        let n ← word "not"
        return some { i with kind := "is not", span := ⟨i.span.start, n.span.stop, i.span.startRow, n.span.stopRow⟩ }
      else return some i
    else if ← atWord "not" then
      attempt do
        let n ← word "not"
        let i ← word "in"
        pure { n with kind := "not in", span := ⟨n.span.start, i.span.stop, n.span.startRow, i.span.stopRow⟩ }
    else return none

/-- An operand with the signs in front of it. -/
def unary : Reader Node := do
  match ← peek with
  | '-' :: _ => finish "unary_operator" [← sym "-", (← r.expr 20).as "argument"]
  | '+' :: _ => finish "unary_operator" [← sym "+", (← r.expr 20).as "argument"]
  | '~' :: _ => finish "unary_operator" [← sym "~", (← r.expr 20).as "argument"]
  | _ =>
    let awaited ← do
      if ← atWord "await" then
        attempt do
          let a ← word "await"
          if (← atExpressionEnd) || (← binaryOperator? 1).isSome then fail
          else if (← peek).head? = some '.' then fail
          else pure a
      else pure none
    match awaited with
    | some a => finish "await" [a, ← r.expr 21]
    | none => grow (trailerStep r) (← primary r)

/-- Operands and the operators from a level up. -/
def operators (level : Nat) : Reader Node := do
  let step (e : Node) : Reader (Option Node) := do
    match ← binaryOperator? level with
    | some (o, l) =>
      let op ← sym o
      let right ← r.expr (if l = 21 then 20 else l + 1)
      return some (← finish "binary_operator" [e.as "left", op.as "operator", right.as "right"])
    | none => return none
  let compare (e : Node) : Reader Node := do
    if 13 < level then return e
    else
      let rest ← many do
        match ← comparison? with
        | some o => return some [o.as "operators", ← r.expr 14]
        | none => return none
      if rest.isEmpty then return e else finish "comparison_operator" (e :: rest.flatten)
  let logic (e : Node) : Reader (Option Node) := do
    if level ≤ 11 && (← atWord "and") then
      let o ← word "and"
      return some (← finish "boolean_operator" [e.as "left", o.as "operator", (← r.expr 12).as "right"])
    else if level ≤ 10 && (← atWord "or") then
      let o ← word "or"
      return some (← finish "boolean_operator" [e.as "left", o.as "operator", (← r.expr 11).as "right"])
    else return none
  let first ← do
    if level ≤ 12 && (← atWord "not") then
      let n ← word "not"
      finish "not_operator" [n, (← r.expr 12).as "argument"]
    else compare (← grow step (← unary r))
  grow logic first

/-- An expression of operators that bind at least as tightly as a level. -/
def expression (level : Nat) : Reader Node := do
  if level = 0 && (← atWord "lambda") then lambda r
  else
    let e ← operators r level
    if level ≠ 0 then return e
    else if ← atSym ":=" then
      let a ← sym ":="
      finish "named_expression" [e.as "name", a, (← r.value).as "value"]
    else if ← atWord "if" then
      let found ← attempt do
        let i ← word "if"
        let c ← r.expr 10
        let o ← word "else"
        finish "conditional_expression" [e, i, c, o, ← r.value]
      return found.getD e
    else return e

/-- An expression that may be given a name with `as`. -/
def namedItem : Reader Node := do
  let e ← starred r 0
  if ← atWord "as" then
    let a ← word "as"
    let t ← r.expr 14
    let t ← finish "as_pattern_target" [t]
    finish "as_pattern" [e, a, t.as "alias"]
  else return e

/-! ## Patterns of `case` -/

def dottedName : Reader Node := do
  let first ← identifier
  let rest ← many do
    if ← atSym "." then return some [← sym ".", ← identifier] else return none
  finish "dotted_name" (first :: rest.flatten)

/-- A number, possibly with a sign in front of it, or two numbers with a sign between them. -/
def numberPattern (minus : List Node) : Reader Node := do
  let n ← number
  if (← atSym "+") || (← atSym "-") then
    let o ← if ← atSym "+" then sym "+" else sym "-"
    gap
    finish "complex_pattern" (minus ++ [n, o, ← number])
  else if minus.isEmpty then return n
  else finish "negative_pattern" (minus ++ [n])

/-- A pattern without alternatives. -/
def plainPattern : Reader Node := do
  let nested : Reader Node := do
    let p ← r.pattern
    finish "case_pattern" [p]
  let rest ← peek
  if (stringOpening rest).isSome then strings r
  else
    match rest with
    | '(' :: _ =>
      let o ← sym "("
      inBrackets do
        let items ← commaList (atSym ")") nested
        finish "tuple_pattern" (o :: items ++ [← sym ")"])
    | '[' :: _ =>
      let o ← sym "["
      inBrackets do
        let items ← commaList (atSym "]") nested
        finish "list_pattern" (o :: items ++ [← sym "]"])
    | '{' :: _ =>
      let o ← sym "\x7b"
      inBrackets do
        let items ← commaList (atSym "\x7d") do
          if ← atSym "**" then
            let s ← sym "**"
            finish "splat_pattern" [s, ← identifier]
          else
            let k ← r.pattern
            let c ← sym ":"
            finish "keyed_pattern" [k.as "key", c, (← nested).as "value"]
        finish "dict_pattern" (o :: items ++ [← sym "\x7d"])
    | '*' :: _ =>
      let s ← sym "*"
      finish "splat_pattern" [s, ← identifier]
    | '-' :: _ =>
      let minus ← sym "-"
      numberPattern [minus]
    | c :: _ =>
      if c.isDigit then numberPattern []
      else
        let w ← wordHere
        if w = "True" then finish "true" [← word w]
        else if w = "False" then finish "false" [← word w]
        else if w = "None" then finish "none" [← word w]
        else
          let n ← dottedName
          if ← atSym "(" then
            let o ← sym "("
            inBrackets do
              let items ← commaList (atSym ")") do
                let keyword ← attempt do
                  let k ← identifier
                  let e ← sym "="
                  pure (k, e)
                match keyword with
                | some (k, e) =>
                  let p ← finish "keyword_pattern" [k, e, ← r.pattern]
                  finish "case_pattern" [p]
                | none => nested
              finish "class_pattern" (n :: o :: items ++ [← sym ")"])
          else return n
    | [] => fail

/-- A pattern with alternatives and a name. -/
def casePattern : Reader Node := do
  let first ← plainPattern r
  let rest ← many do
    if ← atSym "|" then return some [← sym "|", ← plainPattern r] else return none
  let p ← if rest.isEmpty then pure first else finish "union_pattern" (first :: rest.flatten)
  if ← atWord "as" then
    let a ← word "as"
    finish "as_pattern" [p, a, ← identifier]
  else return p

/-! ## Simple statements -/

/-- Whether the statement ends here. -/
def atStatementEnd : Reader Bool := do
  match ← peek with
  | [] => return true
  | c :: _ => return c = ';' || c = '\n' || c = '\r' || c = '#'

def importName : Reader Node := do
  let n ← dottedName
  if ← atWord "as" then
    let a ← word "as"
    return (← finish "aliased_import" [n.as "name", a, (← identifier).as "alias"]).as "name"
  else return n.as "name"

/-- The names of an import, up to the end of the statement or a bracket. -/
def importNames : Reader (List Node) := do
  if ← atSym "(" then
    let o ← sym "("
    inBrackets do
      let names ← commaList (atSym ")") importName
      return o :: names ++ [← sym ")"]
  else commaList atStatementEnd importName

def importStatement : Reader Node := do
  let i ← word "import"
  finish "import_statement" (i :: (← commaList atStatementEnd importName))

def importFrom : Reader Node := do
  let f ← word "from"
  let dots ← many do
    if ← atSym "." then return some (← sym ".") else return none
  if dots.isEmpty && (← succeeds (do discard <| word "__future__"; discard <| word "import")) then
    let m ← word "__future__"
    let i ← word "import"
    finish "future_import_statement" (f :: m :: i :: (← importNames))
  else
    let named ← if ← atWord "import" then pure [] else pure [← dottedName]
    let i ← word "import"
    let module ← do
      if dots.isEmpty then pure named
      else
        let front ← finish "import_prefix" dots
        pure [← finish "relative_import" (front :: named)]
    let names ← if ← atSym "*" then pure [← finish "wildcard_import" [← sym "*"]] else importNames
    finish "import_from_statement" (f :: module.map (·.as "module_name") ++ i :: names)

/-- The operators that change what they assign to. -/
def augmenting : List String :=
  ["**=", "//=", "<<=", ">>=", "+=", "-=", "*=", "/=", "%=", "@=", "&=", "|=", "^="]

/-- What stands right of `=`: further assignments, or values. -/
def rightSide : Nat → Reader Node
  | 0 => throw .tooDeep
  | n + 1 => do
    let e ← if ← atWord "yield" then yieldExpression r else expressionList r
    if ← atEquals then
      let q ← sym "="
      let right ← rightSide n
      finish "assignment" [(asTarget e).as "left", q, right.as "right"]
    else
      let rest ← peek
      match augmenting.find? fun o => Text.beginsWith o.toList rest with
      | some o =>
        let op ← sym o
        let right ← rightSide n
        finish "augmented_assignment" [e.as "left", op.as "operator", right.as "right"]
      | none => return e

/-- An assignment or expressions. -/
def expressionStatement : Reader Node := do
  if ← atWord "yield" then
    let y ← yieldExpression r
    finish "expression_statement" [y]
  else
    let e ← expressionList r
    if ← atEquals then
      let q ← sym "="
      let right ← rightSide r nestingFollowed
      let a ← finish "assignment" [(asTarget e).as "left", q, right.as "right"]
      finish "expression_statement" [a]
    else if ← atSym ":" then
      let c ← sym ":"
      let t ← typeNode r
      let value ← do
        if ← atEquals then
          let q ← sym "="
          pure [q, (← rightSide r nestingFollowed).as "right"]
        else pure []
      let a ← finish "assignment" ([(asTarget e).as "left", c, t.as "type"] ++ value)
      finish "expression_statement" [a]
    else
      let rest ← peek
      match augmenting.find? fun o => Text.beginsWith o.toList rest with
      | some o =>
        let op ← sym o
        let right ← rightSide r nestingFollowed
        let a ← finish "augmented_assignment" [e.as "left", op.as "operator", right.as "right"]
        finish "expression_statement" [a]
      | none =>
        if e.kind = "expression_list" then finish "expression_statement" e.children
        else finish "expression_statement" [e]

/-- A statement that is a word and maybe expressions. -/
def wordStatement (w kind : String) : Reader Node := do
  let k ← word w
  if ← atStatementEnd then finish kind [k] else finish kind [k, ← expressionList r]

/-- A print statement without brackets, or with a file to print to. -/
def printStatement : Reader Node := do
  let p ← word "print"
  if ← atSym ">>" then
    let s ← sym ">>"
    let c ← finish "chevron" [s, ← r.value]
    let rest ← many do
      if ← atSym "," then
        let c ← sym ","
        if ← atStatementEnd then return some [c] else return some [c, (← r.value).as "argument"]
      else return none
    finish "print_statement" (p :: c :: rest.flatten)
  else
    match ← peek with
    | c :: _ =>
      if c = '(' || c = '[' || !(Text.isNameStart c || c.isDigit || c = '"' || c = '\'' || c = '{') ||
          (← atExpressionEnd) || (← atWord "and") || (← atWord "or") || (← atWord "is") then fail
      else
        let items ← commaList atStatementEnd (return (← r.value).as "argument")
        finish "print_statement" (p :: items)
    | [] => fail

def simpleStatement : Reader Node := do
  let w ← wordHere
  match w with
  | "import" => importStatement
  | "from" => importFrom
  | "assert" =>
    let a ← word w
    finish "assert_statement" (a :: (← commaList atStatementEnd r.value))
  | "return" => wordStatement r w "return_statement"
  | "del" => wordStatement r w "delete_statement"
  | "pass" => finish "pass_statement" [← word w]
  | "break" => finish "break_statement" [← word w]
  | "continue" => finish "continue_statement" [← word w]
  | "global" =>
    let g ← word w
    finish "global_statement" (g :: (← commaList atStatementEnd identifier))
  | "nonlocal" =>
    let g ← word w
    finish "nonlocal_statement" (g :: (← commaList atStatementEnd identifier))
  | "raise" =>
    let k ← word w
    let what ← if (← atStatementEnd) || (← atWord "from") then pure [] else pure [← expressionList r]
    let cause ← do
      if ← atWord "from" then
        let f ← word "from"
        pure [f, (← r.value).as "cause"]
      else pure []
    finish "raise_statement" (k :: what ++ cause)
  | "print" => orElse (printStatement r) (expressionStatement r)
  | "exec" =>
    orElse (do
      let e ← word w
      if (stringOpening (← peek)).isSome then
        let code ← strings r
        let scope ← do
          if ← atWord "in" then
            let i ← word "in"
            pure (i :: (← commaList atStatementEnd r.value))
          else pure []
        finish "exec_statement" (e :: code.as "code" :: scope)
      else fail) (expressionStatement r)
  | "type" =>
    orElse (do
      let t ← word w
      let left ← (do finish "type" [← grow (trailerStep r) (← identifier)])
      let e ← sym "="
      finish "type_alias_statement" [t, left.as "left", e, (← typeNode r).as "right"]) (expressionStatement r)
  | _ => expressionStatement r

/-- The statements of one line and the end of the line. -/
def simpleLine : Reader (List Node) := do
  let first ← simpleStatement r
  let rest ← many do
    if ← atSym ";" then
      let s ← sym ";"
      if (← atStatementEnd) then return some [s] else return some [s, ← simpleStatement r]
    else return none
  return first :: rest.flatten ++ [← endOfLine]

/-! ## Compound statements -/

/-- What follows a colon: the rest of the line, or a deeper level. -/
def suite : Reader Node := do
  match ← openLevel? with
  | some _ =>
    let inner ← many r.statements
    match ← closeLevel? with
    | some close => finish "block" (inner.flatten ++ [close])
    | none => fail
  | none =>
    let m ← margin
    if m.lineEnds && !m.blocked then finish "block" [← endOfLine]
    else finish "block" (← simpleLine r)

/-- Reads a clause if its word stands on the next line. -/
def clause? (w : String) (clause : Reader Node) : Reader (Option Node) := attempt do
  if ← nextLine then
    if ← atWord w then clause else fail
  else fail

def elseClause : Reader Node := do
  let e ← word "else"
  let c ← sym ":"
  finish "else_clause" [e, c, (← suite r).as "body"]

def optElse : Reader (List Node) := do
  return ((← clause? "else" (elseClause r)).map (·.as "alternative")).toList

def ifStatement : Reader Node := do
  let i ← word "if"
  let c ← r.value
  let colon ← sym ":"
  let body ← suite r
  let more ← many (clause? "elif" do
    let e ← word "elif"
    let c ← r.value
    let colon ← sym ":"
    return (← finish "elif_clause" [e, c.as "condition", colon, (← suite r).as "consequence"]).as "alternative")
  finish "if_statement" ([i, c.as "condition", colon, body.as "consequence"] ++ more ++ (← optElse r))

def forStatement (awaited : List Node) : Reader Node := do
  let f ← word "for"
  let left ← targetList r
  let i ← word "in"
  let right ← expressionList r
  let c ← sym ":"
  let body ← suite r
  finish "for_statement"
    (awaited ++ [f, left.as "left", i, right.as "right", c, body.as "body"] ++ (← optElse r))

def whileStatement : Reader Node := do
  let w ← word "while"
  let c ← r.value
  let colon ← sym ":"
  let body ← suite r
  finish "while_statement" ([w, c.as "condition", colon, body.as "body"] ++ (← optElse r))

def exceptClause : Reader Node := do
  let e ← word "except"
  let star ← if ← atSym "*" then pure [← sym "*"] else pure []
  let what ← do
    if ← atSym ":" then pure []
    else
      let first ← namedItem r
      if ← atSym "," then
        let c ← sym ","
        pure [first, c, ← r.value]
      else pure [first]
  let colon ← sym ":"
  let kind := if star.isEmpty then "except_clause" else "except_group_clause"
  finish kind (e :: star ++ what ++ [colon, ← suite r])

def tryStatement : Reader Node := do
  let t ← word "try"
  let colon ← sym ":"
  let body ← suite r
  let handlers ← many (clause? "except" (exceptClause r))
  let other ← clause? "else" (elseClause r)
  let last ← clause? "finally" do
    let f ← word "finally"
    let c ← sym ":"
    finish "finally_clause" [f, c, ← suite r]
  if handlers.isEmpty && last.isNone then fail
  finish "try_statement" ([t, colon, body.as "body"] ++ handlers ++ other.toList ++ last.toList)

def withStatement (awaited : List Node) : Reader Node := do
  let w ← word "with"
  let item : Reader Node := do finish "with_item" [(← namedItem r).as "value"]
  let bracketed ← attempt do
    let o ← sym "("
    let inner ← inBrackets do
      let items ← commaList (atSym ")") item
      return o :: items ++ [← sym ")"]
    if ← atSym ":" then finish "with_clause" inner else fail
  let clause ← match bracketed with
    | some c => pure c
    | none => finish "with_clause" (← commaList (atSym ":") item)
  let colon ← sym ":"
  finish "with_statement" (awaited ++ [w, clause, colon, (← suite r).as "body"])

def typeParameters? : Reader (List Node) := do
  if ← atSym "[" then
    let o ← sym "["
    inBrackets do
      let ts ← commaList (atSym "]") do
        if ← atSym "**" then
          let s ← sym "**"
          let t ← finish "splat_type" [s, ← identifier]
          finish "type" [t]
        else
          let t ← typeNode r
          if ← atSym ":" then
            let c ← sym ":"
            finish "constrained_type" [t, c, ← typeNode r]
          else if ← atSym "=" then
            let e ← sym "="
            finish "type" [t, e, ← typeNode r]
          else return t
      return [(← finish "type_parameter" (o :: ts ++ [← sym "]"])).as "type_parameters"]
  else return []

def functionDefinition (awaited : List Node) : Reader Node := do
  let d ← word "def"
  let n ← identifier
  let tps ← typeParameters? r
  let ps ← parameters r
  let ret ← do
    if ← atSym "->" then
      let a ← sym "->"
      pure [a, (← typeNode r).as "return_type"]
    else pure []
  let c ← sym ":"
  finish "function_definition"
    (awaited ++ [d, n.as "name"] ++ tps ++ [ps.as "parameters"] ++ ret ++ [c, (← suite r).as "body"])

def classDefinition : Reader Node := do
  let k ← word "class"
  let n ← identifier
  let tps ← typeParameters? r
  let bases ← if ← atSym "(" then pure [(← arguments r).as "superclasses"] else pure []
  let c ← sym ":"
  finish "class_definition" ([k, n.as "name"] ++ tps ++ bases ++ [c, (← suite r).as "body"])

def decoratedDefinition : Reader Node := do
  let first ← decorator
  let more ← many do
    if (← nextLine) && (← atSym "@") then return some (← decorator) else return none
  if !(← nextLine) then fail
  let awaited ← optWord "async"
  let d ← if ← atWord "class" then classDefinition r else functionDefinition r awaited
  finish "decorated_definition" (first :: more ++ [d.as "definition"])
where
  decorator : Reader Node := do
    let a ← sym "@"
    let e ← r.value
    finish "decorator" [a, e, ← endOfLine]

def matchStatement : Reader Node := do
  let m ← word "match"
  if (← atSym "=") || ((← atSym ".") && !(← atSym "...")) || (← atSym ",") || (← atSym ")") then fail
  let subjects ← commaList (atSym ":") (return (← starred r 0).as "subject")
  if subjects.isEmpty then fail
  let colon ← sym ":"
  match ← openLevel? with
  | none => fail
  | some _ =>
    let cases ← many do
      if !(← nextLine) then return none
      if !(← atWord "case") then fail
      let c ← word "case"
      let patterns ← commaList (do return (← atSym ":") || (← atWord "if")) do
        let p ← r.pattern
        finish "case_pattern" [p]
      let guards ← do
        if ← atWord "if" then
          let i ← word "if"
          pure [(← finish "if_clause" [i, ← r.value]).as "guard"]
        else pure []
      let colon ← sym ":"
      return some ((← finish "case_clause" (c :: patterns ++ guards ++ [colon, (← suite r).as "consequence"])).as
        "alternative")
    match ← closeLevel? with
    | none => fail
    | some close =>
      let body ← finish "block" (cases ++ [close])
      finish "match_statement" (m :: subjects ++ [colon, body.as "body"])

/-- The next statement of the innermost level: a compound statement, or all statements of a line. -/
def statement? : Reader (Option (List Node)) := do
  if !(← nextLine) then return none
  let one (p : Reader Node) : Reader (Option (List Node)) := return some [← p]
  if ← atSym "@" then one (decoratedDefinition r)
  else
    match ← wordHere with
    | "if" => one (ifStatement r)
    | "for" => one (forStatement r [])
    | "while" => one (whileStatement r)
    | "try" => one (tryStatement r)
    | "with" => one (withStatement r [])
    | "def" => one (functionDefinition r [])
    | "class" => one (classDefinition r)
    | "async" =>
      let a ← word "async"
      if ← atWord "def" then one (functionDefinition r [a])
      else if ← atWord "for" then one (forStatement r [a])
      else if ← atWord "with" then one (withStatement r [a])
      else fail
    | "match" =>
      match ← attempt (matchStatement r) with
      | some m => return some [m]
      | none => return some (← simpleLine r)
    | _ => return some (← simpleLine r)

/-! ## Tying the rules together -/

/-- The rules that nest, for a number of levels. -/
def rules : Nat → Rules
  | 0 =>
    { expr := fun _ => throw .tooDeep, pattern := throw .tooDeep, replacement := throw .tooDeep,
      statements := throw .tooDeep }
  | n + 1 =>
    { expr := fun level s => expression (rules n) level s
      pattern := fun s => casePattern (rules n) s
      replacement := fun s => replacementField (rules n) s
      statements := fun s => statement? (rules n) s }

/-- A whole file. -/
def file : Reader Node := do
  let inner ← many (rules nestingFollowed).statements
  finishRoot "module" inner.flatten

end CodeAtlas.Grammar.Python

namespace CodeAtlas.Grammar

/-- The tree of a Python file. -/
def readPython (source : String) : Option SyntaxTree.Node := readTree Python.file source

end CodeAtlas.Grammar
