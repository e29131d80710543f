import CodeAtlas.Outline.Finding
import CodeAtlas.Text.Find

/-!
# Findings in JavaScript and TypeScript trees

* `Script.visit`: what is noted at each node.
* `Script.isModuleScope`: which declarations make variables of the module.
* `Script.exportNames`: the names that an export statement gives out.
-/

namespace CodeAtlas.Outline.Script

open SyntaxTree

variable (source : String)

/-- The kinds of node that count as a branch. -/
def isBranch (kind : String) : Bool :=
  ["if_statement", "for_statement", "for_in_statement", "while_statement", "do_statement", "switch_case",
   "catch_clause", "ternary_expression"].contains kind

/-- The kinds of value that make a declared name a function. -/
def isFunctionValue (kind : String) : Bool :=
  ["arrow_function", "function_expression", "function", "generator_function"].contains kind

/-- A parameter as written, without its type and default where these stand apart from it. -/
def parameterName (p : Node) : String := (childText? source p "pattern").getD (p.text source)

/-- The parameters in parentheses, or the one parameter of an arrow function without them. -/
def parameterNames (n : Node) : List String :=
  match n.child? "parameters" with
  | some ps => (ps.namedChildren.filter (·.kind ≠ "comment")).map (parameterName source)
  | none => (childText? source n "parameter").toList

/-- A function whose definition spans `outer` and whose parameters and body are in `inner`. -/
def functionFinding (name : String) (outer inner : Node) : Finding :=
  .function { name, snippet := snippet source outer, location := location outer,
              parameters := parameterNames source inner, isAsync := inner.hasChild "async",
              complexity := complexity isBranch inner }

/-- A declaration of the program itself, exported or not. -/
def isModuleScope (surroundings : List Node) : Bool :=
  match surroundings with
  | [] => false
  | parent :: outer =>
    parent.kind == "program" ||
      (parent.kind == "export_statement" && outer.head?.any (·.kind == "program"))

/-- The word that a declaration of variables begins with. -/
def declarationWord (declaration : Node) : String :=
  if declaration.kind == "variable_declaration" then "var"
  else (declaration.children.head?.map (·.text source)).getD "let"

/-- A function if the value is one, else a variable if it is declared by the module. -/
def declaratorFindings (s : Site) : List Finding :=
  match childText? source s.node "name" with
  | none => []
  | some name =>
    match (s.node.child? "value").filter (isFunctionValue ·.kind) with
    | some value => [functionFinding source name s.node value]
    | none =>
      -- a function is noted at any depth, a plain value only where the module declares it
      match s.above with
      | declaration :: surroundings =>
        if isModuleScope surroundings then
          [.variable { name, kind := declarationWord source declaration, snippet := snippet source s.node,
                       location := location s.node }]
        else []
      | [] => []

/-- The kinds of member that count as methods of a class. -/
def isMethod (kind : String) : Bool :=
  ["method_definition", "method_signature", "abstract_method_signature"].contains kind

def methodNames (body : Node) : List String :=
  (body.namedChildren.filter (isMethod ·.kind)).filterMap (childText? source · "name")

def classFindings (kind : ClassKind) (n : Node) : List Finding :=
  match childText? source n "name" with
  | none => []
  | some name =>
    [.classLike { name, kind, snippet := snippet source n, location := location n,
                  methods := ((n.child? "body").map (methodNames source)).getD [] }]

/-- What one part of an import clause names. -/
def importedNames (part : Node) : List String :=
  match part.kind with
  | "identifier" => [part.text source]
  | "import_specifier" => (childText? source part "name").toList
  | _ => []

/-- The names in an import clause, those in braces and after `* as` included. -/
def clauseNames (clause : Node) : List String :=
  clause.namedChildren.flatMap fun part =>
    if part.kind == "named_imports" || part.kind == "namespace_import" then
      part.namedChildren.flatMap (importedNames source)
    else importedNames source part

def importFinding (n : Node) (origin : String) (specifiers : List String) : Finding :=
  .imported { source := unquote origin, specifiers, snippet := snippet source n, location := location n }

def importFindings (n : Node) : List Finding :=
  match childText? source n "source" with
  | none => []
  | some origin =>
    [importFinding source n origin
      ((n.namedChildren.filter (·.kind == "import_clause")).flatMap (clauseNames source))]

/-- The declared names; of an export without a declaration, the names in braces. -/
def listedNames (n : Node) : List String :=
  match n.child? "declaration" with
  | some declaration =>
    match childText? source declaration "name" with
    | some name => [name]
    | none => declaration.namedChildren.filterMap (childText? source · "name")
  | none =>
    (n.namedChildren.filter (·.kind == "export_clause")).flatMap fun clause =>
      clause.namedChildren.filterMap fun specifier =>
        (childText? source specifier "alias") <|> childText? source specifier "name"

/-- The names that an export gives out; a default export of something nameless is called `default`. -/
def exportNames (n : Node) : List String :=
  let names := listedNames source n
  if names.isEmpty && n.hasChild "default" then ["default"] else names

def exportFindings (n : Node) : List Finding :=
  (exportNames source n).map fun name =>
    .exported { name, snippet := snippet source n, location := location n }

/-- What a call of `require` or `import` loads, if it is written as a string. -/
def loadFindings (call callee : Node) : List Finding :=
  if callee.text source ≠ "require" && callee.kind ≠ "import" then []
  else
    match (call.child? "arguments").bind (·.namedChildren.head?) with
    | some argument =>
      if argument.kind == "string" then [importFinding source call (argument.text source) []] else []
    | none => []

def callFindings (n : Node) : List Finding :=
  match n.child? "function" with
  | none => []
  | some callee => callFinding source n callee ++ loadFindings source n callee

/-- What is noted at a node that is gone on below. -/
def inner (s : Site) : List Finding :=
  let n := s.node
  match n.kind with
  | "function_declaration" | "generator_function_declaration" | "method_definition" =>
    ((childText? source n "name").map (functionFinding source · n n)).toList
  | "variable_declarator" => declaratorFindings source s
  | "class_declaration" | "abstract_class_declaration" => classFindings source .classType n
  | "interface_declaration" => classFindings source .interface n
  | "type_alias_declaration" => classFindings source .typeAlias n
  | "enum_declaration" => classFindings source .enum n
  | "export_statement" => exportFindings source n
  | "call_expression" => callFindings source n
  | "new_expression" => ((n.child? "constructor").map (callFinding source n)).getD []
  | "if_statement" => [flowFinding "if" n]
  | "for_statement" | "for_in_statement" | "while_statement" | "do_statement" => [flowFinding "loop" n]
  | "switch_case" => [flowFinding "switch_case" n]
  | "catch_clause" => [flowFinding "catch" n]
  | "ternary_expression" => [flowFinding "ternary" n]
  | _ => []

/-- What is noted at a node. -/
def visit : Visitor := fun s =>
  let n := s.node
  match n.kind with
  | "import_statement" => (importFindings source n, .skip)
  | "comment" => ([commentFinding source n (Text.startsWith (n.text source) "/**")], .skip)
  | "string" | "template_string" => (literalFinding source n, .skip)
  | _ => (inner source s, .children)

end CodeAtlas.Outline.Script
