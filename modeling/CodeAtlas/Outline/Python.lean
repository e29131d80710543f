import CodeAtlas.Outline.Finding
import CodeAtlas.Text.Find

/-!
# Findings in Python trees

* `Python.visit`: what is noted at each node.
* `Python.isDocstring`: which statements document what they stand in.
* `Python.exports`: public definitions of the module are what other modules can import.
-/

namespace CodeAtlas.Outline.Python

open SyntaxTree

variable (source : String)

/-- The kinds of node that count as a branch. -/
def isBranch (kind : String) : Bool :=
  ["if_statement", "elif_clause", "for_statement", "while_statement", "except_clause", "conditional_expression",
   "case_clause", "boolean_operator"].contains kind

/-- The name that a parameter binds; separators and starred parameters with a type have none. -/
def parameterName? (p : Node) : Option String :=
  match p.kind with
  | "identifier" => some (p.text source)
  | "default_parameter" | "typed_default_parameter" => childText? source p "name"
  | _ => (p.namedChildren.find? (·.kind == "identifier")).map (·.text source)

def functionFinding (n : Node) : List Finding :=
  match childText? source n "name" with
  | none => []
  | some name =>
    let parameters := ((n.child? "parameters").map fun ps =>
      ps.namedChildren.filterMap (parameterName? source)).getD []
    [.function { name, snippet := snippet source n, location := location n, parameters,
                 isAsync := n.hasChild "async", complexity := complexity isBranch n }]

/-- The definition under decorators, or the node itself. -/
def undecorated? (n : Node) : Option Node :=
  if n.kind == "decorated_definition" then n.child? "definition" else some n

def methodNames (body : Node) : List String :=
  ((body.namedChildren.filterMap undecorated?).filter (·.kind == "function_definition")).filterMap
    (childText? source · "name")

def classFinding (n : Node) : List Finding :=
  match childText? source n "name" with
  | none => []
  | some name =>
    [.classLike { name, kind := .classType, snippet := snippet source n, location := location n,
                  methods := ((n.child? "body").map (methodNames source)).getD [] }]

/-- One import for each module named. -/
def importFindings (n : Node) : List Finding :=
  (n.childrenAs "name").map fun m =>
    let (origin, rename?) :=
      if m.kind == "aliased_import" then ((childText? source m "name").getD "", childText? source m "alias")
      else (m.text source, none)
    .imported { source := origin, specifiers := [rename?.getD origin], snippet := snippet source n,
                location := location n }

/-- One import for the module that the names come from. -/
def importFromFinding (n : Node) : List Finding :=
  match childText? source n "module_name" with
  | none => []
  | some origin =>
    let names := (n.childrenAs "name").map fun m =>
      if m.kind == "aliased_import" then (childText? source m "name").getD "" else m.text source
    let all := if n.namedChildren.any (·.kind == "wildcard_import") then ["*"] else []
    [.imported { source := origin, specifiers := names ++ all, snippet := snippet source n,
                 location := location n }]

/-- A statement of the module that gives a plain name a value. -/
def assignmentFinding (s : Site) : List Finding :=
  if s.parent?.any (·.kind == "module") then
    match s.node.namedChildren.head? with
    | some a =>
      if a.kind == "assignment" then
        match a.child? "left" with
        | some left =>
          if left.kind == "identifier" then
            [.variable { name := left.text source, kind := "assignment", snippet := snippet source s.node,
                         location := location s.node }]
          else []
        | none => []
      else []
    | none => []
  else []

/-- A statement that is one string and has no named sibling before it. -/
def isDocstring (s : Site) : Bool :=
  (match s.node.namedChildren with
    | [c] => c.kind == "string"
    | _ => false) && s.before.isEmpty

/-- What is noted at a node that is gone on below. -/
def inner (s : Site) : List Finding :=
  let n := s.node
  match n.kind with
  | "function_definition" => functionFinding source n
  | "class_definition" => classFinding source n
  | "expression_statement" => assignmentFinding source s
  | "call" => ((n.child? "function").map (callFinding source n)).getD []
  | "if_statement" | "elif_clause" => [flowFinding "if" n]
  | "for_statement" | "while_statement" => [flowFinding "loop" n]
  | "except_clause" => [flowFinding "catch" n]
  | "conditional_expression" => [flowFinding "ternary" n]
  | "case_clause" => [flowFinding "match_arm" n]
  | _ => []

/-- What is noted at a node. -/
def visit : Visitor := fun s =>
  let n := s.node
  match n.kind with
  | "import_statement" => (importFindings source n, .skip)
  | "import_from_statement" => (importFromFinding source n, .skip)
  | "comment" => ([commentFinding source n false], .skip)
  | "string" => (literalFinding source n, .skip)
  | kind =>
    if kind == "expression_statement" && isDocstring s then ([commentFinding source n true], .skip)
    else (inner source s, .children)

/-- The first lines of what stands directly in the module; of a decorated definition, that of the definition. -/
def topLevelLines (root : Node) : List Nat :=
  root.namedChildren.map fun c =>
    if c.kind == "decorated_definition" then
      -- lines are counted from 1, so nothing begins on line 0
      ((c.child? "definition").map (·.span.startRow + 1)).getD 0
    else c.span.startRow + 1

/-- The public functions and then the public classes that begin on a line of the module's own. -/
def exports (root : Node) (functions : List FunctionInfo) (classes : List ClassInfo) : List ExportInfo :=
  let lines := topLevelLines root
  let all : List ExportInfo :=
    functions.map (fun f => ⟨f.name, f.snippet, f.location⟩) ++ classes.map fun c => ⟨c.name, c.snippet, c.location⟩
  all.filter fun e => !Text.startsWith e.name "_" && lines.contains e.location.startLine

end CodeAtlas.Outline.Python
