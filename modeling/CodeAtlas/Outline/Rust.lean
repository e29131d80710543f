import CodeAtlas.Outline.Finding
import CodeAtlas.Text.Find

/-!
# Findings in Rust trees

* `Rust.visit`: what is noted at each node.
* `Rust.splitUse`: the source and the specifiers of a `use` declaration.
* `Rust.attach`: methods of `impl` blocks are added to the first declared type of their name.
-/

namespace CodeAtlas.Outline.Rust

open SyntaxTree

variable (source : String)

/-- The kinds of node that count as a branch. -/
def isBranch (kind : String) : Bool :=
  ["if_expression", "for_expression", "while_expression", "loop_expression", "match_arm",
   "try_expression"].contains kind

/-- The kinds of item that can be public. -/
def itemKinds : List String :=
  ["function_item", "struct_item", "enum_item", "trait_item", "type_item", "const_item", "static_item",
   "mod_item"]

/-- A public item of the file or of a module written inside it. -/
def isPublicItem (s : Site) : Bool :=
  itemKinds.contains s.node.kind && s.node.hasChild "visibility_modifier" &&
    match s.above with
    | [] => false
    | parent :: outer =>
      parent.kind == "source_file" ||
        (parent.kind == "declaration_list" && outer.head?.any (·.kind == "mod_item"))

def parameterNames (n : Node) : List String :=
  match n.child? "parameters" with
  | none => []
  | some ps => ps.namedChildren.filterMap fun p =>
    if p.kind == "self_parameter" then some "self"
    else if p.kind == "parameter" then childText? source p "pattern" else none

def isAsync (n : Node) : Bool :=
  n.children.any fun c => c.kind == "function_modifiers" && Text.contains (c.text source) "async"

def functionFinding (n : Node) : List Finding :=
  match childText? source n "name" with
  | none => []
  | some name =>
    [.function { name, snippet := snippet source n, location := location n,
                 parameters := parameterNames source n, isAsync := isAsync source n,
                 complexity := complexity isBranch n }]

/-- The names of the functions declared in a body. -/
def declared (kinds : List String) (body : Node) : List String :=
  (body.namedChildren.filter fun m => kinds.contains m.kind).filterMap (childText? source · "name")

def classFinding (kind : ClassKind) (n : Node) : List Finding :=
  match childText? source n "name" with
  | none => []
  | some name =>
    let methods := if kind = .trait then
        ((n.child? "body").map (declared source ["function_item", "function_signature_item"])).getD []
      else []
    [.classLike { name, kind, snippet := snippet source n, location := location n, methods }]

/-- The methods of an `impl` block, under the name of its type without arguments. -/
def implFinding (n : Node) : List Finding :=
  match n.child? "type", n.child? "body" with
  | some type, some body =>
    let name? := if type.kind == "generic_type" then childText? source type "type" else some (type.text source)
    match name? with
    | some name => [.methods name (declared source ["function_item"] body)]
    | none => []
  | _, _ => []

/-- The part of a path that a `use` declaration renames its last name to, or that name itself. -/
def renamed (last : String) : String := Text.trim ((Text.split last " as ").getLast?.getD last)

/-- The source and the specifiers of what a `use` declaration names, blanks already made single. -/
def splitUse (argument : String) : String × List String :=
  match Text.splitFirst? argument "::\x7b" with
  | some (front, list) =>
    let names := Text.splitBy (· == ',') (Text.dropBackAll list "\x7d")
    (front, (names.map Text.trim).filter (· ≠ ""))
  | none =>
    match Text.splitLast? argument "::" with
    | some (front, last) => (front, [renamed last])
    | none => (argument, [argument])

def useFinding (n : Node) : List Finding :=
  match childText? source n "argument" with
  | none => []
  | some argument =>
    let (origin, specifiers) := splitUse (" ".intercalate (Text.words argument))
    [.imported { source := origin, specifiers, snippet := snippet source n, location := location n }]

def externCrateFinding (n : Node) : List Finding :=
  match childText? source n "name" with
  | none => []
  | some name =>
    [.imported { source := name, specifiers := [name], snippet := snippet source n, location := location n }]

def variableFinding (kind : String) (n : Node) : List Finding :=
  match childText? source n "name" with
  | none => []
  | some name => [.variable { name, kind, snippet := snippet source n, location := location n }]

def exportFinding (s : Site) : List Finding :=
  if isPublicItem s then
    match childText? source s.node "name" with
    | some name => [.exported { name, snippet := snippet source s.node, location := location s.node }]
    | none => []
  else []

/-- A comment that documents something, by its first characters. -/
def isDocComment (text : String) : Bool :=
  ["///", "//!", "/**", "/*!"].any (Text.startsWith text)

/-- What is noted at a node that is gone on below. -/
def inner (n : Node) : List Finding :=
  match n.kind with
  | "function_item" => functionFinding source n
  | "struct_item" => classFinding source .struct n
  | "enum_item" => classFinding source .enum n
  | "trait_item" => classFinding source .trait n
  | "type_item" => classFinding source .typeAlias n
  | "impl_item" => implFinding source n
  | "const_item" => variableFinding source "const" n
  | "static_item" => variableFinding source "static" n
  | "call_expression" => ((n.child? "function").map (callFinding source n)).getD []
  | "macro_invocation" => ((n.child? "macro").map (callFinding source n)).getD []
  | "if_expression" => [flowFinding "if" n]
  | "for_expression" | "while_expression" | "loop_expression" => [flowFinding "loop" n]
  | "match_arm" => [flowFinding "match_arm" n]
  | _ => []

/-- What is noted at a node. -/
def visit : Visitor := fun s =>
  let n := s.node
  match n.kind with
  | "use_declaration" => (useFinding source n, .skip)
  | "extern_crate_declaration" => (externCrateFinding source n, .skip)
  | "line_comment" | "block_comment" => ([commentFinding source n (isDocComment (n.text source))], .skip)
  | "string_literal" | "raw_string_literal" => (literalFinding source n, .skip)
  | _ => (inner source n ++ exportFinding source s, .children)

/-- Adds methods to the first class of a name. -/
def addMethods (type : String) (names : List String) : List ClassInfo → List ClassInfo
  | [] => []
  | c :: cs => if c.name = type then { c with methods := c.methods ++ names } :: cs else c :: addMethods type names cs

/-- Adds the methods of all `impl` blocks, in order. -/
def attach (found : List Finding) (classes : List ClassInfo) : List ClassInfo :=
  found.foldl (fun classes f =>
    match f with
    | .methods type names => addMethods type names classes
    | _ => classes) classes

end CodeAtlas.Outline.Rust
