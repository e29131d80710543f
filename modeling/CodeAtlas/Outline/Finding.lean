import CodeAtlas.Outline.Artifact
import CodeAtlas.Text.Blank
import CodeAtlas.Text.Lines
import CodeAtlas.SyntaxTree.Walk

/-!
# Findings

What a visitor notes at a node of a tree. An outline is made of the findings of one walk, in the order of
the walk.

* `survey`: the findings of a walk.
* `Finding.functions` and its siblings: the findings of one sort.
-/

namespace CodeAtlas.Outline

open SyntaxTree

/-- Something noted at a node. -/
inductive Finding where
  | function (info : FunctionInfo)
  | classLike (info : ClassInfo)
  /-- Methods that belong to a type declared elsewhere in the file. -/
  | methods (type : String) (names : List String)
  | imported (info : ImportInfo)
  | exported (info : ExportInfo)
  | variable (info : VariableInfo)
  | comment (info : CommentInfo)
  | call (info : CallInfo)
  | controlFlow (info : ControlFlowInfo)
  | literal (info : LiteralInfo)
deriving Repr, DecidableEq

namespace Finding

def functions (fs : List Finding) : List FunctionInfo := fs.filterMap fun | .function i => some i | _ => none
def classes (fs : List Finding) : List ClassInfo := fs.filterMap fun | .classLike i => some i | _ => none
def imports (fs : List Finding) : List ImportInfo := fs.filterMap fun | .imported i => some i | _ => none
def exports (fs : List Finding) : List ExportInfo := fs.filterMap fun | .exported i => some i | _ => none
def bindings (fs : List Finding) : List VariableInfo := fs.filterMap fun | .variable i => some i | _ => none
def comments (fs : List Finding) : List CommentInfo := fs.filterMap fun | .comment i => some i | _ => none
def calls (fs : List Finding) : List CallInfo := fs.filterMap fun | .call i => some i | _ => none
def flows (fs : List Finding) : List ControlFlowInfo := fs.filterMap fun | .controlFlow i => some i | _ => none
def literals (fs : List Finding) : List LiteralInfo := fs.filterMap fun | .literal i => some i | _ => none

end Finding

/-- What a visitor finds at a site, and whether it goes on below it. -/
abbrev Visitor := Site → List Finding × Descent

/-- All findings of a visitor in a tree, in the order of the walk. -/
def survey (visitor : Visitor) (root : Node) : List Finding :=
  (walk (fun (found : Array Finding) s =>
    let (more, descent) := visitor s
    (found ++ more, descent)) root #[]).toList

/-! ## What is noted of a node -/

/-- The number of characters kept of a snippet. -/
def snippetChars : Nat := 240

/-- The number of characters kept of a literal. -/
def literalChars : Nat := 120

/-- The number of characters kept of what is called. -/
def calleeChars : Nat := 80

def location (n : Node) : Location := ⟨n.span.startRow + 1, n.span.stopRow + 1⟩

/-- The first three lines of a node, up to a bound. -/
def snippet (source : String) (n : Node) : String :=
  Text.truncate snippetChars ("\n".intercalate ((Text.lines (n.text source)).take 3))

/-- The text of the child in a role. -/
def childText? (source : String) (n : Node) (role : String) : Option String :=
  (n.child? role).map (·.text source)

def isQuote (c : Char) : Bool := c == '"' || c == '\'' || c == '\x60'

/-- A text without the quotes around it. -/
def unquote (text : String) : String := Text.trimOf isQuote text

def callFinding (source : String) (call callee : Node) : List Finding :=
  let name := Text.truncate calleeChars (callee.text source)
  if name = "" then [] else [.call ⟨name, location call⟩]

def literalFinding (source : String) (n : Node) : List Finding :=
  let value := unquote (n.text source)
  if value = "" then [] else [.literal ⟨Text.truncate literalChars value, location n⟩]

def commentFinding (source : String) (n : Node) (isDoc : Bool) : Finding :=
  .comment ⟨Text.trim (n.text source), isDoc, location n⟩

def flowFinding (kind : String) (n : Node) : Finding := .controlFlow ⟨kind, location n⟩

end CodeAtlas.Outline
