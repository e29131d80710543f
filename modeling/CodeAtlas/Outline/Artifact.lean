/-!
# Outlines of files

An outline lists what stands in one file: functions, classes, imports and so on, each with its text and its
lines. It is plain data and holds nothing of the tree it was made from.
-/

namespace CodeAtlas.Outline

/-- A range of lines, counted from 1, both ends included. -/
structure Location where
  startLine : Nat := 0
  endLine : Nat := 0
deriving Repr, DecidableEq, Inhabited

structure FunctionInfo where
  name : String
  snippet : String
  location : Location
  parameters : List String := []
  isAsync : Bool := false
  /-- One more than the number of branches and loops in the function. -/
  complexity : Nat
deriving Repr, DecidableEq

inductive ClassKind where
  | classType
  | interface
  | typeAlias
  | struct
  | enum
  | trait
deriving Repr, DecidableEq

structure ClassInfo where
  name : String
  kind : ClassKind
  snippet : String
  location : Location
  methods : List String := []
deriving Repr, DecidableEq

structure ImportInfo where
  /-- The module as it is written. -/
  source : String
  specifiers : List String := []
  snippet : String
  location : Location
deriving Repr, DecidableEq

structure ExportInfo where
  name : String
  snippet : String
  location : Location
deriving Repr, DecidableEq

structure VariableInfo where
  name : String
  /-- `const`, `let`, `var`, `static` or `assignment`. -/
  kind : String
  snippet : String
  location : Location
deriving Repr, DecidableEq

structure CommentInfo where
  text : String
  isDoc : Bool
  location : Location
deriving Repr, DecidableEq

structure CallInfo where
  callee : String
  location : Location
deriving Repr, DecidableEq

structure ControlFlowInfo where
  /-- `if`, `loop`, `switch_case`, `catch`, `ternary` or `match_arm`. -/
  kind : String
  location : Location
deriving Repr, DecidableEq

structure LiteralInfo where
  value : String
  location : Location
deriving Repr, DecidableEq

/-- The outline of one file. -/
structure Artifact where
  path : String := ""
  language : String := ""
  /-- The length of the text in bytes. -/
  size : Nat := 0
  parseSuccess : Bool := false
  functions : List FunctionInfo := []
  classes : List ClassInfo := []
  imports : List ImportInfo := []
  exports : List ExportInfo := []
  bindings : List VariableInfo := []
  comments : List CommentInfo := []
  calls : List CallInfo := []
  controlFlow : List ControlFlowInfo := []
  literals : List LiteralInfo := []
  /-- What the imports refer to, each once, in the order of their first mention. -/
  dependencies : List String := []
deriving Repr, DecidableEq, Inhabited

namespace Artifact

def elementCount (a : Artifact) : Nat :=
  a.functions.length + a.classes.length + a.imports.length + a.bindings.length + a.comments.length

/-- The outline of a file that was not parsed: it has a path, a label and a size, and nothing in it. -/
def degraded (path language content : String) : Artifact :=
  { path, language, size := content.utf8ByteSize }

end Artifact

end CodeAtlas.Outline
