import CodeAtlas.Json.Decode
import CodeAtlas.Outline.Artifact

/-!
# Written form of outlines

Each part of an outline as a JSON value, and back. A record is written member by member in its declared order;
lists that may be left out are read as empty.
-/

namespace CodeAtlas.Outline

open Json

def Location.encode (l : Location) : Json :=
  .obj [("start_line", .nat l.startLine), ("end_line", .nat l.endLine)]

def Location.decode : Decoder Location :=
  (Form.start Location.mk |>.req "start_line" Decode.size |>.req "end_line" Decode.size).decode "Location"

def FunctionInfo.encode (f : FunctionInfo) : Json :=
  .obj [("name", .str f.name), ("snippet", .str f.snippet), ("location", f.location.encode),
    ("parameters", .strings f.parameters), ("is_async", .bool f.isAsync), ("complexity", .nat f.complexity)]

def FunctionInfo.decode : Decoder FunctionInfo :=
  (Form.start FunctionInfo.mk |>.req "name" Decode.str |>.req "snippet" Decode.str
    |>.req "location" Location.decode |>.dflt "parameters" (Decode.list Decode.str) []
    |>.dflt "is_async" Decode.bool false |>.req "complexity" (Decode.natOfBits 32 "u32")).decode "FunctionInfo"

def ClassKind.label : ClassKind → String
  | .classType => "class"
  | .interface => "interface"
  | .typeAlias => "type_alias"
  | .struct => "struct"
  | .enum => "enum"
  | .trait => "trait"

def ClassKind.all : List ClassKind := [.classType, .interface, .typeAlias, .struct, .enum, .trait]

def ClassKind.decode : Decoder ClassKind := Decode.label (ClassKind.all.map fun k => (k.label, k))

def ClassInfo.encode (c : ClassInfo) : Json :=
  .obj [("name", .str c.name), ("kind", .str c.kind.label), ("snippet", .str c.snippet),
    ("location", c.location.encode), ("methods", .strings c.methods)]

def ClassInfo.decode : Decoder ClassInfo :=
  (Form.start ClassInfo.mk |>.req "name" Decode.str |>.req "kind" ClassKind.decode
    |>.req "snippet" Decode.str |>.req "location" Location.decode
    |>.dflt "methods" (Decode.list Decode.str) []).decode "ClassInfo"

def ImportInfo.encode (i : ImportInfo) : Json :=
  .obj [("source", .str i.source), ("specifiers", .strings i.specifiers), ("snippet", .str i.snippet),
    ("location", i.location.encode)]

def ImportInfo.decode : Decoder ImportInfo :=
  (Form.start ImportInfo.mk |>.req "source" Decode.str |>.dflt "specifiers" (Decode.list Decode.str) []
    |>.req "snippet" Decode.str |>.req "location" Location.decode).decode "ImportInfo"

def ExportInfo.encode (e : ExportInfo) : Json :=
  .obj [("name", .str e.name), ("snippet", .str e.snippet), ("location", e.location.encode)]

def ExportInfo.decode : Decoder ExportInfo :=
  (Form.start ExportInfo.mk |>.req "name" Decode.str |>.req "snippet" Decode.str
    |>.req "location" Location.decode).decode "ExportInfo"

def VariableInfo.encode (v : VariableInfo) : Json :=
  .obj [("name", .str v.name), ("kind", .str v.kind), ("snippet", .str v.snippet),
    ("location", v.location.encode)]

def VariableInfo.decode : Decoder VariableInfo :=
  (Form.start VariableInfo.mk |>.req "name" Decode.str |>.req "kind" Decode.str
    |>.req "snippet" Decode.str |>.req "location" Location.decode).decode "VariableInfo"

def CommentInfo.encode (c : CommentInfo) : Json :=
  .obj [("text", .str c.text), ("is_doc", .bool c.isDoc), ("location", c.location.encode)]

def CommentInfo.decode : Decoder CommentInfo :=
  (Form.start CommentInfo.mk |>.req "text" Decode.str |>.req "is_doc" Decode.bool
    |>.req "location" Location.decode).decode "CommentInfo"

def CallInfo.encode (c : CallInfo) : Json :=
  .obj [("callee", .str c.callee), ("location", c.location.encode)]

def CallInfo.decode : Decoder CallInfo :=
  (Form.start CallInfo.mk |>.req "callee" Decode.str |>.req "location" Location.decode).decode "CallInfo"

def ControlFlowInfo.encode (c : ControlFlowInfo) : Json :=
  .obj [("kind", .str c.kind), ("location", c.location.encode)]

def ControlFlowInfo.decode : Decoder ControlFlowInfo :=
  (Form.start ControlFlowInfo.mk |>.req "kind" Decode.str
    |>.req "location" Location.decode).decode "ControlFlowInfo"

def LiteralInfo.encode (l : LiteralInfo) : Json :=
  .obj [("value", .str l.value), ("location", l.location.encode)]

def LiteralInfo.decode : Decoder LiteralInfo :=
  (Form.start LiteralInfo.mk |>.req "value" Decode.str |>.req "location" Location.decode).decode "LiteralInfo"

def Artifact.encode (a : Artifact) : Json :=
  .obj [("path", .str a.path), ("language", .str a.language), ("size", .nat a.size),
    ("parse_success", .bool a.parseSuccess),
    ("functions", .arr (a.functions.map FunctionInfo.encode)),
    ("classes", .arr (a.classes.map ClassInfo.encode)),
    ("imports", .arr (a.imports.map ImportInfo.encode)),
    ("exports", .arr (a.exports.map ExportInfo.encode)),
    ("variables", .arr (a.bindings.map VariableInfo.encode)),
    ("comments", .arr (a.comments.map CommentInfo.encode)),
    ("calls", .arr (a.calls.map CallInfo.encode)),
    ("control_flow", .arr (a.controlFlow.map ControlFlowInfo.encode)),
    ("literals", .arr (a.literals.map LiteralInfo.encode)),
    ("dependencies", .strings a.dependencies)]

def Artifact.decode : Decoder Artifact :=
  (Form.start Artifact.mk |>.req "path" Decode.str |>.req "language" Decode.str |>.req "size" Decode.size
    |>.req "parse_success" Decode.bool
    |>.req "functions" (Decode.list FunctionInfo.decode)
    |>.req "classes" (Decode.list ClassInfo.decode)
    |>.req "imports" (Decode.list ImportInfo.decode)
    |>.req "exports" (Decode.list ExportInfo.decode)
    |>.req "variables" (Decode.list VariableInfo.decode)
    |>.req "comments" (Decode.list CommentInfo.decode)
    |>.dflt "calls" (Decode.list CallInfo.decode) []
    |>.dflt "control_flow" (Decode.list ControlFlowInfo.decode) []
    |>.dflt "literals" (Decode.list LiteralInfo.decode) []
    |>.dflt "dependencies" (Decode.list Decode.str) []).decode "AstArtifact"

end CodeAtlas.Outline
