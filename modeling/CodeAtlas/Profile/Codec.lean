import CodeAtlas.Json.Decode
import CodeAtlas.Profile.Basic
import CodeAtlas.Sorted

/-!
# Written form of profiles

Each part of a profile as a JSON value, and back.
-/

namespace CodeAtlas

open Json

def Decode.strings : Decoder (List String) := Decode.list Decode.str

def Feature.encode (f : Feature) : Json :=
  .obj [("name", .str f.name), ("description", .str f.description), ("category", .str f.category),
    ("files", .strings f.files)]

def Feature.decode : Decoder Feature :=
  (Form.start Feature.mk |>.req "name" Decode.str |>.req "description" Decode.str
    |>.dflt "category" Decode.str "" |>.dflt "files" Decode.strings []).decode "Feature"

def FeatureSet.encode (s : FeatureSet) : Json := .obj [("features", .arr (s.features.map Feature.encode))]

def FeatureSet.decode : Decoder FeatureSet :=
  (Form.start FeatureSet.mk |>.req "features" (Decode.list Feature.decode)).decode "FeatureSet"

def DirectoryRole.encode (d : DirectoryRole) : Json := .obj [("path", .str d.path), ("purpose", .str d.purpose)]

def DirectoryRole.decode : Decoder DirectoryRole :=
  (Form.start DirectoryRole.mk |>.req "path" Decode.str |>.req "purpose" Decode.str).decode "DirectoryRole"

def Structure.encode (s : Structure) : Json :=
  .obj [("architecture", .str s.architecture), ("patterns", .strings s.patterns),
    ("directories", .arr (s.directories.map DirectoryRole.encode)), ("entry_points", .strings s.entryPoints)]

def Structure.decode : Decoder Structure :=
  (Form.start Structure.mk |>.req "architecture" Decode.str |>.dflt "patterns" Decode.strings []
    |>.dflt "directories" (Decode.list DirectoryRole.decode) []
    |>.dflt "entry_points" Decode.strings []).decode "Structure"

def TechStack.encode (t : TechStack) : Json :=
  .obj [("languages", .strings t.languages), ("frameworks", .strings t.frameworks),
    ("libraries", .strings t.libraries), ("tools", .strings t.tools), ("databases", .strings t.databases)]

def TechStack.decode : Decoder TechStack :=
  (Form.start TechStack.mk |>.req "languages" Decode.strings |>.dflt "frameworks" Decode.strings []
    |>.dflt "libraries" Decode.strings [] |>.dflt "tools" Decode.strings []
    |>.dflt "databases" Decode.strings []).decode "TechStack"

def Complexity.all : List Complexity := [.low, .medium, .high]

def Complexity.decode : Decoder Complexity := Decode.label (Complexity.all.map fun c => (c.label, c))

/-- Numbers under texts. -/
def encodeCounts (l : List (String × Nat)) : Json := .obj (l.map fun p => (p.1, .nat p.2))

def Metrics.encode (m : Metrics) : Json :=
  .obj [("lines_of_code", .nat m.linesOfCode), ("file_count", .nat m.fileCount),
    ("complexity", .str m.complexity.label), ("maintainability", .float m.maintainability),
    ("languages", encodeCounts m.languages)]

def Metrics.decode : Decoder Metrics :=
  (Form.start (fun lines files complexity maintainability languages =>
      Metrics.mk lines files complexity maintainability (Sorted.ofPairs languages))
    |>.req "lines_of_code" Decode.size |>.req "file_count" Decode.size |>.req "complexity" Complexity.decode
    |>.req "maintainability" Decode.float |>.dflt "languages" (Decode.map Decode.size) []).decode "CodeMetrics"

def Index.encode (i : Index) : Json :=
  .obj [("keywords", .strings i.keywords), ("directories", .strings i.directories),
    ("file_types", .strings i.fileTypes)]

def Index.decode : Decoder Index :=
  (Form.start Index.mk |>.req "keywords" Decode.strings |>.req "directories" Decode.strings
    |>.req "file_types" Decode.strings).decode "SearchableIndex"

end CodeAtlas
