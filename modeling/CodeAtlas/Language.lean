import CodeAtlas.Text.Find
import CodeAtlas.Text.Lower

/-!
# Languages

The label of a file is read off its path. Some labels stand for program source, and some of those for a
language that has a grammar.

* `Language.ofLabel?`: the grammar for a label.
* `labelOfPath`: the label of a path.
* `isCodeLabel`: whether a label stands for program source.
-/

namespace CodeAtlas

/-- The languages with a grammar. -/
inductive Language where
  | rust
  | javaScript
  | typeScript
  | tsx
  | python
deriving Repr, DecidableEq

/-- The grammar for a label, in any letter case. -/
def Language.ofLabel? (label : String) : Option Language :=
  match Text.lower label with
  | "rust" | "rs" => some .rust
  | "javascript" | "js" | "jsx" => some .javaScript
  | "typescript" | "ts" => some .typeScript
  | "tsx" => some .tsx
  | "python" | "py" => some .python
  | _ => none

/-- What follows the last `/` of a path. -/
def fileName (path : String) : String := ((Text.splitLast? path "/").map (·.2)).getD path

/-- What follows the last `.` of a file name, in lower case; nothing if there is none. -/
def extension? (path : String) : Option String :=
  (Text.splitLast? (fileName path) ".").map fun p => Text.lower p.2

/-- The label for an extension. -/
def labelOfExtension : String → String
  | "rs" => "rust"
  | "py" | "pyi" => "python"
  | "js" | "mjs" | "cjs" => "javascript"
  | "jsx" => "jsx"
  | "ts" | "mts" | "cts" => "typescript"
  | "tsx" => "tsx"
  | "go" => "go"
  | "java" => "java"
  | "c" => "c"
  | "cpp" | "cc" | "h" | "hpp" => "cpp"
  | "cs" => "csharp"
  | "rb" => "ruby"
  | "php" => "php"
  | "swift" => "swift"
  | "kt" | "kts" => "kotlin"
  | "scala" => "scala"
  | "vue" => "vue"
  | "svelte" => "svelte"
  | "sh" | "bash" | "zsh" => "shell"
  | "sql" => "sql"
  | "html" => "html"
  | "css" | "scss" | "less" => "css"
  | "json" => "json"
  | "yaml" | "yml" => "yaml"
  | "toml" => "toml"
  | "md" | "rst" | "txt" => "text"
  | "graphql" | "gql" => "graphql"
  | "prisma" => "prisma"
  | _ => "text"

/-- The label of a path. -/
def labelOfPath (path : String) : String := labelOfExtension ((extension? path).getD "")

/-- The labels that stand for program source. -/
def codeLabels : List String :=
  ["rust", "python", "javascript", "jsx", "typescript", "tsx", "go", "java", "c", "cpp", "csharp", "ruby",
   "php", "swift", "kotlin", "scala", "vue", "svelte", "shell", "sql"]

def isCodeLabel (label : String) : Bool := codeLabels.contains label

end CodeAtlas
