import CodeAtlas.Host.Basic
import CodeAtlas.Language
import CodeAtlas.Text.Find
import CodeAtlas.Text.Lower

/-!
# Files worth fetching

Files that describe a project are always taken. Source files follow, up to a number, if no directory above them
holds what others wrote or what was built.

* `selectFiles`: the paths taken from a tree.
* `isHighPriority`, `isSourceFile`, `inNoiseDirectory`: the classes of paths.
-/

namespace CodeAtlas.Selection

/-- Directories that hold dependencies, builds and the like. -/
def noiseDirectories : List String :=
  ["node_modules", ".git", "vendor", "dist", "build", "target", "out", ".next", "__pycache__", "venv", ".venv",
   "coverage"]

/-- Files that say how a project is built or configured. -/
def manifests : List String :=
  ["package.json", "tsconfig.json", "cargo.toml", "go.mod", "pyproject.toml", "requirements.txt", "setup.py",
   "pipfile", "gemfile", "composer.json", "pom.xml", "build.gradle", "build.gradle.kts", "cmakelists.txt",
   "makefile", "dockerfile", "docker-compose.yml", "docker-compose.yaml", ".gitlab-ci.yml", "vercel.json",
   "netlify.toml"]

/-- How the names of configuration files begin. -/
def configurationFronts : List String :=
  ["next.config.", "vite.config.", "webpack.config.", "nuxt.config.", "svelte.config.", "astro.config.",
   "tailwind.config.", "remix.config.", "angular.json", "babel.config.", "jest.config."]

/-- Names, up to the first point, of files where a program begins. -/
def entryStems : List String := ["index", "main", "app", "server", "lib", "mod", "__init__"]

/-- Parts of paths of schemas, migrations and workflows. -/
def telltaleParts : List String :=
  ["schema.prisma", "/migrations/", "migrations/", ".github/workflows/", "schema.graphql", "schema.sql"]

def sourceExtensions : List String :=
  ["ts", "tsx", "js", "jsx", "mjs", "cjs", "py", "rs", "go", "java", "kt", "rb", "php", "cs", "swift", "c", "cc",
   "cpp", "h", "hpp", "scala", "vue", "svelte"]

/-- A directory above the file is one of the noise directories. -/
def inNoiseDirectory (path : String) : Bool :=
  (Text.split path "/").dropLast.any (noiseDirectories.contains ·)

def isSourceFile (path : String) : Bool :=
  match extension? path with
  | some e => sourceExtensions.contains e
  | none => false

/-- A file that describes a project, by its path in lower case. A source file does so if a program begins in it
and it stands at the root. -/
def describesProject (path : String) : Bool :=
  let name := fileName path
  manifests.contains name || configurationFronts.any (Text.startsWith name ·) ||
    telltaleParts.any (Text.contains path ·) || Text.startsWith name "readme" ||
    (Text.startsWith path "docs/" && Text.endsWith name ".md") ||
    (isSourceFile path && entryStems.contains ((Text.split name ".").headD "") && !Text.contains path "/")

def isHighPriority (path : String) : Bool :=
  !inNoiseDirectory path && describesProject (Text.lower path)

/-- What has been taken from the entries seen so far, each list last first. -/
structure Taken where
  seen : List String := []
  high : List String := []
  medium : List String := []
deriving Repr

/-- Takes an entry if it is a file not met before. -/
def Taken.add (cap : Nat) (t : Taken) (e : Entry) : Taken :=
  if e.kind ≠ .blob || t.seen.contains e.path then t
  else
    let t := { t with seen := e.path :: t.seen }
    if isHighPriority e.path then { t with high := e.path :: t.high }
    else if isSourceFile e.path && !inNoiseDirectory e.path && t.medium.length < cap then
      { t with medium := e.path :: t.medium }
    else t

/-- The paths taken from a tree: those of high priority, then at most `cap` source files, both in the order of
the tree. -/
def selectFiles (entries : List Entry) (cap : Nat) : List String :=
  let t := entries.foldl (Taken.add cap) {}
  t.high.reverse ++ t.medium.reverse

end CodeAtlas.Selection
