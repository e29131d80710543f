import CodeAtlas.Profile.Codec
import CodeAtlas.Summary.Basic

/-!
# Summary of the technology

* `TechStack.summarize`: what a repository is built with, or nothing.
* `TechStack.validate`: the lists are clean.
-/

namespace CodeAtlas.TechStack

def schema : Json :=
  let names := ["languages", "frameworks", "libraries", "tools", "databases"]
  Schema.object (names.map fun n => (n, Schema.list Schema.text)) names

def request (s : Snapshot) : Request where
  label := "tech_stack"
  schema := some schema
  messages := [analystInstruction, .user (
    "Repository: " ++ s.fullName ++ "\n\n" ++ s.languageSection ++ s.readmeSection ++ "Files:\n" ++ s.fileDigest ++
    "Identify the technology stack of this codebase from its manifests, configuration and source: programming " ++
    "languages, frameworks, libraries, developer tools and databases. Use canonical names (e.g. \"React\", " ++
    "\"PostgreSQL\").")]

def validate (t : TechStack) : Except String TechStack :=
  .ok { languages := cleanList t.languages, frameworks := cleanList t.frameworks
        libraries := cleanList t.libraries, tools := cleanList t.tools, databases := cleanList t.databases }

def summarize {σ : Type} (generator : Generator σ) (s : Snapshot) (state : σ) : Summary TechStack × σ :=
  structuredOr generator TechStack.decode validate {} (request s) state

end CodeAtlas.TechStack
