import CodeAtlas.Profile.Codec
import CodeAtlas.Summary.Basic

/-!
# Summary of the structure

* `Structure.summarize`: the structure of a repository, or an unknown one.
* `Structure.validate`: there is an architecture, and lists are clean.
-/

namespace CodeAtlas.Structure

def schema : Json :=
  Schema.object
    [("architecture", Schema.text), ("patterns", Schema.list Schema.text),
     ("directories", Schema.list (Schema.object [("path", Schema.text), ("purpose", Schema.text)]
       ["path", "purpose"])),
     ("entry_points", Schema.list Schema.text)]
    ["architecture"]

def request (s : Snapshot) : Request where
  label := "structure"
  schema := some schema
  messages := [analystInstruction, .user (
    "Repository: " ++ s.fullName ++ "\n\n" ++ s.readmeSection ++ "Selected paths:\n" ++
    "\n".intercalate (s.files.map (·.path)) ++ "\n\nFiles:\n" ++ s.fileDigest ++
    "Describe the architecture of this codebase: an architecture label (e.g. monolith, layered, mvc, " ++
    "microservices, library, cli, monorepo), the design patterns in use, the purpose of each top-level " ++
    "directory, and the entry-point files.")]

def validate (s : Structure) : Except String Structure :=
  let architecture := Text.lower (Text.trim s.architecture)
  if architecture = "" then .error "empty architecture"
  else
    .ok { architecture, patterns := cleanList s.patterns
          directories := s.directories.filter fun d => !Text.isAllBlank d.path
          entryPoints := cleanList s.entryPoints }

def summarize {σ : Type} (generator : Generator σ) (s : Snapshot) (state : σ) : Summary Structure × σ :=
  structuredOr generator Structure.decode validate {} (request s) state

end CodeAtlas.Structure
