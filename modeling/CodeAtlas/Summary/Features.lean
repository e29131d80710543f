import CodeAtlas.Profile.Codec
import CodeAtlas.Summary.Basic

/-!
# Summary of the features

* `FeatureSet.summarize`: the features of a repository, or none.
* `FeatureSet.validate`: every feature has a name; there are at most twenty.
-/

namespace CodeAtlas.FeatureSet

/-- The number of features that are kept. -/
def maxFeatures : Nat := 20

def schema : Json :=
  Schema.object
    [("features", Schema.list (Schema.object
      [("name", Schema.text), ("description", Schema.text), ("category", Schema.text),
       ("files", Schema.list Schema.text)]
      ["name", "description"]))]
    ["features"]

def request (s : Snapshot) : Request where
  label := "features"
  schema := some schema
  messages := [analystInstruction, .user (
    "Repository: " ++ s.fullName ++ "\n\n" ++ s.readmeSection ++ s.languageSection ++ "Files:\n" ++ s.fileDigest ++
    "List the main features this codebase implements. For each feature give a short name, a one-sentence " ++
    "description, a category (e.g. authentication, payments, api, ui, data, infrastructure) and the file paths " ++
    "that implement it.")]

/-- Trimmed names and categories, the latter in lower case. -/
def tidy (f : Feature) : Feature :=
  { f with name := Text.trim f.name, category := Text.lower (Text.trim f.category) }

def validate (set : FeatureSet) : Except String FeatureSet :=
  if set.features.any fun f => Text.isAllBlank f.name then .error "feature with empty name"
  else .ok ⟨(set.features.take maxFeatures).map tidy⟩

def summarize {σ : Type} (generator : Generator σ) (s : Snapshot) (state : σ) : Summary FeatureSet × σ :=
  structuredOr generator FeatureSet.decode validate {} (request s) state

end CodeAtlas.FeatureSet
