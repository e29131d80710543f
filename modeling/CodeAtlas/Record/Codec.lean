import CodeAtlas.Outline.Codec
import CodeAtlas.Profile.Codec
import CodeAtlas.Record.Basic

/-!
# Written form of records

Repositories, analyses and results as JSON values, and back.
-/

namespace CodeAtlas

open Json

def Decode.count : Decoder Nat := Decode.natOfBits 64 "u64"

def Repository.encode (r : Repository) : Json :=
  .obj [("id", r.id.encode), ("full_name", .str r.fullName), ("owner", .str r.owner),
    ("description", .ofOption .str r.description), ("primary_language", .ofOption .str r.primaryLanguage),
    ("stars", .nat r.stars), ("forks", .nat r.forks), ("created_at", r.createdAt.encode),
    ("last_analyzed_at", .ofOption Instant.encode r.lastAnalyzedAt)]

def Repository.decode : Decoder Repository :=
  (Form.start Repository.mk |>.req "id" Ident.decode |>.req "full_name" Decode.str |>.req "owner" Decode.str
    |>.opt "description" Decode.str |>.opt "primary_language" Decode.str
    |>.dflt "stars" Decode.count 0 |>.dflt "forks" Decode.count 0
    |>.req "created_at" Instant.decode |>.opt "last_analyzed_at" Instant.decode).decode "Repository"

def Status.label : Status → String
  | .inProgress => "IN_PROGRESS"
  | .completed => "COMPLETED"
  | .failed => "FAILED"

def Status.all : List Status := [.inProgress, .completed, .failed]

def Status.decode : Decoder Status := Decode.label (Status.all.map fun s => (s.label, s))

def Result.encode (r : Result) : Json :=
  .obj [("features", r.features.encode), ("structure", r.layout.encode), ("tech_stack", r.techStack.encode),
    ("ast_artifacts", .arr (r.artifacts.map Outline.Artifact.encode)), ("code_metrics", r.metrics.encode),
    ("searchable_index", r.index.encode), ("summary", .str r.summary), ("complexity", .str r.complexity.label),
    ("degraded_stages", .strings r.degradedStages)]

def Result.decode : Decoder Result :=
  (Form.start Result.mk |>.req "features" FeatureSet.decode |>.req "structure" Structure.decode
    |>.req "tech_stack" TechStack.decode |>.req "ast_artifacts" (Decode.list Outline.Artifact.decode)
    |>.req "code_metrics" Metrics.decode |>.req "searchable_index" Index.decode |>.req "summary" Decode.str
    |>.req "complexity" Complexity.decode |>.dflt "degraded_stages" Decode.strings []).decode "AnalysisResult"

def Analysis.encode (a : Analysis) : Json :=
  .obj [("id", a.id.encode), ("repository_id", a.repository.encode), ("status", .str a.status.label),
    ("started_at", a.startedAt.encode), ("completed_at", .ofOption Instant.encode a.completedAt),
    ("error_message", .ofOption .str a.errorMessage), ("result", .ofOption Result.encode a.result)]

def Analysis.decode : Decoder Analysis :=
  (Form.start Analysis.mk |>.req "id" Ident.decode |>.req "repository_id" Ident.decode
    |>.req "status" Status.decode |>.req "started_at" Instant.decode |>.opt "completed_at" Instant.decode
    |>.opt "error_message" Decode.str |>.opt "result" Result.decode).decode "Analysis"

end CodeAtlas
