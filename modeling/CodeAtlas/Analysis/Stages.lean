import CodeAtlas.Batches
import CodeAtlas.AppError
import CodeAtlas.Host.Selection
import CodeAtlas.Outline.Extract
import CodeAtlas.Profile.Index
import CodeAtlas.Profile.Metrics
import CodeAtlas.Settings
import CodeAtlas.Summary.Features
import CodeAtlas.Summary.Overview
import CodeAtlas.Summary.Structure
import CodeAtlas.Summary.TechStack

/-!
# Stages of an analysis

What is done between the beginning of an analysis and its end. A host that does not answer ends it; a generator
that does not answer only makes a stage degraded.

* `fetchSnapshot`: what is fetched, batch by batch, and then the readme and the languages together.
* `conduct`: the stages, with what they announce.
-/

namespace CodeAtlas

/-- What an analysis announces. -/
inductive AnalysisEvent where
  | progress (step : Nat) (message : String) (degraded : Bool)
  | complete (id : Ident) (status : Status)
  | failed (id : Option Ident) (error : String)
  | inProgress (id : Ident)
deriving Repr, DecidableEq

namespace AnalysisEvent

/-- The number of steps of an analysis. -/
def totalSteps : Nat := 9

def name : AnalysisEvent → String
  | .progress .. => "progress"
  | .complete .. => "complete"
  | .failed .. => "failed"
  | .inProgress .. => "in_progress"

def encode : AnalysisEvent → Json
  | .progress step message degraded =>
    .obj [("type", .str "progress"), ("step_index", .nat step), ("total_steps", .nat totalSteps),
      ("message", .str message), ("degraded", .bool degraded)]
  | .complete id status =>
    .obj [("type", .str "complete"), ("analysis_id", id.encode), ("status", .str status.label)]
  | .failed id error =>
    .obj [("type", .str "failed"), ("analysis_id", .ofOption Ident.encode id),
      ("status", .str Status.failed.label), ("error", .str error)]
  | .inProgress id => .obj [("type", .str "in_progress"), ("analysis_id", id.encode)]

end AnalysisEvent

variable {σ : Type}

/-! ## Fetching -/

/-- The files that a host could serve. -/
def served (l : List (String × Option String)) : List SourceFile :=
  l.filterMap fun p => p.2.map fun content => ⟨p.1, content⟩

/-- The contents of batches after the first, with a pause before each. -/
def fetchMore (host : Host σ) (fullName : String) (delay : Nat) :
    List (List String) → σ → Except HostError (List SourceFile) × σ
  | [], state => (.ok [], state)
  | b :: bs, state =>
    match host.contents fullName b (host.pause delay state) with
    | (.error e, state) => (.error e, state)
    | (.ok l, state) =>
      match fetchMore host fullName delay bs state with
      | (.error e, state) => (.error e, state)
      | (.ok files, state) => (.ok (served l ++ files), state)

/-- The contents of batches. -/
def fetchBatches (host : Host σ) (fullName : String) (delay : Nat) :
    List (List String) → σ → Except HostError (List SourceFile) × σ
  | [], state => (.ok [], state)
  | b :: bs, state =>
    match host.contents fullName b state with
    | (.error e, state) => (.error e, state)
    | (.ok l, state) =>
      match fetchMore host fullName delay bs state with
      | (.error e, state) => (.error e, state)
      | (.ok files, state) => (.ok (served l ++ files), state)

/-- The readme and the languages, awaited together. The host settles which of them is answered first. An error that
comes first is the outcome, and the other answer is not awaited then. -/
def readmeAndLanguages (host : Host σ) (fullName : String) (state : σ) :
    Except HostError (Option String × List (String × Nat)) × σ :=
  if host.languagesFirst fullName state then
    match host.languages fullName state with
    | (.error e, state) => (.error e, state)
    | (.ok languageStats, state) =>
      match host.readme fullName state with
      | (.error e, state) => (.error e, state)
      | (.ok readme, state) => (.ok (readme, languageStats), state)
  else
    match host.readme fullName state with
    | (.error e, state) => (.error e, state)
    | (.ok readme, state) =>
      match host.languages fullName state with
      | (.error e, state) => (.error e, state)
      | (.ok languageStats, state) => (.ok (readme, languageStats), state)

/-- The contents of some paths, the readme and the languages. -/
def fetchSnapshot (host : Host σ) (settings : AnalysisSettings) (fullName : String) (paths : List String)
    (state : σ) : Except HostError Snapshot × σ :=
  match fetchBatches host fullName settings.batchDelay (batches settings.batchSize paths) state with
  | (.error e, state) => (.error e, state)
  | (.ok files, state) =>
    match readmeAndLanguages host fullName state with
    | (.error e, state) => (.error e, state)
    | (.ok (readme, languageStats), state) => (.ok { fullName, files, readme, languageStats }, state)

/-! ## Outlines -/

/-- The outlines of the files of program source. -/
def outlines (files : List SourceFile) : List Outline.Artifact :=
  (files.filter fun f => isCodeLabel (labelOfPath f.path)).map fun f => Outline.outline f.path f.content

/-! ## The stages -/

/-- What is announced of a summary. -/
def summaryEvent {α : Type} (step : Nat) (title : String) (s : Summary α) : AnalysisEvent :=
  match s.error with
  | none => .progress step (title ++ " ready") false
  | some e => .progress step (title ++ " unavailable, using defaults: " ++ e) true

/-- The name of a stage if it is degraded. -/
def degradedStage {α : Type} (stage : String) (s : Summary α) : List String :=
  if s.isDegraded then [stage] else []

def parsedMessage (artifacts : List Outline.Artifact) (metrics : Metrics) : String :=
  "Parsed " ++ toString (artifacts.filter (·.parseSuccess)).length ++ " of " ++ toString artifacts.length ++
    " code files (" ++ toString metrics.linesOfCode ++ " lines of code)"

/-- The stages from the summaries on, which do not fail. -/
def evaluate (generator : Generator σ) (snapshot : Snapshot) (state : σ) : List AnalysisEvent × Result × σ :=
  let (features, state) := FeatureSet.summarize generator snapshot state
  let (layout, state) := Structure.summarize generator snapshot state
  let (techStack, state) := TechStack.summarize generator snapshot state
  let artifacts := outlines snapshot.files
  let metrics := Metrics.ofFiles snapshot.files
  let findings : Overview.Findings :=
    { features := features.value, layout := layout.value, techStack := techStack.value, metrics }
  let (summary, state) := Overview.summarize generator snapshot findings state
  ([summaryEvent 4 "Feature analysis" features,
    summaryEvent 5 "Structure analysis" layout,
    summaryEvent 6 "Tech stack analysis" techStack,
    .progress 7 (parsedMessage artifacts metrics) false,
    summaryEvent 8 "Summary" summary],
   { features := features.value, layout := layout.value, techStack := techStack.value, artifacts, metrics
     index := Index.build features.value layout.value techStack.value snapshot.files
     summary := summary.value, complexity := metrics.complexity
     degradedStages := degradedStage "features" features ++ degradedStage "structure" layout ++
       degradedStage "tech_stack" techStack ++ degradedStage "summary" summary },
   state)

/-- What the stages announce, what they come to, and the state after them. -/
structure Conduct (σ : Type) where
  events : List AnalysisEvent
  result : Except AppError Result
  state : σ

/-- The stages of the analysis of a repository. -/
def conduct (host : Host σ) (generator : Generator σ) (settings : AnalysisSettings) (fullName : String)
    (state : σ) : Conduct σ :=
  match host.tree fullName state with
  | (.error e, state) => ⟨[], .error (.host e), state⟩
  | (.ok tree, state) =>
    -- one bound on files of medium priority, another on all of them
    let selected := (Selection.selectFiles tree settings.mediumCap).take settings.maxFiles
    let first : AnalysisEvent := .progress 1 ("Fetched file tree (" ++ toString tree.length ++ " entries)") false
    let second : AnalysisEvent := .progress 2 ("Selected " ++ toString selected.length ++ " files") false
    match fetchSnapshot host settings fullName selected state with
    | (.error e, state) => ⟨[first, second], .error (.host e), state⟩
    | (.ok snapshot, state) =>
      let third : AnalysisEvent :=
        .progress 3
          ("Fetched " ++ toString snapshot.files.length ++ " of " ++ toString selected.length ++ " files") false
      let (events, result, state) := evaluate generator snapshot state
      ⟨first :: second :: third :: events, .ok result, state⟩

end CodeAtlas
