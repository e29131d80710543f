import CodeAtlas.Proofs.Analysis.Stream

/-!
# Runs in turns

A run calls the store three times, or four: it looks up its repository, begins an
analysis, and ends it. A turn is one of these calls. Between its turns a run may
wait for whatever else calls the store.

* `alone`: a run that takes all turns itself is the run of `analyze`.
* `turn_waiting`, `turn_found`, `turn_started`: what the turns do.
-/

namespace CodeAtlas

variable {σ : Type}

/-- What is to be run: whatever its stages come to. -/
structure Job (σ : Type) where
  repository : Ident
  stamps : Stamps
  stages : Repository → Conduct σ

/-- How far a run has come. -/
inductive Phase where
  | waiting
  | found (r : Repository)
  | started (r : Repository) (a : Analysis)
  /-- The end of the analysis was refused. -/
  | refused (r : Repository) (events : List AnalysisEvent) (a : Analysis) (e : AppError)
  /-- The run is over; its repository was found or not. -/
  | ended (r : Option Repository) (events : List AnalysisEvent) (last : AnalysisEvent)

namespace Phase

/-- Whether a run is between the beginning of its analysis and the end of it. -/
def IsStarted (p : Phase) (a : Analysis) : Prop := ∃ r, p = .started r a

/-- Whether a run is over. -/
def IsEnded (p : Phase) : Prop := ∃ r events last, p = .ended r events last

end Phase

/-- Whether an event says how an analysis ended. -/
def AnalysisEvent.isOfAnalysis : AnalysisEvent → Bool
  | .complete .. => true
  | .failed (some _) _ => true
  | _ => false

/-- Whether a run has said how its analysis ended. -/
def Phase.tellsEnd : Phase → Bool
  | .ended _ _ last => last.isOfAnalysis
  | _ => false

/-- The number of turns that a run takes at most. -/
def Phase.left : Phase → ℕ
  | .waiting => 3
  | .found _ => 2
  | .started .. => 1
  | .refused .. => 1
  | .ended .. => 0

/-- Whether a run has an analysis, or had one. -/
def Phase.hasAnalysis : Phase → Bool
  | .waiting => false
  | .found _ => false
  | .started .. => true
  | .refused .. => true
  | .ended _ _ last => last.isOfAnalysis

theorem Phase.IsStarted.hasAnalysis {p : Phase} {a : Analysis} (h : p.IsStarted a) : p.hasAnalysis = true := by
  obtain ⟨r, rfl⟩ := h
  rfl

namespace Job

/-- The analysis of a job as it begins. -/
def analysis (j : Job σ) : Analysis := .begun j.stamps.fresh j.repository j.stamps.begun

/-- One turn: the next call of the store. -/
def turn (j : Job σ) (archive : Archive) : Phase → Phase × Archive
  | .waiting =>
    match archive.data.repository? j.repository with
    | none => (.ended none [] (.failed none (AppError.notFound .repository j.repository).message), archive)
    | some r => (.found r, archive)
  | .found r =>
    match archive.begin .done j.stamps.fresh j.stamps.begun j.repository with
    | (.error e, archive) => (.ended (some r) [] (.failed none (AppError.store e).message), archive)
    | (.ok (.alreadyRunning a), archive) => (.ended (some r) [] (.inProgress a.id), archive)
    | (.ok (.started a), archive) => (.started r a, archive)
  | .started r a =>
    let c := j.stages r
    match c.result with
    | .error e => (.ended (some r) c.events (.failed (some a.id) e.message),
        (recordFailure archive .done j.stamps.failed a e).2)
    | .ok result =>
      match archive.finish .done j.stamps.ended (a.completed j.stamps.ended result) with
      | (.error e, archive) => (.refused r c.events a (.store e), archive)
      | (.ok stored, archive) => (.ended (some r) (c.events ++ [.progress 9 "Analysis saved" false])
          (.complete stored.id stored.status), archive)
  | .refused r events a e =>
    (.ended (some r) events (.failed (some a.id) e.message), (recordFailure archive .done j.stamps.failed a e).2)
  | .ended r events last => (.ended r events last, archive)

/-- Some turns, one after the other. -/
def turns (j : Job σ) : ℕ → Archive → Phase → Phase × Archive
  | 0, archive, p => (p, archive)
  | n + 1, archive, p => j.turns n (j.turn archive p).2 (j.turn archive p).1

/-- **A run that takes all turns itself** announces and stores what `analyze` does. -/
theorem alone (host : Host σ) (generator : Generator σ) (settings : AnalysisSettings) (stamps : Stamps) (id : Ident)
    (archive : Archive) (state : σ) :
    ∃ r events last,
      turns ⟨id, stamps, fun r => stagesOf host generator settings r state⟩ 4 archive .waiting =
        (.ended r events last, (analyze host generator settings {} stamps id archive state).archive) ∧
      (analyze host generator settings {} stamps id archive state).events = events ++ [last] := by
  simp only [turns, turn, analyze, beginRun]
  cases hr : archive.data.repository? id with
  | none => exact ⟨_, _, _, rfl, rfl⟩
  | some r =>
    simp only
    rcases hb : archive.begin .done stamps.fresh stamps.begun id with ⟨e | ⟨a⟩ | ⟨a⟩, b⟩
    · exact ⟨_, _, _, rfl, rfl⟩
    · simp only [conclude, stagesOf]
      cases hc : (conduct host generator settings r.fullName state).result with
      | error e => exact ⟨_, _, _, rfl, rfl⟩
      | ok result =>
        simp only
        rcases hf : b.finish .done stamps.ended (a.completed stamps.ended result) with ⟨e | x, d⟩
        · exact ⟨_, _, _, rfl, rfl⟩
        · exact ⟨_, _, _, rfl, by simp⟩
    · exact ⟨_, _, _, rfl, rfl⟩

/-! ## What a turn does -/

/-- **What an ended run has left in the store.** A run that says how its analysis
ended is right about it. -/
def Outcome (j : Job σ) (s : Store) : Option Repository → AnalysisEvent → Prop
  | some r, .complete id status => id = j.stamps.fresh ∧ status = .completed ∧
      ∃ result, (j.stages r).result = .ok result ∧ s.HasOne (j.analysis.completed j.stamps.ended result)
  | some r, .failed (some id) m => id = j.stamps.fresh ∧
      ∃ e, (j.stages r).result = .error e ∧ m = e.message ∧ s.HasOne (j.analysis.failed j.stamps.failed m)
  | _, .failed none _ => True
  | some _, .inProgress _ => True
  | _, _ => False

variable {j : Job σ} {archive : Archive}

theorem Outcome.mono {s t : Store} {r : Option Repository} {last : AnalysisEvent} (h : j.Outcome s r last)
    (hst : ∀ x : Analysis, x.id = j.stamps.fresh → s.HasOne x → t.HasOne x) : j.Outcome t r last := by
  unfold Outcome at h ⊢
  split at h
  · obtain ⟨hid, hstatus, result, hresult, hs⟩ := h
    exact ⟨hid, hstatus, result, hresult, hst _ rfl hs⟩
  · obtain ⟨hid, e, he, hm, hs⟩ := h
    exact ⟨hid, e, he, hm, hst _ rfl hs⟩
  · trivial
  · trivial
  · exact h.elim

theorem turn_waiting (j : Job σ) (archive : Archive) :
    (∃ m, j.turn archive .waiting = (.ended none [] (.failed none m), archive)) ∨
      ∃ r, j.turn archive .waiting = (.found r, archive) := by
  cases hr : archive.data.repository? j.repository with
  | none => exact Or.inl ⟨(AppError.notFound .repository j.repository).message, by simp only [turn, hr]⟩
  | some r => exact Or.inr ⟨r, by simp only [turn, hr]⟩

/-- **A run begins its analysis**, or another one of its repository is in progress. -/
theorem turn_found (j : Job σ) (archive : Archive) (r : Repository) :
    (∃ m, j.turn archive (.found r) = (.ended (some r) [] (.failed none m), archive)) ∨
      ∃ k, (∃ x, archive.data.running? j.repository = some x ∧
          j.turn archive (.found r) = (.ended (some r) [] (.inProgress x.id), ⟨archive.data, k⟩)) ∨
        (archive.data.running? j.repository = none ∧ j.turn archive (.found r) =
          (.started r j.analysis, ⟨archive.data.started j.stamps.fresh j.repository j.stamps.begun, k⟩)) := by
  rcases Archive.mutate_cases archive .done fun s => s.begin j.stamps.fresh j.stamps.begun j.repository with
    ⟨e, he⟩ | ⟨out, t, k, -, hc, -, -, ho⟩
  · exact Or.inl ⟨(AppError.store e).message, by simp only [turn, Archive.begin, he]⟩
  · refine Or.inr ⟨k, ?_⟩
    obtain ⟨-, ⟨x, hx, rfl, rfl⟩ | ⟨hnone, rfl, rfl⟩⟩ := Store.begin_cases hc
    · exact Or.inl ⟨x, hx, by simp only [turn, Archive.begin, ho]⟩
    · exact Or.inr ⟨hnone, by simp only [turn, Archive.begin, ho]; rfl⟩

/-- **A run ends its analysis** if it is in progress still. -/
theorem turn_started (r : Repository) (hone : archive.data.HasOne j.analysis) :
    ∃ events last y now k, j.turn archive (.started r j.analysis) =
        (.ended (some r) events last, ⟨archive.data.ended now y, k⟩) ∧
      y.isTerminal = true ∧ y.id = j.stamps.fresh ∧ last.isOfAnalysis = true ∧
      j.Outcome (archive.data.ended now y) (some r) last := by
  have hw : archive.Writes .done := Or.inr rfl
  have hrun : j.analysis.isTerminal = false := rfl
  cases hc : (j.stages r).result with
  | error e =>
    obtain ⟨-, ⟨-, k, hk⟩ | ⟨hnw, -⟩⟩ := recordFailure_cases hone.analysis? hrun .done j.stamps.failed e
    · refine ⟨(j.stages r).events, .failed (some j.stamps.fresh) e.message, j.analysis.failed j.stamps.failed e.message,
        j.stamps.failed, k, by simp only [turn, hc, hk]; rfl, rfl, rfl, rfl, rfl, e, hc, rfl, ?_⟩
      exact hone.replaced (y := j.analysis.failed j.stamps.failed e.message) rfl j.stamps.failed
    · exact absurd hw hnw
  | ok result =>
    obtain ⟨k, hk⟩ := Archive.finish_of_writes hw
      (Analysis.isTerminal_completed j.analysis j.stamps.ended result) (x := j.analysis) hone.analysis? hrun
      j.stamps.ended
    refine ⟨(j.stages r).events ++ [.progress 9 "Analysis saved" false], .complete j.stamps.fresh .completed,
      j.analysis.completed j.stamps.ended result, j.stamps.ended, k, by simp only [turn, hc, hk]; rfl, rfl, rfl, rfl,
      rfl, rfl, result, hc, ?_⟩
    exact hone.replaced (y := j.analysis.completed j.stamps.ended result) rfl j.stamps.ended

end Job

end CodeAtlas
