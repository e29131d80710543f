import CodeAtlas.Analysis.Run
import CodeAtlas.Proofs.Store.Operations

/-!
# The events of a run

A run either does not start and announces one event, or it announces its steps
from the first on, without a gap, and then how it ended. What it announces last is
what the store holds.

* `conduct_numbered`: the stages announce steps 1 to 8, or fewer if they fail.
* `beginRun_cases`: how a run starts, or why it does not.
* `conclude_cases`: how a run ends.
* `analyze_stream`: **the events of every run, and the store after it.**
-/

namespace CodeAtlas

namespace AnalysisEvent

/-- The step that an event announces. -/
def step? : AnalysisEvent → Option ℕ
  | .progress step _ _ => some step
  | _ => none

@[simp] theorem step?_progress (step : ℕ) (message : String) (degraded : Bool) :
    (progress step message degraded).step? = some step := rfl

/-- Whether an event says how a run ended. -/
def isLast : AnalysisEvent → Bool
  | .progress .. => false
  | _ => true

end AnalysisEvent

/-- The events are the announcements of steps 1 to `k`, each once and in order. -/
def Numbered (k : ℕ) (events : List AnalysisEvent) : Prop :=
  events.map AnalysisEvent.step? = (List.range' 1 k).map some

variable {σ : Type}

/-! ## Numbered events -/

theorem Numbered.length {k : ℕ} {events : List AnalysisEvent} (h : Numbered k events) : events.length = k := by
  have := congrArg List.length h
  simpa using this

/-- Announced steps are not the last event. -/
theorem Numbered.isLast_eq_false {k : ℕ} {events : List AnalysisEvent} (h : Numbered k events)
    {e : AnalysisEvent} (he : e ∈ events) : e.isLast = false := by
  have hm : e.step? ∈ (List.range' 1 k).map some := h ▸ List.mem_map_of_mem he
  obtain ⟨n, -, hn⟩ := List.mem_map.1 hm
  cases e with
  | progress step message degraded => rfl
  | _ => cases hn

/-- There is one last event. -/
theorem Numbered.countP_isLast {k : ℕ} {events : List AnalysisEvent} (h : Numbered k events) {e : AnalysisEvent}
    (he : e.isLast = true) : (events ++ [e]).countP (·.isLast) = 1 := by
  have hnone : events.countP (·.isLast) = 0 := by
    rw [List.countP_eq_zero]
    intro x hx
    simp [h.isLast_eq_false hx]
  rw [List.countP_append, hnone]
  simp [he]

/-- Another step may follow. -/
theorem Numbered.snoc {k : ℕ} {events : List AnalysisEvent} (h : Numbered k events) (message : String)
    (degraded : Bool) : Numbered (k + 1) (events ++ [.progress (k + 1) message degraded]) := by
  unfold Numbered at h ⊢
  rw [List.range'_concat, List.map_append, List.map_append, h]
  simp [Nat.add_comm]

/-! ## The stages -/

@[simp] theorem step?_summaryEvent {α : Type} (step : ℕ) (title : String) (s : Summary α) :
    (summaryEvent step title s).step? = some step := by
  unfold summaryEvent
  split <;> rfl

/-- **The stages announce their steps**: all of 1 to 8 if they come to a result,
and 1 to some smaller number if they do not. -/
theorem conduct_numbered (host : Host σ) (generator : Generator σ) (settings : AnalysisSettings)
    (fullName : String) (state : σ) :
    (∃ r, (conduct host generator settings fullName state).result = .ok r ∧
        Numbered 8 (conduct host generator settings fullName state).events) ∨
      ∃ e k, (conduct host generator settings fullName state).result = .error e ∧ k < 8 ∧
        Numbered k (conduct host generator settings fullName state).events := by
  unfold conduct
  split
  · -- nothing is announced before the first answer of the host
    exact Or.inr ⟨_, 0, rfl, by omega, rfl⟩
  · dsimp only
    split
    · exact Or.inr ⟨_, 2, rfl, by omega, rfl⟩
    · -- from here on a stage that fails is replaced, and the next one follows
      refine Or.inl ⟨_, rfl, ?_⟩
      simp [Numbered, evaluate, List.range'_succ]

/-! ## How a run starts -/

/-- **How a run starts**: it is refused, an analysis is in progress already, or one
has begun. -/
theorem beginRun_cases (archive : Archive) (fate : Fate) (stamps : Stamps) (id : Ident) :
    (∃ m, (archive.data.repository? id = none ∨ ¬archive.Writes fate) ∧
        beginRun archive fate stamps id = (.refused (.failed none m), archive)) ∨
      ∃ r k, archive.data.repository? id = some r ∧ archive.Writes fate ∧ (k = .memory ↔ archive.keeping = .memory) ∧
        ((∃ x, archive.data.running? id = some x ∧
          beginRun archive fate stamps id = (.refused (.inProgress x.id), ⟨archive.data, k⟩)) ∨
        (archive.data.running? id = none ∧
          beginRun archive fate stamps id = (.admitted r (.begun stamps.fresh id stamps.begun),
            ⟨archive.data.started stamps.fresh id stamps.begun, k⟩))) := by
  unfold beginRun
  cases hr : archive.data.repository? id with
  | none => exact Or.inl ⟨_, Or.inl rfl, rfl⟩
  | some r =>
    have hknown : archive.data.repositories.any (·.id == id) = true := by
      have hid : (r.id == id) = true := List.find?_some (p := fun x : Repository => x.id == id) hr
      exact List.any_eq_true.2 ⟨r, List.mem_of_find?_eq_some hr, hid⟩
    by_cases hw : archive.Writes fate
    · refine Or.inr ⟨r, ?_⟩
      cases hrun : archive.data.running? id with
      | some x =>
        obtain ⟨k, hk, hb⟩ := Archive.begin_of_running hw hknown hrun stamps.fresh stamps.begun
        exact ⟨k, rfl, hw, hk, Or.inl ⟨x, rfl, by simp only [hb]⟩⟩
      | none =>
        obtain ⟨k, hk, hb⟩ := Archive.begin_of_writes hw hknown hrun stamps.fresh stamps.begun
        exact ⟨k, rfl, hw, hk, Or.inr ⟨rfl, by simp only [hb]⟩⟩
    · -- the answer does not tell whether an analysis would have begun
      obtain ⟨e, he⟩ := Archive.mutate_of_not_writes hw fun s => s.begin stamps.fresh stamps.begun id
      have hb : archive.begin fate stamps.fresh stamps.begun id = (.error e, archive) := he
      exact Or.inl ⟨(AppError.store e).message, Or.inr hw, by simp only [hb]⟩

/-! ## How a run ends -/

/-- A failure is announced, and stored if it can be written. -/
theorem recordFailure_cases {archive : Archive} {a : Analysis} (ha : archive.data.analysis? a.id = some a)
    (hrun : a.isTerminal = false) (fate : Fate) (now : Instant) (e : AppError) :
    (recordFailure archive fate now a e).1 = [.failed (some a.id) e.message] ∧
      ((archive.Writes fate ∧ ∃ k, (recordFailure archive fate now a e).2 =
          ⟨archive.data.ended now (a.failed now e.message), k⟩) ∨
        (¬archive.Writes fate ∧ (recordFailure archive fate now a e).2 = archive)) := by
  refine ⟨rfl, ?_⟩
  have hfound : archive.data.analysis? (a.failed now e.message).id = some a := ha
  by_cases hw : archive.Writes fate
  · obtain ⟨k, hk⟩ := Archive.finish_of_writes hw (Analysis.isTerminal_failed a now e.message) hfound hrun now
    exact Or.inl ⟨hw, k, by simp only [recordFailure, hk]⟩
  · obtain ⟨m, hm⟩ := Archive.finish_of_not_writes hw (Analysis.isTerminal_failed a now e.message) hfound hrun now
    exact Or.inr ⟨hw, by simp only [recordFailure, hm]⟩

/-- **How a run ends**: with its result stored, or with a failure, which is that of
the stages or that of storing their result. -/
theorem conclude_cases {archive : Archive} {a : Analysis} (ha : archive.data.analysis? a.id = some a)
    (hrun : a.isTerminal = false) (fates : Fates) (stamps : Stamps) (result : Except AppError Result) :
    (∃ r k, result = .ok r ∧ archive.Writes fates.finish ∧ conclude archive fates stamps a result =
        ([.progress 9 "Analysis saved" false, .complete a.id .completed],
          ⟨archive.data.ended stamps.ended (a.completed stamps.ended r), k⟩)) ∨
      ∃ e, (∀ r, result = .ok r → ¬archive.Writes fates.finish) ∧
        conclude archive fates stamps a result = recordFailure archive fates.record stamps.failed a e := by
  cases result with
  | error e => exact Or.inr ⟨e, by simp, rfl⟩
  | ok r =>
    have hfound : archive.data.analysis? (a.completed stamps.ended r).id = some a := ha
    by_cases hw : archive.Writes fates.finish
    · obtain ⟨k, hk⟩ := Archive.finish_of_writes hw (Analysis.isTerminal_completed a stamps.ended r) hfound hrun
        stamps.ended
      exact Or.inl ⟨r, k, rfl, hw, by simp only [conclude, hk]; rfl⟩
    · obtain ⟨m, hm⟩ := Archive.finish_of_not_writes hw (Analysis.isTerminal_completed a stamps.ended r) hfound
        hrun stamps.ended
      exact Or.inr ⟨.store (.io m), fun _ _ => hw, by simp only [conclude, hm]⟩

/-! ## A run as a whole -/

/-- The stages of a run of a repository that is known. -/
def stagesOf (host : Host σ) (generator : Generator σ) (settings : AnalysisSettings) (r : Repository) (state : σ) :
    Conduct σ := conduct host generator settings r.fullName state

/-- **What is stored of an analysis that completed**: it has its result, and its
time is noted with the repository. -/
def Store.HoldsCompleted (s : Store) (id repository : Ident) (result : Result) : Prop :=
  ∃ x r time, s.analysis? id = some x ∧ x.repository = repository ∧ x.status = .completed ∧
    x.result = some result ∧ x.completedAt = some time ∧
    s.repository? repository = some r ∧ r.lastAnalyzedAt = some time

/-- **What is stored of an analysis that failed**: why, and no result. -/
def Store.HoldsFailed (s : Store) (id repository : Ident) (message : String) : Prop :=
  ∃ x, s.analysis? id = some x ∧ x.repository = repository ∧ x.status = .failed ∧ x.result = none ∧
    x.errorMessage = some message

/-! ## What is stored in the end -/

/-- An analysis that has completed is stored with its result and its repository. -/
theorem holdsCompleted_ended {s : Store} {a x : Analysis} {r : Repository} (hx : s.analysis? a.id = some x)
    (hr : s.repository? a.repository = some r) (now : Instant) (result : Result) :
    (s.ended now (a.completed now result)).HoldsCompleted a.id a.repository result := by
  refine ⟨a.completed now result, { r with lastAnalyzedAt := some now }, now, ?_, rfl, rfl, rfl, rfl, ?_, rfl⟩
  · exact Store.analysis?_ended (a := a.completed now result) hx
  · exact Store.repository?_ended (a := a.completed now result) rfl rfl hr

/-- An analysis that has failed is stored with its message. -/
theorem holdsFailed_ended {s : Store} {a x : Analysis} (hx : s.analysis? a.id = some x) (hnone : a.result = none)
    (now : Instant) (message : String) :
    (s.ended now (a.failed now message)).HoldsFailed a.id a.repository message :=
  ⟨a.failed now message, Store.analysis?_ended (a := a.failed now message) hx, rfl, rfl, hnone, rfl⟩

/-- **A run that has begun** announces its steps and then how it ended, and that is
what is stored. -/
theorem conclude_stream {x : Archive} {a : Analysis} {r : Repository}
    (ha : x.data.analysis? a.id = some a) (hrun : a.isTerminal = false) (hnone : a.result = none)
    (hr : x.data.repository? a.repository = some r) {c : Conduct σ}
    (hc : (∃ result, c.result = .ok result ∧ Numbered 8 c.events) ∨
      ∃ e k, c.result = .error e ∧ k < 8 ∧ Numbered k c.events)
    (fates : Fates) (stamps : Stamps) :
    ∃ k events e, c.events ++ (conclude x fates stamps a c.result).1 = events ++ [e] ∧
      Numbered k events ∧ k ≤ 9 ∧
      ((k = 9 ∧ e = .complete a.id .completed ∧ x.Writes fates.finish ∧ ∃ result, c.result = .ok result ∧
          (conclude x fates stamps a c.result).2.data.HoldsCompleted a.id a.repository result) ∨
        (k ≠ 9 ∧ (∀ result, c.result = .ok result → ¬x.Writes fates.finish) ∧
          ∃ m, e = .failed (some a.id) m ∧
            ((x.Writes fates.record ∧
                (conclude x fates stamps a c.result).2.data.HoldsFailed a.id a.repository m) ∨
              (¬x.Writes fates.record ∧ (conclude x fates stamps a c.result).2 = x)))) := by
  rcases conclude_cases ha hrun fates stamps c.result with ⟨result, k, hok, hw, hend⟩ | ⟨e, hnw, hend⟩
  · -- the result is stored, and the stages have announced all their steps
    have h8 : Numbered 8 c.events := by
      rcases hc with ⟨_, -, h⟩ | ⟨e, _, he, -, -⟩
      · exact h
      · rw [hok] at he
        cases he
    rw [hend]
    refine ⟨9, c.events ++ [.progress 9 "Analysis saved" false], .complete a.id .completed, by simp,
      h8.snoc _ _, Nat.le_refl _, Or.inl ⟨rfl, rfl, hw, result, hok, ?_⟩⟩
    exact holdsCompleted_ended ha hr stamps.ended result
  · -- a failure follows whatever the stages have announced
    obtain ⟨k, hk, hnum⟩ : ∃ k, k ≤ 8 ∧ Numbered k c.events := by
      rcases hc with ⟨_, -, h⟩ | ⟨_, k, -, hk, h⟩
      · exact ⟨8, Nat.le_refl 8, h⟩
      · exact ⟨k, Nat.le_of_lt hk, h⟩
    obtain ⟨hevents, hstored⟩ := recordFailure_cases ha hrun fates.record stamps.failed e
    rw [hend, hevents]
    refine ⟨k, c.events, .failed (some a.id) e.message, rfl, hnum, by omega,
      Or.inr ⟨by omega, hnw, e.message, rfl, ?_⟩⟩
    rcases hstored with ⟨hw, k', hs⟩ | ⟨hw, hs⟩
    · refine Or.inl ⟨hw, ?_⟩
      rw [hs]
      exact holdsFailed_ended ha hnone stamps.failed e.message
    · exact Or.inr ⟨hw, hs⟩

/-- **The events of a run.** Whatever host, generator and writing do:

* if the repository is unknown, has an analysis in progress, or the beginning cannot
  be written, the run announces one event, the identifier of the analysis in
  progress or a failure without one, and no record changes;
* else it announces steps 1 to `k` and then one last event. That is the completion
  of the analysis exactly if `k` is 9, and else its failure. A completed analysis is
  stored with its result, and its time with the repository. A failed one is stored
  with the message of the event and without a result; if that could not be written,
  it is stored as it was begun.

There is one last event, and there are at most ten events. -/
theorem analyze_stream (host : Host σ) (generator : Generator σ) (settings : AnalysisSettings) (fates : Fates)
    (stamps : Stamps) (id : Ident) (archive : Archive) (state : σ)
    (hfresh : ∀ x ∈ archive.data.analyses, x.id ≠ stamps.fresh) :
    let run := analyze host generator settings fates stamps id archive state
    ((∃ e, run.events = [e] ∧ run.archive.data = archive.data ∧
        ((∃ x, archive.data.running? id = some x ∧ archive.Writes fates.begin ∧ e = .inProgress x.id) ∨
          ((archive.data.repository? id = none ∨ ¬archive.Writes fates.begin) ∧ ∃ m, e = .failed none m))) ∨
      ∃ r k events e, archive.data.repository? id = some r ∧ archive.data.running? id = none ∧
        archive.Writes fates.begin ∧
        run.events = events ++ [e] ∧ Numbered k events ∧ k ≤ 9 ∧
        ((k = 9 ∧ e = .complete stamps.fresh .completed ∧ archive.Writes fates.finish ∧
            ∃ result, (stagesOf host generator settings r state).result = .ok result ∧
              run.archive.data.HoldsCompleted stamps.fresh id result) ∨
          (k ≠ 9 ∧ (∀ result, (stagesOf host generator settings r state).result = .ok result →
              ¬archive.Writes fates.finish) ∧
            ∃ m, e = .failed (some stamps.fresh) m ∧
              ((archive.Writes fates.record ∧ run.archive.data.HoldsFailed stamps.fresh id m) ∨
                (¬archive.Writes fates.record ∧
                  run.archive.data.analysis? stamps.fresh = some (.begun stamps.fresh id stamps.begun)))))) ∧
    run.events.countP (·.isLast) = 1 ∧ run.events.length ≤ 10 := by
  intro run
  have hrun : run = analyze host generator settings fates stamps id archive state := rfl
  unfold analyze at hrun
  rcases beginRun_cases archive fates.begin stamps id with
    ⟨m, hwhy, hb⟩ | ⟨r, k, hr, hw, hk, ⟨x, hx, hb⟩ | ⟨hnone, hb⟩⟩
  · -- nothing has begun
    simp only [hb] at hrun
    rw [hrun]
    exact ⟨Or.inl ⟨_, rfl, rfl, Or.inr ⟨hwhy, m, rfl⟩⟩, rfl, by simp⟩
  · -- an analysis is in progress already
    simp only [hb] at hrun
    rw [hrun]
    exact ⟨Or.inl ⟨_, rfl, rfl, Or.inl ⟨x, hx, hw, rfl⟩⟩, rfl, by simp⟩
  -- the analysis that has begun is the one that its identifier finds
  have ha := Store.analysis?_started hfresh id stamps.begun
  have hwrites : ∀ fate, Archive.Writes ⟨archive.data.started stamps.fresh id stamps.begun, k⟩ fate ↔
      archive.Writes fate := by
    intro fate
    simp only [Archive.Writes, hk]
  obtain ⟨steps, events, e, hevents, hnum, hle, hend⟩ :=
    conclude_stream (x := ⟨archive.data.started stamps.fresh id stamps.begun, k⟩)
      (a := .begun stamps.fresh id stamps.begun) ha rfl rfl hr
      (conduct_numbered host generator settings r.fullName state) fates stamps
  simp only [hb] at hrun
  have hlast : e.isLast = true := by
    rcases hend with ⟨-, rfl, -⟩ | ⟨-, -, m, rfl, -⟩ <;> rfl
  have hall : run.events = events ++ [e] := by
    rw [hrun]
    exact hevents
  refine ⟨Or.inr ⟨r, steps, events, e, hr, hnone, hw, hall, hnum, hle, ?_⟩, ?_, ?_⟩
  · rw [hrun]
    simp only [hwrites] at hend
    rcases hend with h | ⟨hne, hnot, m, he, h | ⟨hnw, h⟩⟩
    · exact Or.inl h
    · exact Or.inr ⟨hne, hnot, m, he, Or.inl h⟩
    · refine Or.inr ⟨hne, hnot, m, he, Or.inr ⟨hnw, ?_⟩⟩
      rw [h]
      exact ha
  · rw [hall]
    exact hnum.countP_isLast hlast
  · rw [hall, List.length_append, hnum.length, List.length_singleton]
    omega

/-- A host with one file. -/
def oneFileHost : Host Unit where
  tree _ state := (.ok [⟨"main.py", .blob, none⟩], state)
  contents _ paths state := (.ok (paths.map fun p => (p, some "print(1)")), state)
  readme _ state := (.ok none, state)
  languages _ state := (.ok [("Python", 8)], state)
  pause _ state := state

/-- A store of one repository whose one analysis has failed. -/
def failedOnce : Store where
  repositories := [.register ⟨1⟩ default "a/b"]
  analyses := [(Analysis.begun ⟨2⟩ ⟨1⟩ default).failed default "none"]

/-- A repository can be analyzed again after an analysis of it has failed: all steps are
announced, and the result is stored, although no generator answers. -/
theorem analyze_stream_failedOnce :
    (∀ x ∈ failedOnce.analyses, x.id ≠ ⟨3⟩) ∧
      let run := analyze oneFileHost (fun _ state => (.error (.transport "none"), state)) {} {}
        ⟨⟨3⟩, default, default, default⟩ ⟨1⟩ ⟨failedOnce, .memory⟩ ()
      ∃ events result, run.events = events ++ [.complete ⟨3⟩ .completed] ∧ Numbered 9 events ∧
        run.archive.data.HoldsCompleted ⟨3⟩ ⟨1⟩ result := by
  have hfresh : ∀ x ∈ failedOnce.analyses, x.id ≠ ⟨3⟩ := by decide
  have hwrites (fate : Fate) : Archive.Writes ⟨failedOnce, .memory⟩ fate := .inl rfl
  have hok : (stagesOf oneFileHost (fun _ state => (.error (.transport "none"), state)) {}
      (.register ⟨1⟩ default "a/b") ()).result.isOk = true := by decide +kernel
  refine ⟨hfresh, ?_⟩
  intro run
  obtain ⟨⟨e, -, -, ⟨x, hx, -⟩ | ⟨hunknown | hnot, -⟩⟩ | ⟨r, k, events, e, hr, -, -, hevents, hnum, -, hend⟩, -⟩ :=
    analyze_stream oneFileHost (fun _ state => (.error (.transport "none"), state)) {} {}
      ⟨⟨3⟩, default, default, default⟩ ⟨1⟩ ⟨failedOnce, .memory⟩ () hfresh
  · exact nomatch hx
  · exact nomatch hunknown
  · exact absurd (hwrites _) hnot
  · obtain rfl : Repository.register ⟨1⟩ default "a/b" = r := Option.some.inj hr
    rcases hend with ⟨rfl, rfl, -, result, -, hstored⟩ | ⟨-, hnot, -⟩
    · exact ⟨events, result, hevents, hnum, hstored⟩
    · cases hresult : (stagesOf oneFileHost (fun _ state => (.error (.transport "none"), state)) {}
          (.register ⟨1⟩ default "a/b") ()).result with
      | error => rw [hresult] at hok; cases hok
      | ok result => exact absurd (hwrites _) (hnot result hresult)

end CodeAtlas
