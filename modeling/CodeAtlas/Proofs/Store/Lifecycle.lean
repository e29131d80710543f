import CodeAtlas.Proofs.Store.Reading

/-!
# The life of records

What holds of every store that a run leads to, however long the run is and
whatever is asked in it.

* `begin_eq_started_iff`, `begin_eq_alreadyRunning_iff`: when an analysis begins,
  and when one is in progress already.
* `records_persist`: **a repository has at most one analysis in progress, an
  analysis that has ended never changes again, and no record is lost or moved.**
-/

namespace CodeAtlas.Archive

/-- The stores that runs lead to, from a store that nothing has been put into. -/
def Reachable (a : Archive) : Prop := ∃ start ops, IsNew start ∧ start.Admits ops ∧ a = start.after ops

variable {a : Archive}

theorem Reachable.kept (h : a.Reachable) : a.Kept := by
  obtain ⟨start, ops, hnew, hops, rfl⟩ := h
  exact after_kept hnew.kept hops

/-! ## Beginning -/

/-- Whether a store has a repository. -/
def Knows (a : Archive) (id : Ident) : Prop := ∃ r ∈ a.data.repositories, r.id = id

theorem knows_iff (a : Archive) (id : Ident) : a.Knows id ↔ a.data.repositories.any (·.id == id) = true := by
  simp [Knows]

/-- **An analysis begins** exactly if the repository is known, the writing succeeds
and none is in progress. -/
theorem begin_eq_started_iff (a : Archive) (fate : Fate) (fresh : Ident) (now : Instant) (id : Ident)
    (x : Analysis) :
    (a.begin fate fresh now id).1 = .ok (.started x) ↔
      a.Knows id ∧ a.Writes fate ∧ a.data.inProgress id = [] ∧ x = .begun fresh id now := by
  rw [← Store.running?_eq_none_iff, knows_iff]
  constructor
  · intro h
    rcases mutate_cases a fate fun s => s.begin fresh now id with ⟨e, he⟩ | ⟨out, t, k, hw, hc, -, -, ho⟩
    · simp [Archive.begin, he] at h
    · obtain ⟨hknown, ⟨y, -, rfl, -⟩ | ⟨hnone, rfl, -⟩⟩ := Store.begin_cases hc
      · simp [Archive.begin, ho] at h
      · simp only [Archive.begin, ho, Except.ok.injEq, Start.started.injEq] at h
        exact ⟨hknown, hw, hnone, h.symm⟩
  · rintro ⟨hknown, hw, hnone, rfl⟩
    obtain ⟨k, -, hb⟩ := begin_of_writes hw hknown hnone fresh now
    rw [hb]

/-- **An analysis that is in progress is found**, exactly if the repository is
known and the writing succeeds. -/
theorem begin_eq_alreadyRunning_iff (h : a.data.Sound) (fate : Fate) (fresh : Ident) (now : Instant) (id : Ident)
    (x : Analysis) :
    (a.begin fate fresh now id).1 = .ok (.alreadyRunning x) ↔
      a.Knows id ∧ a.Writes fate ∧ a.data.inProgress id = [x] := by
  rw [← h.running?_eq_some_iff, knows_iff]
  constructor
  · intro h
    rcases mutate_cases a fate fun s => s.begin fresh now id with ⟨e, he⟩ | ⟨out, t, k, hw, hc, -, -, ho⟩
    · simp [Archive.begin, he] at h
    · obtain ⟨hknown, ⟨y, hy, rfl, -⟩ | ⟨-, rfl, -⟩⟩ := Store.begin_cases hc
      · simp only [Archive.begin, ho, Except.ok.injEq, Start.alreadyRunning.injEq] at h
        exact ⟨hknown, hw, h ▸ hy⟩
      · simp [Archive.begin, ho] at h
  · rintro ⟨hknown, hw, hrun⟩
    obtain ⟨k, -, hb⟩ := begin_of_running hw hknown hrun fresh now
    rw [hb]

/-! ## Ending -/

/-- **An analysis that has ended cannot end again.** -/
theorem finish_of_ended (h : a.data.Sound) {x y : Analysis} (hx : x ∈ a.data.analyses)
    (hend : x.isTerminal = true) (hid : y.id = x.id) (hy : y.isTerminal = true) (fate : Fate) (now : Instant) :
    a.finish fate now y = (.error (.terminal y.id), a) := by
  have hfound : a.data.analysis? y.id = some x := h.analysis?_eq_some_iff.2 ⟨hx, hid.symm⟩
  exact mutate_of_refused fate (Store.finish_terminal hy hfound hend)

/-! ## The life of records -/

/-- **The life of records.** In every store that a run leads to:

* a repository has at most one analysis in progress; asked to begin one, the store
  begins it if there is none and else answers with the one in progress;
* an analysis that has ended stays as it is in every run that follows, and cannot
  end a second time;
* identifiers are unique, and in every run that follows no record is lost or moved.

A run may reopen the file at any time, provided that it is not misread. The condition
cannot be left out: where every analysis has ended, it says just that loading the file
leaves the records as they are. It holds along every run that brings only moments and
numbers that are read as they are written. -/
theorem records_persist (h : a.Reachable) :
    (∀ id, (a.data.inProgress id).length ≤ 1) ∧
    (∀ fate fresh now id x, (a.begin fate fresh now id).1 = .ok (.started x) ↔
      a.Knows id ∧ a.Writes fate ∧ a.data.inProgress id = [] ∧ x = .begun fresh id now) ∧
    (∀ fate fresh now id x, (a.begin fate fresh now id).1 = .ok (.alreadyRunning x) ↔
      a.Knows id ∧ a.Writes fate ∧ a.data.inProgress id = [x]) ∧
    (∀ x ∈ a.data.analyses, x.isTerminal = true → ∀ y : Analysis, y.id = x.id → y.isTerminal = true →
      ∀ fate now, a.finish fate now y = (.error (.terminal y.id), a)) ∧
    (a.data.repositories.map (·.id)).Nodup ∧ (a.data.analyses.map (·.id)).Nodup ∧
    (∀ later, a.Admits later → a.data.Grows (a.after later).data) ∧
    (∀ text, a.keeping = .file (some text) → (∀ x ∈ a.data.analyses, x.isTerminal = true) →
      ((∀ fate now, (a.reopen fate now).2.data = a.data) ↔ a.data.NotMisread)) ∧
    (a.data.Fits → ∀ later, (∀ op ∈ later, op.Fits) → a.Along (fun b op => op.DrawsNew b) later →
      a.Admits later) := by
  have hk := h.kept
  refine ⟨hk.sound.length_inProgress_le, begin_eq_started_iff a, begin_eq_alreadyRunning_iff hk.sound, ?_,
    hk.sound.repositories, hk.sound.analyses, fun later hl => after_grows hk hl, ?_,
    fun hs later hl hnew => admits_of_fits hk.inStep hs hl hnew⟩
  · intro x hx hend y hid hy fate now
    exact finish_of_ended hk.sound hx hend hid hy fate now
  · intro text hfile hend
    exact reopen_eq_self_iff (hk.inStep.eq_of_file hfile) hend

/-- A repository and an analysis of it that fails, and then the file is loaded again. -/
def firstAnalysis : List Operation :=
  [.reopen .done default, .save .done (.register ⟨1⟩ default "a/b"), .begin .done ⟨2⟩ default ⟨1⟩,
    .finish .done default ((Analysis.begun ⟨2⟩ ⟨1⟩ default).failed default "none"), .reopen .done default]

/-- A first analysis that has failed is the only one, and is not in progress. -/
theorem records_persist_firstAnalysis :
    Reachable ((⟨{}, .file none⟩ : Archive).after firstAnalysis) ∧
      ∀ id, (((⟨{}, .file none⟩ : Archive).after firstAnalysis).data.inProgress id).length ≤ 1 := by
  have hnew : IsNew ⟨{}, .file none⟩ := ⟨rfl, Or.inr rfl⟩
  have hmoment : (default : Instant).Reads := rfl
  have hfits : ∀ op ∈ firstAnalysis, op.Fits := by
    have hrepository : (Repository.register ⟨1⟩ default "a/b").Fits :=
      ⟨by decide, by decide, hmoment, by simp [Repository.register]⟩
    have hanalysis : ((Analysis.begun ⟨2⟩ ⟨1⟩ default).failed default "none").Fits :=
      ⟨hmoment, by simpa [Analysis.failed] using hmoment, by simp [Analysis.failed, Analysis.begun]⟩
    unfold firstAnalysis
    simp only [List.forall_mem_cons]
    exact ⟨hmoment, hrepository, hmoment, ⟨hmoment, hanalysis⟩, hmoment, by simp⟩
  have hdraws : (⟨{}, .file none⟩ : Archive).Along (fun b op => op.DrawsNew b) firstAnalysis := by
    refine ⟨trivial, trivial, ?_, trivial, trivial, trivial⟩
    intro x hx
    cases hx
  have hreach : Reachable ((⟨{}, .file none⟩ : Archive).after firstAnalysis) :=
    ⟨_, firstAnalysis, hnew, admits_of_fits hnew.inStep Store.fits_empty hfits hdraws, rfl⟩
  exact ⟨hreach, (records_persist hreach).1⟩

end CodeAtlas.Archive
