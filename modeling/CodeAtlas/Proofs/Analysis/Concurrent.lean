import CodeAtlas.Proofs.Analysis.Turns
import Mathlib.Data.Fintype.Card

/-!
# Runs that share a store

Runs take turns at one store. A schedule is any list of turns.

* `turn_cases`: everything that a turn does.
* `turn_ok`, `after_ok`: what every turn keeps (`OK`).
* `after_replicate`: a run that takes its turns in a row.
* `runs_apart`: **runs of one repository do not overlap, none loses its analysis,
  and there is one analysis for every run that says it had one.**
-/

namespace CodeAtlas

variable {σ ι : Type}

/-- A store and how far each run at it has come. -/
structure Runs (ι : Type) where
  archive : Archive
  phase : ι → Phase

namespace Runs

variable [DecidableEq ι] (jobs : ι → Job σ)

/-- All runs, before the first turn. -/
def start (ι : Type) (archive : Archive) : Runs ι := ⟨archive, fun _ => .waiting⟩

/-- One of the runs comes further, and the store is another one then. -/
def move (s : Runs ι) (i : ι) (p : Phase) (archive : Archive) : Runs ι := ⟨archive, Function.update s.phase i p⟩

@[simp] theorem move_archive (s : Runs ι) (i : ι) (p : Phase) (archive : Archive) :
    (s.move i p archive).archive = archive := rfl

@[simp] theorem move_phase_self (s : Runs ι) (i : ι) (p : Phase) (archive : Archive) :
    (s.move i p archive).phase i = p := by simp [move]

theorem move_phase_of_ne (s : Runs ι) {i k : ι} (hk : k ≠ i) (p : Phase) (archive : Archive) :
    (s.move i p archive).phase k = s.phase k := by simp [move, hk]

/-- A turn of one of the runs. -/
def turn (s : Runs ι) (i : ι) : Runs ι :=
  s.move i ((jobs i).turn s.archive (s.phase i)).1 ((jobs i).turn s.archive (s.phase i)).2

/-- The runs after the turns of a schedule. -/
def after (s : Runs ι) (schedule : List ι) : Runs ι := schedule.foldl (turn jobs) s

/-- **New identifiers are new**, to the store and to each other. -/
structure Fresh (archive : Archive) : Prop where
  unused : ∀ i, ∀ x ∈ archive.data.analyses, x.id ≠ (jobs i).stamps.fresh
  distinct : ∀ i k, (jobs i).stamps.fresh = (jobs k).stamps.fresh → i = k

/-- **What every turn keeps.** An analysis is in progress as long as its run is
between the beginning and the end of it, and then no other run of the repository is. -/
structure OK (s : Runs ι) : Prop where
  started : ∀ i a, (s.phase i).IsStarted a → a = (jobs i).analysis ∧ s.archive.data.HasOne a
  running : ∀ x ∈ s.archive.data.analyses, x.isTerminal = false → ∃ i, (s.phase i).IsStarted x
  single : ∀ i k a b, (s.phase i).IsStarted a → (s.phase k).IsStarted b →
    (jobs i).repository = (jobs k).repository → i = k
  unused : ∀ i, (s.phase i).hasAnalysis = false → ∀ x ∈ s.archive.data.analyses, x.id ≠ (jobs i).stamps.fresh
  accepted : ∀ i r events a e, s.phase i ≠ .refused r events a e
  ended : ∀ i r events last, s.phase i = .ended r events last → (jobs i).Outcome s.archive.data r last

/-- How far a run comes without beginning an analysis. -/
def Quiet (s : Store) (repository : Ident) (p : Phase) : Prop :=
  (∃ r, p = .found r) ∨ (∃ r m, p = .ended r [] (.failed none m)) ∨
    ∃ r x, s.running? repository = some x ∧ p = .ended (some r) [] (.inProgress x.id)

/-- **Everything that a turn does.** -/
inductive Turn (s : Runs ι) (i : ι) : Runs ι → Prop
  | idle (h : (s.phase i).IsEnded) : Turn s i s
  | quiet (p : Phase) (k : Keeping) (h : (s.phase i).hasAnalysis = false)
      (hp : Quiet s.archive.data (jobs i).repository p) :
      Turn s i (s.move i p ⟨s.archive.data, k⟩)
  | begins (r : Repository) (k : Keeping) (h : (s.phase i).hasAnalysis = false)
      (hnone : s.archive.data.running? (jobs i).repository = none) :
      Turn s i (s.move i (.started r (jobs i).analysis)
        ⟨s.archive.data.started (jobs i).stamps.fresh (jobs i).repository (jobs i).stamps.begun, k⟩)
  | ends (r : Repository) (events : List AnalysisEvent) (last : AnalysisEvent) (y : Analysis) (now : Instant)
      (k : Keeping) (h : (s.phase i).IsStarted (jobs i).analysis) (hy : y.isTerminal = true)
      (hid : y.id = (jobs i).stamps.fresh) (hlast : last.isOfAnalysis = true)
      (hout : (jobs i).Outcome (s.archive.data.ended now y) (some r) last) :
      Turn s i (s.move i (.ended (some r) events last) ⟨s.archive.data.ended now y, k⟩)

variable {jobs} {s : Runs ι}

theorem turn_cases (h : OK jobs s) (i : ι) : Turn jobs s i (s.turn jobs i) := by
  unfold turn
  cases hp : s.phase i with
  | waiting =>
    have hq : (s.phase i).hasAnalysis = false := by rw [hp]; rfl
    rcases (jobs i).turn_waiting s.archive with ⟨m, ht⟩ | ⟨r, ht⟩
    · rw [ht]
      exact Turn.quiet _ s.archive.keeping hq (Or.inr (Or.inl ⟨none, m, rfl⟩))
    · rw [ht]
      exact Turn.quiet _ s.archive.keeping hq (Or.inl ⟨r, rfl⟩)
  | found r =>
    have hq : (s.phase i).hasAnalysis = false := by rw [hp]; rfl
    rcases (jobs i).turn_found s.archive r with ⟨m, ht⟩ | ⟨k, ⟨x, hx, ht⟩ | ⟨hnone, ht⟩⟩
    · rw [ht]
      exact Turn.quiet _ s.archive.keeping hq (Or.inr (Or.inl ⟨some r, m, rfl⟩))
    · rw [ht]
      exact Turn.quiet _ k hq (Or.inr (Or.inr ⟨r, x, hx, rfl⟩))
    · rw [ht]
      exact Turn.begins r k hq hnone
  | started r a =>
    obtain ⟨rfl, hone⟩ := h.started i a ⟨r, hp⟩
    obtain ⟨events, last, y, now, k, ht, hy, hid, hlast, hout⟩ := Job.turn_started r hone
    rw [ht]
    exact Turn.ends r events last y now k ⟨r, hp⟩ hy hid hlast hout
  -- a run whose result cannot be stored, but every writing succeeds here
  | refused r events a e => exact absurd hp (h.accepted i r events a e)
  | ended r events last =>
    have ht : (jobs i).turn s.archive (.ended r events last) = (.ended r events last, s.archive) := rfl
    have hs : s.move i (.ended r events last) s.archive = s := by
      rw [move, ← hp, Function.update_eq_self]
    rw [ht, hs]
    exact Turn.idle ⟨r, events, last, hp⟩

/-! ## What a turn keeps -/

theorem Quiet.not_isStarted {t : Store} {repository : Ident} {p : Phase} (h : Quiet t repository p) (a : Analysis) :
    ¬p.IsStarted a := by
  rintro ⟨r, rfl⟩
  rcases h with ⟨r', h⟩ | ⟨r', m, h⟩ | ⟨r', x, -, h⟩ <;> cases h

theorem Quiet.hasAnalysis {t : Store} {repository : Ident} {p : Phase} (h : Quiet t repository p) :
    p.hasAnalysis = false := by
  rcases h with ⟨r, rfl⟩ | ⟨r, m, rfl⟩ | ⟨r, x, -, rfl⟩ <;> rfl

/-- **What holds of the other runs stays** if they and their analyses do. It remains
to be seen to the run whose turn it was. -/
theorem OK.update (h : OK jobs s) {i : ι} {s' : Runs ι} (hother : ∀ k, k ≠ i → s'.phase k = s.phase k)
    (hkept : ∀ k, k ≠ i → ∀ x : Analysis, x.id = (jobs k).stamps.fresh → s.archive.data.HasOne x →
      s'.archive.data.HasOne x)
    (hnew : ∀ x ∈ s'.archive.data.analyses, x ∈ s.archive.data.analyses ∨
      ∀ k, k ≠ i → x.id ≠ (jobs k).stamps.fresh)
    (hstarted : ∀ a, (s'.phase i).IsStarted a → a = (jobs i).analysis ∧ s'.archive.data.HasOne a ∧
      ∀ k b, k ≠ i → (s.phase k).IsStarted b → (jobs i).repository ≠ (jobs k).repository)
    (hrunning : ∀ x ∈ s'.archive.data.analyses, x.isTerminal = false →
      (s'.phase i).IsStarted x ∨ ∃ k, k ≠ i ∧ (s.phase k).IsStarted x)
    (hunused : (s'.phase i).hasAnalysis = false → ∀ x ∈ s'.archive.data.analyses, x.id ≠ (jobs i).stamps.fresh)
    (haccepted : ∀ r events a e, s'.phase i ≠ .refused r events a e)
    (hended : ∀ r events last, s'.phase i = .ended r events last → (jobs i).Outcome s'.archive.data r last) :
    OK jobs s' := by
  constructor
  case started =>
    intro k a ha
    rcases eq_or_ne k i with rfl | hk
    · exact ⟨(hstarted a ha).1, (hstarted a ha).2.1⟩
    · rw [hother k hk] at ha
      obtain ⟨rfl, hone⟩ := h.started k a ha
      exact ⟨rfl, hkept k hk _ rfl hone⟩
  case running =>
    intro x hx hrun
    rcases hrunning x hx hrun with hp | ⟨k, hk, hs⟩
    · exact ⟨i, hp⟩
    · exact ⟨k, by rwa [hother k hk]⟩
  case single =>
    intro k l a b ha hb hrep
    by_contra hkl
    -- of two runs of a repository, one may be the one whose turn it was
    rcases eq_or_ne k i with rfl | hk
    · have hl : l ≠ k := fun e => hkl e.symm
      rw [hother l hl] at hb
      exact (hstarted a ha).2.2 l b hl hb hrep
    rw [hother k hk] at ha
    rcases eq_or_ne l i with rfl | hl
    · exact (hstarted b hb).2.2 k a hk ha hrep.symm
    · rw [hother l hl] at hb
      exact hkl (h.single k l a b ha hb hrep)
  case unused =>
    intro k hk x hx
    rcases eq_or_ne k i with rfl | hki
    · exact hunused hk x hx
    · -- a new record of another run has the identifier of neither
      rw [hother k hki] at hk
      rcases hnew x hx with hold | hnew
      · exact h.unused k hk x hold
      · exact hnew k hki
  case accepted =>
    intro k r events a e
    rcases eq_or_ne k i with rfl | hk
    · exact haccepted r events a e
    · rw [hother k hk]
      exact h.accepted k r events a e
  case ended =>
    intro k r events last hk
    rcases eq_or_ne k i with rfl | hki
    · exact hended r events last hk
    · rw [hother k hki] at hk
      exact (h.ended k r events last hk).mono (hkept k hki)

theorem quiet_ok (h : OK jobs s) {i : ι} {p : Phase} (k : Keeping) (hi : (s.phase i).hasAnalysis = false)
    (hp : Quiet s.archive.data (jobs i).repository p) : OK jobs (s.move i p ⟨s.archive.data, k⟩) := by
  refine h.update (i := i) (fun k hk => s.move_phase_of_ne hk p _) (fun _ _ _ _ hone => hone)
    (fun x hx => Or.inl hx) ?started ?running (fun _ => h.unused i hi) ?accepted ?ended
  case started =>
    intro a ha
    rw [move_phase_self] at ha
    exact absurd ha (hp.not_isStarted a)
  case running =>
    intro x hx hrun
    obtain ⟨l, hl⟩ := h.running x hx hrun
    -- the analysis belongs to another run, since this one has none
    refine Or.inr ⟨l, ?_, hl⟩
    rintro rfl
    rw [hl.hasAnalysis] at hi
    cases hi
  case accepted =>
    intro r events a e
    rw [move_phase_self]
    rcases hp with ⟨r', rfl⟩ | ⟨r', m, rfl⟩ | ⟨r', x, -, rfl⟩ <;> exact Phase.noConfusion
  case ended =>
    intro r events last hlast
    rw [move_phase_self] at hlast
    rcases hp with ⟨r', rfl⟩ | ⟨r', m, rfl⟩ | ⟨r', x, -, rfl⟩ <;> cases hlast
    · cases r <;> trivial
    · trivial

/-- **A run that begins its analysis** has a new one, and no other run of the
repository is between the beginning and the end of its own. -/
theorem begins_ok {archive : Archive} (hfresh : Fresh jobs archive) (h : OK jobs s) {i : ι} (r : Repository)
    (k : Keeping) (hi : (s.phase i).hasAnalysis = false)
    (hnone : s.archive.data.running? (jobs i).repository = none) :
    OK jobs (s.move i (.started r (jobs i).analysis)
      ⟨s.archive.data.started (jobs i).stamps.fresh (jobs i).repository (jobs i).stamps.begun, k⟩) := by
  have hne : ∀ k, k ≠ i → (jobs k).stamps.fresh ≠ (jobs i).stamps.fresh := fun k hk e => hk (hfresh.distinct k i e)
  have hmem : ∀ x ∈ s.archive.data.analyses ++ [(jobs i).analysis],
      x ∈ s.archive.data.analyses ∨ x = (jobs i).analysis := by
    intro x hx
    simpa using hx
  refine h.update (i := i) (fun k hk => s.move_phase_of_ne hk _ _)
    ?kept ?new ?started ?running ?unused ?accepted ?ended
  case kept =>
    intro k hk x hx hone
    exact hone.started (by rw [hx]; exact hne k hk) _ _
  case new =>
    intro x hx
    rcases hmem x hx with hx | rfl
    · exact Or.inl hx
    · exact Or.inr fun k hk => (hne k hk).symm
  case started =>
    intro a ha
    rw [move_phase_self] at ha
    obtain ⟨r', ha⟩ := ha
    cases ha
    refine ⟨rfl, Store.hasOne_started (h.unused i hi) _ _, ?_⟩
    -- another run that has begun would have its analysis in progress
    intro k b hk hb hrep
    obtain ⟨rfl, hone⟩ := h.started k b hb
    have := List.find?_eq_none.1 hnone _ hone.mem
    simp [Job.analysis, Analysis.begun, Analysis.isTerminal, hrep] at this
  case running =>
    intro x hx hrun
    rcases hmem x hx with hx | rfl
    · obtain ⟨l, hl⟩ := h.running x hx hrun
      refine Or.inr ⟨l, ?_, hl⟩
      rintro rfl
      rw [hl.hasAnalysis] at hi
      cases hi
    · left
      rw [move_phase_self]
      exact ⟨r, rfl⟩
  case unused =>
    intro hp
    rw [move_phase_self] at hp
    cases hp
  case accepted =>
    intro r' events a e
    rw [move_phase_self]
    exact Phase.noConfusion
  case ended =>
    intro r' events last hlast
    rw [move_phase_self] at hlast
    cases hlast

/-- **A run that ends its analysis** ends no other one. -/
theorem ends_ok {archive : Archive} (hfresh : Fresh jobs archive) (h : OK jobs s) {i : ι} (r : Repository)
    (events : List AnalysisEvent) (last : AnalysisEvent) {y : Analysis} (now : Instant) (k : Keeping)
    (hi : (s.phase i).IsStarted (jobs i).analysis) (hy : y.isTerminal = true) (hid : y.id = (jobs i).stamps.fresh)
    (hlast : last.isOfAnalysis = true) (hout : (jobs i).Outcome (s.archive.data.ended now y) (some r) last) :
    OK jobs (s.move i (.ended (some r) events last) ⟨s.archive.data.ended now y, k⟩) := by
  have hne : ∀ k, k ≠ i → (jobs k).stamps.fresh ≠ y.id := fun k hk e => hk (hfresh.distinct k i (e.trans hid))
  have hone := (h.started i _ hi).2
  have hmem : ∀ x ∈ (s.archive.data.ended now y).analyses, x ∈ s.archive.data.analyses ∨ x = y := by
    intro x hx
    rw [Store.ended_analyses] at hx
    rcases mem_updateFirst hx with hx | ⟨-, -, hx⟩
    · exact Or.inl hx
    · exact Or.inr hx
  refine h.update (i := i) (fun k hk => s.move_phase_of_ne hk _ _)
    ?kept ?new ?started ?running ?unused ?accepted ?ended
  case kept =>
    intro k hk x hx hone'
    exact hone'.ended (by rw [hx]; exact hne k hk) now
  case new =>
    intro x hx
    rcases hmem x hx with hx | rfl
    · exact Or.inl hx
    · exact Or.inr fun k hk => (hne k hk).symm
  case started =>
    intro a ha
    rw [move_phase_self] at ha
    obtain ⟨r', ha⟩ := ha
    cases ha
  case running =>
    intro x hx hrun
    rcases hmem x hx with hold | rfl
    · obtain ⟨l, hl⟩ := h.running x hold hrun
      refine Or.inr ⟨l, ?_, hl⟩
      -- the run's own analysis is not in the store any more
      rintro rfl
      obtain ⟨rfl, -⟩ := h.started l x hl
      have := (hone.replaced (y := y) hid now).eq hx hid.symm
      rw [this, hy] at hrun
      cases hrun
    · rw [hy] at hrun
      cases hrun
  case unused =>
    intro hp
    rw [move_phase_self] at hp
    rw [Phase.hasAnalysis, hlast] at hp
    cases hp
  case accepted =>
    intro r' events' a e
    rw [move_phase_self]
    exact Phase.noConfusion
  case ended =>
    intro r' events' last' hlast'
    rw [move_phase_self] at hlast'
    cases hlast'
    exact hout

/-- **Every turn keeps what holds of the runs.** -/
theorem turn_ok {archive : Archive} (hfresh : Fresh jobs archive) (h : OK jobs s) (i : ι) :
    OK jobs (s.turn jobs i) := by
  have ht := turn_cases h i
  generalize s.turn jobs i = s' at ht ⊢
  cases ht with
  | idle => exact h
  | quiet p k hi hp => exact quiet_ok h k hi hp
  | begins r k hi hnone => exact begins_ok hfresh h r k hi hnone
  | ends r events last y now k hi hy hid hlast hout => exact ends_ok hfresh h r events last now k hi hy hid hlast hout

/-! ## Schedules -/

omit [DecidableEq ι] in
theorem start_ok {archive : Archive} (hfresh : Fresh jobs archive)
    (hended : ∀ x ∈ archive.data.analyses, x.isTerminal = true) : OK jobs (start ι archive) := by
  constructor
  · rintro i a ⟨r, ha⟩
    cases ha
  · intro x hx hrun
    have hrun : x.isTerminal = false := hrun
    rw [hended x hx] at hrun
    cases hrun
  · rintro i k a b ⟨r, ha⟩
    cases ha
  · exact fun i _ => hfresh.unused i
  · intro i r events a e ha
    cases ha
  · intro i r events last ha
    cases ha

theorem after_ok {archive : Archive} (hfresh : Fresh jobs archive) (h : OK jobs s) (schedule : List ι) :
    OK jobs (s.after jobs schedule) := by
  induction schedule generalizing s with
  | nil => exact h
  | cons i schedule ih => exact ih (turn_ok hfresh h i)

/-- **A turn brings a run further.** -/
theorem left_turn (h : OK jobs s) (i : ι) : ((s.turn jobs i).phase i).left ≤ (s.phase i).left - 1 := by
  unfold turn
  rw [move_phase_self]
  cases hp : s.phase i with
  | waiting => rcases (jobs i).turn_waiting s.archive with ⟨m, ht⟩ | ⟨r, ht⟩ <;> simp [ht, Phase.left]
  | found r =>
    rcases (jobs i).turn_found s.archive r with ⟨m, ht⟩ | ⟨k, ⟨x, hx, ht⟩ | ⟨hnone, ht⟩⟩ <;> simp [ht, Phase.left]
  | started r a =>
    obtain ⟨rfl, hone⟩ := h.started i a ⟨r, hp⟩
    obtain ⟨events, last, y, now, k, ht, -⟩ := Job.turn_started r hone
    simp [ht, Phase.left]
  | refused r events a e => exact absurd hp (h.accepted i r events a e)
  | ended r events last => simp [Job.turn, Phase.left]

/-- A run with enough turns comes to its end. -/
theorem left_after {archive : Archive} (hfresh : Fresh jobs archive) (h : OK jobs s) (schedule : List ι) (i : ι) :
    ((s.after jobs schedule).phase i).left ≤ (s.phase i).left - schedule.count i := by
  induction schedule generalizing s with
  | nil => simp [after]
  | cons k schedule ih =>
    have hrest := ih (turn_ok hfresh h k)
    change ((s.turn jobs k).after jobs schedule |>.phase i).left ≤ _
    rcases eq_or_ne i k with rfl | hik
    · have hturn := left_turn h i
      rw [List.count_cons_self]
      omega
    · rw [turn, move_phase_of_ne s hik] at hrest
      rw [List.count_cons_of_ne hik.symm]
      exact hrest

/-- A run says that an analysis is in progress only of one that is, and that another
run of its repository has begun. -/
theorem inProgress_turn (h : OK jobs s) {i : ι} (hi : ¬(s.phase i).IsEnded) {r : Option Repository}
    {events : List AnalysisEvent} {id : Ident} (he : (s.turn jobs i).phase i = .ended r events (.inProgress id)) :
    ∃ k a, k ≠ i ∧ (jobs k).repository = (jobs i).repository ∧ (s.phase k).IsStarted a ∧ a.id = id := by
  have ht := turn_cases h i
  generalize s.turn jobs i = s' at ht he
  cases ht with
  | idle hend => exact absurd hend hi
  | quiet p keeping hnot hp =>
    rw [move_phase_self] at he
    rcases hp with ⟨r', rfl⟩ | ⟨r', m, rfl⟩ | ⟨r', x, hx, rfl⟩ <;> cases he
    have hrun : x.repository = (jobs i).repository ∧ x.isTerminal = false := by
      simpa using List.find?_some hx
    obtain ⟨k, hk⟩ := h.running x (List.mem_of_find?_eq_some hx) hrun.2
    obtain ⟨rfl, -⟩ := h.started k x hk
    refine ⟨k, _, ?_, hrun.1, hk, rfl⟩
    -- the run itself has not begun an analysis
    rintro rfl
    rw [hk.hasAnalysis] at hnot
    cases hnot
  | begins r' keeping hnot hnone =>
    rw [move_phase_self] at he
    cases he
  | ends r' events' last y now keeping hstart hy hid hlast hout =>
    rw [move_phase_self] at he
    cases he
    cases hlast

/-! ## Counting -/

section Count

variable [Fintype ι]

/-- The runs that have an analysis, or had one. -/
def withAnalysis (s : Runs ι) : Finset ι := Finset.univ.filter fun i => (s.phase i).hasAnalysis = true

omit [DecidableEq ι] in
theorem mem_withAnalysis (i : ι) : i ∈ s.withAnalysis ↔ (s.phase i).hasAnalysis = true := by simp [withAnalysis]

theorem withAnalysis_move {i : ι} {p : Phase} (hp : p.hasAnalysis = (s.phase i).hasAnalysis) (archive : Archive) :
    (s.move i p archive).withAnalysis = s.withAnalysis := by
  ext k
  rw [mem_withAnalysis, mem_withAnalysis]
  rcases eq_or_ne k i with rfl | hk
  · rw [move_phase_self, hp]
  · rw [move_phase_of_ne s hk]

theorem card_withAnalysis_move {i : ι} {p : Phase} (hi : (s.phase i).hasAnalysis = false) (hp : p.hasAnalysis = true)
    (archive : Archive) : (s.move i p archive).withAnalysis.card = s.withAnalysis.card + 1 := by
  have hnot : i ∉ s.withAnalysis := by simp [mem_withAnalysis, hi]
  rw [← Finset.card_insert_of_notMem hnot]
  congr 1
  ext k
  rw [Finset.mem_insert, mem_withAnalysis, mem_withAnalysis]
  rcases eq_or_ne k i with rfl | hk
  · simp [hp]
  · rw [move_phase_of_ne s hk]
    simp [hk]

/-- **A record for every run with an analysis**, and no other one. -/
theorem length_turn (h : OK jobs s) (i : ι) {n : ℕ}
    (hn : s.archive.data.analyses.length = n + s.withAnalysis.card) :
    (s.turn jobs i).archive.data.analyses.length = n + (s.turn jobs i).withAnalysis.card := by
  have ht := turn_cases h i
  generalize s.turn jobs i = s' at ht ⊢
  cases ht with
  | idle => exact hn
  | quiet p k hi hp =>
    rw [withAnalysis_move (hp.hasAnalysis.trans hi.symm)]
    exact hn
  | begins r k hi hnone =>
    rw [card_withAnalysis_move hi rfl, move_archive, Store.started_analyses, List.length_append, hn]
    rfl
  | ends r events last y now k hi hy hid hlast hout =>
    have hlen := congrArg List.length (s.archive.data.ended_analysis_ids now y)
    rw [List.length_map, List.length_map] at hlen
    have hp : (Phase.ended (some r) events last).hasAnalysis = (s.phase i).hasAnalysis := by
      rw [hi.hasAnalysis]
      exact hlast
    rw [withAnalysis_move hp, move_archive, hlen, hn]

theorem length_after {archive : Archive} (hfresh : Fresh jobs archive) (h : OK jobs s) (schedule : List ι) {n : ℕ}
    (hn : s.archive.data.analyses.length = n + s.withAnalysis.card) :
    (s.after jobs schedule).archive.data.analyses.length = n + (s.after jobs schedule).withAnalysis.card := by
  induction schedule generalizing s with
  | nil => exact hn
  | cons i schedule ih => exact ih (turn_ok hfresh h i) (length_turn h i hn)

end Count

/-! ## Runs that are not disturbed -/

/-- Turns of one run are those of its job, and the other runs stay where they are. -/
theorem after_replicate (jobs : ι → Job σ) (s : Runs ι) (i : ι) (n : ℕ) :
    ((s.after jobs (List.replicate n i)).phase i, (s.after jobs (List.replicate n i)).archive) =
        (jobs i).turns n s.archive (s.phase i) ∧
      ∀ k, k ≠ i → (s.after jobs (List.replicate n i)).phase k = s.phase k := by
  induction n generalizing s with
  | zero => exact ⟨rfl, fun _ _ => rfl⟩
  | succ n ih =>
    obtain ⟨hturns, hothers⟩ := ih (s.turn jobs i)
    refine ⟨hturns.trans ?_, fun k hk => (hothers k hk).trans (move_phase_of_ne s hk _ _)⟩
    simp only [turn, move_archive, move_phase_self]
    rfl

/-! ## All runs -/

/-- **Runs of one repository do not overlap.** Let any runs of any repositories share
a store without analyses in progress, where every writing succeeds. After any
schedule:

* of the runs of a repository, one at most is between the beginning and the end of
  its analysis, and the store will take the end of it, whichever it is;
* a run that finds an analysis in progress finds one that another run of its
  repository has begun and not ended;
* a run that has had three turns is over;
* a run that has had no turn and then takes all its turns in a row announces and stores what
  `analyze` does with the store as it is;
* once all runs are over, no analysis is in progress, each run has left in the store
  what its stages came to, and there are as many new analyses as there are runs that
  say how theirs ended. -/
theorem runs_apart [Fintype ι] {archive : Archive} (hfresh : Fresh jobs archive)
    (hended : ∀ x ∈ archive.data.analyses, x.isTerminal = true) (schedule : List ι) :
    let s := (start ι archive).after jobs schedule
    (∀ i k a b, (s.phase i).IsStarted a → (s.phase k).IsStarted b → (jobs i).repository = (jobs k).repository →
      i = k) ∧
    (∀ i a, (s.phase i).IsStarted a → ∀ y : Analysis, y.isTerminal = true → y.id = a.id →
      ∀ now, (s.archive.finish .done now y).1 = .ok y) ∧
    (∀ i r events a e, s.phase i ≠ .refused r events a e) ∧
    (∀ i, ¬(s.phase i).IsEnded → ∀ r events id, (s.turn jobs i).phase i = .ended r events (.inProgress id) →
      ∃ k a, k ≠ i ∧ (jobs k).repository = (jobs i).repository ∧ (s.phase k).IsStarted a ∧ a.id = id) ∧
    (∀ i, 3 ≤ schedule.count i → (s.phase i).IsEnded) ∧
    (∀ i (host : Host σ) generator settings state,
      (jobs i).stages = (fun r => stagesOf host generator settings r state) → s.phase i = .waiting →
        let t := s.after jobs (List.replicate 4 i)
        let run := analyze host generator settings {} (jobs i).stamps (jobs i).repository s.archive state
        t.archive = run.archive ∧ (∀ k, k ≠ i → t.phase k = s.phase k) ∧
          ∃ r events last, t.phase i = .ended r events last ∧ run.events = events ++ [last]) ∧
    ((∀ i, (s.phase i).IsEnded) →
      (∀ x ∈ s.archive.data.analyses, x.isTerminal = true) ∧
      (∀ i r events last, s.phase i = .ended r events last → (jobs i).Outcome s.archive.data r last) ∧
      s.archive.data.analyses.length =
        archive.data.analyses.length + (Finset.univ.filter fun i => (s.phase i).tellsEnd = true).card) := by
  intro s
  have h : OK jobs s := after_ok hfresh (start_ok hfresh hended) schedule
  refine ⟨h.single, ?_, h.accepted, fun i hi r events id he => inProgress_turn h hi he, ?_, ?_, ?_⟩
  · intro i a ha y hy hid now
    obtain ⟨rfl, hone⟩ := h.started i a ha
    have hfound : s.archive.data.analysis? y.id = some (jobs i).analysis := hid ▸ hone.analysis?
    obtain ⟨k, hk⟩ := Archive.finish_of_writes (Or.inr rfl) hy hfound rfl now
    rw [hk]
  · intro i hcount
    have hleft : (s.phase i).left ≤ 3 - schedule.count i :=
      left_after hfresh (start_ok hfresh hended) schedule i
    have hzero : (s.phase i).left = 0 := by omega
    cases hp : s.phase i with
    | ended r events last => exact ⟨r, events, last, rfl⟩
    | _ =>
      rw [hp] at hzero
      cases hzero
  · intro i host generator settings state hstages hwaiting t run
    obtain ⟨r, events, last, halone, hevents⟩ :=
      Job.alone host generator settings (jobs i).stamps (jobs i).repository s.archive state
    obtain ⟨hturns, hothers⟩ := after_replicate jobs s i 4
    rw [hwaiting] at hturns
    simp only [← hstages] at halone
    obtain ⟨hphase, harchive⟩ := Prod.ext_iff.1 (hturns.trans halone)
    exact ⟨harchive, hothers, r, events, last, hphase, hevents⟩
  · intro hall
    refine ⟨?_, h.ended, ?_⟩
    · -- an analysis in progress would have a run that is not over
      intro x hx
      by_contra hrun
      obtain ⟨i, r, hi⟩ := h.running x hx (by simpa using hrun)
      obtain ⟨r', events, last, hend⟩ := hall i
      rw [hi] at hend
      cases hend
    · -- an ended run had an analysis if it says how that ended
      have hnone : (start ι archive).withAnalysis.card = 0 := by simp [withAnalysis, start, Phase.hasAnalysis]
      have hlen := length_after hfresh (start_ok hfresh hended) schedule (n := archive.data.analyses.length)
        (by rw [hnone]; rfl)
      have hsame : s.withAnalysis = Finset.univ.filter fun i => (s.phase i).tellsEnd = true := by
        ext i
        obtain ⟨r, events, last, hend⟩ := hall i
        have hsay : (s.phase i).hasAnalysis = (s.phase i).tellsEnd := by
          rw [hend]
          rfl
        simp [withAnalysis, hsay]
      rw [← hsame]
      exact hlen

/-- Two runs of one repository, of which the stages fail. -/
def twoJobs (i : Bool) : Job Unit where
  repository := ⟨1⟩
  stamps := ⟨bif i then ⟨3⟩ else ⟨4⟩, default, default, default⟩
  stages _ := ⟨[], .error (.host (.status "a/b" 500)), ()⟩

/-- Two runs that take turns are over after three turns each. -/
theorem runs_apart_twoJobs :
    Fresh twoJobs ⟨failedOnce, .memory⟩ ∧ (∀ x ∈ failedOnce.analyses, x.isTerminal = true) ∧
      ∀ i, (((start Bool ⟨failedOnce, .memory⟩).after twoJobs
        [true, false, true, false, true, false]).phase i).IsEnded := by
  have hfresh : Fresh twoJobs ⟨failedOnce, .memory⟩ := ⟨by decide, by decide⟩
  have hended : ∀ x ∈ failedOnce.analyses, x.isTerminal = true := by decide
  refine ⟨hfresh, hended, fun i => ?_⟩
  have hturns : 3 ≤ [true, false, true, false, true, false].count i := by cases i <;> decide
  exact (runs_apart hfresh hended [true, false, true, false, true, false]).2.2.2.2.1 i hturns

end Runs

end CodeAtlas
