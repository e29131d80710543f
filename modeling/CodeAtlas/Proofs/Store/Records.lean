import CodeAtlas.Store.Archive
import Mathlib.Data.List.Nodup

/-!
# What the changes of a store keep

Identifiers are unique and a repository has at most one analysis in progress
(`Store.Sound`). No change removes or moves a record, and none touches an
analysis that has ended (`Store.Grows`). Both are proved of each change.

* `begin_cases`, `finish_cases`: everything that a change which is not refused does.
* `saveRepository_sound`, `begin_sound`, `finish_sound`, `recover_sound`.
* `saveRepository_grows`, `begin_grows`, `finish_grows`, `recover_grows`.
-/

namespace CodeAtlas

variable {α β : Type}

theorem prefix_of_eq {l m : List α} (h : l = m) : l <+: m := ⟨[], by rw [List.append_nil, h]⟩

/-! ## Changing the first member -/

section UpdateFirst

variable {p : α → Bool} {f : α → α}

/-- A view that the change does not touch stays as it is. -/
theorem map_updateFirst (g : α → β) (hg : ∀ a, p a = true → g (f a) = g a) (l : List α) :
    (updateFirst p f l).map g = l.map g := by
  induction l with
  | nil => rfl
  | cons a l ih =>
    unfold updateFirst
    split
    · rename_i hp
      simp [hg a hp]
    · simp [ih]

/-- A member that is not the one to be changed stays at its place. -/
theorem getElem?_updateFirst {l : List α} {i : ℕ} {x : α} (hx : l[i]? = some x) (hp : p x = false) :
    (updateFirst p f l)[i]? = some x := by
  induction l generalizing i with
  | nil => simp at hx
  | cons a l ih =>
    unfold updateFirst
    rcases i with _ | i
    · simp only [List.getElem?_cons_zero, Option.some.injEq] at hx
      subst hx
      simp [hp]
    · rw [List.getElem?_cons_succ] at hx
      split
      · simpa using hx
      · simpa using ih hx

theorem mem_updateFirst {l : List α} {x : α} (hx : x ∈ updateFirst p f l) : x ∈ l ∨ ∃ a ∈ l, x = f a := by
  induction l with
  | nil => simp [updateFirst] at hx
  | cons a l ih =>
    unfold updateFirst at hx
    split at hx
    · rcases List.mem_cons.1 hx with rfl | hx
      · exact Or.inr ⟨a, List.mem_cons_self, rfl⟩
      · exact Or.inl (List.mem_cons_of_mem _ hx)
    · rcases List.mem_cons.1 hx with rfl | hx
      · exact Or.inl List.mem_cons_self
      · rcases ih hx with h | ⟨b, hb, rfl⟩
        · exact Or.inl (List.mem_cons_of_mem _ h)
        · exact Or.inr ⟨b, List.mem_cons_of_mem _ hb, rfl⟩

/-- A change that keeps to the condition is found where the member was. -/
theorem find?_updateFirst (hf : ∀ a, p a = true → p (f a) = true) (l : List α) :
    (updateFirst p f l).find? p = (l.find? p).map f := by
  induction l with
  | nil => rfl
  | cons a l ih =>
    unfold updateFirst
    split
    · rename_i hp
      simp [hf a hp, hp]
    · rename_i hp
      rw [List.find?_cons_of_neg hp, List.find?_cons_of_neg hp, ih]

/-- A change that keeps to the condition is made among the members that keep to it. -/
theorem filter_updateFirst (hf : ∀ a, p a = true → p (f a) = true) (l : List α) :
    (updateFirst p f l).filter p = updateFirst p f (l.filter p) := by
  induction l with
  | nil => rfl
  | cons a l ih =>
    by_cases hp : p a = true
    · simp [updateFirst, hp, hf a hp]
    · simpa [updateFirst, hp] using ih

/-- A condition that the change does not touch finds the same members. -/
theorem filter_updateFirst_of_ne {q : α → Bool} (hq : ∀ a, p a = true → q a = false ∧ q (f a) = false)
    (l : List α) : (updateFirst p f l).filter q = l.filter q := by
  induction l with
  | nil => rfl
  | cons a l ih =>
    unfold updateFirst
    split
    · rename_i hp
      rw [List.filter_cons_of_neg (by simp [(hq a hp).2]), List.filter_cons_of_neg (by simp [(hq a hp).1])]
    · rw [List.filter_cons, List.filter_cons, ih]

/-- A relation between members outlives a change that can only make it weaker. -/
theorem pairwise_updateFirst {r : α → α → Prop} (hl : ∀ a b, r a b → r (f a) b) (hr : ∀ a b, r a b → r a (f b))
    {l : List α} (h : l.Pairwise r) : (updateFirst p f l).Pairwise r := by
  induction l with
  | nil => exact List.Pairwise.nil
  | cons a l ih =>
    obtain ⟨ha, hrest⟩ := List.pairwise_cons.1 h
    unfold updateFirst
    split
    · exact List.pairwise_cons.2 ⟨fun b hb => hl a b (ha b hb), hrest⟩
    · refine List.pairwise_cons.2 ⟨?_, ih hrest⟩
      intro b hb
      rcases mem_updateFirst hb with hb | ⟨c, hc, rfl⟩
      · exact ha b hb
      · exact hr a c (ha c hc)

end UpdateFirst

namespace Analysis

@[simp] theorem isTerminal_completed (a : Analysis) (now : Instant) (r : Result) :
    (a.completed now r).isTerminal = true := rfl

@[simp] theorem isTerminal_failed (a : Analysis) (now : Instant) (m : String) :
    (a.failed now m).isTerminal = true := rfl

end Analysis

namespace Store

/-! ## What every change keeps -/

/-- Identifiers are unique, and of two analyses of a repository one has ended. -/
structure Sound (s : Store) : Prop where
  repositories : (s.repositories.map (·.id)).Nodup
  analyses : (s.analyses.map (·.id)).Nodup
  single : s.analyses.Pairwise fun a b => a.repository = b.repository → a.isTerminal = true ∨ b.isTerminal = true

/-- **How a store may change.** Records stay at their places, new ones come at
the end, and an analysis that has ended stays as it is. -/
structure Grows (s t : Store) : Prop where
  repositories : s.repositories.map (·.id) <+: t.repositories.map (·.id)
  analyses : s.analyses.map (·.id) <+: t.analyses.map (·.id)
  ended : ∀ (i : ℕ) (x : Analysis), s.analyses[i]? = some x → x.isTerminal = true → t.analyses[i]? = some x

/-- The analyses of a repository that are in progress. -/
def inProgress (s : Store) (repository : Ident) : List Analysis :=
  s.analyses.filter fun a => a.repository == repository && !a.isTerminal

variable {s t u : Store}

theorem Grows.refl (s : Store) : s.Grows s := ⟨List.prefix_rfl, List.prefix_rfl, fun _ _ h _ => h⟩

theorem Grows.trans (h : s.Grows t) (h' : t.Grows u) : s.Grows u :=
  ⟨h.repositories.trans h'.repositories, h.analyses.trans h'.analyses,
    fun i x hx hend => h'.ended i x (h.ended i x hx hend) hend⟩

theorem sound_empty : Sound {} := ⟨List.nodup_nil, List.nodup_nil, List.Pairwise.nil⟩

/-- **At most one analysis in progress.** -/
theorem Sound.length_inProgress_le (h : s.Sound) (repository : Ident) : (s.inProgress repository).length ≤ 1 := by
  have hp := h.single.filter (fun a => a.repository == repository && !a.isTerminal)
  change (s.inProgress repository).Pairwise _ at hp
  have hmem : ∀ x ∈ s.inProgress repository, x.repository = repository ∧ x.isTerminal = false := by
    intro x hx
    simpa [inProgress] using (List.mem_filter.1 hx).2
  rcases hl : s.inProgress repository with _ | ⟨x, _ | ⟨y, rest⟩⟩
  · simp
  · simp
  · exfalso
    rw [hl] at hp hmem
    obtain ⟨hx, hxt⟩ := hmem x (by simp)
    obtain ⟨hy, hyt⟩ := hmem y (by simp)
    have hxy := (List.pairwise_cons.1 hp).1 y (by simp) (hx.trans hy.symm)
    simp [hxt, hyt] at hxy

/-- The running analysis is the first of those in progress. -/
theorem running?_eq_head? (s : Store) (repository : Ident) :
    s.running? repository = (s.inProgress repository).head? := by
  unfold running? inProgress
  rw [List.head?_filter]

/-- **The running analysis is the only one in progress.** -/
theorem Sound.running?_eq_some_iff (h : s.Sound) {repository : Ident} {x : Analysis} :
    s.running? repository = some x ↔ s.inProgress repository = [x] := by
  have hlen := h.length_inProgress_le repository
  rw [running?_eq_head?]
  rcases hl : s.inProgress repository with _ | ⟨y, _ | ⟨z, rest⟩⟩
  · simp
  · simp
  · rw [hl] at hlen
    simp at hlen

theorem running?_eq_none_iff (s : Store) (repository : Ident) :
    s.running? repository = none ↔ s.inProgress repository = [] := by
  rw [running?_eq_head?, List.head?_eq_none_iff]

/-- An identifier finds at most one analysis. -/
theorem Sound.analysis?_eq_some_iff (h : s.Sound) {id : Ident} {x : Analysis} :
    s.analysis? id = some x ↔ x ∈ s.analyses ∧ x.id = id := by
  unfold analysis?
  constructor
  · intro hx
    exact ⟨List.mem_of_find?_eq_some hx, by simpa using List.find?_some hx⟩
  · rintro ⟨hx, rfl⟩
    cases hy : s.analyses.find? (·.id == x.id) with
    | none => simpa using List.find?_eq_none.1 hy x hx
    | some y =>
      have hid : y.id = x.id := by simpa using List.find?_some hy
      rw [List.inj_on_of_nodup_map h.analyses (List.mem_of_find?_eq_some hy) hx hid]

/-! ## Saving a repository -/

theorem saveRepository_sound (h : s.Sound) (r : Repository) : (s.saveRepository r).Sound := by
  unfold saveRepository
  split
  · refine ⟨?_, h.analyses, h.single⟩
    have hid := map_updateFirst (p := fun x : Repository => x.id == r.id) (f := fun _ => r) (·.id)
      (fun x hx => (by simpa using hx : x.id = r.id).symm) s.repositories
    simpa only [hid] using h.repositories
  · rename_i hnew
    refine ⟨?_, h.analyses, h.single⟩
    simp only [List.map_append, List.map_cons, List.map_nil]
    refine List.nodup_append.2 ⟨h.repositories, by simp, ?_⟩
    intro i hi j hj hij
    obtain ⟨x, hx, rfl⟩ := List.mem_map.1 hi
    have hj : j = r.id := by simpa using hj
    exact hnew (List.any_eq_true.2 ⟨x, hx, by simpa using hij.trans hj⟩)

theorem saveRepository_grows (s : Store) (r : Repository) : s.Grows (s.saveRepository r) := by
  unfold saveRepository
  split
  · refine ⟨?_, List.prefix_rfl, fun _ _ h _ => h⟩
    have hid := map_updateFirst (p := fun x : Repository => x.id == r.id) (f := fun _ => r) (·.id)
      (fun x hx => (by simpa using hx : x.id = r.id).symm) s.repositories
    exact prefix_of_eq hid.symm
  · refine ⟨?_, List.prefix_rfl, fun _ _ h _ => h⟩
    simp

/-! ## Beginning an analysis -/

/-- The store after an analysis has begun. -/
def started (s : Store) (fresh id : Ident) (now : Instant) : Store :=
  { s with analyses := s.analyses ++ [.begun fresh id now] }

@[simp] theorem started_analyses (s : Store) (fresh id : Ident) (now : Instant) :
    (s.started fresh id now).analyses = s.analyses ++ [.begun fresh id now] := rfl

/-- **What beginning an analysis does** if it is not refused. -/
theorem begin_cases {fresh id : Ident} {now : Instant} {out : Start} (h : s.begin fresh now id = .ok (out, t)) :
    s.repositories.any (·.id == id) = true ∧
      ((∃ a, s.running? id = some a ∧ out = .alreadyRunning a ∧ t = s) ∨
        (s.running? id = none ∧ out = .started (.begun fresh id now) ∧ t = s.started fresh id now)) := by
  unfold begin at h
  split at h
  · rename_i hknown
    refine ⟨hknown, ?_⟩
    cases hrun : s.running? id with
    | some a =>
      simp only [hrun, Except.ok.injEq, Prod.mk.injEq] at h
      exact Or.inl ⟨a, rfl, h.1.symm, h.2.symm⟩
    | none =>
      simp only [hrun, Except.ok.injEq, Prod.mk.injEq] at h
      exact Or.inr ⟨rfl, h.1.symm, h.2.symm⟩
  · cases h

/-- **When an analysis begins**: the repository is known and none is in progress. -/
theorem begin_eq_started {id : Ident} (hknown : s.repositories.any (·.id == id) = true)
    (hnone : s.running? id = none) (fresh : Ident) (now : Instant) :
    s.begin fresh now id = .ok (.started (.begun fresh id now), s.started fresh id now) := by
  simp only [begin, hknown, hnone, if_true]
  rfl

theorem begin_sound (h : s.Sound) {fresh id : Ident} {now : Instant} {out : Start}
    (hfresh : ∀ x ∈ s.analyses, x.id ≠ fresh) (hb : s.begin fresh now id = .ok (out, t)) : t.Sound := by
  obtain ⟨-, ⟨a, -, -, rfl⟩ | ⟨hnone, -, rfl⟩⟩ := begin_cases hb
  · exact h
  refine ⟨h.repositories, ?_, ?_⟩
  · rw [started_analyses, List.map_append]
    refine List.nodup_append.2 ⟨h.analyses, by simp, ?_⟩
    intro i hi j hj hij
    obtain ⟨x, hx, rfl⟩ := List.mem_map.1 hi
    have hj : j = fresh := by simpa [Analysis.begun] using hj
    exact hfresh x hx (hij.trans hj)
  · -- none of the repository's earlier analyses is in progress
    rw [started_analyses]
    refine List.pairwise_append.2 ⟨h.single, by simp, ?_⟩
    intro x hx y hy hrep
    have hy : y = .begun fresh id now := by simpa using hy
    subst hy
    have := List.find?_eq_none.1 hnone x hx
    left
    have hrep : x.repository = id := hrep
    simpa [hrep] using this

theorem begin_grows {fresh id : Ident} {now : Instant} {out : Start} (hb : s.begin fresh now id = .ok (out, t)) :
    s.Grows t := by
  obtain ⟨-, ⟨a, -, -, rfl⟩ | ⟨-, -, rfl⟩⟩ := begin_cases hb
  · exact Grows.refl _
  refine ⟨List.prefix_rfl, by simp, ?_⟩
  intro i x hx _
  rw [started_analyses, List.getElem?_append_left (List.getElem?_eq_some_iff.1 hx).1]
  exact hx

/-- A new identifier finds the analysis that has begun under it. -/
theorem analysis?_started {fresh : Ident} (hfresh : ∀ x ∈ s.analyses, x.id ≠ fresh) (id : Ident) (now : Instant) :
    (s.started fresh id now).analysis? fresh = some (.begun fresh id now) := by
  have hnone : s.analyses.find? (fun x => x.id == fresh) = none := by
    rw [List.find?_eq_none]
    intro x hx
    simpa using hfresh x hx
  unfold analysis?
  rw [started_analyses, List.find?_append, hnone]
  simp [Analysis.begun]

/-! ## Ending an analysis -/

/-- The store after an analysis has ended: the record in its place, and the time
with its repository if it completed. -/
def ended (s : Store) (now : Instant) (a : Analysis) : Store :=
  let s' : Store := { s with analyses := updateFirst (·.id == a.id) (fun _ => a) s.analyses }
  if a.status = .completed then s'.stamp a.repository (a.completedAt.getD now) else s'

@[simp] theorem ended_analyses (s : Store) (now : Instant) (a : Analysis) :
    (s.ended now a).analyses = updateFirst (·.id == a.id) (fun _ => a) s.analyses := by
  unfold ended
  split <;> rfl

@[simp] theorem ended_repository_ids (s : Store) (now : Instant) (a : Analysis) :
    (s.ended now a).repositories.map (·.id) = s.repositories.map (·.id) := by
  unfold ended
  split
  · apply map_updateFirst
    intro r _
    rfl
  · rfl

theorem ended_analysis_ids (s : Store) (now : Instant) (a : Analysis) :
    (s.ended now a).analyses.map (·.id) = s.analyses.map (·.id) := by
  rw [ended_analyses]
  apply map_updateFirst
  intro x hx
  exact (by simpa using hx : x.id = a.id).symm

/-- The record is found where the analysis was. -/
theorem analysis?_ended {now : Instant} {a x : Analysis} (hx : s.analysis? a.id = some x) :
    (s.ended now a).analysis? a.id = some a := by
  unfold analysis? at hx ⊢
  rw [ended_analyses, find?_updateFirst (fun _ _ => by simp), hx]
  rfl

/-- **A completed analysis leaves its time with the repository.** -/
theorem repository?_ended {now time : Instant} {a : Analysis} {r : Repository} (hstatus : a.status = .completed)
    (htime : a.completedAt = some time) (hr : s.repository? a.repository = some r) :
    (s.ended now a).repository? a.repository = some { r with lastAnalyzedAt := some time } := by
  unfold repository? at hr ⊢
  simp only [ended, hstatus, htime, if_true, stamp, Option.getD_some]
  rw [find?_updateFirst, hr]
  · rfl
  · intro x hx
    exact hx

/-- **What ending an analysis does** if it is not refused. -/
theorem finish_cases {now : Instant} {a out : Analysis} (h : s.finish now a = .ok (out, t)) :
    a.isTerminal = true ∧ out = a ∧ t = s.ended now a ∧
      ∃ x, s.analysis? a.id = some x ∧ x.isTerminal = false := by
  unfold finish at h
  split at h
  · rename_i hend
    split at h
    · cases h
    rename_i x hx
    split at h
    · cases h
    rename_i hrun
    simp only [Except.ok.injEq, Prod.mk.injEq] at h
    exact ⟨hend, h.1.symm, h.2.symm, x, hx, by simpa using hrun⟩
  · cases h

/-- **When an analysis can end**: the record has ended and the stored one has not. -/
theorem finish_eq_ok {now : Instant} {a x : Analysis} (hend : a.isTerminal = true)
    (hx : s.analysis? a.id = some x) (hrun : x.isTerminal = false) :
    s.finish now a = .ok (a, s.ended now a) := by
  simp only [finish, hend, hx, hrun, ended, if_true, Bool.false_eq_true, if_false]

/-- Whether an analysis can end depends on the analyses alone. -/
theorem finish_same (h : s.analyses = t.analyses) (now : Instant) (a : Analysis) :
    (∃ e, s.finish now a = .error e ∧ t.finish now a = .error e) ∨
      (s.finish now a = .ok (a, s.ended now a) ∧ t.finish now a = .ok (a, t.ended now a)) := by
  have hfind : s.analysis? a.id = t.analysis? a.id := by simp only [analysis?, h]
  cases hs : s.finish now a with
  | ok p =>
    obtain ⟨out, u⟩ := p
    obtain ⟨hend, rfl, rfl, x, hx, hrun⟩ := finish_cases hs
    exact Or.inr ⟨rfl, finish_eq_ok hend (hfind ▸ hx) hrun⟩
  | error e =>
    refine Or.inl ⟨e, rfl, ?_⟩
    rw [← hs]
    unfold finish at hs ⊢
    rw [hfind] at hs ⊢
    split
    · rename_i hend
      rw [if_pos hend] at hs
      split
      · rfl
      · rename_i x hx
        rw [hx] at hs
        split
        · rfl
        · rename_i hrun
          simp only [hrun] at hs
          cases hs
    · rfl

/-- **An analysis does not end twice.** -/
theorem finish_terminal {now : Instant} {a x : Analysis} (hend : a.isTerminal = true)
    (hx : s.analysis? a.id = some x) (hx' : x.isTerminal = true) :
    s.finish now a = .error (.terminal a.id) := by
  simp only [finish, hend, hx, hx', if_true]

theorem ended_sound (h : s.Sound) (now : Instant) {a : Analysis} (hend : a.isTerminal = true) :
    (s.ended now a).Sound := by
  refine ⟨?_, ?_, ?_⟩
  · simpa using h.repositories
  · simpa only [ended_analysis_ids] using h.analyses
  · rw [ended_analyses]
    exact pairwise_updateFirst (fun _ _ _ _ => Or.inl hend) (fun _ _ _ _ => Or.inr hend) h.single

theorem finish_sound (h : s.Sound) {now : Instant} {a out : Analysis} (hf : s.finish now a = .ok (out, t)) :
    t.Sound := by
  obtain ⟨hend, -, rfl, -⟩ := finish_cases hf
  exact ended_sound h now hend

theorem finish_grows (h : s.Sound) {now : Instant} {a out : Analysis} (hf : s.finish now a = .ok (out, t)) :
    s.Grows t := by
  obtain ⟨-, -, rfl, x, hx, hrun⟩ := finish_cases hf
  refine ⟨prefix_of_eq (s.ended_repository_ids now a).symm, prefix_of_eq (s.ended_analysis_ids now a).symm, ?_⟩
  intro i y hy hyend
  rw [ended_analyses]
  apply getElem?_updateFirst hy
  -- the one record with the identifier is in progress
  by_contra hid
  have hid : y.id = a.id := by simpa using hid
  have := h.analysis?_eq_some_iff.2 ⟨List.mem_of_getElem? hy, hid⟩
  rw [hx, Option.some.injEq] at this
  rw [this, hyend] at hrun
  cases hrun

/-! ## One analysis of an identifier -/

/-- The analysis is stored, and no other one is under its identifier. -/
def HasOne (s : Store) (x : Analysis) : Prop := s.analyses.filter (·.id == x.id) = [x]

theorem HasOne.analysis? {x : Analysis} (h : s.HasOne x) : s.analysis? x.id = some x := by
  unfold HasOne at h
  unfold Store.analysis?
  rw [← List.head?_filter, h]
  rfl

theorem HasOne.mem {x : Analysis} (h : s.HasOne x) : x ∈ s.analyses := List.mem_of_find?_eq_some h.analysis?

theorem HasOne.eq {x y : Analysis} (h : s.HasOne x) (hy : y ∈ s.analyses) (hid : y.id = x.id) : y = x := by
  have hmem : y ∈ s.analyses.filter (·.id == x.id) := List.mem_filter.2 ⟨hy, by simpa using hid⟩
  rw [h] at hmem
  simpa using hmem

/-- An analysis that has begun is the only one under a new identifier. -/
theorem hasOne_started {fresh : Ident} (hfresh : ∀ x ∈ s.analyses, x.id ≠ fresh) (id : Ident) (now : Instant) :
    (s.started fresh id now).HasOne (.begun fresh id now) := by
  have hnone : s.analyses.filter (fun x => x.id == fresh) = [] := by
    rw [List.filter_eq_nil_iff]
    intro x hx
    simpa using hfresh x hx
  unfold HasOne
  simp only [started_analyses, Analysis.begun, List.filter_append, hnone]
  simp

theorem HasOne.started {x : Analysis} (h : s.HasOne x) {fresh : Ident} (hne : x.id ≠ fresh) (id : Ident)
    (now : Instant) : (s.started fresh id now).HasOne x := by
  unfold HasOne at h ⊢
  rw [started_analyses, List.filter_append, h]
  simpa [Analysis.begun] using hne.symm

/-- An analysis that has ended is the only one where it was so before. -/
theorem HasOne.replaced {x y : Analysis} (h : s.HasOne x) (hid : y.id = x.id) (now : Instant) :
    (s.ended now y).HasOne y := by
  unfold HasOne at h ⊢
  rw [ended_analyses, filter_updateFirst (by simp), hid, h]
  simp [updateFirst]

theorem HasOne.ended {x y : Analysis} (h : s.HasOne x) (hne : x.id ≠ y.id) (now : Instant) :
    (s.ended now y).HasOne x := by
  unfold HasOne at h ⊢
  rw [ended_analyses, filter_updateFirst_of_ne, h]
  intro z hz
  have hz : z.id = y.id := by simpa using hz
  exact ⟨by simpa [hz] using hne.symm, by simpa using hne.symm⟩

/-! ## Recovering -/

theorem recover_analysis_ids (s : Store) (now : Instant) :
    (s.recover now).analyses.map (·.id) = s.analyses.map (·.id) := by
  simp only [recover, List.map_map]
  apply List.map_congr_left
  intro a _
  simp only [Function.comp_apply]
  split <;> rfl

theorem isTerminal_of_mem_recover {now : Instant} {a : Analysis} (ha : a ∈ (s.recover now).analyses) :
    a.isTerminal = true := by
  obtain ⟨x, -, rfl⟩ := List.mem_map.1 ha
  split
  · assumption
  · rfl

/-- A store without analyses in progress needs no recovery. -/
theorem recover_eq_self {now : Instant} (h : ∀ a ∈ s.analyses, a.isTerminal = true) : s.recover now = s := by
  have : s.analyses.map (fun a => if a.isTerminal then a else a.failed now interruption) = s.analyses.map id := by
    apply List.map_congr_left
    intro a ha
    simp [h a ha]
  unfold recover
  rw [this, List.map_id]

theorem recover_sound (h : s.Sound) (now : Instant) : (s.recover now).Sound := by
  refine ⟨h.repositories, by simpa only [recover_analysis_ids] using h.analyses, ?_⟩
  apply List.pairwise_of_forall_mem_list
  intro x hx y _ _
  exact Or.inl (isTerminal_of_mem_recover hx)

theorem recover_grows (s : Store) (now : Instant) : s.Grows (s.recover now) := by
  refine ⟨List.prefix_rfl, prefix_of_eq (s.recover_analysis_ids now).symm, ?_⟩
  intro i x hx hend
  simp only [recover, List.getElem?_map, hx, Option.map_some, hend, if_true]

end Store

end CodeAtlas
