import CodeAtlas.Proofs.Record.Written
import CodeAtlas.Proofs.Store.Operations

/-!
# Reading the file of a store

The file of a store is read as the store, provided that the moments and the numbers
in it are read as they are written (`Store.Fits`). It is so at every point of a run
whose operations bring no others.

* `Store.Fits.readsBack`: **a written store is read as the store.**
* `admits_of_fits`: a run that brings only what is read as it is written.
* `reopen_eq_self_iff`: what it means that a file is not misread.
-/

namespace CodeAtlas

open Json

/-! ## Stores -/

/-- Whether all numbers and moments of a store are read as they are written. -/
structure Store.Fits (s : Store) : Prop where
  repositories : ∀ r ∈ s.repositories, r.Fits
  analyses : ∀ a ∈ s.analyses, a.Fits

theorem Store.stands {s : Store} (h : s.Fits) (d : ℕ) : Stands (d + 9) Store.decode s.encode s :=
  (Form.Stands.start (d + 8) Store.mk
    |>.req (Stands.list fun r hr => Repository.stands (h.repositories r hr) (d + 6))
    |>.req (Stands.list fun a ha => Analysis.stands (h.analyses a ha) d)).record "StoreData" (by simp)

/-- **A written store is read as the store.** -/
theorem Store.Fits.readsBack {s : Store} (h : s.Fits) : s.ReadsBack := (Store.stands h 118).decodeText

theorem Store.fits_empty : Store.Fits {} := ⟨by simp, by simp⟩

namespace Archive

variable {a : Archive}

/-! ## Runs -/

/-- Whether the numbers and moments that an operation brings are read as they are written. -/
def Operation.Fits : Operation → Prop
  | .save _ r => r.Fits
  | .begin _ _ now _ => now.Reads
  | .finish _ now x => now.Reads ∧ x.Fits
  | .reopen _ now => now.Reads

theorem started_fits {s : Store} (h : s.Fits) {now : Instant} (hnow : now.Reads) (fresh id : Ident) :
    (s.started fresh id now).Fits := by
  refine ⟨h.repositories, ?_⟩
  intro x hx
  rw [Store.started_analyses, List.mem_append, List.mem_singleton] at hx
  rcases hx with hx | rfl
  · exact h.analyses x hx
  · exact ⟨hnow, by simp [Analysis.begun], by simp [Analysis.begun]⟩

theorem ended_fits {s : Store} (h : s.Fits) {now : Instant} (hnow : now.Reads) {x : Analysis} (hx : x.Fits) :
    (s.ended now x).Fits := by
  constructor
  · intro r hr
    unfold Store.ended at hr
    split at hr
    · rcases mem_updateFirst hr with hr | ⟨q, hq, rfl⟩
      · exact h.repositories r hr
      · -- only the time of the repository's analysis is new
        obtain ⟨hstars, hforks, hcreated, -⟩ := h.repositories q hq
        refine ⟨hstars, hforks, hcreated, ?_⟩
        intro t ht
        obtain rfl : x.completedAt.getD now = t := by simpa using ht
        cases hdone : x.completedAt with
        | none => exact hnow
        | some t => exact hx.completedAt t hdone
    · exact h.repositories r hr
  · intro y hy
    rw [Store.ended_analyses] at hy
    rcases mem_updateFirst hy with hy | ⟨_, _, rfl⟩
    · exact h.analyses y hy
    · exact hx

theorem recover_fits {s : Store} (h : s.Fits) {now : Instant} (hnow : now.Reads) : (s.recover now).Fits := by
  refine ⟨h.repositories, ?_⟩
  intro y hy
  obtain ⟨x, hx, rfl⟩ := List.mem_map.1 hy
  obtain ⟨hstarted, hcompleted, hresult⟩ := h.analyses x hx
  split
  · exact ⟨hstarted, hcompleted, hresult⟩
  · refine ⟨hstarted, ?_, hresult⟩
    intro t ht
    obtain rfl : now = t := by simpa [Analysis.failed] using ht
    exact hnow

/-- An effect brings nothing into a store but what its operation brings. -/
theorem Operation.Effect.fits {s t : Store} {op : Operation} (h : op.Effect s t) (hop : op.Fits) (hs : s.Fits) :
    t.Fits := by
  cases op with
  | save fate r =>
    obtain ⟨_, h⟩ := h
    cases h
    refine ⟨?_, ?_⟩
    · -- what is stored was there before or is what is saved
      intro q hq
      unfold Store.saveRepository at hq
      split at hq
      · rcases mem_updateFirst hq with hq | ⟨_, _, rfl⟩
        · exact hs.repositories q hq
        · exact hop
      · rcases List.mem_append.1 hq with hq | hq
        · exact hs.repositories q hq
        · obtain rfl := List.mem_singleton.1 hq
          exact hop
    · unfold Store.saveRepository
      split <;> exact hs.analyses
  | begin fate fresh now id =>
    obtain ⟨_, h⟩ := h
    obtain ⟨out, hout, -⟩ := map_eq_ok h
    obtain ⟨-, ⟨x, -, -, rfl⟩ | ⟨-, -, rfl⟩⟩ := Store.begin_cases hout
    · exact hs
    · exact started_fits hs hop fresh id
  | finish fate now x =>
    obtain ⟨_, h⟩ := h
    obtain ⟨out, hout, -⟩ := map_eq_ok h
    obtain ⟨-, -, rfl, -⟩ := Store.finish_cases hout
    exact ended_fits hs hop.1 hop.2
  | reopen fate now =>
    rcases h with rfl | rfl
    · exact hs
    · exact recover_fits hs hop

/-- **A run that brings only what is read as it is written** misreads no file. -/
theorem admits_of_fits (h : a.InStep) (hs : a.data.Fits) {ops : List Operation} (hops : ∀ op ∈ ops, op.Fits)
    (hnew : a.Along (fun b op => op.DrawsNew b) ops) : a.Admits ops := by
  induction ops generalizing a with
  | nil => trivial
  | cons op ops ih =>
    have hread : op.ReadsTrue a := by
      cases op with
      | reopen fate now => exact hs.readsBack.notMisread
      | _ => trivial
    refine ⟨⟨hnew.1, hread⟩, ?_⟩
    -- the operation has changed nothing, or brought only what fits
    have hrest : ∀ op ∈ ops, op.Fits := fun o ho => hops o (List.mem_cons_of_mem _ ho)
    rcases perform_cases h hread with ⟨e, he⟩ | ⟨r, b, hb, heff, hin⟩
    · have hnew := hnew.2
      rw [he] at hnew ⊢
      exact ih h hs hrest hnew
    · have hnew := hnew.2
      rw [hb] at hnew ⊢
      exact ih hin (heff.fits (hops op List.mem_cons_self) hs) hrest hnew

/-! ## Misreading -/

/-- Where recovery is the same at two moments, there is nothing to be recovered. -/
theorem isTerminal_of_recover_eq {s : Store} {now now' : Instant} (h : s.recover now = s.recover now')
    (hne : now ≠ now') {x : Analysis} (hx : x ∈ s.analyses) : x.isTerminal = true := by
  have hmaps := congrArg Store.analyses h
  simp only [Store.recover] at hmaps
  have hsame := List.map_inj_left.1 hmaps x hx
  by_contra hrun
  rw [if_neg hrun, if_neg hrun] at hsame
  have hdone := congrArg Analysis.completedAt hsame
  simp only [Analysis.failed, Option.some.injEq] at hdone
  exact hne hdone

/-- **A store without analyses in progress stays as it is**, however its file is
loaded, exactly if the file is not misread. -/
theorem reopen_eq_self_iff (h : a.keeping = .file (some (textOf a.data)))
    (hend : ∀ x ∈ a.data.analyses, x.isTerminal = true) :
    (∀ fate now, (a.reopen fate now).2.data = a.data) ↔ a.data.NotMisread := by
  constructor
  · intro hsame t ht
    have hload : ∀ now, (a.reopen .done now).2.data = t.recover now := by
      intro now
      have hread := load_of_reads ht .done now
      by_cases hall : t.analyses.all (·.isTerminal) = true
      · rw [if_pos hall] at hread
        simp only [reopen, h, hread]
        exact (Store.recover_eq_self (by simpa using hall)).symm
      · rw [if_neg hall] at hread
        simp only [reopen, h, hread, persist, Except.map]
    have heq : ∀ now, t.recover now = a.data := fun now => (hload now).symm.trans (hsame .done now)
    -- recovery notes its time, so it does nothing where the time does not matter
    have hne : (⟨0, 0⟩ : Instant) ≠ ⟨1, 0⟩ := by decide
    have hall : ∀ x ∈ t.analyses, x.isTerminal = true := fun x hx =>
      isTerminal_of_recover_eq ((heq ⟨0, 0⟩).trans (heq ⟨1, 0⟩).symm) hne hx
    rw [← heq ⟨0, 0⟩, Store.recover_eq_self hall]
  · intro hread fate now
    rcases reopen_cases (Or.inr (Or.inr h)) hread fate now with ⟨e, hr⟩ | hr | hr
    · rw [hr]
    · rw [hr]
    · rw [hr]
      exact Store.recover_eq_self hend

end Archive

end CodeAtlas
