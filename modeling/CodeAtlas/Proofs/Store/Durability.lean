import CodeAtlas.Proofs.Store.Reading

/-!
# A store and its file

The file of a store is written by way of a draft that takes its place in one
step, and writing the draft or moving it may fail. Whatever fails, store and
file do not come apart.

* `perform_of_error`: a refused operation changes neither of them.
* `mutation_filed`: an operation that is not refused leaves the text of the store
  in the file.
* `reopen_filed`: loading the file gives the store with its analyses in progress ended.
* `file_follows_store`: **all of it, at every point of every run.**
-/

namespace CodeAtlas.Archive

/-- The file holds the text of the store. -/
def Filed (a : Archive) : Prop := a.keeping = .file (some (textOf a.data))

/-- The file can be read, and as the store. -/
def FileReads (a : Archive) : Prop :=
  ∃ t, a.keeping = .file (some t) ∧ Json.decodeText Store.decode t = .ok a.data

variable {a b : Archive}

theorem Filed.fileReads (h : a.Filed) (hread : a.data.ReadsBack) : a.FileReads := ⟨textOf a.data, h, hread⟩

theorem persist_file {fate : Fate} {text : Option String} {s : Store} {k : Keeping}
    (h : persist fate (.file text) s = .ok k) : fate = .done ∧ k = .file (some (textOf s)) := by
  cases fate with
  | done =>
    cases h
    exact ⟨rfl, rfl⟩
  | draftRefused m => cases h
  | moveRefused m => cases h

/-! ## Mutations -/

/-- **A mutation of a store in a file** is made exactly if the records allow it and
both steps of the writing succeed; the file then holds the text of the new store. -/
theorem mutation_eq_ok_iff {text : Option String} (hfile : a.keeping = .file text) {op : Operation}
    (hm : op.isMutation = true) (r : Reply) (b : Archive) :
    a.perform op = (.ok r, b) ↔
      op.fate = .done ∧ op.change a.data = .ok (r, b.data) ∧ b.Filed := by
  rw [perform_eq_mutate a hm]
  constructor
  · intro h
    rcases mutate_cases a op.fate op.change with ⟨e, h'⟩ | ⟨r', t, k, -, hc, hk, -, h'⟩
    · rw [h'] at h
      cases h
    · rw [h'] at h
      cases h
      rw [hfile] at hk
      obtain ⟨hf, rfl⟩ := persist_file hk
      exact ⟨hf, hc, rfl⟩
  · rintro ⟨hf, hc, hb⟩
    obtain ⟨s, k⟩ := b
    obtain rfl : k = .file (some (textOf s)) := hb
    simp only [mutate, hc, hf, hfile, persist]

theorem mutation_filed {text : Option String} (hfile : a.keeping = .file text) {op : Operation}
    (hm : op.isMutation = true) {r : Reply} (h : a.perform op = (.ok r, b)) : b.Filed :=
  ((mutation_eq_ok_iff hfile hm r b).1 h).2.2

/-! ## Runs -/

/-- Once a store is in its file it stays there. -/
theorem perform_filed (h : a.Filed) {op : Operation} (hread : op.ReadsTrue a) : (a.perform op).2.Filed := by
  by_cases hm : op.isMutation = true
  · rcases hp : a.perform op with ⟨r | r, b⟩
    · have hb := perform_of_error (congrArg Prod.fst hp)
      rw [hp] at hb
      rw [hb]
      exact h
    · exact mutation_filed h hm hp
  · cases op with
    | reopen fate now =>
      rcases reopen_cases (Or.inr (Or.inr h)) hread fate now with ⟨e, hr⟩ | hr | hr
      · simp only [perform, hr]
        exact h
      · simp only [perform, hr]
        exact h
      · simp only [perform, hr]
        rfl
    | _ => exact absurd rfl hm

theorem after_filed (h : a.Filed) {ops : List Operation} (hops : a.Along (fun b op => op.ReadsTrue b) ops) :
    (a.after ops).Filed :=
  Along.after (q := Filed) (fun _ _ hb hop => perform_filed hb hop) h hops

/-! ## Loading -/

/-- **Loading the file** gives the store with its analyses in progress ended, and
leaves that in the file. Only if there are any does it have to be written. -/
theorem reopen_filed (h : a.Filed) (hread : a.data.ReadsBack) {fate : Fate} (now : Instant)
    (hw : fate = .done ∨ ∀ x ∈ a.data.analyses, x.isTerminal = true) :
    a.reopen fate now = (.ok (), ⟨a.data.recover now, .file (some (textOf (a.data.recover now)))⟩) := by
  obtain ⟨s, k⟩ := a
  obtain rfl : k = .file (some (textOf s)) := h
  have hload := load_of_reads hread fate now
  by_cases hall : s.analyses.all (·.isTerminal) = true
  · rw [if_pos hall] at hload
    have hrec : s.recover now = s := Store.recover_eq_self (by simpa using hall)
    simp only [reopen, hload, hrec]
  · rw [if_neg hall] at hload
    rcases hw with rfl | hw
    · simp only [reopen, hload, persist, Except.map]
    · exact absurd (by simpa using hw) hall

/-- **Loading a store without analyses in progress** changes nothing and writes nothing. -/
theorem reopen_ended (h : a.Filed) (hread : a.data.ReadsBack) (hend : ∀ x ∈ a.data.analyses, x.isTerminal = true)
    (fate : Fate) (now : Instant) : a.reopen fate now = (.ok (), a) := by
  rw [reopen_filed h hread now (Or.inr hend), Store.recover_eq_self hend, ← h]

/-! ## Store and file -/

/-- **A store and its file do not come apart.** Let a store be kept in a file.

* An operation that is refused leaves store and file as they were.
* A mutation succeeds exactly if the records allow it and both steps of the writing
  succeed. Then the file holds the text of the store, and reading it gives the store.
* After that, at every point of every run, the file still does; loading it gives
  the store in which the analyses in progress have failed and nothing else has
  changed; and loading it once more changes nothing.

A text is read back as the store that it was written from wherever it is read. -/
theorem file_follows_store {text : Option String} (hfile : a.keeping = .file text) :
    (∀ op e, (a.perform op).1 = .error e → (a.perform op).2 = a) ∧
    ∀ op r b, op.isMutation = true →
      (a.perform op = (.ok r, b) ↔ op.fate = .done ∧ op.change a.data = .ok (r, b.data) ∧ b.Filed) ∧
      (a.perform op = (.ok r, b) → (b.data.ReadsBack → b.FileReads) ∧
        ∀ ops c, b.Along (fun d op => op.ReadsTrue d) ops → c = b.after ops → c.data.ReadsBack → c.FileReads ∧
          ∀ fate now, (fate = .done ∨ ∀ x ∈ c.data.analyses, x.isTerminal = true) →
            ∃ d, c.reopen fate now = (.ok (), d) ∧ d.Filed ∧
              d.data.repositories = c.data.repositories ∧
              d.data.analyses = c.data.analyses.map
                (fun x => if x.isTerminal then x else x.failed now Store.interruption) ∧
              (d.data.ReadsBack → ∀ fate' now', d.reopen fate' now' = (.ok (), d))) := by
  refine ⟨fun op e h => perform_of_error h, fun op r b hm => ⟨mutation_eq_ok_iff hfile hm r b, ?_⟩⟩
  intro hp
  have hb : b.Filed := mutation_filed hfile hm hp
  refine ⟨hb.fileReads, ?_⟩
  rintro ops c hops rfl hread
  have hc := after_filed hb hops
  refine ⟨hc.fileReads hread, ?_⟩
  intro fate now hw
  have hd : Filed ⟨(b.after ops).data.recover now, .file (some (textOf ((b.after ops).data.recover now)))⟩ := rfl
  refine ⟨_, reopen_filed hc hread now hw, hd, rfl, rfl, ?_⟩
  intro hread' fate' now'
  exact reopen_ended hd hread' (fun x hx => Store.isTerminal_of_mem_recover hx) fate' now'

/-- A repository that is saved into an empty store. -/
def firstRepository : Repository := .register ⟨1⟩ default "a/b"

/-- A draft that cannot be written leaves an empty store without a file; one that
takes its place leaves a file that can be read. -/
theorem file_follows_store_firstRepository :
    (⟨{}, .file none⟩ : Archive).keeping = .file none ∧
      ((⟨{}, .file none⟩ : Archive).perform (.save (.draftRefused "full") firstRepository)).2 = ⟨{}, .file none⟩ ∧
      ((⟨{}, .file none⟩ : Archive).perform (.save .done firstRepository)).2.FileReads := by
  have hfile : (⟨{}, .file none⟩ : Archive).keeping = .file none := rfl
  have hfits : firstRepository.Fits := ⟨by decide, by decide, rfl, by simp [firstRepository, Repository.register]⟩
  have hread : ((⟨{}, .file none⟩ : Archive).perform (.save .done firstRepository)).2.data.ReadsBack :=
    Store.Fits.readsBack ⟨fun r hr => by rw [List.mem_singleton.1 hr]; exact hfits, fun _ ha => by cases ha⟩
  obtain ⟨hrefused, hdone⟩ := file_follows_store hfile
  refine ⟨hfile, hrefused _ (.io "full") rfl, ?_⟩
  exact ((hdone (.save .done firstRepository) (.saved firstRepository) _ rfl).2 rfl).1 hread

end CodeAtlas.Archive
