import CodeAtlas.Proofs.Store.Records

/-!
# Operations on a store that is kept

A store that is kept somewhere is changed by four operations, each of which may
fail to be written. A run is any list of them (`Archive.after`); identifiers
drawn in it are new, and a file that is reopened is not misread
(`Archive.Admits`).

* `perform_of_error`: a refused operation changes neither the store nor its file.
* `perform_cases`: an operation that is not refused has its effect on the store
  and leaves the file in step with it.
* `after_kept`, `after_grows`: what holds along a run.
-/

namespace CodeAtlas

/-- Reading the file of a store gives the store. -/
def Store.ReadsBack (s : Store) : Prop := Json.decodeText Store.decode (Archive.textOf s) = .ok s

/-- Reading the file of a store gives nothing but the store; it may also be refused. -/
def Store.NotMisread (s : Store) : Prop :=
  ∀ t, Json.decodeText Store.decode (Archive.textOf s) = .ok t → t = s

theorem Store.ReadsBack.notMisread {s : Store} (h : s.ReadsBack) : s.NotMisread := by
  intro t ht
  rw [Store.ReadsBack, ht, Except.ok.injEq] at h
  exact h

namespace Archive

/-- What is asked of a store, with what becomes of the writing. -/
inductive Operation where
  | save (fate : Fate) (repository : Repository)
  | begin (fate : Fate) (fresh : Ident) (now : Instant) (repository : Ident)
  | finish (fate : Fate) (now : Instant) (analysis : Analysis)
  | reopen (fate : Fate) (now : Instant)

/-- What is answered. -/
inductive Reply where
  | saved (repository : Repository)
  | start (start : Start)
  | finished (analysis : Analysis)
  | reopened

/-- Loads the store again from its file. A store that cannot be loaded is not
replaced, and a store in memory has no file. -/
def reopen (a : Archive) (fate : Fate) (now : Instant) : Except StoreError Unit × Archive :=
  match a.keeping with
  | .memory => (.ok (), a)
  | .file text =>
    match load now fate text with
    | .error e => (.error e, a)
    | .ok b => (.ok (), b)

/-- An operation: the answer and the store after it. -/
def perform (a : Archive) : Operation → Except StoreError Reply × Archive
  | .save fate r => ((a.saveRepository fate r).1.map .saved, (a.saveRepository fate r).2)
  | .begin fate fresh now id => ((a.begin fate fresh now id).1.map .start, (a.begin fate fresh now id).2)
  | .finish fate now x => ((a.finish fate now x).1.map .finished, (a.finish fate now x).2)
  | .reopen fate now => ((a.reopen fate now).1.map fun _ => .reopened, (a.reopen fate now).2)

/-- Whether an operation changes records, rather than loading them. -/
def Operation.isMutation : Operation → Bool
  | .reopen .. => false
  | _ => true

/-- Whether the identifier that an operation draws is new to the store. -/
def Operation.DrawsNew (a : Archive) : Operation → Prop
  | .begin _ fresh _ _ => ∀ x ∈ a.data.analyses, x.id ≠ fresh
  | _ => True

/-- Whether a file that is reopened is not misread. -/
def Operation.ReadsTrue (a : Archive) : Operation → Prop
  | .reopen .. => a.data.NotMisread
  | _ => True

/-- The store after some operations. -/
def after (a : Archive) (ops : List Operation) : Archive := ops.foldl (fun b op => (b.perform op).2) a

/-- Whether a condition holds of each operation of a run where it is performed. -/
def Along (p : Archive → Operation → Prop) (a : Archive) : List Operation → Prop
  | [] => True
  | op :: ops => p a op ∧ Along p (a.perform op).2 ops

/-- Whether operations can come one after the other: new identifiers are new, and
no file is misread. -/
def Admits (a : Archive) (ops : List Operation) : Prop :=
  a.Along (fun b op => op.DrawsNew b ∧ op.ReadsTrue b) ops

/-- A store that nothing has been put into. -/
def IsNew (a : Archive) : Prop := a.data = {} ∧ (a.keeping = .memory ∨ a.keeping = .file none)

/-- **Store and file in step**: the file holds the text of the store, or the
store is empty and has no file yet. -/
def InStep (a : Archive) : Prop :=
  a.keeping = .memory ∨ (a.keeping = .file none ∧ a.data = {}) ∨ a.keeping = .file (some (textOf a.data))

/-- Whether a change will be written. -/
def Writes (a : Archive) (fate : Fate) : Prop := a.keeping = .memory ∨ fate = .done

@[simp] theorem after_nil (a : Archive) : a.after [] = a := rfl

@[simp] theorem after_cons (a : Archive) (op : Operation) (ops : List Operation) :
    a.after (op :: ops) = (a.perform op).2.after ops := rfl

theorem IsNew.inStep {a : Archive} (h : a.IsNew) : a.InStep := by
  obtain ⟨hd, hm | hf⟩ := h
  · exact Or.inl hm
  · exact Or.inr (Or.inl ⟨hf, hd⟩)

/-- A file with a text holds the text of the store. -/
theorem InStep.eq_of_file {a : Archive} (h : a.InStep) {text : String} (hfile : a.keeping = .file (some text)) :
    a.keeping = .file (some (textOf a.data)) := by
  rcases h with hm | ⟨hn, -⟩ | hs
  · rw [hm] at hfile
    cases hfile
  · rw [hn] at hfile
    cases hfile
  · exact hs

variable {a b : Archive} {α : Type}

/-! ## Writing -/

theorem persist_of_writes {fate : Fate} (h : a.Writes fate) (s : Store) :
    ∃ k, persist fate a.keeping s = .ok k ∧ InStep ⟨s, k⟩ := by
  rcases h with h | rfl
  · exact ⟨.memory, by rw [h]; rfl, Or.inl rfl⟩
  · cases hk : a.keeping with
    | memory => exact ⟨.memory, rfl, Or.inl rfl⟩
    | file text => exact ⟨.file (some (textOf s)), rfl, Or.inr (Or.inr rfl)⟩

theorem persist_of_not_writes {fate : Fate} (h : ¬a.Writes fate) (s : Store) :
    ∃ m, persist fate a.keeping s = .error (.io m) := by
  unfold Writes at h
  cases hk : a.keeping with
  | memory => exact absurd (Or.inl hk) h
  | file text =>
    cases fate with
    | done => exact absurd (Or.inr rfl) h
    | draftRefused m => exact ⟨m, rfl⟩
    | moveRefused m => exact ⟨m, rfl⟩

/-- **A change is made and written, or nothing happens.** -/
theorem mutate_cases (a : Archive) (fate : Fate) (change : Store → Except StoreError (α × Store)) :
    (∃ e, a.mutate fate change = (.error e, a)) ∨
      ∃ out t k, a.Writes fate ∧ change a.data = .ok (out, t) ∧ persist fate a.keeping t = .ok k ∧
        InStep ⟨t, k⟩ ∧ a.mutate fate change = (.ok out, ⟨t, k⟩) := by
  unfold mutate
  cases hc : change a.data with
  | error e => exact Or.inl ⟨e, rfl⟩
  | ok p =>
    obtain ⟨out, t⟩ := p
    by_cases hw : a.Writes fate
    · -- the change is made to a copy, which takes the store's place once it is written
      obtain ⟨k, hk, hstep⟩ := persist_of_writes hw t
      exact Or.inr ⟨out, t, k, hw, rfl, hk, hstep, by simp only [hk]⟩
    · obtain ⟨m, hm⟩ := persist_of_not_writes hw t
      exact Or.inl ⟨.io m, by simp only [hm]⟩

/-- A change that is refused changes nothing, whatever becomes of the writing. -/
theorem mutate_of_refused (fate : Fate) {change : Store → Except StoreError (α × Store)} {e : StoreError}
    (hc : change a.data = .error e) : a.mutate fate change = (.error e, a) := by
  simp only [mutate, hc]

/-- The answer of a change can be worded afterwards. -/
theorem mutate_map {β : Type} (f : α → β) (fate : Fate) (change : Store → Except StoreError (α × Store)) :
    a.mutate fate (fun s => (change s).map fun p => (f p.1, p.2)) =
      ((a.mutate fate change).1.map f, (a.mutate fate change).2) := by
  simp only [mutate]
  cases hc : change a.data with
  | error e => rfl
  | ok p =>
    simp only [Except.map]
    cases persist fate a.keeping p.2 <;> rfl

/-- Whether a store is kept in a file does not change. -/
theorem persist_eq_memory_iff {fate : Fate} {s : Store} {k : Keeping} (h : persist fate a.keeping s = .ok k) :
    k = .memory ↔ a.keeping = .memory := by
  cases hk : a.keeping with
  | memory =>
    rw [hk] at h
    cases h
    rfl
  | file text =>
    rw [hk] at h
    cases fate <;> cases h
    simp

/-- A change that is not refused is made where it can be written. -/
theorem mutate_of_writes {fate : Fate} (h : a.Writes fate) (change : Store → Except StoreError (α × Store))
    {out : α} {t : Store} (hc : change a.data = .ok (out, t)) :
    ∃ k, (k = .memory ↔ a.keeping = .memory) ∧ a.mutate fate change = (.ok out, ⟨t, k⟩) := by
  obtain ⟨k, hk, -⟩ := persist_of_writes h t
  exact ⟨k, persist_eq_memory_iff hk, by simp only [mutate, hc, hk]⟩

/-- **Beginning an analysis** of a known repository that has none in progress,
where it can be written. -/
theorem begin_of_writes {fate : Fate} (h : a.Writes fate) {id : Ident}
    (hknown : a.data.repositories.any (·.id == id) = true) (hnone : a.data.running? id = none) (fresh : Ident)
    (now : Instant) :
    ∃ k, (k = .memory ↔ a.keeping = .memory) ∧ a.begin fate fresh now id =
      (.ok (.started (.begun fresh id now)), ⟨a.data.started fresh id now, k⟩) := by
  have hc := Store.begin_eq_started hknown hnone fresh now
  obtain ⟨k, hk, -⟩ := persist_of_writes h (a.data.started fresh id now)
  exact ⟨k, persist_eq_memory_iff hk, by simp only [Archive.begin, mutate, hc, hk]⟩

/-- **Beginning an analysis** of a known repository that has one in progress. -/
theorem begin_of_running {fate : Fate} (h : a.Writes fate) {id : Ident} {x : Analysis}
    (hknown : a.data.repositories.any (·.id == id) = true) (hx : a.data.running? id = some x) (fresh : Ident)
    (now : Instant) :
    ∃ k, (k = .memory ↔ a.keeping = .memory) ∧
      a.begin fate fresh now id = (.ok (.alreadyRunning x), ⟨a.data, k⟩) := by
  have hc : a.data.begin fresh now id = .ok (.alreadyRunning x, a.data) := by
    simp only [Store.begin, hknown, hx, if_true]
  obtain ⟨k, hk, -⟩ := persist_of_writes h a.data
  exact ⟨k, persist_eq_memory_iff hk, by simp only [Archive.begin, mutate, hc, hk]⟩

/-- Whatever cannot be written is refused. -/
theorem mutate_of_not_writes {fate : Fate} (h : ¬a.Writes fate) (change : Store → Except StoreError (α × Store)) :
    ∃ e, a.mutate fate change = (.error e, a) := by
  rcases mutate_cases a fate change with he | ⟨out, t, k, hw, -⟩
  · exact he
  · exact absurd hw h

/-- **Ending an analysis** that is in progress, where it can be written. -/
theorem finish_of_writes {fate : Fate} (h : a.Writes fate) {x y : Analysis} (hy : y.isTerminal = true)
    (hx : a.data.analysis? y.id = some x) (hrun : x.isTerminal = false) (now : Instant) :
    ∃ k, a.finish fate now y = (.ok y, ⟨a.data.ended now y, k⟩) := by
  obtain ⟨k, hk, -⟩ := persist_of_writes h (a.data.ended now y)
  exact ⟨k, by simp only [Archive.finish, mutate, Store.finish_eq_ok hy hx hrun, hk]⟩

/-- An analysis that is in progress stays so if its end cannot be written. -/
theorem finish_of_not_writes {fate : Fate} (h : ¬a.Writes fate) {x y : Analysis} (hy : y.isTerminal = true)
    (hx : a.data.analysis? y.id = some x) (hrun : x.isTerminal = false) (now : Instant) :
    ∃ m, a.finish fate now y = (.error (.io m), a) := by
  obtain ⟨m, hm⟩ := persist_of_not_writes h (a.data.ended now y)
  exact ⟨m, by simp only [Archive.finish, mutate, Store.finish_eq_ok hy hx hrun, hm]⟩

/-! ## Loading -/

/-- Loading a file that reads as a store ends its analyses in progress. If there
are none, nothing is written. -/
theorem load_of_reads {t : String} {s : Store} (ht : Json.decodeText Store.decode t = .ok s) (fate : Fate)
    (now : Instant) :
    load now fate (some t) =
      if s.analyses.all (·.isTerminal) then .ok ⟨s, .file (some t)⟩
      else (persist fate (.file (some t)) (s.recover now)).map fun k => ⟨s.recover now, k⟩ := by
  simp only [load, ht]

/-- **A store is loaded again or nothing happens.** Loading ends the analyses in
progress and writes the store if there were any. -/
theorem reopen_cases (hstep : a.InStep) (hread : a.data.NotMisread) (fate : Fate) (now : Instant) :
    (∃ e, a.reopen fate now = (.error e, a)) ∨ a.reopen fate now = (.ok (), a) ∨
      a.reopen fate now = (.ok (), ⟨a.data.recover now, .file (some (textOf (a.data.recover now)))⟩) := by
  rcases hstep with hk | ⟨hk, hd⟩ | hk
  · exact Or.inr (Or.inl (by simp only [reopen, hk]))
  · -- without a file, loading gives the empty store
    refine Or.inr (Or.inl ?_)
    obtain ⟨s, k⟩ := a
    obtain rfl : k = .file none := hk
    obtain rfl : s = {} := hd
    rfl
  obtain ⟨s, k⟩ := a
  obtain rfl : k = .file (some (textOf s)) := hk
  cases ht : Json.decodeText Store.decode (textOf s) with
  | error p => exact Or.inl ⟨.serialization p.message, by simp only [reopen, load, ht]⟩
  | ok t =>
    -- what is read is the store, and only recovery can change it
    obtain rfl := hread t ht
    have hload := load_of_reads ht fate now
    by_cases hall : t.analyses.all (·.isTerminal) = true
    · rw [if_pos hall] at hload
      exact Or.inr (Or.inl (by simp only [reopen, hload]))
    · rw [if_neg hall] at hload
      cases fate with
      | done => exact Or.inr (Or.inr (by simp only [reopen, hload, persist, Except.map]))
      | draftRefused m => exact Or.inl ⟨.io m, by simp only [reopen, hload, persist, Except.map]⟩
      | moveRefused m => exact Or.inl ⟨.io m, by simp only [reopen, hload, persist, Except.map]⟩

/-! ## One operation -/

theorem map_eq_ok {β : Type} {x : Except StoreError (α × Store)} {f : α → β} {r : β} {t : Store}
    (h : (x.map fun p => (f p.1, p.2)) = .ok (r, t)) : ∃ out, x = .ok (out, t) ∧ r = f out := by
  cases x with
  | error e => cases h
  | ok p =>
    cases h
    exact ⟨p.1, rfl, rfl⟩

/-- What becomes of the writing of an operation. -/
def Operation.fate : Operation → Fate
  | .save fate _ => fate
  | .begin fate .. => fate
  | .finish fate .. => fate
  | .reopen fate _ => fate

/-- The change that an operation makes to the records; loading makes none. -/
def Operation.change : Operation → Store → Except StoreError (Reply × Store)
  | .save _ r, s => .ok (.saved r, s.saveRepository r)
  | .begin _ fresh now id, s => (s.begin fresh now id).map fun p => (.start p.1, p.2)
  | .finish _ now x, s => (s.finish now x).map fun p => (.finished p.1, p.2)
  | .reopen .., s => .ok (.reopened, s)

/-- Every operation but loading is a change that is made and written. -/
theorem perform_eq_mutate (a : Archive) {op : Operation} (h : op.isMutation = true) :
    a.perform op = a.mutate op.fate op.change := by
  cases op with
  | save fate r => exact (mutate_map Reply.saved fate fun s => .ok (r, s.saveRepository r)).symm
  | begin fate fresh now id => exact (mutate_map Reply.start fate fun s => s.begin fresh now id).symm
  | finish fate now x => exact (mutate_map Reply.finished fate fun s => s.finish now x).symm
  | reopen fate now => cases h

/-- What an operation makes of a store if it is not refused. -/
def Operation.Effect (s : Store) (op : Operation) (t : Store) : Prop :=
  match op with
  | .reopen _ now => t = s ∨ t = s.recover now
  | _ => ∃ r, op.change s = .ok (r, t)

/-- **An operation is refused and changes nothing, or has its effect** and leaves
the file in step. -/
theorem perform_cases (hstep : a.InStep) {op : Operation} (hread : op.ReadsTrue a) :
    (∃ e, a.perform op = (.error e, a)) ∨
      ∃ r b, a.perform op = (.ok r, b) ∧ op.Effect a.data b.data ∧ b.InStep := by
  by_cases hm : op.isMutation = true
  · rw [perform_eq_mutate a hm]
    rcases mutate_cases a op.fate op.change with ⟨e, h⟩ | ⟨r, t, k, -, hc, -, hin, h⟩
    · exact Or.inl ⟨e, h⟩
    · refine Or.inr ⟨r, ⟨t, k⟩, h, ?_, hin⟩
      cases op with
      | reopen fate now => cases hm
      | _ => exact ⟨r, hc⟩
  · cases op with
    | reopen fate now =>
      rcases reopen_cases hstep hread fate now with ⟨e, h⟩ | h | h
      · exact Or.inl ⟨e, by simp only [perform, h, Except.map]⟩
      · exact Or.inr ⟨.reopened, a, by simp only [perform, h, Except.map], Or.inl rfl, hstep⟩
      · refine Or.inr ⟨.reopened, ⟨a.data.recover now, .file (some (textOf (a.data.recover now)))⟩, ?_,
          Or.inr rfl, Or.inr (Or.inr rfl)⟩
        simp only [perform, h, Except.map]
    | _ => exact absurd rfl hm

/-- **A refused operation changes nothing**, neither the store nor its file. -/
theorem perform_of_error {op : Operation} {e : StoreError} (h : (a.perform op).1 = .error e) :
    (a.perform op).2 = a := by
  by_cases hm : op.isMutation = true
  · rw [perform_eq_mutate a hm] at h ⊢
    rcases mutate_cases a op.fate op.change with ⟨e', h'⟩ | ⟨r, t, k, -, -, -, -, h'⟩
    · rw [h']
    · rw [h'] at h
      cases h
  · cases op with
    | reopen fate now =>
      simp only [perform, reopen] at h ⊢
      split at h
      · cases h
      · split at h
        · rfl
        · cases h
    | _ => exact absurd rfl hm

/-- An effect keeps a store sound. -/
theorem Operation.Effect.sound {op : Operation} {t : Store} (h : op.Effect a.data t) (hnew : op.DrawsNew a)
    (hs : a.data.Sound) : t.Sound := by
  cases op with
  | save fate r =>
    obtain ⟨_, h⟩ := h
    cases h
    exact Store.saveRepository_sound hs r
  | begin fate fresh now id =>
    obtain ⟨_, h⟩ := h
    obtain ⟨out, hout, -⟩ := map_eq_ok h
    exact Store.begin_sound hs hnew hout
  | finish fate now x =>
    obtain ⟨_, h⟩ := h
    obtain ⟨out, hout, -⟩ := map_eq_ok h
    exact Store.finish_sound hs hout
  | reopen fate now =>
    rcases h with rfl | rfl
    · exact hs
    · exact Store.recover_sound hs now

/-- An effect removes, moves and reopens nothing. -/
theorem Operation.Effect.grows {s t : Store} {op : Operation} (h : op.Effect s t) (hs : s.Sound) : s.Grows t := by
  cases op with
  | save fate r =>
    obtain ⟨_, h⟩ := h
    cases h
    exact Store.saveRepository_grows s r
  | begin fate fresh now id =>
    obtain ⟨_, h⟩ := h
    obtain ⟨out, hout, -⟩ := map_eq_ok h
    exact Store.begin_grows hout
  | finish fate now x =>
    obtain ⟨_, h⟩ := h
    obtain ⟨out, hout, -⟩ := map_eq_ok h
    exact Store.finish_grows hs hout
  | reopen fate now =>
    rcases h with rfl | rfl
    · exact Store.Grows.refl _
    · exact Store.recover_grows s now

/-! ## Runs -/

/-- What holds now and is kept by each operation holds along a run. -/
theorem Along.after {p : Archive → Operation → Prop} {q : Archive → Prop}
    (hstep : ∀ b op, q b → p b op → q (b.perform op).2) {ops : List Operation} (h : q a) (hops : a.Along p ops) :
    q (a.after ops) := by
  induction ops generalizing a with
  | nil => exact h
  | cons op ops ih =>
    rw [after_cons]
    exact ih (hstep a op h hops.1) hops.2

/-- What a run keeps. -/
structure Kept (a : Archive) : Prop where
  sound : a.data.Sound
  inStep : a.InStep

theorem IsNew.kept (h : a.IsNew) : a.Kept := ⟨by rw [h.1]; exact Store.sound_empty, h.inStep⟩

theorem perform_kept (h : a.Kept) {op : Operation} (hnew : op.DrawsNew a) (hread : op.ReadsTrue a) :
    (a.perform op).2.Kept := by
  rcases perform_cases h.inStep hread with ⟨e, he⟩ | ⟨r, b, hb, heff, hin⟩
  · rw [he]; exact h
  · rw [hb]; exact ⟨heff.sound hnew h.sound, hin⟩

theorem perform_grows (h : a.Kept) {op : Operation} (hread : op.ReadsTrue a) :
    a.data.Grows (a.perform op).2.data := by
  rcases perform_cases h.inStep hread with ⟨e, he⟩ | ⟨r, b, hb, heff, -⟩
  · rw [he]; exact Store.Grows.refl _
  · rw [hb]; exact heff.grows h.sound

/-- **Along a run** a store stays sound and in step with its file. -/
theorem after_kept {ops : List Operation} (h : a.Kept) (hops : a.Admits ops) : (a.after ops).Kept :=
  Along.after (q := Kept) (fun _ _ hb hop => perform_kept hb hop.1 hop.2) h hops

/-- **Along a run** nothing is removed, moved or taken up again. -/
theorem after_grows {ops : List Operation} (h : a.Kept) (hops : a.Admits ops) :
    a.data.Grows (a.after ops).data := by
  have := Along.after (q := fun b => b.Kept ∧ a.data.Grows b.data)
    (fun b op hb hop => ⟨perform_kept hb.1 hop.1 hop.2, hb.2.trans (perform_grows hb.1 hop.2)⟩)
    ⟨h, Store.Grows.refl _⟩ hops
  exact this.2

end Archive

end CodeAtlas
