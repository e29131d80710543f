import CodeAtlas.Proofs.Store.Operations
import CodeAtlas.Proofs.Store.Repositories
import CodeAtlas.Service.Registration

/-!
# Demands in turns

A registration calls the store twice: it looks up a name, and later it saves the
record that it has made of what it found. The end of an analysis is one call. A turn
is one of these calls; between its two turns a registration waits for whatever else
calls the store.

* `serve_eq`: a demand that takes all turns itself.
* `Current`: what was looked up is what would be looked up now.
* `turn_cases`: everything that a turn does then.
-/

namespace CodeAtlas

/-- What is asked of a store: that a repository be registered, or that an analysis end. -/
inductive Demand where
  | register (q : Registration) (fate : Fate) (fresh : Ident) (now : Instant)
  | finish (fate : Fate) (now : Instant) (analysis : Analysis)

/-- How far a demand has come. -/
inductive Progress where
  | waiting
  /-- The name is looked up and the record is made, but not saved. -/
  | drafted (isNew : Bool) (r : Repository)
  | registered (outcome : Registration.Outcome)
  | finished (answer : Except StoreError Analysis)

/-- Whether a demand is answered. -/
def Progress.isEnded : Progress → Bool
  | .waiting => false
  | .drafted .. => false
  | _ => true

/-- The number of turns that a demand takes at most. -/
def Progress.left : Progress → ℕ
  | .waiting => 2
  | .drafted .. => 1
  | _ => 0

theorem Progress.isEnded_iff (p : Progress) : p.isEnded = true ↔ p.left = 0 := by
  cases p <;> simp [isEnded, left]

namespace Demand

-- whether a name is accepted is a case of its own, never computed
attribute [local irreducible] Registration.acceptedName?

/-- The new identifier that a registration draws. -/
def fresh? : Demand → Option Ident
  | .register _ _ fresh _ => some fresh
  | .finish .. => none

/-- One turn: the next call of the store. -/
def turn (d : Demand) (archive : Archive) (p : Progress) : Progress × Archive :=
  match d with
  | .register q fate fresh now =>
    match p with
    | .waiting =>
      match q.acceptedName? with
      | none => (.registered .refused, archive)
      | some name =>
        let (isNew, r) := q.draft archive.data fresh now name
        (.drafted isNew r, archive)
    | .drafted isNew r =>
      match archive.saveRepository fate r with
      | (.error e, archive) => (.registered (.failed e), archive)
      | (.ok r, archive) => (.registered (.saved isNew r), archive)
    | p => (p, archive)
  | .finish fate now a =>
    if p.isEnded then (p, archive)
    else (.finished (archive.finish fate now a).1, (archive.finish fate now a).2)

/-- A demand as a whole. -/
def serve (d : Demand) (archive : Archive) : Progress × Archive :=
  match d with
  | .register q fate fresh now =>
    (.registered (q.register archive fate fresh now).1, (q.register archive fate fresh now).2)
  | .finish fate now a => (.finished (archive.finish fate now a).1, (archive.finish fate now a).2)

/-- **A demand that takes all turns itself** is served as a whole. -/
theorem serve_eq (d : Demand) (archive : Archive) :
    d.serve archive = d.turn (d.turn archive .waiting).2 (d.turn archive .waiting).1 := by
  cases d with
  | finish fate now a => rfl
  | register q fate fresh now =>
    unfold serve turn Registration.register
    dsimp only
    cases q.acceptedName? with
    | none => rfl
    | some name =>
      dsimp only
      cases archive.saveRepository fate (q.draft archive.data fresh now name).2 with
      | mk answer next => cases answer <;> rfl

/-! ## What a turn does -/

variable {d : Demand} {archive : Archive} {p : Progress}

theorem turn_of_isEnded (h : p.isEnded = true) : d.turn archive p = (p, archive) := by
  cases p with
  | waiting => cases h
  | drafted isNew r => cases h
  | registered outcome => cases d <;> rfl
  | finished answer => cases d <;> rfl

/-- **The record that a registration makes**: under the name that was asked for, of the
record that has the name already, or new. -/
theorem draft_cases {q : Registration} {s : Store} {fresh : Ident} {now : Instant} {name : String} {isNew : Bool}
    {r : Repository} (h : q.draft s fresh now name = (isNew, r)) :
    Text.lowerAscii r.fullName = Text.lowerAscii name ∧
      ((isNew = false ∧ ∃ x, s.named? name = some x ∧ r = q.update x) ∨
        (isNew = true ∧ s.named? name = none ∧ r.id = fresh ∧ r.fullName = name)) := by
  unfold Registration.draft at h
  cases hx : s.named? name with
  | some x =>
    simp only [hx, Prod.mk.injEq] at h
    obtain ⟨rfl, rfl⟩ := h
    exact ⟨(Store.named?_eq_some hx).2, Or.inl ⟨rfl, x, rfl, rfl⟩⟩
  | none =>
    simp only [hx, Prod.mk.injEq] at h
    obtain ⟨rfl, rfl⟩ := h
    exact ⟨rfl, Or.inr ⟨rfl, rfl, rfl, rfl⟩⟩

/-- What was looked up is what would be looked up now. -/
def Current (d : Demand) (archive : Archive) (p : Progress) : Prop := d.turn archive .waiting = (p, archive)

/-- A draft is made by a registration, of what it finds under its name. -/
theorem Current.draft {isNew : Bool} {r : Repository} (h : d.Current archive (.drafted isNew r)) :
    ∃ q fate fresh now name, d = .register q fate fresh now ∧ q.acceptedName? = some name ∧
      q.draft archive.data fresh now name = (isNew, r) := by
  unfold Current turn at h
  cases d with
  | finish fate now a => cases h
  | register q fate fresh now =>
    dsimp only at h
    cases hn : q.acceptedName? with
    | none =>
      rw [hn] at h
      cases h
    | some name =>
      rw [hn] at h
      cases h
      exact ⟨q, fate, fresh, now, name, rfl, hn, rfl⟩

/-- A draft stays current in every store in which its name finds the same. -/
theorem Current.of_named? {b : Archive} {isNew : Bool} {r : Repository} (h : d.Current archive (.drafted isNew r))
    (hb : ∀ name, Text.lowerAscii r.fullName = Text.lowerAscii name →
      b.data.named? name = archive.data.named? name) : d.Current b (.drafted isNew r) := by
  obtain ⟨q, fate, fresh, now, name, rfl, hname, hdraft⟩ := h.draft
  have hfind := hb name (draft_cases hdraft).1
  have hsame : q.draft b.data fresh now name = (isNew, r) := by
    rw [← hdraft]
    simp only [Registration.draft, hfind]
  unfold Current turn
  simp only [hname, hsame]

/-- **Looking a name up**, if it is accepted. -/
theorem turn_waiting_register (q : Registration) (fate : Fate) (fresh : Ident) (now : Instant) (archive : Archive) :
    (Demand.register q fate fresh now).turn archive .waiting = (.registered .refused, archive) ∨
      ∃ isNew r, (Demand.register q fate fresh now).turn archive .waiting = (.drafted isNew r, archive) := by
  unfold turn
  dsimp only
  cases q.acceptedName? with
  | none => exact Or.inl rfl
  | some name => exact Or.inr ⟨_, _, rfl⟩

/-- **Saving a draft**, if it is written. -/
theorem turn_drafted (q : Registration) (fate : Fate) (fresh : Ident) (now : Instant) (archive : Archive)
    (isNew : Bool) (r : Repository) :
    (∃ e, (Demand.register q fate fresh now).turn archive (.drafted isNew r) =
        (.registered (.failed e), archive)) ∨
      ∃ k, (k = .memory ↔ archive.keeping = .memory) ∧ archive.Writes fate ∧
        (Demand.register q fate fresh now).turn archive (.drafted isNew r) =
          (.registered (.saved isNew r), ⟨archive.data.saveRepository r, k⟩) := by
  rcases Archive.mutate_cases archive fate fun s => .ok (r, s.saveRepository r) with
    ⟨e, he⟩ | ⟨out, t, k, hw, hc, hk, -, ho⟩
  · refine Or.inl ⟨e, ?_⟩
    unfold turn Archive.saveRepository
    simp only [he]
  · cases hc
    refine Or.inr ⟨k, Archive.persist_eq_memory_iff hk, hw, ?_⟩
    unfold turn Archive.saveRepository
    simp only [ho]

/-- A draft is saved where it can be written. -/
theorem turn_drafted_of_writes (q : Registration) {fate : Fate} (fresh : Ident) (now : Instant)
    (h : archive.Writes fate) (isNew : Bool) (r : Repository) :
    ∃ k, (k = .memory ↔ archive.keeping = .memory) ∧
      (Demand.register q fate fresh now).turn archive (.drafted isNew r) =
        (.registered (.saved isNew r), ⟨archive.data.saveRepository r, k⟩) := by
  obtain ⟨k, hk, hsave⟩ := Archive.mutate_of_writes h (fun s => .ok (r, s.saveRepository r)) rfl
  refine ⟨k, hk, ?_⟩
  unfold turn Archive.saveRepository
  simp only [hsave]

theorem turn_finish_eq (fate : Fate) (now : Instant) (a : Analysis) (h : p.isEnded = false) (archive : Archive) :
    (Demand.finish fate now a).turn archive p =
      (.finished (archive.finish fate now a).1, (archive.finish fate now a).2) := by
  unfold turn
  simp [h]

/-- **Ending an analysis**, if it is in progress and the end is written. -/
theorem turn_finish (fate : Fate) (now : Instant) (a : Analysis) (h : p.isEnded = false) (archive : Archive) :
    (∃ e, (Demand.finish fate now a).turn archive p = (.finished (.error e), archive)) ∨
      ∃ k, (k = .memory ↔ archive.keeping = .memory) ∧
        (Demand.finish fate now a).turn archive p = (.finished (.ok a), ⟨archive.data.ended now a, k⟩) := by
  rw [turn_finish_eq fate now a h]
  rcases Archive.mutate_cases archive fate fun s => s.finish now a with ⟨e, he⟩ | ⟨out, t, k, -, hc, hk, -, ho⟩
  · exact Or.inl ⟨e, by simp only [Archive.finish, he]⟩
  · obtain ⟨-, rfl, rfl, -⟩ := Store.finish_cases hc
    exact Or.inr ⟨k, Archive.persist_eq_memory_iff hk, by simp only [Archive.finish, ho]⟩

/-- A first turn answers the demand, or leaves a draft and the store as it is. -/
theorem turn_waiting (d : Demand) (archive : Archive) :
    (d.turn archive .waiting).1.isEnded = true ∨ ∃ isNew r, d.turn archive .waiting = (.drafted isNew r, archive) := by
  cases d with
  | finish fate now a => exact Or.inl rfl
  | register q fate fresh now =>
    rcases turn_waiting_register q fate fresh now archive with h | h
    · exact Or.inl (by rw [h]; rfl)
    · exact Or.inr h

theorem isEnded_turn_drafted (d : Demand) (archive : Archive) (isNew : Bool) (r : Repository) :
    (d.turn archive (.drafted isNew r)).1.isEnded = true := by
  cases d with
  | finish fate now a => rfl
  | register q fate fresh now =>
    rcases turn_drafted q fate fresh now archive isNew r with ⟨e, h⟩ | ⟨k, -, -, h⟩ <;> rw [h] <;> rfl

/-- **A turn brings a demand further.** -/
theorem left_turn (d : Demand) (archive : Archive) (p : Progress) : (d.turn archive p).1.left ≤ p.left - 1 := by
  cases p with
  | waiting =>
    rcases turn_waiting d archive with h | ⟨isNew, r, h⟩
    · rw [(Progress.isEnded_iff _).1 h]
      omega
    · rw [h]
      exact Nat.le_refl _
  | drafted isNew r => rw [(Progress.isEnded_iff _).1 (isEnded_turn_drafted d archive isNew r)]; omega
  | registered outcome => rw [turn_of_isEnded rfl]; exact Nat.le_refl _
  | finished answer => rw [turn_of_isEnded rfl]; exact Nat.le_refl _

/-- **Everything that a turn does** where drafts are current: it serves the demand as a
whole, or it is the first turn of a registration and leaves the store as it is. -/
theorem turn_cases (hp : p.isEnded = false)
    (hcur : ∀ isNew r, p = .drafted isNew r → d.Current archive (.drafted isNew r)) :
    ((d.turn archive p).1.isEnded = true ∧ d.turn archive p = d.serve archive) ∨
      ∃ isNew r, d.turn archive p = (.drafted isNew r, archive) ∧ d.Current archive (.drafted isNew r) := by
  cases p with
  | waiting =>
    rcases turn_waiting d archive with h | ⟨isNew, r, h⟩
    · exact Or.inl ⟨h, by rw [serve_eq, turn_of_isEnded h]⟩
    · exact Or.inr ⟨isNew, r, h, h⟩
  | drafted isNew r =>
    have h : d.turn archive .waiting = (.drafted isNew r, archive) := hcur isNew r rfl
    exact Or.inl ⟨isEnded_turn_drafted d archive isNew r, by rw [serve_eq, h]⟩
  | registered outcome => cases hp
  | finished answer => cases hp

end Demand

end CodeAtlas
