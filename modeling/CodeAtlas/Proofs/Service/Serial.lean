import CodeAtlas.Proofs.Service.Demands
import Mathlib.Logic.Function.Basic

/-!
# Demands that share a store

Registrations and ends of analyses take turns at one store. A schedule is any list of
turns, and the demands end in some order (`endings`). Served in that order, each as a
whole (`oneByOne`), they leave the same store, unless a registration saves a draft of
what is out of date by then.

* `mem_endings`, `nodup_endings`: the order names each demand that ends, once.
* `after_eq_oneByOne`, `progress_eq_serve`: **a schedule in which every draft is saved
  while it is current leaves the store of its demands served one by one, and answers
  each as it would be answered in its place.**
-/

namespace CodeAtlas

variable {ι : Type}

/-- A store and how far each demand on it has come. -/
structure Traffic (ι : Type) where
  archive : Archive
  progress : ι → Progress

namespace Traffic

variable [DecidableEq ι] (demands : ι → Demand)

/-- All demands, before the first turn. -/
def start (ι : Type) (archive : Archive) : Traffic ι := ⟨archive, fun _ => .waiting⟩

/-- One of the demands comes further, and the store is another one then. -/
def move (s : Traffic ι) (i : ι) (p : Progress) (archive : Archive) : Traffic ι :=
  ⟨archive, Function.update s.progress i p⟩

/-- A turn of one of the demands. -/
def turn (s : Traffic ι) (i : ι) : Traffic ι :=
  s.move i ((demands i).turn s.archive (s.progress i)).1 ((demands i).turn s.archive (s.progress i)).2

/-- The demands after the turns of a schedule. -/
def after (s : Traffic ι) (schedule : List ι) : Traffic ι := schedule.foldl (turn demands) s

/-- The demands that a schedule ends, in the order in which it ends them. -/
def endings (s : Traffic ι) : List ι → List ι
  | [] => []
  | i :: rest =>
    let s' := s.turn demands i
    if !(s.progress i).isEnded && (s'.progress i).isEnded then i :: s'.endings rest else s'.endings rest

/-- A store that demands have been served with, one after the other. -/
def oneByOne (archive : Archive) (order : List ι) : Archive :=
  order.foldl (fun a i => ((demands i).serve a).2) archive

/-- Whether a condition holds at each turn of a schedule. -/
def Along (p : Traffic ι → ι → Prop) (s : Traffic ι) : List ι → Prop
  | [] => True
  | i :: rest => p s i ∧ Along p (s.turn demands i) rest

/-- **Whether every draft is current when it is saved.** -/
def Undisturbed (s : Traffic ι) (schedule : List ι) : Prop :=
  s.Along demands (fun s i => ∀ isNew r, s.progress i = .drafted isNew r →
    (demands i).Current s.archive (.drafted isNew r)) schedule

/-- Whether a demand is about to change what another one has looked up and not saved:
it saves a record of the same name, or ends a completed analysis of the record. -/
def Disturbs (s : Traffic ι) (k i : ι) : Prop :=
  ∃ isNew r, s.progress i = .drafted isNew r ∧
    ((∃ isNew' r', s.progress k = .drafted isNew' r' ∧
        Text.equalIgnoringAsciiCase r'.fullName r.fullName = true) ∨
      ∃ fate now a, demands k = .finish fate now a ∧ (s.progress k).isEnded = false ∧ a.status = .completed ∧
        a.repository = r.id)

/-- **Whether no demand comes between** the two turns of a registration that changes
what it has looked up. -/
def Apart (s : Traffic ι) (schedule : List ι) : Prop :=
  s.Along demands (fun s k => ∀ i, i ≠ k → ¬s.Disturbs demands k i) schedule

/-- **New identifiers are new**, to the store and to each other. -/
structure Fresh (archive : Archive) : Prop where
  unused : ∀ i id, (demands i).fresh? = some id → ∀ x ∈ archive.data.repositories, x.id ≠ id
  distinct : ∀ i k id, (demands i).fresh? = some id → (demands k).fresh? = some id → i = k

/-- **What every turn keeps.** A draft is of a record that is stored under its name, or
has an identifier that is still new. -/
structure OK (s : Traffic ι) : Prop where
  ids : s.archive.data.DistinctIds
  known : ∀ i r, s.progress i = .drafted false r →
    ∃ x ∈ s.archive.data.repositories, x.id = r.id ∧ x.fullName = r.fullName
  drawn : ∀ i r, s.progress i = .drafted true r → (demands i).fresh? = some r.id
  unused : ∀ i id, (s.progress i).isEnded = false → (demands i).fresh? = some id →
    ∀ x ∈ s.archive.data.repositories, x.id ≠ id

@[simp] theorem move_archive (s : Traffic ι) (i : ι) (p : Progress) (archive : Archive) :
    (s.move i p archive).archive = archive := rfl

@[simp] theorem move_progress_self (s : Traffic ι) (i : ι) (p : Progress) (archive : Archive) :
    (s.move i p archive).progress i = p := by simp [move]

theorem move_progress_of_ne (s : Traffic ι) {i k : ι} (hk : k ≠ i) (p : Progress) (archive : Archive) :
    (s.move i p archive).progress k = s.progress k := by simp [move, hk]

theorem turn_progress_of_ne (s : Traffic ι) {i k : ι} (hk : k ≠ i) :
    (s.turn demands i).progress k = s.progress k := s.move_progress_of_ne hk _ _

theorem move_self (s : Traffic ι) (i : ι) : s.move i (s.progress i) s.archive = s := by
  rw [move, Function.update_eq_self]

variable {demands} {s : Traffic ι}

/-- What holds at each turn of a schedule holds at any of them. -/
theorem Along.at {p : Traffic ι → ι → Prop} {pre : List ι} {i : ι} {schedule : List ι}
    (h : s.Along demands p schedule) (hpre : pre ++ [i] <+: schedule) : p (s.after demands pre) i := by
  obtain ⟨post, rfl⟩ := hpre
  induction pre generalizing s with
  | nil => exact h.1
  | cons k pre ih => exact ih h.2

/-! ## One by one -/

theorem turn_of_isEnded {i : ι} (h : (s.progress i).isEnded = true) : s.turn demands i = s := by
  unfold turn
  rw [Demand.turn_of_isEnded h, move_self]

/-- A demand that is answered stays so. -/
theorem progress_after {i : ι} (h : (s.progress i).isEnded = true) (schedule : List ι) :
    (s.after demands schedule).progress i = s.progress i := by
  induction schedule generalizing s with
  | nil => rfl
  | cons k rest ih =>
    have hk : (s.turn demands k).progress i = s.progress i := by
      rcases eq_or_ne i k with rfl | hik
      · rw [turn_of_isEnded h]
      · exact s.turn_progress_of_ne demands hik
    have hrest := ih (s := s.turn demands k) (by rw [hk]; exact h)
    exact hrest.trans hk

theorem endings_cons (s : Traffic ι) (i : ι) (rest : List ι) :
    s.endings demands (i :: rest) =
      if !(s.progress i).isEnded && ((s.turn demands i).progress i).isEnded then
        i :: (s.turn demands i).endings demands rest
      else (s.turn demands i).endings demands rest := rfl

/-- A turn that ends a demand is the first in the order. -/
theorem endings_cons_of_ended {i : ι} (h : (s.progress i).isEnded = false)
    (h' : ((s.turn demands i).progress i).isEnded = true) (rest : List ι) :
    s.endings demands (i :: rest) = i :: (s.turn demands i).endings demands rest := by simp [endings_cons, h, h']

/-- A turn that ends no demand does not count. -/
theorem endings_cons_of_not_ended {i : ι}
    (h : (s.progress i).isEnded = true ∨ ((s.turn demands i).progress i).isEnded = false) (rest : List ι) :
    s.endings demands (i :: rest) = (s.turn demands i).endings demands rest := by
  rcases h with h | h <;> simp [endings_cons, h]

/-- **The order of a schedule** names the demands that it ends. -/
theorem mem_endings {i : ι} (schedule : List ι) :
    i ∈ s.endings demands schedule ↔
      (s.progress i).isEnded = false ∧ ((s.after demands schedule).progress i).isEnded = true := by
  induction schedule generalizing s with
  | nil => simp [endings, after]
  | cons k rest ih =>
    have hrest := ih (s := s.turn demands k)
    change _ ↔ _ ∧ (((s.turn demands k).after demands rest).progress i).isEnded = true
    rcases eq_or_ne i k with rfl | hik
    · by_cases hold : (s.progress i).isEnded = true
      · rw [endings_cons_of_not_ended (Or.inl hold), hrest, turn_of_isEnded hold]
      have hold : (s.progress i).isEnded = false := by simpa using hold
      by_cases hnew : ((s.turn demands i).progress i).isEnded = true
      · rw [endings_cons_of_ended hold hnew, progress_after hnew]
        simp [hold, hnew]
      · have hnew : ((s.turn demands i).progress i).isEnded = false := by simpa using hnew
        rw [endings_cons_of_not_ended (Or.inr hnew), hrest]
        simp [hold, hnew]
    · have hsame := s.turn_progress_of_ne demands hik
      have hmem : i ∈ s.endings demands (k :: rest) ↔ i ∈ (s.turn demands k).endings demands rest := by
        rw [endings_cons]
        split
        · simp [hik]
        · exact Iff.rfl
      rw [hmem, hrest, hsame]

/-- No demand ends twice. -/
theorem nodup_endings (schedule : List ι) : (s.endings demands schedule).Nodup := by
  induction schedule generalizing s with
  | nil => exact List.nodup_nil
  | cons i rest ih =>
    rw [endings_cons]
    split
    · rename_i h
      simp only [Bool.and_eq_true] at h
      refine List.nodup_cons.2 ⟨?_, ih⟩
      rw [mem_endings]
      simp [h.2]
    · exact ih

/-- **A turn serves a demand as a whole** if it ends it, and else leaves the store as it
is. -/
theorem turn_eq_serve {i : ι} (hcur : ∀ isNew r, s.progress i = .drafted isNew r →
      (demands i).Current s.archive (.drafted isNew r)) (h : (s.progress i).isEnded = false) :
    (((s.turn demands i).progress i).isEnded = true ∧
        s.turn demands i = s.move i ((demands i).serve s.archive).1 ((demands i).serve s.archive).2) ∨
      ((s.turn demands i).progress i).isEnded = false ∧ (s.turn demands i).archive = s.archive := by
  unfold turn
  rcases Demand.turn_cases h hcur with ⟨hend, hserve⟩ | ⟨isNew, r, hdraft, -⟩
  · left
    rw [move_progress_self, hserve]
    exact ⟨hserve ▸ hend, rfl⟩
  · right
    rw [move_progress_self, hdraft]
    exact ⟨rfl, rfl⟩

/-- **One by one.** A schedule in which every draft is saved while it is current leaves
the store of its demands served one by one, in the order in which they end. -/
theorem after_eq_oneByOne {schedule : List ι} (h : s.Undisturbed demands schedule) :
    (s.after demands schedule).archive = oneByOne demands s.archive (s.endings demands schedule) := by
  induction schedule generalizing s with
  | nil => rfl
  | cons i rest ih =>
    have hrest := ih h.2
    change ((s.turn demands i).after demands rest).archive = _
    by_cases hend : (s.progress i).isEnded = true
    · rw [endings_cons_of_not_ended (Or.inl hend), hrest, turn_of_isEnded hend]
    · have hend : (s.progress i).isEnded = false := by simpa using hend
      rcases turn_eq_serve h.1 hend with ⟨hnew, hserve⟩ | ⟨hnew, hsame⟩
      · rw [endings_cons_of_ended hend hnew, hrest, hserve]
        rfl
      · rw [endings_cons_of_not_ended (Or.inr hnew), hrest, hsame]

/-- **Each demand is answered as it would be in its place** in that order. -/
theorem progress_eq_serve {schedule : List ι} (h : s.Undisturbed demands schedule) {pre post : List ι} {i : ι}
    (hi : s.endings demands schedule = pre ++ i :: post) :
    (s.after demands schedule).progress i = ((demands i).serve (oneByOne demands s.archive pre)).1 := by
  induction schedule generalizing s pre with
  | nil => simp [endings] at hi
  | cons k rest ih =>
    change ((s.turn demands k).after demands rest).progress i = _
    by_cases hend : (s.progress k).isEnded = true
    · rw [endings_cons_of_not_ended (Or.inl hend)] at hi
      rw [ih h.2 hi, turn_of_isEnded hend]
    have hend : (s.progress k).isEnded = false := by simpa using hend
    rcases turn_eq_serve h.1 hend with ⟨hnew, hserve⟩ | ⟨hnew, hsame⟩
    · rw [endings_cons_of_ended hend hnew] at hi
      cases pre with
      | nil =>
        obtain ⟨rfl, -⟩ := List.cons.inj hi
        rw [progress_after hnew, hserve, move_progress_self]
        rfl
      | cons l pre =>
        obtain ⟨rfl, hrest⟩ := List.cons.inj hi
        rw [ih h.2 hrest, hserve]
        rfl
    · rw [endings_cons_of_not_ended (Or.inr hnew)] at hi
      rw [ih h.2 hi, hsame]

end Traffic

end CodeAtlas
