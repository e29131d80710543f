import CodeAtlas.Proofs.FirstOccurrences
import CodeAtlas.Proofs.Store.Latest
import CodeAtlas.Proofs.Store.Operations

/-!
# What a store tells of its history

The answers of a store to the operations of a run say which repositories were saved, which
analyses began and which of them completed, each in order. If time does not run backwards and
each analysis is ended with the record that it began with, the store can tell from its records
alone what was begun last and what was completed last.

* `Archive.replies`: the answers of a run, without the refusals.
* `Operation.Proper`, `InTime`: how a store is used.
* `Store.Recounts`: what the records of a store say about its history; every change keeps it.
* `latest_of_run`: **the latest analyses are those that were begun last and completed last.**
-/

namespace CodeAtlas

variable {α β : Type}

/-! ## Lists -/

section Lists

variable {p : α → Bool} {R : α → α → Prop} {before after : List α} {x y : α}

/-- The first member for which something holds is replaced at its place. -/
theorem updateFirst_of_find? {l : List α} (h : l.find? p = some y) (f : α → α) :
    ∃ before after, l = before ++ y :: after ∧ updateFirst p f l = before ++ f y :: after := by
  induction l with
  | nil => cases h
  | cons a l ih =>
    unfold updateFirst
    by_cases ha : p a = true
    · rw [List.find?_cons_of_pos ha, Option.some.injEq] at h
      subst h
      exact ⟨[], l, rfl, if_pos ha⟩
    · rw [List.find?_cons_of_neg ha] at h
      obtain ⟨before, after, hl, hupdate⟩ := ih h
      refine ⟨a :: before, after, ?_, ?_⟩
      · rw [hl, List.cons_append]
      · rw [if_neg ha, hupdate, List.cons_append]

/-- A relation between members outlives that one of them is replaced, if it holds of the new one
wherever it held of the old one. -/
theorem pairwise_replace (h : (before ++ y :: after).Pairwise R) (hbefore : ∀ a ∈ before, R a y → R a x)
    (hafter : ∀ b ∈ after, R y b → R x b) : (before ++ x :: after).Pairwise R := by
  obtain ⟨hb, hya, hcross⟩ := List.pairwise_append.1 h
  obtain ⟨hy, ha⟩ := List.pairwise_cons.1 hya
  refine List.pairwise_append.2 ⟨hb, List.pairwise_cons.2 ⟨fun b hb => hafter b hb (hy b hb), ha⟩, ?_⟩
  intro a ha b hb
  rcases List.mem_cons.1 hb with rfl | hb
  · exact hbefore a ha (hcross a ha y List.mem_cons_self)
  · exact hcross a ha b (List.mem_cons_of_mem _ hb)

end Lists

/-! ## Records -/

namespace Analysis

/-- The record that an analysis began with. -/
def origin (a : Analysis) : Analysis := .begun a.id a.repository a.startedAt

/-- **A record ends an analysis at a moment**: the one that it began with, completed or failed then. -/
def EndsAs (y : Analysis) (now : Instant) (x : Analysis) : Prop :=
  (∃ result, x = y.origin.completed now result) ∨ ∃ message, x = y.origin.failed now message

variable {x y : Analysis} {now : Instant}

theorem EndsAs.origin (h : y.EndsAs now x) : x.origin = y.origin := by
  rcases h with ⟨result, rfl⟩ | ⟨message, rfl⟩ <;> rfl

/-- Identifier, repository and start stay as they were. -/
theorem EndsAs.same (h : y.EndsAs now x) :
    x.id = y.id ∧ x.repository = y.repository ∧ x.startedAt = y.startedAt := by
  rcases h with ⟨result, rfl⟩ | ⟨message, rfl⟩
  · exact ⟨rfl, rfl, rfl⟩
  · exact ⟨rfl, rfl, rfl⟩

theorem EndsAs.completedAt (h : y.EndsAs now x) : x.completedAt = some now := by
  rcases h with ⟨result, rfl⟩ | ⟨message, rfl⟩ <;> rfl

theorem EndsAs.isTerminal (h : y.EndsAs now x) : x.isTerminal = true := by
  rcases h with ⟨result, rfl⟩ | ⟨message, rfl⟩ <;> rfl

end Analysis

/-! ## Histories -/

namespace Archive

/-- The repository that an answer says was saved. -/
def Reply.saved? : Reply → Option Ident
  | .saved r => some r.id
  | _ => none

/-- The analysis that an answer says has begun. -/
def Reply.begun? : Reply → Option Analysis
  | .start (.started a) => some a
  | _ => none

/-- The analysis that an answer says has completed. -/
def Reply.completed? : Reply → Option Analysis
  | .finished a => if a.status = .completed then some a else none
  | _ => none

/-- The answers of a run, without the refusals. -/
def replies (a : Archive) : List Operation → List Reply
  | [] => []
  | op :: ops => (a.perform op).1.toOption.toList ++ replies (a.perform op).2 ops

/-- The repositories of a history in the order in which each was saved first. -/
def savedIn (history : List Reply) : List Ident := (history.filterMap Reply.saved?).eraseDups

theorem savedIn_concat (history : List Reply) {r : Reply} (hr : r.saved? = none) :
    savedIn (history ++ [r]) = savedIn history := by simp [savedIn, hr]

/-- The analysis of a repository that was begun last in a history. -/
def begunLast? (history : List Reply) (repository : Ident) : Option Analysis :=
  ((history.filterMap Reply.begun?).filter (·.repository == repository)).getLast?

/-- The analysis of a repository that was completed last in a history. -/
def completedLast? (history : List Reply) (repository : Ident) : Option Analysis :=
  ((history.filterMap Reply.completed?).filter (·.repository == repository)).getLast?

/-- The time at which an operation is performed, if it asks for it. -/
def Operation.time? : Operation → Option Instant
  | .begin _ _ now _ => some now
  | .finish _ now _ => some now
  | _ => none

/-- **Time does not run backwards**; it may stand still. -/
def InTime (times : List Instant) : Prop := times.Pairwise fun t t' => t.le t' = true

/-- **How a store is used**: an identifier that is drawn is new, and an analysis is ended with the
record that it began with, completed or failed at that moment. -/
def Operation.Proper (s : Store) : Operation → Prop
  | .save .. => True
  | .begin _ fresh _ _ => ∀ x ∈ s.analyses, x.id ≠ fresh
  | .finish _ now x => ∃ y ∈ s.analyses, y.EndsAs now x
  | .reopen .. => False

end Archive

namespace Store

open Archive

/-- **What the records of a store say about its history**: the repositories and the analyses stand
in the order in which they came, and the analyses of a repository that have completed in the
order in which they did. Each but the last of them had ended before the next one began. -/
structure Recounts (s : Store) (history : List Reply) (times : List Instant) : Prop where
  sound : s.Sound
  repositories : s.repositories.map (·.id) = savedIn history
  begun : s.analyses.map Analysis.origin = history.filterMap Reply.begun?
  completed : ∀ id, s.completedOf id = (history.filterMap Reply.completed?).filter (·.repository == id)
  settled : s.analyses.Pairwise fun a b => a.repository = b.repository → a.isTerminal = true
  started : s.analyses.Pairwise fun a b => a.startedAt.le b.startedAt = true
  ended : ∀ id, (s.completedOf id).Pairwise fun a b => endsBefore a b = true
  startedAt : ∀ a ∈ s.analyses, a.startedAt ∈ times
  completedAt : ∀ id, ∀ a ∈ s.completedOf id, ∃ t ∈ times, a.completedAt = some t

variable {s t : Store} {history : List Reply} {times : List Instant}

theorem recounts_empty : Recounts {} [] [] where
  sound := sound_empty
  repositories := rfl
  begun := rfl
  completed _ := rfl
  settled := .nil
  started := .nil
  ended _ := .nil
  startedAt := by simp
  completedAt := by simp [completedOf]

/-- Time passes without any change. -/
theorem Recounts.later (h : s.Recounts history times) (more : List Instant) : s.Recounts history (times ++ more) where
  sound := h.sound
  repositories := h.repositories
  begun := h.begun
  completed := h.completed
  settled := h.settled
  started := h.started
  ended := h.ended
  startedAt a ha := List.mem_append_left _ (h.startedAt a ha)
  completedAt id a ha := by
    obtain ⟨t, ht, hat⟩ := h.completedAt id a ha
    exact ⟨t, List.mem_append_left _ ht, hat⟩

/-- A change that leaves the analyses as they are, and an answer that tells of none. -/
theorem Recounts.of_analyses_eq (h : s.Recounts history times) (hsound : t.Sound) (hsame : t.analyses = s.analyses)
    {r : Reply} (hbegun : r.begun? = none) (hcompleted : r.completed? = none)
    (hids : t.repositories.map (·.id) = savedIn (history ++ [r])) : t.Recounts (history ++ [r]) times := by
  have hcompletedOf : ∀ id, t.completedOf id = s.completedOf id := by
    intro id
    unfold completedOf
    rw [hsame]
  refine ⟨hsound, hids, ?begun, ?completed, hsame ▸ h.settled, hsame ▸ h.started, ?ended, hsame ▸ h.startedAt,
    ?completedAt⟩
  case begun => simpa [hsame, hbegun] using h.begun
  case completed =>
    intro id
    simpa [hcompletedOf, hcompleted] using h.completed id
  case ended =>
    intro id
    rw [hcompletedOf]
    exact h.ended id
  case completedAt =>
    intro id
    rw [hcompletedOf]
    exact h.completedAt id

/-- An answer that says nothing new about what was saved, begun or completed. -/
theorem Recounts.told (h : s.Recounts history times) {r : Reply} (hsaved : r.saved? = none)
    (hbegun : r.begun? = none) (hcompleted : r.completed? = none) : s.Recounts (history ++ [r]) times :=
  h.of_analyses_eq h.sound rfl hbegun hcompleted (by rw [savedIn_concat history hsaved, h.repositories])

/-! ## Changes -/

/-- **A repository that is saved** keeps its place or comes last. -/
theorem Recounts.saved (h : s.Recounts history times) (r : Repository) :
    (s.saveRepository r).Recounts (history ++ [.saved r]) times := by
  refine h.of_analyses_eq (saveRepository_sound h.sound r) (s.saveRepository_analyses r) rfl rfl ?_
  have hmem : ∀ id, id ∈ history.filterMap Reply.saved? ↔ ∃ x ∈ s.repositories, x.id = id := by
    intro id
    rw [← List.mem_map, h.repositories, savedIn, List.mem_eraseDups]
  have hhistory : (history ++ [Reply.saved r]).filterMap Reply.saved? = history.filterMap Reply.saved? ++ [r.id] := by
    rw [List.filterMap_append]
    rfl
  unfold savedIn
  rw [hhistory]
  rcases s.saveRepository_cases r with ⟨hknown, hs⟩ | ⟨hnew, hs⟩
  · have hid : (updateFirst (·.id == r.id) (fun _ => r) s.repositories).map (·.id) = s.repositories.map (·.id) := by
      apply map_updateFirst
      intro x hx
      exact (by simpa using hx : x.id = r.id).symm
    rw [hs, hid, eraseDups_concat_of_mem ((hmem r.id).2 hknown)]
    exact h.repositories
  · have hnot : r.id ∉ history.filterMap Reply.saved? := by
      intro hin
      obtain ⟨x, hx, hxr⟩ := (hmem r.id).1 hin
      exact hnew x hx hxr
    rw [hs, eraseDups_concat_of_notMem hnot, List.map_append, h.repositories]
    rfl

/-- **An analysis that begins** comes last, after all of its repository have ended. -/
theorem Recounts.begins (h : s.Recounts history times) {fresh id : Ident} {now : Instant}
    (hknown : s.repositories.any (·.id == id) = true) (hnone : s.running? id = none)
    (hfresh : ∀ x ∈ s.analyses, x.id ≠ fresh) (hpast : ∀ t ∈ times, t.le now = true) :
    (s.started fresh id now).Recounts (history ++ [.start (.started (.begun fresh id now))]) (times ++ [now]) := by
  have hsame : ∀ j, (s.started fresh id now).completedOf j = s.completedOf j := by
    intro j
    unfold completedOf
    rw [started_analyses, List.filter_append]
    simp [Analysis.begun]
  refine ⟨begin_sound h.sound hfresh (begin_eq_started hknown hnone fresh now), ?repositories, ?begun, ?completed,
    ?settled, ?started, ?ended, ?startedAt, ?completedAt⟩
  case repositories => exact h.repositories.trans (savedIn_concat history rfl).symm
  case begun =>
    rw [started_analyses, List.map_append, h.begun, List.filterMap_append]
    rfl
  case completed =>
    intro j
    rw [hsame, h.completed, List.filterMap_append]
    simp [Reply.completed?]
  case settled =>
    -- the new record comes last, and none of its repository is in progress
    rw [started_analyses]
    refine List.pairwise_append.2 ⟨h.settled, List.pairwise_singleton _ _, ?_⟩
    intro x hx y hy hrepository
    obtain rfl := List.mem_singleton.1 hy
    have hrepository : x.repository = id := hrepository
    have hnot := List.find?_eq_none.1 hnone x hx
    simpa [hrepository] using hnot
  case started =>
    -- and none has begun later
    rw [started_analyses]
    refine List.pairwise_append.2 ⟨h.started, List.pairwise_singleton _ _, ?_⟩
    intro x hx y hy
    obtain rfl := List.mem_singleton.1 hy
    exact hpast _ (h.startedAt x hx)
  case ended =>
    intro j
    rw [hsame]
    exact h.ended j
  case startedAt =>
    intro x hx
    rw [started_analyses, List.mem_append, List.mem_singleton] at hx
    rcases hx with hx | rfl
    · exact List.mem_append_left _ (h.startedAt x hx)
    · exact List.mem_append_right _ (List.mem_singleton.2 rfl)
  case completedAt =>
    intro j x hx
    rw [hsame] at hx
    exact (h.later [now]).completedAt j x hx

/-- **An analysis that ends is the last one of its repository**, since no other began before it had
ended; so the completed ones stay in the order in which they completed. -/
theorem Recounts.split (h : s.Recounts history times) {x y : Analysis} (hy : y ∈ s.analyses)
    (hrun : y.isTerminal = false) (hid : x.id = y.id) (now : Instant) :
    ∃ before after, s.analyses = before ++ y :: after ∧ (s.ended now x).analyses = before ++ x :: after ∧
      ∀ b ∈ after, b.repository ≠ y.repository := by
  have hfound : s.analyses.find? (·.id == x.id) = some y := h.sound.analysis?_eq_some_iff.2 ⟨hy, hid.symm⟩
  obtain ⟨before, after, hl, hupdate⟩ := updateFirst_of_find? hfound fun _ => x
  refine ⟨before, after, hl, by rw [ended_analyses, hupdate], ?_⟩
  intro b hb hrepository
  have hsettled := h.settled
  rw [hl] at hsettled
  have hpair := (List.pairwise_cons.1 (List.pairwise_append.1 hsettled).2.1).1 b hb hrepository.symm
  rw [hrun] at hpair
  cases hpair

theorem Recounts.completedOf_ended (h : s.Recounts history times) {x y : Analysis} {now : Instant}
    (hy : y ∈ s.analyses) (hrun : y.isTerminal = false) (hx : y.EndsAs now x) (id : Ident) :
    (s.ended now x).completedOf id =
      s.completedOf id ++ if x.repository = id ∧ x.status = .completed then [x] else [] := by
  obtain ⟨hid, hrepository, -⟩ := hx.same
  obtain ⟨before, after, hl, hended, hlast⟩ := h.split hy hrun hid now
  have hnot : y.status ≠ .completed := by
    intro hstatus
    simp [Analysis.isTerminal, hstatus] at hrun
  unfold completedOf
  obtain ⟨q, hq⟩ : ∃ q : Analysis → Bool, q = fun a => a.repository == id && decide (a.status = .completed) := ⟨_, rfl⟩
  have hy : (y :: after).filter q = after.filter q := List.filter_cons_of_neg (by simp [hq, hnot])
  rw [← hq, hl, hended, List.filter_append, List.filter_append, hy]
  by_cases hdone : x.repository = id ∧ x.status = .completed
  · have hafter : after.filter q = [] := by
      rw [List.filter_eq_nil_iff]
      intro b hb
      have hb := hlast b hb
      rw [← hrepository, hdone.1] at hb
      simp [hq, hb]
    rw [if_pos hdone, List.filter_cons_of_pos (by simp [hq, hdone]), hafter, List.append_nil]
  · rw [if_neg hdone, List.filter_cons_of_neg (by simpa [hq] using hdone), List.append_nil]

theorem Recounts.ends (h : s.Recounts history times) {x y : Analysis} {now : Instant} (hy : y ∈ s.analyses)
    (hrun : y.isTerminal = false) (hx : y.EndsAs now x) (hpast : ∀ t ∈ times, t.le now = true) :
    (s.ended now x).Recounts (history ++ [.finished x]) (times ++ [now]) := by
  obtain ⟨hid, hrepository, hstarted⟩ := hx.same
  obtain ⟨before, after, hl, hended, hlast⟩ := h.split hy hrun hid now
  have hcompleted := h.completedOf_ended hy hrun hx
  have hsettled := h.settled
  have hinOrder := h.started
  rw [hl] at hsettled hinOrder
  -- the new record stands where the old one stood, and differs from it only in how it ended
  refine ⟨ended_sound h.sound now hx.isTerminal, ?repositories, ?begun, ?completed, ?settled, ?started, ?ended,
    ?startedAt, ?completedAt⟩
  case repositories => rw [ended_repository_ids, savedIn_concat history rfl, h.repositories]
  case begun =>
    have horigin := h.begun
    rw [hl] at horigin
    rw [hended, List.filterMap_append, ← horigin]
    simp [Reply.begun?, hx.origin]
  case completed =>
    intro id
    rw [hcompleted, h.completed, List.filterMap_append, List.filter_append]
    congr 1
    by_cases hstatus : x.status = .completed
    · by_cases hof : x.repository = id <;> simp [Reply.completed?, hstatus, hof]
    · simp [Reply.completed?, hstatus]
  case settled =>
    rw [hended]
    apply pairwise_replace hsettled
    · intro a _ ha hsame
      exact ha (hsame.trans hrepository)
    · intro b _ _ _
      exact hx.isTerminal
  case started =>
    rw [hended]
    apply pairwise_replace hinOrder
    · intro a _ ha
      rw [hstarted]
      exact ha
    · intro b _ hb
      rw [hstarted]
      exact hb
  case ended =>
    intro id
    rw [hcompleted]
    split
    · -- what completes now completes after all that have completed before
      refine List.pairwise_append.2 ⟨h.ended id, List.pairwise_singleton _ _, ?_⟩
      intro a ha b hb
      obtain rfl := List.mem_singleton.1 hb
      obtain ⟨t, ht, hat⟩ := h.completedAt id a ha
      simpa only [endsBefore, hat, hx.completedAt] using hpast t ht
    · rw [List.append_nil]
      exact h.ended id
  case startedAt =>
    intro a ha
    have hmem : y.startedAt ∈ times := h.startedAt y hy
    rw [hended, List.mem_append, List.mem_cons] at ha
    rcases ha with ha | rfl | ha
    · exact List.mem_append_left _ (h.startedAt a (hl ▸ List.mem_append_left _ ha))
    · exact List.mem_append_left _ (hstarted ▸ hmem)
    · exact List.mem_append_left _ (h.startedAt a (hl ▸ List.mem_append_right _ (List.mem_cons_of_mem _ ha)))
  case completedAt =>
    intro id a ha
    rw [hcompleted, List.mem_append] at ha
    rcases ha with ha | ha
    · exact (h.later [now]).completedAt id a ha
    · split at ha
      · obtain rfl := List.mem_singleton.1 ha
        exact ⟨now, List.mem_append_right _ (List.mem_singleton.2 rfl), hx.completedAt⟩
      · cases ha

/-- **Every change is told** by its answer. -/
theorem Recounts.changed (h : s.Recounts history times) {op : Operation} (hop : op.Proper s)
    (htime : InTime (times ++ op.time?.toList)) {r : Reply} (hc : op.change s = .ok (r, t)) :
    t.Recounts (history ++ [r]) (times ++ op.time?.toList) := by
  have hpast : ∀ now, op.time? = some now → ∀ t ∈ times, t.le now = true := by
    intro now hnow t ht
    exact (List.pairwise_append.1 htime).2.2 t ht now (by simp [hnow])
  cases op with
  | save fate r =>
    cases hc
    simpa [Operation.time?] using h.saved r
  | begin fate fresh now id =>
    obtain ⟨out, hout, rfl⟩ := map_eq_ok hc
    obtain ⟨hknown, ⟨a, -, rfl, rfl⟩ | ⟨hnone, rfl, rfl⟩⟩ := begin_cases hout
    · exact (h.told rfl rfl rfl).later _
    · exact h.begins hknown hnone hop (hpast now rfl)
  | finish fate now x =>
    obtain ⟨out, hout, rfl⟩ := map_eq_ok hc
    obtain ⟨-, rfl, rfl, stored, hstored, hrun⟩ := finish_cases hout
    obtain ⟨y, hy, hx⟩ := hop
    -- the stored record under the identifier is the one that the record was made of
    have hfound := h.sound.analysis?_eq_some_iff.2 ⟨hy, hx.same.1.symm⟩
    obtain rfl : stored = y := Option.some.inj (hstored.symm.trans hfound)
    exact h.ends hy hrun hx (hpast now rfl)
  | reopen fate now => exact hop.elim

/-! ## Questions -/

/-- **The latest analysis is the one that was begun last.** -/
theorem Recounts.latest? (h : s.Recounts history times) (id : Ident) :
    (s.latest? id).map Analysis.origin = begunLast? history id := by
  unfold Store.latest? begunLast?
  rw [lastMax?_eq_getLast? (h.started.filter _), ← List.getLast?_map, ← h.begun, List.filter_map]
  rfl

/-- **The latest completed analysis is the one that was completed last.** -/
theorem Recounts.latestCompletedOf? (h : s.Recounts history times) (id : Ident) :
    lastMax? endsBefore (s.completedOf id) = completedLast? history id := by
  unfold completedLast?
  rw [lastMax?_eq_getLast? (h.ended id), h.completed]

theorem Recounts.mem_latest? (h : s.Recounts history times) {id : Ident} {a : Analysis} (ha : a ∈ s.latest? id) :
    a ∈ s.analyses := by
  have hlast : lastMax? (fun a b => a.startedAt.le b.startedAt) (s.analyses.filter (·.repository == id)) = some a := ha
  rw [lastMax?_eq_getLast? (h.started.filter _)] at hlast
  exact (List.mem_filter.1 (List.mem_of_getLast? hlast)).1

/-- **The latest completed analyses**, repository by repository in the order in which these were saved first. -/
theorem Recounts.latestCompleted (h : s.Recounts history times) (ids : Option (List Ident)) :
    (s.latestCompleted ids).map (fun p => (p.1.id, p.2)) =
      ((savedIn history).filter fun id => (ids.map (·.contains id)).getD true).filterMap fun id =>
        (completedLast? history id).map (id, ·) := by
  rw [latestCompleted_eq, List.map_filterMap, ← h.repositories, List.filter_map, List.filterMap_map]
  apply List.filterMap_congr
  intro r _
  rw [h.latestCompletedOf?, Option.map_map]
  rfl

theorem Recounts.mem_latestCompleted (h : s.Recounts history times) {ids : Option (List Ident)}
    {p : Repository × Analysis} (hp : p ∈ s.latestCompleted ids) : p.1 ∈ s.repositories ∧ p.2 ∈ s.analyses := by
  rw [latestCompleted_eq, List.mem_filterMap] at hp
  obtain ⟨r, hr, hlast⟩ := hp
  rw [lastMax?_eq_getLast? (h.ended r.id), Option.map_eq_some_iff] at hlast
  obtain ⟨a, ha, rfl⟩ := hlast
  exact ⟨(mem_selected.1 hr).1, (List.mem_filter.1 (List.mem_of_getLast? ha)).1⟩

end Store

namespace Archive

/-! ## Runs -/

variable {a : Archive} {history : List Reply} {times : List Instant}

/-- An operation is told if it is not refused; else nothing changes and nothing is told. -/
theorem recounts_perform (h : a.data.Recounts history times) {op : Operation} (hop : op.Proper a.data)
    (htime : InTime (times ++ op.time?.toList)) :
    (a.perform op).2.data.Recounts (history ++ (a.perform op).1.toOption.toList) (times ++ op.time?.toList) := by
  have hm : op.isMutation = true := by
    cases op with
    | reopen fate now => exact hop.elim
    | _ => rfl
  rw [perform_eq_mutate a hm]
  rcases mutate_cases a op.fate op.change with ⟨e, he⟩ | ⟨r, t, k, -, hc, -, -, hok⟩
  · rw [he]
    simpa [Except.toOption] using h.later op.time?.toList
  · rw [hok]
    exact h.changed hop htime hc

/-- **Along a run** the records keep telling what has happened. -/
theorem recounts_after (h : a.data.Recounts history times) {ops : List Operation}
    (hops : a.Along (fun b op => op.Proper b.data) ops) (htime : InTime (times ++ ops.filterMap Operation.time?)) :
    (a.after ops).data.Recounts (history ++ a.replies ops) (times ++ ops.filterMap Operation.time?) := by
  -- by induction on the operations, from any history that has led to the archive
  induction ops generalizing a history times with
  | nil => simpa [replies] using h
  | cons op ops ih =>
    have htimes : (op :: ops).filterMap Operation.time? = op.time?.toList ++ ops.filterMap Operation.time? := by
      cases hop : op.time? <;> simp [hop]
    rw [htimes, ← List.append_assoc] at htime ⊢
    have hstep := recounts_perform h hops.1 (List.pairwise_append.1 htime).1
    rw [after_cons, replies, ← List.append_assoc]
    exact ih hstep hops.2 htime

/-- **The latest analyses of a store are those that its history says.** Let a store be used
from new on by savings, beginnings and ends of analyses, whatever of it is refused or cannot be
written; let an analysis be ended with the record that it began with, completed or failed at
that moment; and let time not run backwards.

* The latest analysis of a repository is the one that was begun last for it.
* The latest completed analyses of some repositories are those of the repositories that are
  named, each once and in the order in which they were saved first; a repository is among
  them if an analysis of it has completed, and stands with the one that completed last.
* Of what names the repositories, neither order nor repetition matters, and not what is unknown. -/
theorem latest_of_run {start : Archive} (hnew : start.IsNew) {ops : List Operation}
    (hops : start.Along (fun b op => op.Proper b.data) ops) (htime : InTime (ops.filterMap Operation.time?)) :
    let s := (start.after ops).data
    let history := start.replies ops
    (∀ id, (s.latest? id).map Analysis.origin = begunLast? history id ∧ ∀ x ∈ s.latest? id, x ∈ s.analyses) ∧
    (savedIn history).Nodup ∧
    (∀ ids, (s.latestCompleted ids).map (fun p => (p.1.id, p.2)) =
        ((savedIn history).filter fun id => (ids.map (·.contains id)).getD true).filterMap fun id =>
          (completedLast? history id).map (id, ·)) ∧
    (∀ ids, ∀ p ∈ s.latestCompleted ids, p.1 ∈ s.repositories ∧ p.2 ∈ s.analyses) ∧
    ∀ ids ids', (∀ id ∈ savedIn history, id ∈ ids ↔ id ∈ ids') →
      s.latestCompleted (some ids) = s.latestCompleted (some ids') := by
  intro s history
  have h : s.Recounts history (ops.filterMap Operation.time?) := by
    have hstart : start.data.Recounts [] [] := by
      rw [hnew.1]
      exact Store.recounts_empty
    simpa using recounts_after hstart hops htime
  refine ⟨fun id => ⟨h.latest? id, fun x hx => h.mem_latest? hx⟩, ?_, h.latestCompleted,
    fun ids p hp => h.mem_latestCompleted hp, ?_⟩
  · rw [← h.repositories]
    exact h.sound.repositories
  · intro ids ids' hids
    rw [Store.latestCompleted_eq, Store.latestCompleted_eq, Store.selected_congr]
    intro r hr
    apply hids
    rw [← h.repositories]
    exact List.mem_map_of_mem hr

/-- Two repositories; one is analysed three times, at first twice at one moment, and at last in vain. -/
def thrice : List Operation :=
  [.save .done (.register ⟨1⟩ default "a/b"), .save .done (.register ⟨2⟩ default "a/c"),
    .begin .done ⟨11⟩ default ⟨1⟩, .begin .done ⟨21⟩ default ⟨2⟩,
    .finish .done default ((Analysis.begun ⟨11⟩ ⟨1⟩ default).completed default {}),
    .begin .done ⟨12⟩ default ⟨1⟩,
    .finish .done default ((Analysis.begun ⟨12⟩ ⟨1⟩ default).completed default {}),
    .begin .done ⟨13⟩ default ⟨1⟩, .save .done (.register ⟨1⟩ default "a/b"),
    .finish .done ⟨1, 0⟩ ((Analysis.begun ⟨13⟩ ⟨1⟩ default).failed ⟨1, 0⟩ "none")]

/-- The third analysis is the latest, and the second the latest that has completed. -/
theorem latest_of_run_thrice :
    (⟨{}, .memory⟩ : Archive).IsNew ∧
      (⟨{}, .memory⟩ : Archive).Along (fun b op => op.Proper b.data) thrice ∧
      InTime (thrice.filterMap Operation.time?) ∧
      let s := ((⟨{}, .memory⟩ : Archive).after thrice).data
      (s.latest? ⟨1⟩).map (·.id) = some ⟨13⟩ ∧
        (s.latestCompleted (some [⟨9⟩, ⟨2⟩, ⟨1⟩, ⟨1⟩])).map (fun p => (p.1.id, p.2.id)) = [(⟨1⟩, ⟨12⟩)] := by
  have hnew : (⟨{}, .memory⟩ : Archive).IsNew := ⟨rfl, Or.inl rfl⟩
  have hops : (⟨{}, .memory⟩ : Archive).Along (fun b op => op.Proper b.data) thrice := by
    -- each beginning draws an identifier that is new, and each end finds the record of its beginning
    refine ⟨trivial, trivial, ?first, ?other, ?firstEnds, ?second, ?secondEnds, ?third, trivial, ?thirdEnds, trivial⟩
    case first => exact fun x hx => absurd hx List.not_mem_nil
    case other =>
      show ∀ x ∈ [Analysis.begun ⟨11⟩ ⟨1⟩ default], x.id ≠ ⟨21⟩
      decide
    case firstEnds => exact ⟨.begun ⟨11⟩ ⟨1⟩ default, .head _, Or.inl ⟨{}, rfl⟩⟩
    case second =>
      show ∀ x ∈ [(Analysis.begun ⟨11⟩ ⟨1⟩ default).completed default {}, .begun ⟨21⟩ ⟨2⟩ default], x.id ≠ ⟨12⟩
      decide
    case secondEnds => exact ⟨.begun ⟨12⟩ ⟨1⟩ default, .tail _ (.tail _ (.head _)), Or.inl ⟨{}, rfl⟩⟩
    case third =>
      show ∀ x ∈ [(Analysis.begun ⟨11⟩ ⟨1⟩ default).completed default {}, .begun ⟨21⟩ ⟨2⟩ default,
        (Analysis.begun ⟨12⟩ ⟨1⟩ default).completed default {}], x.id ≠ ⟨13⟩
      decide
    case thirdEnds => exact ⟨.begun ⟨13⟩ ⟨1⟩ default, .tail _ (.tail _ (.tail _ (.head _))), Or.inr ⟨"none", rfl⟩⟩
  have htime : InTime (thrice.filterMap Operation.time?) := by
    unfold InTime
    decide
  refine ⟨hnew, hops, htime, ?_⟩
  intro s
  obtain ⟨hlatest, -, hcompleted, -⟩ := latest_of_run hnew hops htime
  constructor
  · have hid := congrArg (Option.map Analysis.id) (hlatest ⟨1⟩).1
    rw [Option.map_map] at hid
    exact hid
  · have hids := congrArg (List.map fun p : Ident × Analysis => (p.1, p.2.id))
      (hcompleted (some [⟨9⟩, ⟨2⟩, ⟨1⟩, ⟨1⟩]))
    rw [List.map_map] at hids
    exact hids

end Archive

end CodeAtlas
