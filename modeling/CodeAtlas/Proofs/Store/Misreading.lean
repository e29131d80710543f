import CodeAtlas.Proofs.Json.Misreading
import CodeAtlas.Proofs.Store.Reading
import CodeAtlas.Proofs.Store.Repositories

/-!
# Stores whose files are misread

A file that is loaded again may be refused, or misread where it has numbers or moments that
are not read as they are written. Its repositories stand first in it, and nothing of them but
their times can be misread.

* `Store.untimed_of_decodeText`: **what the file of a store is read as.**
* `Archive.Attained`: the stores that operations lead to, whatever is misread on the way.
* `Attained.distinctIds`: **identifiers of repositories stay distinct.**
-/

namespace CodeAtlas

open Json

/-! ## Repositories in a file -/

/-- The numbers of a repository have 64 bits. -/
def Repository.Counts (r : Repository) : Prop := r.stars < Nat.pow 2 64 ∧ r.forks < Nat.pow 2 64

/-- A repository without its times. -/
def Repository.untimed (r : Repository) : Repository := { r with createdAt := default, lastAnalyzedAt := none }

/-- **Only the times of a repository can be misread.** -/
theorem Repository.Counts.gives {r : Repository} (hr : r.Counts) (d : ℕ) :
    Gives (d + 1) Repository.decode r.encode fun t => t.untimed = r.untimed := by
  have hcreated : Gives d Instant.decode r.createdAt.encode fun _ => True := ⟨trivial, fun _ _ => trivial⟩
  have hlast : Gives d (Decode.option Instant.decode) (.ofOption Instant.encode r.lastAnalyzedAt) fun _ => True := by
    refine ⟨?_, fun _ _ => trivial⟩
    cases r.lastAnalyzedAt <;> trivial
  have h : Gives (d + 1) Repository.decode r.encode _ := ((Form.Stands.start d Repository.mk
    |>.req (r.id.stands d)
    |>.req (Stands.str d r.fullName)
    |>.req (Stands.str d r.owner)
    |>.opt (Stands.option (fun s _ => Stands.str d s) (by simp [Doc.ofJson]))
    |>.opt (Stands.option (fun s _ => Stands.str d s) (by simp [Doc.ofJson]))
    |>.dflt (Stands.natOfBits d "u64" (by omega) hr.1)
    |>.dflt (Stands.natOfBits d "u64" (by omega) hr.2)).gives (by simp)
    |>.member hcreated none none (by simp)
    |>.member hlast (some none) none (by simp)).record "Repository"
  refine ⟨h.legible, fun t ht => ?_⟩
  obtain ⟨g, y, ⟨g', x, rfl, -, rfl⟩, -, rfl⟩ := h.decoded t ht
  rfl
namespace Store

variable {s t : Store}

/-- The numbers of all repositories have 64 bits. -/
def Counts (s : Store) : Prop := ∀ r ∈ s.repositories, r.Counts

/-- **Whatever the file of a store is read as**, its repositories are those of the store but
for their times: they stand first in the file, and what stands after them does not change
what has been read. -/
theorem untimed_of_decodeText (hc : s.Counts) (h : decodeText Store.decode (Archive.textOf s) = .ok t) :
    t.repositories.map Repository.untimed = s.repositories.map Repository.untimed := by
  have hgives := Gives.list fun r hr => (hc r hr).gives 124
  obtain ⟨more, flaw, trailing, htext⟩ :=
    ofText_pretty_obj hgives.legible "repositories" [("analyses", .arr (s.analyses.map Analysis.encode))]
  have htext : Doc.ofText (Archive.textOf s) = _ := htext
  unfold decodeText at h
  rw [htext] at h
  obtain ⟨t', hdecode, h⟩ := ok_of_bind h
  obtain ⟨_, -, h⟩ := ok_of_bind h
  obtain rfl : t' = t := Except.ok.inj h
  obtain ⟨rs, as, hrs, rfl⟩ := Form.decode_first (by decide) hdecode
  exact hgives.decoded rs hrs

/-- What is the same but for the times has the same identifiers and numbers. -/
theorem counts_distinctIds_of_untimed
    (h : t.repositories.map Repository.untimed = s.repositories.map Repository.untimed)
    (hc : s.Counts) (hd : s.DistinctIds) : t.Counts ∧ t.DistinctIds := by
  constructor
  · intro q hq
    have hmem : q.untimed ∈ s.repositories.map Repository.untimed := h ▸ List.mem_map_of_mem hq
    obtain ⟨r, hr, hrq⟩ := List.mem_map.1 hmem
    have hcounts : r.untimed.Counts := hc r hr
    rwa [hrq] at hcounts
  · have hids := congrArg (List.map (·.id)) h
    simp only [List.map_map] at hids
    unfold DistinctIds at *
    exact hids ▸ hd

theorem counts_distinctIds_of_decodeText (hc : s.Counts) (hd : s.DistinctIds)
    (h : decodeText Store.decode (Archive.textOf s) = .ok t) : t.Counts ∧ t.DistinctIds :=
  counts_distinctIds_of_untimed (untimed_of_decodeText hc h) hc hd

end Store

namespace Archive

variable {a : Archive}

/-! ## Runs -/

/-- What is kept of repositories however files are read: their numbers have 64 bits and their
identifiers are distinct, in the store and in what its file was written from. -/
structure Steady (a : Archive) : Prop where
  counts : a.data.Counts
  distinctIds : a.data.DistinctIds
  written : ∀ text, a.keeping = .file (some text) → ∃ s : Store, text = textOf s ∧ s.Counts ∧ s.DistinctIds

/-- The numbers of the repositories that an operation brings have 64 bits. -/
def Operation.Counts : Operation → Prop
  | .save _ r => r.Counts
  | _ => True

theorem InStep.steady (h : a.InStep) (hc : a.data.Counts) (hd : a.data.DistinctIds) : a.Steady := by
  refine ⟨hc, hd, fun text htext => ⟨a.data, ?_, hc, hd⟩⟩
  rw [h.eq_of_file htext] at htext
  cases htext
  rfl

/-- A change keeps identifiers distinct. -/
theorem Operation.change_keeps {s t : Store} {op : Operation} {r : Reply} (h : op.change s = .ok (r, t))
    (hop : op.Counts) (hc : s.Counts) (hd : s.DistinctIds) : t.Counts ∧ t.DistinctIds := by
  cases op with
  | save fate q =>
    cases h
    refine ⟨fun y hy => ?_, Store.saveRepository_distinctIds hd q⟩
    rcases (Store.mem_saveRepository hd).1 hy with ⟨hy, -⟩ | rfl
    · exact hc y hy
    · exact hop
  | begin fate fresh now id =>
    obtain ⟨out, hout, -⟩ := map_eq_ok h
    obtain ⟨-, ⟨x, -, -, rfl⟩ | ⟨-, -, rfl⟩⟩ := Store.begin_cases hout
    · exact ⟨hc, hd⟩
    · exact ⟨hc, hd⟩
  | finish fate now x =>
    obtain ⟨out, hout, -⟩ := map_eq_ok h
    obtain ⟨-, -, rfl, -⟩ := Store.finish_cases hout
    exact Store.counts_distinctIds_of_untimed (Store.map_ended _ (fun _ _ => rfl) now x) hc hd
  | reopen fate now =>
    cases h
    exact ⟨hc, hd⟩

/-- A file that is loaded again may be misread, and is left as it is unless analyses are ended. -/
theorem reopen_steady (h : a.Steady) (fate : Fate) (now : Instant) : (a.reopen fate now).2.Steady := by
  unfold reopen
  rcases hk : a.keeping with _ | _ | text
  · exact h
  · refine ⟨?_, ?_, ?_⟩ <;> simp [load, Store.Counts, Store.DistinctIds]
  obtain ⟨s, rfl, hc, hd⟩ := h.written text hk
  cases hread : Json.decodeText Store.decode (textOf s) with
  | error e =>
    simp only [load, hread]
    exact h
  | ok t =>
    -- the repositories that are read may differ from those that were written, but only in their times
    obtain ⟨hc', hd'⟩ := Store.counts_distinctIds_of_decodeText hc hd hread
    have hload := load_of_reads hread fate now
    dsimp only
    by_cases hall : t.analyses.all (·.isTerminal) = true
    · rw [hload, if_pos hall]
      refine ⟨hc', hd', fun text htext => ?_⟩
      cases htext
      exact ⟨s, rfl, hc, hd⟩
    · rw [hload, if_neg hall]
      cases fate with
      | done => exact InStep.steady (Or.inr (Or.inr rfl)) hc' hd'
      | draftRefused m => exact h
      | moveRefused m => exact h

theorem perform_steady (h : a.Steady) {op : Operation} (hop : op.Counts) : (a.perform op).2.Steady := by
  by_cases hm : op.isMutation = true
  · rw [perform_eq_mutate a hm]
    rcases mutate_cases a op.fate op.change with ⟨e, he⟩ | ⟨r, t, k, -, hchange, -, hin, hok⟩
    · rw [he]
      exact h
    · rw [hok]
      obtain ⟨hc, hd⟩ := op.change_keeps hchange hop h.counts h.distinctIds
      exact hin.steady hc hd
  · cases op with
    | reopen fate now => exact reopen_steady h fate now
    | _ => exact absurd rfl hm

/-- **The stores that operations lead to**, from a store that nothing has been put into. Any
operation may be refused, any file may be misread, and an analysis may end with any result. -/
def Attained (a : Archive) : Prop := ∃ start ops, IsNew start ∧ (∀ op ∈ ops, op.Counts) ∧ a = start.after ops

theorem after_steady (h : a.Steady) {ops : List Operation} (hops : ∀ op ∈ ops, op.Counts) : (a.after ops).Steady := by
  induction ops generalizing a with
  | nil => exact h
  | cons op ops ih =>
    rw [after_cons]
    exact ih (perform_steady h (hops op List.mem_cons_self)) fun o ho => hops o (List.mem_cons_of_mem _ ho)

/-- **Identifiers of repositories stay distinct.** -/
theorem Attained.distinctIds (h : a.Attained) : a.data.DistinctIds := by
  obtain ⟨start, ops, hnew, hops, rfl⟩ := h
  have hstart : start.Steady := by
    refine hnew.inStep.steady ?_ ?_
    · rw [hnew.1]
      simp [Store.Counts]
    · rw [hnew.1]
      simp [Store.DistinctIds]
  exact (after_steady hstart hops).distinctIds

end Archive

end CodeAtlas
