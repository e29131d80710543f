import CodeAtlas.Proofs.Service.Demands
import CodeAtlas.Proofs.Service.Names
import CodeAtlas.Proofs.Store.History
import CodeAtlas.Service.Basic

/-!
# The registry

Requests to register repositories come one after the other, and between them analyses begin and
end. Two things are known of the records then, however the requests and the analyses alternate.

* `Registry`: names are distinct, and every repository has the time of the analysis of it that
  completed last; every call keeps it.
* `Registers`: what becomes of one request.
* `registry_of_run`: **both hold from an empty store on.**
-/

namespace CodeAtlas

/-! ## Calls -/

/-- What is asked of the store: that a repository be registered, or that an analysis begin or end. -/
inductive Call where
  | register (q : Registration) (fate : Fate) (fresh : Ident) (now : Instant)
  | begin (fate : Fate) (fresh : Ident) (now : Instant) (repository : Ident)
  | finish (fate : Fate) (now : Instant) (analysis : Analysis)

namespace Call

/-- The store after a call. -/
def serve (c : Call) (a : Archive) : Archive :=
  match c with
  | register q fate fresh now => (Service.register a fate fresh now q).2
  | begin fate fresh now id => (a.begin fate fresh now id).2
  | finish fate now x => (a.finish fate now x).2

/-- The analysis that a call completes. -/
def completed? (c : Call) (a : Archive) : Option Analysis :=
  match c with
  | finish fate now x => (a.finish fate now x).1.toOption.filter (·.status = .completed)
  | _ => none

/-- **How the store is used**: an identifier that is drawn is new, and an analysis in progress is ended
with its own record, completed or failed at some moment. -/
def Proper (s : Store) : Call → Prop
  | register _ _ fresh _ => ∀ r ∈ s.repositories, r.id ≠ fresh
  | begin _ fresh _ _ => ∀ x ∈ s.analyses, x.id ≠ fresh
  | finish _ _ x => ∀ y ∈ s.analyses, y.id = x.id → y.isTerminal = false → ∃ now, y.EndsAs now x

/-- The store after some calls. -/
def after (a : Archive) (calls : List Call) : Archive := calls.foldl (fun b c => c.serve b) a

/-- The analyses that some calls complete, in the order in which they do. -/
def completions (a : Archive) : List Call → List Analysis
  | [] => []
  | c :: calls => (c.completed? a).toList ++ completions (c.serve a) calls

/-- Whether the store is used so by each of some calls. -/
def AllProper (a : Archive) : List Call → Prop
  | [] => True
  | c :: calls => c.Proper a.data ∧ AllProper (c.serve a) calls

end Call

/-- The analysis of a repository that completed last. -/
def lastOf? (done : List Analysis) (repository : Ident) : Option Analysis :=
  (done.filter (·.repository == repository)).getLast?

/-! ## What every call keeps -/

/-- **What the records say about the names that were registered and the analyses that have completed**. -/
structure Registry (s : Store) (done : List Analysis) : Prop where
  sound : s.Sound
  names : s.DistinctNames
  /-- Every analysis is one of a repository that is stored. -/
  known : ∀ x ∈ s.analyses, ∃ r ∈ s.repositories, r.id = x.repository
  /-- The analyses that have completed are those that are stored as such. -/
  mem_done : ∀ x, x ∈ done ↔ x ∈ s.analyses ∧ x.status = .completed
  nodup : done.Nodup
  /-- A repository has the time of the analysis of it that completed last. -/
  stamped : ∀ r ∈ s.repositories, r.lastAnalyzedAt = (lastOf? done r.id).bind (·.completedAt)

variable {s t : Store} {done : List Analysis} {x y : Analysis} {r : Repository}

theorem mem_lastOf? {id : Ident} (h : lastOf? done id = some x) : x ∈ done ∧ x.repository = id := by
  have hmem := List.mem_filter.1 (List.mem_of_getLast? h)
  exact ⟨hmem.1, by simpa using hmem.2⟩

theorem lastOf?_concat (done : List Analysis) (x : Analysis) (id : Ident) :
    lastOf? (done ++ [x]) id = if x.repository = id then some x else lastOf? done id := by
  unfold lastOf?
  rw [List.filter_append]
  by_cases h : x.repository = id
  · rw [if_pos h, List.filter_cons_of_pos (by simpa using h)]
    simp
  · rw [if_neg h, List.filter_cons_of_neg (by simpa using h)]
    simp

namespace Registry

theorem empty : Registry {} [] where
  sound := Store.sound_empty
  names := List.nodup_nil
  known := by simp
  mem_done := by simp
  nodup := List.nodup_nil
  stamped := by simp

/-- No analysis of a repository that is not stored has completed. -/
theorem lastOf?_eq_none (h : Registry s done) {id : Ident} (hnew : ∀ r ∈ s.repositories, r.id ≠ id) :
    lastOf? done id = none := by
  cases hlast : lastOf? done id with
  | none => rfl
  | some x =>
    obtain ⟨hx, hrepository⟩ := mem_lastOf? hlast
    obtain ⟨r, hr, hid⟩ := h.known x ((h.mem_done x).1 hx).1
    exact absurd (hid.trans hrepository) (hnew r hr)

/-- **A repository that is saved** has been stored under its name, or is new. -/
theorem saved (h : Registry s done)
    (hold : ∀ x ∈ s.repositories, x.id = r.id → x.fullName = r.fullName ∧ x.lastAnalyzedAt = r.lastAnalyzedAt)
    (hnew : (∀ x ∈ s.repositories, x.id ≠ r.id) → s.named? r.fullName = none ∧ r.lastAnalyzedAt = none) :
    Registry (s.saveRepository r) done where
  sound := Store.saveRepository_sound h.sound r
  names := Store.saveRepository_distinctNames h.names (fun x hx hid => (hold x hx hid).1) fun hids => (hnew hids).1
  known := by
    intro x hx
    rw [Store.saveRepository_analyses] at hx
    obtain ⟨r', hr', hid⟩ := h.known x hx
    by_cases hsame : r'.id = r.id
    · exact ⟨r, (Store.mem_saveRepository h.sound.repositories).2 (Or.inr rfl), hsame ▸ hid⟩
    · exact ⟨r', (Store.mem_saveRepository h.sound.repositories).2 (Or.inl ⟨hr', hsame⟩), hid⟩
  mem_done := by
    rw [Store.saveRepository_analyses]
    exact h.mem_done
  nodup := h.nodup
  stamped := by
    intro y hy
    rcases (Store.mem_saveRepository h.sound.repositories).1 hy with ⟨hy, -⟩ | rfl
    · exact h.stamped y hy
    · -- a record under a new identifier has no analyses yet
      by_cases hknown : ∃ x ∈ s.repositories, x.id = y.id
      · obtain ⟨x, hx, hid⟩ := hknown
        rw [← (hold x hx hid).2, h.stamped x hx, hid]
      · have hids : ∀ x ∈ s.repositories, x.id ≠ y.id := fun x hx hid => hknown ⟨x, hx, hid⟩
        rw [(hnew hids).2, h.lastOf?_eq_none hids]
        rfl

/-- **An analysis that begins** is one of a stored repository, and has not completed. -/
theorem begins (h : Registry s done) {fresh id : Ident} {now : Instant}
    (hknown : s.repositories.any (·.id == id) = true) (hnone : s.running? id = none)
    (hfresh : ∀ x ∈ s.analyses, x.id ≠ fresh) : Registry (s.started fresh id now) done where
  sound := Store.begin_sound h.sound hfresh (Store.begin_eq_started hknown hnone fresh now)
  names := h.names
  known := by
    intro x hx
    rw [Store.started_analyses, List.mem_append, List.mem_singleton] at hx
    rcases hx with hx | rfl
    · exact h.known x hx
    · obtain ⟨r, hr, hid⟩ := List.any_eq_true.1 hknown
      exact ⟨r, hr, eq_of_beq hid⟩
  mem_done := by
    intro x
    rw [h.mem_done, Store.started_analyses, List.mem_append, List.mem_singleton, or_and_right]
    refine (or_iff_left ?_).symm
    rintro ⟨rfl, hstatus⟩
    cases hstatus
  nodup := h.nodup
  stamped := h.stamped

variable {now time : Instant}

/-- The analyses after one of them has ended. -/
theorem mem_ended (h : Registry s done) (hy : y ∈ s.analyses) (hx : y.EndsAs time x) {z : Analysis} :
    z ∈ (s.ended now x).analyses ↔ (z ∈ s.analyses ∧ z.id ≠ x.id) ∨ z = x := by
  rw [Store.ended_analyses, mem_updateFirst_iff h.sound.analyses]
  refine or_congr_right ⟨fun ⟨_, _, _, hz⟩ => hz, fun hz => ⟨y, hy, hx.same.1.symm, hz⟩⟩

/-- What has completed is not in progress. -/
theorem ne_of_mem_done (h : Registry s done) (hy : y ∈ s.analyses) (hrun : y.isTerminal = false) {z : Analysis}
    (hz : z ∈ done) : z.id ≠ y.id := by
  intro hid
  obtain ⟨hmem, hstatus⟩ := (h.mem_done z).1 hz
  obtain rfl := List.inj_on_of_nodup_map h.sound.analyses hmem hy hid
  simp [Analysis.isTerminal, hstatus] at hrun

/-- The repositories of the analyses stay stored. -/
theorem known_ended (h : Registry s done) (hy : y ∈ s.analyses) (hx : y.EndsAs time x) :
    ∀ z ∈ (s.ended now x).analyses, ∃ r ∈ (s.ended now x).repositories, r.id = z.repository := by
  intro z hz
  rw [← List.mem_map, Store.ended_repository_ids, List.mem_map]
  rcases (h.mem_ended hy hx).1 hz with ⟨hz, -⟩ | rfl
  · exact h.known z hz
  · rw [hx.same.2.1]
    exact h.known y hy

/-- The completed analyses after one has ended. -/
theorem mem_done_ended (h : Registry s done) (hy : y ∈ s.analyses) (hrun : y.isTerminal = false)
    (hx : y.EndsAs time x) (z : Analysis) :
    z ∈ (s.ended now x).analyses ∧ z.status = .completed ↔ z ∈ done ∨ z = x ∧ x.status = .completed := by
  rw [h.mem_ended hy hx]
  constructor
  · rintro ⟨⟨hmem, -⟩ | rfl, hstatus⟩
    · exact Or.inl ((h.mem_done z).2 ⟨hmem, hstatus⟩)
    · exact Or.inr ⟨rfl, hstatus⟩
  · rintro (hz | ⟨rfl, hstatus⟩)
    · obtain ⟨hmem, hstatus⟩ := (h.mem_done z).1 hz
      exact ⟨Or.inl ⟨hmem, hx.same.1 ▸ h.ne_of_mem_done hy hrun hz⟩, hstatus⟩
    · exact ⟨Or.inr rfl, hstatus⟩

/-- **An analysis that fails** leaves no time. -/
theorem fails (h : Registry s done) (hy : y ∈ s.analyses) (hrun : y.isTerminal = false) (hx : y.EndsAs time x)
    (hstatus : x.status ≠ .completed) : Registry (s.ended now x) done where
  sound := Store.ended_sound h.sound now hx.isTerminal
  names := Store.ended_distinctNames h.names now x
  known := h.known_ended hy hx
  mem_done z := by
    rw [h.mem_done_ended hy hrun hx]
    simp [hstatus]
  nodup := h.nodup
  stamped := by
    rw [Store.ended_repositories, if_neg hstatus]
    exact h.stamped

/-- **An analysis that completes** leaves its time with its repository. -/
theorem completes (h : Registry s done) (hy : y ∈ s.analyses) (hrun : y.isTerminal = false) (hx : y.EndsAs time x)
    (hstatus : x.status = .completed) : Registry (s.ended now x) (done ++ [x]) where
  sound := Store.ended_sound h.sound now hx.isTerminal
  names := Store.ended_distinctNames h.names now x
  known := h.known_ended hy hx
  mem_done z := by
    rw [h.mem_done_ended hy hrun hx]
    simp [hstatus]
  nodup := by
    refine List.nodup_append.2 ⟨h.nodup, List.nodup_singleton x, ?_⟩
    intro z hz z' hz' heq
    obtain rfl := List.mem_singleton.1 hz'
    exact h.ne_of_mem_done hy hrun hz (heq ▸ hx.same.1)
  stamped := by
    intro r hr
    rw [Store.ended_repositories, if_pos hstatus, mem_updateFirst_iff h.sound.repositories, hx.completedAt] at hr
    rw [lastOf?_concat]
    rcases hr with ⟨hr, hid⟩ | ⟨r, hr, hid, rfl⟩
    · rw [if_neg hid.symm]
      exact h.stamped r hr
    · rw [if_pos hid.symm]
      exact hx.completedAt.symm

end Registry

/-! ## Registrations -/

namespace Registration

-- whether a name is accepted is a case of its own, never computed
attribute [local irreducible] acceptedName?

variable {q : Registration} {a : Archive} {fate : Fate} {fresh : Ident} {now : Instant} {name : String}

theorem Names.eq {name' : String} (h : q.Names name) (h' : q.Names name') : name = name' :=
  Option.some.inj ((acceptedName?_eq_some_iff.2 h).symm.trans (acceptedName?_eq_some_iff.2 h'))

/-- **A record that is made of another one**: what nothing is said of stays, and so does what a registration has no
say in; the counts are replaced. -/
structure Updates (q : Registration) (x r : Repository) : Prop where
  id : r.id = x.id
  fullName : r.fullName = x.fullName
  owner : r.owner = x.owner
  createdAt : r.createdAt = x.createdAt
  lastAnalyzedAt : r.lastAnalyzedAt = x.lastAnalyzedAt
  description : r.description = q.description.or x.description
  primaryLanguage : r.primaryLanguage = q.primaryLanguage.or x.primaryLanguage
  stars : r.stars = q.stars
  forks : r.forks = q.forks

theorem updates_update (q : Registration) (x : Repository) : q.Updates x (q.update x) :=
  ⟨rfl, rfl, rfl, rfl, rfl, rfl, rfl, rfl, rfl⟩

/-- **Everything that a registration does.** -/
theorem register_cases (q : Registration) (a : Archive) (fate : Fate) (fresh : Ident) (now : Instant) :
    ((∀ name, ¬q.Names name) ∧ Service.register a fate fresh now q = (.badRequest Service.malformedName, a)) ∨
      ∃ name, q.Names name ∧
        ((¬a.Writes fate ∧ ∃ m, Service.register a fate fresh now q = (.internalError m, a)) ∨
          a.Writes fate ∧ ∃ isNew r k, q.draft a.data fresh now name = (isNew, r) ∧
            Service.register a fate fresh now q =
              (if isNew then .created r.encode else .found r.encode, ⟨a.data.saveRepository r, k⟩)) := by
  unfold Service.register register
  cases hname : q.acceptedName? with
  | none => exact Or.inl ⟨acceptedName?_eq_none_iff.1 hname, rfl⟩
  | some name =>
    refine Or.inr ⟨name, acceptedName?_eq_some_iff.1 hname, ?_⟩
    obtain ⟨isNew, r, hdraft⟩ : ∃ isNew r, q.draft a.data fresh now name = (isNew, r) := ⟨_, _, rfl⟩
    by_cases hw : a.Writes fate
    · obtain ⟨k, -, hsave⟩ := Archive.mutate_of_writes hw (fun s => .ok (r, s.saveRepository r)) rfl
      refine Or.inr ⟨hw, isNew, r, k, hdraft, ?_⟩
      simp only [hdraft, Archive.saveRepository, hsave]
    · obtain ⟨e, hsave⟩ := Archive.mutate_of_not_writes hw fun s => .ok (r, s.saveRepository r)
      refine Or.inl ⟨hw, e.message, ?_⟩
      simp only [hdraft, Archive.saveRepository, hsave]

/-- The record of a name that no repository has. -/
theorem draft_of_new {s : Store} (h : s.named? name = none) (q : Registration) (fresh : Ident) (now : Instant) :
    q.draft s fresh now name = (true, q.update (.register fresh now name)) := by
  simp only [draft, h]

/-- The record of a name that a repository has. -/
theorem draft_of_known {s : Store} {x : Repository} (h : s.named? name = some x) (q : Registration) (fresh : Ident)
    (now : Instant) : q.draft s fresh now name = (false, q.update x) := by
  simp only [draft, h]

/-- **What becomes of a request**: its answer and the store after it.

* It is accepted if it names a repository, and else refused. A request that is not refused but cannot be
  written is an internal error; in both cases the store stays as it is.
* If no repository has the name, whatever the case of its letters, the answer is that one was created, and
  a record comes last of which nothing but the name and what is said of it is known.
* If one has the name, its record is updated at its place. -/
structure Registers (q : Registration) (fate : Fate) (fresh : Ident) (now : Instant) (a b : Archive)
    (answer : Answer) : Prop where
  accepted : answer.status ≠ 400 ↔ ∃ name, q.Names name
  refused : (∀ name, ¬q.Names name) → answer = .badRequest Service.malformedName ∧ b = a
  unwritten : ∀ name, q.Names name → ¬a.Writes fate → answer.status = 500 ∧ b = a
  created : ∀ name, q.Names name → a.Writes fate →
    (∀ x ∈ a.data.repositories, Text.equalIgnoringAsciiCase x.fullName name = false) →
      ∃ r, q.Updates (.register fresh now name) r ∧ answer = .created r.encode ∧
        b.data.repositories = a.data.repositories ++ [r]
  updated : ∀ name, q.Names name → a.Writes fate →
    ∀ x ∈ a.data.repositories, Text.equalIgnoringAsciiCase x.fullName name = true →
      ∃ r, q.Updates x r ∧ answer = .found r.encode ∧
        ∃ before after, a.data.repositories = before ++ x :: after ∧ b.data.repositories = before ++ r :: after
  analyses : b.data.analyses = a.data.analyses

/-- **What becomes of a request** where names and identifiers are distinct and the drawn one is new. -/
theorem registers (hids : a.data.DistinctIds) (hnames : a.data.DistinctNames)
    (hfresh : ∀ r ∈ a.data.repositories, r.id ≠ fresh) (q : Registration) (fate : Fate) (now : Instant) :
    q.Registers fate fresh now a (Service.register a fate fresh now q).2 (Service.register a fate fresh now q).1 := by
  rcases register_cases q a fate fresh now with
    ⟨hnone, hout⟩ | ⟨name, hname, ⟨hw, m, hout⟩ | ⟨hw, isNew, r, k, hdraft, hout⟩⟩
  · -- no name: nothing else applies
    rw [hout]
    refine ⟨iff_of_false (by simp [Answer.badRequest]) ?unnamed, fun _ => ⟨rfl, rfl⟩, ?_, ?_, ?_, rfl⟩
    case unnamed =>
      rintro ⟨name, hname⟩
      exact hnone name hname
    all_goals exact fun name hname => absurd hname (hnone name)
  · -- a name, but the write fails
    rw [hout]
    refine ⟨iff_of_true (by simp [Answer.internalError]) ⟨name, hname⟩, fun hnone => absurd hname (hnone name),
      fun _ _ _ => ⟨rfl, rfl⟩, ?_, ?_, rfl⟩
    all_goals exact fun _ _ hw' => absurd hw' hw
  · rw [hout]
    refine ⟨iff_of_true ?ok ⟨name, hname⟩, fun hnone => absurd hname (hnone name), fun _ _ hw' => absurd hw hw',
      ?created, ?updated, Store.saveRepository_analyses _ _⟩
    case ok => cases isNew <;> simp [Answer.created, Answer.found]
    case created =>
      intro name' hname' _ hnew
      obtain rfl := hname.eq hname'
      rw [draft_of_new (Store.named?_eq_none_of hnew)] at hdraft
      obtain ⟨rfl, rfl⟩ := Prod.mk.inj hdraft
      refine ⟨_, q.updates_update _, rfl, ?_⟩
      -- the drawn identifier is new, so the record is added at the end
      rcases a.data.saveRepository_cases (q.update (.register fresh now name)) with ⟨⟨x, hx, hid⟩, -⟩ | ⟨-, hs⟩
      · exact absurd hid (hfresh x hx)
      · exact hs
    case updated =>
      intro name' hname' _ x hx hxname
      obtain rfl := hname.eq hname'
      rw [draft_of_known (hnames.named?_eq_some hx hxname)] at hdraft
      obtain ⟨rfl, rfl⟩ := Prod.mk.inj hdraft
      refine ⟨_, q.updates_update _, rfl, ?_⟩
      -- identifiers are distinct, so the record that is replaced is the one of this name
      rcases a.data.saveRepository_cases (q.update x) with ⟨-, hs⟩ | ⟨hnew, -⟩
      · have hfind : a.data.repositories.find? (·.id == (q.update x).id) = some x :=
          hids.find?_id hx
        obtain ⟨before, after, hl, hupdate⟩ := updateFirst_of_find? hfind fun _ => q.update x
        exact ⟨before, after, hl, hs.trans hupdate⟩
      · exact absurd rfl (hnew x hx)

end Registration

/-! ## Runs -/

namespace Call

attribute [local irreducible] Registration.acceptedName?

variable {a : Archive} {done : List Analysis}

/-- A registration completes no analysis, and saves a record that is stored under its name or new. -/
theorem registry_register (h : Registry a.data done) {fresh : Ident} (hfresh : ∀ r ∈ a.data.repositories, r.id ≠ fresh)
    (q : Registration) (fate : Fate) (now : Instant) : Registry (Service.register a fate fresh now q).2.data done := by
  rcases Registration.register_cases q a fate fresh now with
    ⟨-, hout⟩ | ⟨name, -, ⟨-, m, hout⟩ | ⟨-, isNew, r, k, hdraft, hout⟩⟩
  · rw [hout]
    exact h
  · rw [hout]
    exact h
  · rw [hout]
    cases hnamed : a.data.named? name with
    | none =>
      rw [Registration.draft_of_new hnamed] at hdraft
      obtain ⟨-, rfl⟩ := Prod.mk.inj hdraft
      exact h.saved (fun x hx hid => absurd hid (hfresh x hx)) fun _ => ⟨hnamed, rfl⟩
    | some x =>
      rw [Registration.draft_of_known hnamed] at hdraft
      obtain ⟨-, rfl⟩ := Prod.mk.inj hdraft
      have hx := (Store.named?_eq_some hnamed).1
      refine h.saved (fun y hy hid => ?_) fun hnew => absurd rfl (hnew x hx)
      obtain rfl := Store.DistinctIds.eq h.sound.repositories hy hx hid
      exact ⟨rfl, rfl⟩

/-- **Every call keeps the registry.** -/
theorem registry_serve (h : Registry a.data done) {c : Call} (hc : c.Proper a.data) :
    Registry (c.serve a).data (done ++ (c.completed? a).toList) := by
  cases c with
  | register q fate fresh now =>
    simpa [serve, completed?] using registry_register h hc q fate now
  | begin fate fresh now id =>
    simp only [serve, completed?, Option.toList_none, List.append_nil, Archive.begin]
    rcases Archive.mutate_cases a fate fun s => s.begin fresh now id with ⟨e, he⟩ | ⟨out, t, k, -, hout, -, -, ho⟩
    · rw [he]
      exact h
    · rw [ho]
      obtain ⟨hknown, ⟨x, -, -, rfl⟩ | ⟨hnone, -, rfl⟩⟩ := Store.begin_cases hout
      · exact h
      · exact h.begins hknown hnone hc
  | finish fate now x =>
    simp only [serve, completed?, Archive.finish]
    rcases Archive.mutate_cases a fate fun s => s.finish now x with ⟨e, he⟩ | ⟨out, t, k, -, hout, -, -, ho⟩
    · rw [he]
      simpa [Except.toOption] using h
    · rw [ho]
      obtain ⟨-, rfl, rfl, y, hy, hrun⟩ := Store.finish_cases hout
      obtain ⟨hy, hid⟩ := h.sound.analysis?_eq_some_iff.1 hy
      obtain ⟨time, hx⟩ := hc y hy hid hrun
      by_cases hstatus : out.status = .completed
      · simpa [Except.toOption, Option.filter, hstatus] using h.completes hy hrun hx hstatus
      · simpa [Except.toOption, Option.filter, hstatus] using h.fails hy hrun hx hstatus

/-- **Along a run** the registry is kept. -/
theorem registry_after (h : Registry a.data done) {calls : List Call} (hcalls : AllProper a calls) :
    Registry (after a calls).data (done ++ completions a calls) := by
  -- by induction on the calls, from any archive that others have led to
  induction calls generalizing a done with
  | nil => simpa [after, completions] using h
  | cons c calls ih =>
    have hstep := registry_serve h hcalls.1
    rw [completions, ← List.append_assoc]
    exact ih hstep hcalls.2

end Call

/-- **Registrations and analyses keep the registry in order.** Let a store be used from new on by requests to
register repositories, one after the other, and by beginnings and ends of analyses between them, whatever of
it is refused or cannot be written; let an identifier that is drawn be new, and an analysis in progress be ended
with its own record.

* No two repositories have one name, whatever the case of the letters `A` to `Z`.
* The analyses that have completed in the run are those that are stored as completed, each once; and every
  repository has the time of the one of it that completed last, or none.
* The next request is answered, and changes the store, as it should (`Registration.Registers`). -/
theorem registry_of_run {start : Archive} (hnew : start.IsNew) {calls : List Call}
    (hcalls : Call.AllProper start calls) :
    let a := Call.after start calls
    let done := Call.completions start calls
    (a.data.repositories.Pairwise fun x y => Text.equalIgnoringAsciiCase x.fullName y.fullName = false) ∧
      (done.Nodup ∧ ∀ x, x ∈ done ↔ x ∈ a.data.analyses ∧ x.status = .completed) ∧
      (∀ r ∈ a.data.repositories, r.lastAnalyzedAt = (lastOf? done r.id).bind (·.completedAt)) ∧
      ∀ q fate fresh now, (∀ r ∈ a.data.repositories, r.id ≠ fresh) →
        Registration.Registers q fate fresh now a (Service.register a fate fresh now q).2
          (Service.register a fate fresh now q).1 := by
  intro a done
  have h : Registry a.data done := by
    have hstart : Registry start.data [] := by
      rw [hnew.1]
      exact Registry.empty
    simpa using Call.registry_after hstart hcalls
  refine ⟨?_, ⟨h.nodup, h.mem_done⟩, h.stamped, fun q fate fresh now hfresh => ?_⟩
  · refine (List.pairwise_map.1 h.names).imp fun {x y} hne => ?_
    rw [← Bool.not_eq_true, Text.equalIgnoringAsciiCase_iff]
    exact hne
  · exact Registration.registers h.sound.repositories h.names hfresh q fate now

/-- A repository is registered under a name that has to be tidied, analysed, and registered again in other letters
with another number of stars; and something else is no name. -/
def twiceRegistered : List Call :=
  [.register { fullName := " Acme/Web.git.git\n", description := some "shop", stars := 3 } .done ⟨1⟩ default,
    .begin .done ⟨11⟩ default ⟨1⟩,
    .finish .done default ((Analysis.begun ⟨11⟩ ⟨1⟩ default).completed ⟨5, 0⟩ {}),
    .register { fullName := "acme/web", stars := 7 } .done ⟨2⟩ default,
    .register { fullName := "acme/web/pages" } .done ⟨2⟩ default]

/-- There is one repository then, and a third request finds it. -/
theorem registry_of_run_twice :
    (⟨{}, .memory⟩ : Archive).IsNew ∧ Call.AllProper ⟨{}, .memory⟩ twiceRegistered ∧
      let a := Call.after ⟨{}, .memory⟩ twiceRegistered
      a.data.repositories.map (fun r => (r.id, r.fullName, r.description, r.stars)) =
          [(⟨1⟩, "Acme/Web", some "shop", 7)] ∧
        (∀ r ∈ a.data.repositories, r.lastAnalyzedAt = some ⟨5, 0⟩) ∧
        (Service.register a .done ⟨2⟩ default { fullName := "ACME/web" }).1.status = 200 := by
  have hnew : (⟨{}, .memory⟩ : Archive).IsNew := ⟨rfl, Or.inl rfl⟩
  have hcalls : Call.AllProper ⟨{}, .memory⟩ twiceRegistered := by
    refine ⟨?first, ?begins, ?ends, ?second, ?third, trivial⟩
    case first => exact fun r hr => absurd hr List.not_mem_nil
    case begins => exact fun x hx => absurd hx List.not_mem_nil
    case ends =>
      intro y hy _ _
      have hy : y ∈ [Analysis.begun ⟨11⟩ ⟨1⟩ default] := hy
      obtain rfl := List.mem_singleton.1 hy
      exact ⟨⟨5, 0⟩, Or.inl ⟨{}, rfl⟩⟩
    case second =>
      unfold Call.Proper
      decide +kernel
    case third =>
      unfold Call.Proper
      decide +kernel
  have hdone : Call.completions ⟨{}, .memory⟩ twiceRegistered =
      [(Analysis.begun ⟨11⟩ ⟨1⟩ default).completed ⟨5, 0⟩ {}] := rfl
  have hname : Registration.Names { fullName := "ACME/web" } "ACME/web" :=
    Registration.acceptedName?_eq_some_iff.1 (by decide +kernel)
  obtain ⟨-, -, hstamped, hregisters⟩ := registry_of_run hnew hcalls
  obtain ⟨a, ha⟩ : ∃ a, Call.after ⟨{}, .memory⟩ twiceRegistered = a := ⟨_, rfl⟩
  have hrecords : a.data.repositories.map (fun r => (r.id, r.fullName, r.description, r.stars)) =
      [(⟨1⟩, "Acme/Web", some "shop", 7)] := by
    rw [← ha]
    decide +kernel
  rw [ha, hdone] at hstamped
  rw [ha] at hregisters
  refine ⟨hnew, hcalls, ?_⟩
  rw [ha]
  obtain ⟨x, hx, hrecord⟩ := List.map_eq_singleton_iff.1 hrecords
  have hid : x.id = ⟨1⟩ := congrArg (·.1) hrecord
  have hfullName : x.fullName = "Acme/Web" := congrArg (·.2.1) hrecord
  rw [hx] at hstamped hregisters
  refine ⟨hrecords, ?_, ?_⟩
  · intro r hr
    rw [hx] at hr
    rw [hstamped r hr, List.mem_singleton.1 hr, hid]
    rfl
  · have hsame : Text.equalIgnoringAsciiCase x.fullName "ACME/web" = true := by
      rw [hfullName]
      decide +kernel
    have hfresh : ∀ r ∈ [x], r.id ≠ ⟨2⟩ := by
      intro r hr
      rw [List.mem_singleton.1 hr, hid]
      decide
    obtain ⟨r, -, hanswer, -⟩ :=
      (hregisters { fullName := "ACME/web" } .done ⟨2⟩ default hfresh).updated "ACME/web" hname (Or.inr rfl) x
        (hx ▸ List.mem_singleton_self x) hsame
    rw [hanswer]
    rfl

end CodeAtlas
