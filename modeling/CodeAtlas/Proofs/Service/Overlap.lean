import CodeAtlas.Proofs.Service.Serial

/-!
# Registrations that overlap

Between the two turns of a registration other demands may change what it has looked up.
Where none does, nothing is lost. Where one does, the registration saves what was there
before.

* `turn_effect`, `Effect.ok`: everything that a turn does, and what it keeps.
* `undisturbed_of_apart`: drafts are current if no demand comes between the two turns of
  a registration that changes what it has looked up.
* `after_sameAnalyses`: no end of an analysis is lost.
* `after_overtaken`, `after_doubled`: the time of an analysis is lost, or a repository is
  stored twice, where a draft is not current.
* `demands_serial`: **where drafts are current, demands leave the store that they leave
  one by one, no registration takes back the time of an analysis, and names stay
  distinct.**
-/

namespace CodeAtlas.Traffic

variable {ι : Type} [DecidableEq ι] {demands : ι → Demand} {s t : Traffic ι}

/-! ## What a turn does -/

/-- **Everything that a turn does.** -/
inductive Effect (demands : ι → Demand) (s : Traffic ι) (i : ι) : Traffic ι → Prop
  | idle (h : (s.progress i).isEnded = true) : Effect demands s i s
  | looksUp (isNew : Bool) (r : Repository) (h : s.progress i = .waiting)
      (hcur : (demands i).Current s.archive (.drafted isNew r)) :
      Effect demands s i (s.move i (.drafted isNew r) s.archive)
  | refused (p : Progress) (h : (s.progress i).isEnded = false) (hp : p.isEnded = true) :
      Effect demands s i (s.move i p s.archive)
  | saves (isNew : Bool) (r : Repository) (k : Keeping) (h : s.progress i = .drafted isNew r)
      (hk : k = .memory ↔ s.archive.keeping = .memory) :
      Effect demands s i (s.move i (.registered (.saved isNew r)) ⟨s.archive.data.saveRepository r, k⟩)
  | ends (fate : Fate) (now : Instant) (a : Analysis) (k : Keeping) (hd : demands i = .finish fate now a)
      (h : (s.progress i).isEnded = false) (hk : k = .memory ↔ s.archive.keeping = .memory) :
      Effect demands s i (s.move i (.finished (.ok a)) ⟨s.archive.data.ended now a, k⟩)

theorem turn_effect (s : Traffic ι) (i : ι) : Effect demands s i (s.turn demands i) := by
  by_cases hend : (s.progress i).isEnded = true
  · rw [turn_of_isEnded hend]
    exact Effect.idle hend
  have hend : (s.progress i).isEnded = false := by simpa using hend
  unfold turn
  cases hd : demands i with
  | finish fate now a =>
    rcases Demand.turn_finish fate now a hend s.archive with ⟨e, ht⟩ | ⟨k, hk, ht⟩
    · rw [ht]
      exact Effect.refused _ hend rfl
    · rw [ht]
      exact Effect.ends fate now a k hd hend hk
  | register q fate fresh now =>
    cases hp : s.progress i with
    | waiting =>
      rcases Demand.turn_waiting_register q fate fresh now s.archive with ht | ⟨isNew, r, ht⟩
      · rw [ht]
        exact Effect.refused _ hend rfl
      · rw [ht]
        exact Effect.looksUp isNew r hp (hd ▸ ht)
    | drafted isNew r =>
      rcases Demand.turn_drafted q fate fresh now s.archive isNew r with ⟨e, ht⟩ | ⟨k, hk, -, ht⟩
      · rw [ht]
        exact Effect.refused _ hend rfl
      · rw [ht]
        exact Effect.saves isNew r k hp hk
    | registered outcome =>
      rw [hp] at hend
      cases hend
    | finished answer =>
      rw [hp] at hend
      cases hend

/-! ## What a turn keeps -/

omit [DecidableEq ι] in
/-- A draft has the name of the stored record with its identifier. -/
theorem OK.fullName_eq (h : OK demands s) {i : ι} {isNew : Bool} {r : Repository}
    (hi : s.progress i = .drafted isNew r) {x : Repository} (hx : x ∈ s.archive.data.repositories)
    (hid : x.id = r.id) : x.fullName = r.fullName := by
  cases isNew with
  | false =>
    obtain ⟨y, hy, hyid, hyname⟩ := h.known i r hi
    rw [h.ids.eq hx hy (hid.trans hyid.symm), hyname]
  | true => exact absurd hid (h.unused i r.id (by rw [hi]; rfl) (h.drawn i r hi) x hx)

/-- **What holds of the other demands stays** if records keep their names and new ones
belong to the demand whose turn it was. -/
theorem OK.update {archive : Archive} (hfresh : Fresh demands archive) (h : OK demands s) {i : ι} {p : Progress}
    {b : Archive} (hids : b.data.DistinctIds)
    (hkept : ∀ x ∈ s.archive.data.repositories, ∃ y ∈ b.data.repositories, y.id = x.id ∧ y.fullName = x.fullName)
    (hnew : ∀ y ∈ b.data.repositories, (∃ x ∈ s.archive.data.repositories, x.id = y.id) ∨
      (demands i).fresh? = some y.id ∧ p.isEnded = true)
    (hi : (s.progress i).isEnded = false)
    (hknown : ∀ r, p = .drafted false r → ∃ x ∈ b.data.repositories, x.id = r.id ∧ x.fullName = r.fullName)
    (hdrawn : ∀ r, p = .drafted true r → (demands i).fresh? = some r.id) : OK demands (s.move i p b) := by
  refine ⟨hids, ?_, ?_, ?_⟩
  · intro k r hk
    rcases eq_or_ne k i with rfl | hki
    · rw [move_progress_self] at hk
      exact hknown r hk
    · rw [s.move_progress_of_ne hki] at hk
      obtain ⟨x, hx, hid, hname⟩ := h.known k r hk
      obtain ⟨y, hy, hyid, hyname⟩ := hkept x hx
      exact ⟨y, hy, hyid.trans hid, hyname.trans hname⟩
  · intro k r hk
    rcases eq_or_ne k i with rfl | hki
    · rw [move_progress_self] at hk
      exact hdrawn r hk
    · rw [s.move_progress_of_ne hki] at hk
      exact h.drawn k r hk
  · intro k id hk hid y hy hyid
    have hold : (s.progress k).isEnded = false := by
      rcases eq_or_ne k i with rfl | hki
      · exact hi
      · rwa [s.move_progress_of_ne hki] at hk
    rcases hnew y hy with ⟨x, hx, hxy⟩ | ⟨hdraw, hend⟩
    · exact h.unused k id hold hid x hx (hxy.trans hyid)
    · -- the identifier was drawn by the demand whose turn it was, and that is answered
      obtain rfl : k = i := hfresh.distinct k i id hid (hyid ▸ hdraw)
      rw [move_progress_self, hend] at hk
      cases hk

/-- A turn that leaves the store as it is. -/
theorem OK.moved {archive : Archive} (hfresh : Fresh demands archive) (h : OK demands s) {i : ι} {p : Progress}
    (hi : (s.progress i).isEnded = false)
    (hknown : ∀ r, p = .drafted false r → ∃ x ∈ s.archive.data.repositories, x.id = r.id ∧ x.fullName = r.fullName)
    (hdrawn : ∀ r, p = .drafted true r → (demands i).fresh? = some r.id) : OK demands (s.move i p s.archive) :=
  h.update hfresh h.ids (fun x hx => ⟨x, hx, rfl, rfl⟩) (fun y hy => Or.inl ⟨y, hy, rfl⟩) hi hknown hdrawn

/-- A turn that saves a draft. -/
theorem OK.saved {archive : Archive} (hfresh : Fresh demands archive) (h : OK demands s) {i : ι} {isNew : Bool}
    {r : Repository} (hi : s.progress i = .drafted isNew r) (k : Keeping) :
    OK demands (s.move i (.registered (.saved isNew r)) ⟨s.archive.data.saveRepository r, k⟩) := by
  refine h.update hfresh (Store.saveRepository_distinctIds h.ids r) ?_ ?_ (by rw [hi]; rfl) nofun nofun
  · intro x hx
    by_cases hid : x.id = r.id
    · exact ⟨r, (Store.mem_saveRepository h.ids).2 (Or.inr rfl), hid.symm, (h.fullName_eq hi hx hid).symm⟩
    · exact ⟨x, (Store.mem_saveRepository h.ids).2 (Or.inl ⟨hx, hid⟩), rfl, rfl⟩
  · intro y hy
    rcases (Store.mem_saveRepository h.ids).1 hy with ⟨hy, -⟩ | rfl
    · exact Or.inl ⟨y, hy, rfl⟩
    · cases isNew with
      | false =>
        obtain ⟨x, hx, hid, -⟩ := h.known i y hi
        exact Or.inl ⟨x, hx, hid⟩
      | true => exact Or.inr ⟨h.drawn i y hi, rfl⟩

/-- A turn that ends an analysis. -/
theorem OK.ended {archive : Archive} (hfresh : Fresh demands archive) (h : OK demands s) {i : ι}
    (hi : (s.progress i).isEnded = false) (now : Instant) (a : Analysis) (k : Keeping) :
    OK demands (s.move i (.finished (.ok a)) ⟨s.archive.data.ended now a, k⟩) := by
  have hnames := s.archive.data.map_ended (fun r => (r.id, r.fullName)) (fun _ _ => rfl) now a
  have hsame : ∀ l m : List Repository, l.map (fun r => (r.id, r.fullName)) = m.map (fun r => (r.id, r.fullName)) →
      ∀ x ∈ l, ∃ y ∈ m, y.id = x.id ∧ y.fullName = x.fullName := by
    intro l m hlm x hx
    have hmem : (x.id, x.fullName) ∈ m.map fun r => (r.id, r.fullName) := hlm ▸ List.mem_map_of_mem hx
    obtain ⟨y, hy, hyx⟩ := List.mem_map.1 hmem
    exact ⟨y, hy, congrArg Prod.fst hyx, congrArg Prod.snd hyx⟩
  refine h.update hfresh (Store.ended_distinctIds h.ids now a) (hsame _ _ hnames.symm) ?_ hi nofun nofun
  intro y hy
  obtain ⟨x, hx, hid, -⟩ := hsame _ _ hnames y hy
  exact Or.inl ⟨x, hx, hid⟩

theorem Effect.ok {archive : Archive} (hfresh : Fresh demands archive) (h : OK demands s) {i : ι}
    (he : Effect demands s i t) : OK demands t := by
  cases he with
  | idle => exact h
  | looksUp isNew r hi hcur =>
    obtain ⟨q, fate, fresh, now, name, hd, -, hdraft⟩ := hcur.draft
    have hcases := (Demand.draft_cases hdraft).2
    refine h.moved hfresh (by rw [hi]; rfl) ?_ ?_
    · rintro r' hr'
      cases hr'
      rcases hcases with ⟨-, x, hx, rfl⟩ | ⟨hnew, -⟩
      · exact ⟨x, (Store.named?_eq_some hx).1, rfl, rfl⟩
      · cases hnew
    · rintro r' hr'
      cases hr'
      rcases hcases with ⟨hold, -⟩ | ⟨-, -, hid, -⟩
      · cases hold
      · rw [hd, hid]
        rfl
  | refused p hi hp =>
    refine h.moved hfresh hi ?_ ?_
    · rintro r rfl
      cases hp
    · rintro r rfl
      cases hp
  | saves isNew r k hi => exact h.saved hfresh hi k
  | ends fate now a k hd hi => exact h.ended hfresh hi now a k

omit [DecidableEq ι] in
theorem start_ok {archive : Archive} (hfresh : Fresh demands archive) (hids : archive.data.DistinctIds) :
    OK demands (start ι archive) := by
  refine ⟨hids, ?_, ?_, fun i id _ hid => hfresh.unused i id hid⟩
  · intro i r hi
    cases hi
  · intro i r hi
    cases hi

theorem after_ok {archive : Archive} (hfresh : Fresh demands archive) (h : OK demands s) (schedule : List ι) :
    OK demands (s.after demands schedule) := by
  induction schedule generalizing s with
  | nil => exact h
  | cons i rest ih => exact ih ((turn_effect s i).ok hfresh h)

/-- **A turn brings a demand further.** -/
theorem left_after (s : Traffic ι) (schedule : List ι) (i : ι) :
    ((s.after demands schedule).progress i).left ≤ (s.progress i).left - schedule.count i := by
  induction schedule generalizing s with
  | nil => simp [after]
  | cons k rest ih =>
    have hrest := ih (s.turn demands k)
    change (((s.turn demands k).after demands rest).progress i).left ≤ _
    rcases eq_or_ne i k with rfl | hik
    · have hturn : ((s.turn demands i).progress i).left ≤ (s.progress i).left - 1 := by
        rw [turn, move_progress_self]
        exact Demand.left_turn (demands i) s.archive (s.progress i)
      rw [List.count_cons_self]
      omega
    · rw [s.turn_progress_of_ne demands hik] at hrest
      rw [List.count_cons_of_ne hik.symm]
      exact hrest

/-! ## Drafts that stay current -/

/-- **A draft stays current** while no demand changes what was looked up. -/
theorem Effect.current (h : OK demands s) {i k : ι} (he : Effect demands s k t) (hk : ¬s.Disturbs demands k i)
    {isNew : Bool} {r : Repository} (hi : s.progress i = .drafted isNew r)
    (hcur : (demands i).Current s.archive (.drafted isNew r)) :
    (demands i).Current t.archive (.drafted isNew r) := by
  cases he with
  | idle => exact hcur
  | looksUp => exact hcur
  | refused => exact hcur
  | saves isNew' r' keeping hr' =>
    -- the saved record has another name, and so had the one in its place
    refine hcur.of_named? fun name hname => ?_
    have hne : Text.lowerAscii r'.fullName ≠ Text.lowerAscii name := by
      intro e
      exact hk ⟨isNew, r, hi, Or.inl ⟨isNew', r', hr', Text.equalIgnoringAsciiCase_iff.2 (e.trans hname.symm)⟩⟩
    refine Store.named?_saveRepository hne fun x hx hid => ?_
    rw [h.fullName_eq hr' hx hid]
    exact hne
  | ends fate now a keeping hd hend =>
    -- the analysis is of another repository than the one that was found
    refine hcur.of_named? fun name hname => Store.named?_ended fun hstatus y hy hrep => ?_
    obtain ⟨q, fate', fresh, now', name', -, -, hdraft⟩ := hcur.draft
    obtain ⟨hname', ⟨-, x, hx, rfl⟩ | ⟨-, hnone, -⟩⟩ := Demand.draft_cases hdraft
    · rw [Store.named?_congr (hname'.symm.trans hname)] at hx
      obtain rfl : x = y := Option.some.inj (hx.symm.trans hy)
      exact hk ⟨isNew, _, hi, Or.inr ⟨fate, now, a, hd, hend, hstatus, hrep.symm⟩⟩
    · rw [Store.named?_congr (hname'.symm.trans hname), hy] at hnone
      cases hnone

/-- **Drafts are current where demands keep apart.** -/
theorem undisturbed_of_apart {archive : Archive} (hfresh : Fresh demands archive) (h : OK demands s)
    (hcur : ∀ i isNew r, s.progress i = .drafted isNew r → (demands i).Current s.archive (.drafted isNew r))
    {schedule : List ι} (hapart : s.Apart demands schedule) : s.Undisturbed demands schedule := by
  induction schedule generalizing s with
  | nil => trivial
  | cons k rest ih =>
    have he : Effect demands s k (s.turn demands k) := turn_effect s k
    refine ⟨hcur k, ih (he.ok hfresh h) ?_ hapart.2⟩
    intro i isNew r hi
    rcases eq_or_ne i k with rfl | hik
    · -- a draft that has just been made
      generalize s.turn demands i = t at he hi ⊢
      cases he with
      | idle => exact hcur i isNew r hi
      | looksUp isNew' r' _ hnow =>
        rw [move_progress_self] at hi
        cases hi
        exact hnow
      | refused p _ hp =>
        rw [move_progress_self] at hi
        rw [hi] at hp
        cases hp
      | saves isNew' r' keeping _ =>
        rw [move_progress_self] at hi
        cases hi
      | ends fate now a keeping _ =>
        rw [move_progress_self] at hi
        cases hi
    · rw [s.turn_progress_of_ne demands hik] at hi
      exact he.current h (hapart.1 i hik) hi (hcur i isNew r hi)

/-! ## What is saved while it is current -/

omit [DecidableEq ι] in
/-- A draft that is current is of the stored record with its identifier, or new. -/
theorem OK.eq_update (h : OK demands s) {i : ι} {isNew : Bool} {r : Repository} (hi : s.progress i = .drafted isNew r)
    (hcur : (demands i).Current s.archive (.drafted isNew r)) {x : Repository}
    (hx : x ∈ s.archive.data.repositories) (hid : x.id = r.id) : ∃ q : Registration, r = q.update x := by
  obtain ⟨q, fate, fresh, now, name, -, -, hdraft⟩ := hcur.draft
  obtain ⟨-, ⟨-, y, hy, rfl⟩ | ⟨rfl, -⟩⟩ := Demand.draft_cases hdraft
  · exact ⟨q, by rw [h.ids.eq hx (Store.named?_eq_some hy).1 hid]⟩
  · exact absurd hid (h.unused i r.id (by rw [hi]; rfl) (h.drawn i r hi) x hx)

/-- **A registration takes back no time of an analysis** that it has seen. -/
theorem Effect.lastAnalyzedAt (h : OK demands s) {i : ι} (he : Effect demands s i t)
    (hcur : ∀ isNew r, s.progress i = .drafted isNew r → (demands i).Current s.archive (.drafted isNew r))
    {q : Registration} {fate : Fate} {fresh : Ident} {now : Instant} (hd : demands i = .register q fate fresh now)
    {x : Repository} (hx : x ∈ s.archive.data.repositories) :
    ∃ y ∈ t.archive.data.repositories, y.id = x.id ∧ y.lastAnalyzedAt = x.lastAnalyzedAt := by
  cases he with
  | idle => exact ⟨x, hx, rfl, rfl⟩
  | looksUp => exact ⟨x, hx, rfl, rfl⟩
  | refused => exact ⟨x, hx, rfl, rfl⟩
  | saves isNew r k hi =>
    by_cases hid : x.id = r.id
    · obtain ⟨q, rfl⟩ := h.eq_update hi (hcur isNew r hi) hx hid
      exact ⟨_, (Store.mem_saveRepository h.ids).2 (Or.inr rfl), rfl, rfl⟩
    · exact ⟨x, (Store.mem_saveRepository h.ids).2 (Or.inl ⟨hx, hid⟩), rfl, rfl⟩
  | ends fate' now' a k hd' =>
    rw [hd] at hd'
    cases hd'

/-- **Names stay distinct** if every draft is saved while it is current. -/
theorem Effect.distinctNames (h : OK demands s) {i : ι} (he : Effect demands s i t)
    (hcur : ∀ isNew r, s.progress i = .drafted isNew r → (demands i).Current s.archive (.drafted isNew r))
    (hnames : s.archive.data.DistinctNames) : t.archive.data.DistinctNames := by
  cases he with
  | idle => exact hnames
  | looksUp => exact hnames
  | refused => exact hnames
  | saves isNew r k hi =>
    refine Store.saveRepository_distinctNames hnames (fun x hx hid => h.fullName_eq hi hx hid) fun hid => ?_
    obtain ⟨q, fate, fresh, now, name, -, -, hdraft⟩ := (hcur isNew r hi).draft
    obtain ⟨-, ⟨-, x, hx, rfl⟩ | ⟨-, hnone, -, rfl⟩⟩ := Demand.draft_cases hdraft
    · exact absurd rfl (hid x (Store.named?_eq_some hx).1)
    · exact hnone
  | ends fate now a k => exact Store.ended_distinctNames hnames now a

theorem after_distinctNames {archive : Archive} (hfresh : Fresh demands archive) (h : OK demands s)
    (hnames : s.archive.data.DistinctNames) {schedule : List ι} (hsch : s.Undisturbed demands schedule) :
    (s.after demands schedule).archive.data.DistinctNames := by
  induction schedule generalizing s with
  | nil => exact hnames
  | cons i rest ih =>
    have he : Effect demands s i (s.turn demands i) := turn_effect s i
    exact ih (he.ok hfresh h) (he.distinctNames h hsch.1 hnames) hsch.2

/-! ## What no schedule changes -/

/-- Every analysis is in both stores alike, and both are kept in files or neither is. -/
def SameAnalyses (a b : Archive) : Prop :=
  a.data.analyses = b.data.analyses ∧ (a.keeping = .memory ↔ b.keeping = .memory)

theorem SameAnalyses.refl (a : Archive) : SameAnalyses a a := ⟨rfl, Iff.rfl⟩

theorem SameAnalyses.symm {a b : Archive} (h : SameAnalyses a b) : SameAnalyses b a := ⟨h.1.symm, h.2.symm⟩

theorem SameAnalyses.trans {a b c : Archive} (h : SameAnalyses a b) (h' : SameAnalyses b c) : SameAnalyses a c :=
  ⟨h.1.trans h'.1, h.2.trans h'.2⟩

theorem SameAnalyses.writes {a b : Archive} (h : SameAnalyses a b) (fate : Fate) : a.Writes fate ↔ b.Writes fate :=
  or_congr_left h.2

/-- **Ending an analysis** does the same to the analyses of both stores. -/
theorem SameAnalyses.finish {a b : Archive} (h : SameAnalyses a b) (fate : Fate) (now : Instant) (x : Analysis) :
    SameAnalyses (a.finish fate now x).2 (b.finish fate now x).2 := by
  let change : Store → Except StoreError (Analysis × Store) := fun s => s.finish now x
  rcases Store.finish_same h.1 now x with ⟨e, ha, hb⟩ | ⟨ha, hb⟩
  · unfold Archive.finish
    rw [Archive.mutate_of_refused fate (show change a.data = _ from ha),
      Archive.mutate_of_refused fate (show change b.data = _ from hb)]
    exact h
  by_cases hw : a.Writes fate
  · obtain ⟨k, hk, hfa⟩ := Archive.mutate_of_writes hw change ha
    obtain ⟨l, hl, hfb⟩ := Archive.mutate_of_writes ((h.writes fate).1 hw) change hb
    unfold Archive.finish
    rw [hfa, hfb]
    exact ⟨by rw [Store.ended_analyses, Store.ended_analyses, h.1], hk.trans (h.2.trans hl.symm)⟩
  · obtain ⟨e, hfa⟩ := Archive.mutate_of_not_writes hw fun s => s.finish now x
    obtain ⟨e', hfb⟩ := Archive.mutate_of_not_writes (fun hb => hw ((h.writes fate).2 hb)) fun s => s.finish now x
    unfold Archive.finish
    rw [hfa, hfb]
    exact h

/-- A registration touches no analysis. -/
theorem sameAnalyses_turn (q : Registration) (fate : Fate) (fresh : Ident) (now : Instant) (a : Archive)
    (p : Progress) : SameAnalyses ((Demand.register q fate fresh now).turn a p).2 a := by
  cases p with
  | waiting =>
    rcases Demand.turn_waiting_register q fate fresh now a with h | ⟨isNew, r, h⟩ <;> rw [h] <;>
      exact SameAnalyses.refl a
  | drafted isNew r =>
    rcases Demand.turn_drafted q fate fresh now a isNew r with ⟨e, h⟩ | ⟨k, hk, -, h⟩
    · rw [h]
      exact SameAnalyses.refl a
    · rw [h]
      exact ⟨Store.saveRepository_analyses _ r, hk⟩
  | registered outcome =>
    rw [Demand.turn_of_isEnded rfl]
    exact SameAnalyses.refl a
  | finished answer =>
    rw [Demand.turn_of_isEnded rfl]
    exact SameAnalyses.refl a

theorem sameAnalyses_serve (q : Registration) (fate : Fate) (fresh : Ident) (now : Instant) (a : Archive) :
    SameAnalyses ((Demand.register q fate fresh now).serve a).2 a := by
  rw [Demand.serve_eq]
  exact (sameAnalyses_turn q fate fresh now _ _).trans (sameAnalyses_turn q fate fresh now a .waiting)

/-- **Whatever the schedule**, no end of an analysis is lost. -/
theorem after_sameAnalyses {b : Archive} (h : SameAnalyses s.archive b) (schedule : List ι) :
    SameAnalyses (s.after demands schedule).archive (oneByOne demands b (s.endings demands schedule)) := by
  induction schedule generalizing s b with
  | nil => exact h
  | cons i rest ih =>
    change SameAnalyses ((s.turn demands i).after demands rest).archive _
    cases hd : demands i with
    | register q fate fresh now =>
      -- neither the turn nor the registration as a whole touches an analysis
      have hturn : SameAnalyses (s.turn demands i).archive b := by
        unfold turn
        rw [hd]
        exact (sameAnalyses_turn q fate fresh now s.archive (s.progress i)).trans h
      rw [endings_cons]
      split
      · refine ih (b := ((demands i).serve b).2) ?_
        rw [hd]
        exact hturn.trans (sameAnalyses_serve q fate fresh now b).symm
      · exact ih hturn
    | finish fate now x =>
      by_cases hend : (s.progress i).isEnded = true
      · rw [endings_cons_of_not_ended (Or.inl hend), turn_of_isEnded hend]
        exact ih h
      · have hend : (s.progress i).isEnded = false := by simpa using hend
        have hturn := Demand.turn_finish_eq fate now x hend s.archive
        have hnew : ((s.turn demands i).progress i).isEnded = true := by
          unfold turn
          rw [move_progress_self, hd, hturn]
          rfl
        rw [endings_cons_of_ended hend hnew]
        refine ih (b := ((demands i).serve b).2) ?_
        unfold turn
        rw [move_archive, hd, hturn]
        exact h.finish fate now x

/-! ## What is saved when it is out of date -/

theorem progress_after_of_notMem {i : ι} {schedule : List ι} (hi : i ∉ schedule) :
    (s.after demands schedule).progress i = s.progress i := by
  induction schedule generalizing s with
  | nil => rfl
  | cons k rest ih =>
    obtain ⟨hik, hrest⟩ := List.ne_and_not_mem_of_not_mem_cons hi
    exact (ih (s := s.turn demands k) hrest).trans (s.turn_progress_of_ne demands hik)

/-- **A draft that is written is stored as it was made**, whatever is stored under its
identifier by then. -/
theorem turn_saves {q : Registration} {fate : Fate} {fresh : Ident} {now : Instant} {i : ι} {isNew : Bool}
    {r : Repository} (hd : demands i = .register q fate fresh now) (hi : s.progress i = .drafted isNew r)
    (hw : s.archive.Writes fate) (hids : s.archive.data.DistinctIds) :
    r ∈ (s.turn demands i).archive.data.repositories ∧
      ∀ x ∈ s.archive.data.repositories, x.id ≠ r.id → x ∈ (s.turn demands i).archive.data.repositories := by
  obtain ⟨k, -, h⟩ := Demand.turn_drafted_of_writes q fresh now hw isNew r
  unfold turn
  rw [hd, hi, h]
  exact ⟨(Store.mem_saveRepository hids).2 (Or.inr rfl), fun x hx hid =>
    (Store.mem_saveRepository hids).2 (Or.inl ⟨hx, hid⟩)⟩

/-- **The time of an analysis is lost** where the analysis ends between the two turns of
a registration: what is stored then has the time that was looked up. -/
theorem after_overtaken {archive : Archive} (hfresh : Fresh demands archive) (hids : archive.data.DistinctIds)
    {q : Registration} {fate : Fate} {fresh : Ident} {now : Instant} {name : String} {x : Repository} {i : ι}
    (hd : demands i = .register q fate fresh now) (hname : q.acceptedName? = some name)
    (hx : archive.data.named? name = some x) {schedule : List ι} (hi : i ∉ schedule)
    (hw : ((start ι archive).after demands (i :: schedule)).archive.Writes fate) :
    ∃ r ∈ ((start ι archive).after demands (i :: schedule ++ [i])).archive.data.repositories,
      r.id = x.id ∧ r.lastAnalyzedAt = x.lastAnalyzedAt := by
  have hok : OK demands (start ι archive) := start_ok hfresh hids
  have hdraft : ((start ι archive).turn demands i).progress i = .drafted false (q.update x) := by
    unfold turn
    rw [move_progress_self, hd]
    unfold Demand.turn Registration.draft
    simp only [start, hname, hx]
  have hnow : ((start ι archive).after demands (i :: schedule)).progress i = .drafted false (q.update x) :=
    (progress_after_of_notMem (s := (start ι archive).turn demands i) hi).trans hdraft
  have hlast : (start ι archive).after demands (i :: schedule ++ [i]) =
      ((start ι archive).after demands (i :: schedule)).turn demands i := by simp [after, List.foldl_append]
  rw [hlast]
  exact ⟨q.update x, (turn_saves hd hnow hw (after_ok hfresh hok (i :: schedule)).ids).1, rfl, rfl⟩

/-- One repository, with an analysis in progress. -/
def oneInProgress : Archive where
  data := { repositories := [.register ⟨1⟩ default "a/b"], analyses := [.begun ⟨2⟩ ⟨1⟩ default] }

/-- A repository is registered while that analysis is completed. -/
def twoDemands (fullName : String) (i : Bool) : Demand :=
  bif i then .finish .done default ((Analysis.begun ⟨2⟩ ⟨1⟩ default).completed default default)
  else .register { fullName, stars := 5 } .done ⟨3⟩ default

example : ((start Bool oneInProgress).after (twoDemands "a/b") [false, true, false]).archive.data.repositories.map
      (·.lastAnalyzedAt) = [none] ∧
    ∀ order ∈ [[true, false], [false, true]],
      (oneByOne (twoDemands "a/b") oneInProgress order).data.repositories.map (·.lastAnalyzedAt) = [some default] := by
  decide

/-- **A repository is stored twice** where two registrations of one new name have both
looked it up before either is saved. -/
theorem after_doubled {archive : Archive} (hfresh : Fresh demands archive) (h : OK demands s) {i k : ι} (hik : i ≠ k)
    {q q' : Registration} {fate fate' : Fate} {fresh fresh' : Ident} {now now' : Instant} {r r' : Repository}
    (hdi : demands i = .register q fate fresh now) (hdk : demands k = .register q' fate' fresh' now')
    (hi : s.progress i = .drafted true r) (hk : s.progress k = .drafted true r')
    (hname : Text.lowerAscii r.fullName = Text.lowerAscii r'.fullName) (hw : s.archive.Writes fate)
    (hw' : (s.turn demands i).archive.Writes fate') : ¬(s.after demands [i, k]).archive.data.DistinctNames := by
  have hne : r.id ≠ r'.id := fun e => hik (hfresh.distinct i k r.id (h.drawn i r hi) (e ▸ h.drawn k r' hk))
  have hk' : (s.turn demands i).progress k = .drafted true r' := (s.turn_progress_of_ne demands hik.symm).trans hk
  obtain ⟨hmem, -⟩ := turn_saves hdi hi hw h.ids
  obtain ⟨hmem', hkept⟩ := turn_saves hdk hk' hw' ((turn_effect s i).ok hfresh h).ids
  intro hnames
  have heq : r = r' := List.inj_on_of_nodup_map hnames (hkept r hmem hne) hmem' hname
  exact hne (congrArg Repository.id heq)

/-! ## Demands that share a store -/

/-- **No update is lost where drafts are current.** Let any registrations and any ends
of analyses take turns at a store. After any schedule:

* the demands have ended in some order, each once, and a demand that has had two turns
  has ended;
* the analyses are those that the demands leave when they are served one by one in that
  order;
* if no demand comes between the two turns of a registration that changes what it has
  looked up, then every draft is current when it is saved;
* if every draft is current when it is saved, then the whole store, with its file, is the
  one that the demands leave when they are served one by one in that order, each is
  answered as it is then, no registration takes back the time of an analysis, and no two
  repositories have one name. -/
theorem demands_serial {archive : Archive} (hfresh : Fresh demands archive) (hids : archive.data.DistinctIds)
    (hnames : archive.data.DistinctNames) (schedule : List ι) :
    let s := (start ι archive).after demands schedule
    let order := (start ι archive).endings demands schedule
    order.Nodup ∧ (∀ i, i ∈ order ↔ (s.progress i).isEnded = true) ∧
    (∀ i, 2 ≤ schedule.count i → (s.progress i).isEnded = true) ∧
    s.archive.data.analyses = (oneByOne demands archive order).data.analyses ∧
    ((start ι archive).Apart demands schedule → (start ι archive).Undisturbed demands schedule) ∧
    ((start ι archive).Undisturbed demands schedule →
      s.archive = oneByOne demands archive order ∧
      (∀ pre i post, order = pre ++ i :: post →
        s.progress i = ((demands i).serve (oneByOne demands archive pre)).1) ∧
      (∀ pre i q fate fresh now, pre ++ [i] <+: schedule → demands i = .register q fate fresh now →
        ∀ x ∈ ((start ι archive).after demands pre).archive.data.repositories,
          ∃ y ∈ ((start ι archive).after demands (pre ++ [i])).archive.data.repositories,
            y.id = x.id ∧ y.lastAnalyzedAt = x.lastAnalyzedAt) ∧
      s.archive.data.DistinctNames) := by
  intro s order
  have hok : OK demands (start ι archive) := start_ok hfresh hids
  refine ⟨nodup_endings schedule, ?_, ?_, (after_sameAnalyses (SameAnalyses.refl archive) schedule).1, ?_, ?_⟩
  · intro i
    rw [mem_endings]
    exact ⟨fun h => h.2, fun h => ⟨rfl, h⟩⟩
  · intro i hcount
    have hleft : (s.progress i).left ≤ 2 - schedule.count i := left_after (start ι archive) schedule i
    rw [Progress.isEnded_iff]
    omega
  · intro hapart
    refine undisturbed_of_apart hfresh hok ?_ hapart
    intro i isNew r hi
    cases hi
  · intro hsch
    refine ⟨after_eq_oneByOne hsch, fun pre i post hi => progress_eq_serve hsch hi, ?_,
      after_distinctNames hfresh hok hnames hsch⟩
    intro pre i q fate fresh now hpre hd x hx
    have hlast : (start ι archive).after demands (pre ++ [i]) =
        ((start ι archive).after demands pre).turn demands i := by simp [after, List.foldl_append]
    rw [hlast]
    exact (turn_effect _ i).lastAnalyzedAt (after_ok hfresh hok pre) (hsch.at hpre) hd hx

/-- An analysis ends between the two turns that register another repository. -/
theorem demands_serial_another :
    Fresh (twoDemands "c/d") oneInProgress ∧ oneInProgress.data.DistinctIds ∧ oneInProgress.data.DistinctNames ∧
      (start Bool oneInProgress).Apart (twoDemands "c/d") [false, true, false] ∧
      ((start Bool oneInProgress).after (twoDemands "c/d") [false, true, false]).archive =
        oneByOne (twoDemands "c/d") oneInProgress [true, false] := by
  have hfresh : Fresh (twoDemands "c/d") oneInProgress := ⟨by decide, by decide⟩
  have hids : oneInProgress.data.DistinctIds := List.nodup_singleton _
  have hnames : oneInProgress.data.DistinctNames := List.nodup_singleton _
  have hapart : (start Bool oneInProgress).Apart (twoDemands "c/d") [false, true, false] := by
    refine ⟨?_, ?_, ?_, trivial⟩
    · -- nothing is drafted yet
      rintro (- | -) - ⟨isNew, r, hr, -⟩ <;> cases hr
    · -- the draft is of a repository that the analysis is not of
      rintro (- | -) - ⟨isNew, r, hr, h⟩
      · cases hr
        rcases h with ⟨isNew', r', hr', -⟩ | ⟨fate, now, a, ha, -, -, hrep⟩
        · cases hr'
        · cases ha
          exact absurd hrep (by decide)
      · cases hr
    · -- the analysis has ended
      rintro (- | -) hi ⟨isNew, r, hr, -⟩
      · exact hi rfl
      · cases hr
  have horder : (start Bool oneInProgress).endings (twoDemands "c/d") [false, true, false] = [true, false] := by decide
  obtain ⟨-, -, -, -, hundisturbed, hserial⟩ := demands_serial hfresh hids hnames [false, true, false]
  exact ⟨hfresh, hids, hnames, hapart, horder ▸ (hserial (hundisturbed hapart)).1⟩

end CodeAtlas.Traffic
