import CodeAtlas.Proofs.Store.Records

/-!
# Repositories by identifier and by name

A repository is saved under its identifier and looked up by its name, whatever the
case of the letters `A` to `Z`.

* `mem_saveRepository`, `mem_ended`: the repositories after a change.
* `named?_saveRepository`, `named?_ended`: when a change leaves alone what a name finds.
* `DistinctNames`: no two repositories have one name.
-/

namespace CodeAtlas

variable {α β : Type}

section UpdateFirst

variable {p q : α → Bool} {f : α → α}

/-- A view that the change does not touch where it is made stays as it is. -/
theorem map_updateFirst_of_mem (g : α → β) {l : List α} (hg : ∀ a ∈ l, p a = true → g (f a) = g a) :
    (updateFirst p f l).map g = l.map g := by
  induction l with
  | nil => rfl
  | cons a l ih =>
    have hrest := ih fun b hb => hg b (List.mem_cons_of_mem _ hb)
    unfold updateFirst
    split
    · rename_i hp
      simp [hg a List.mem_cons_self hp]
    · simp [hrest]

/-- A search that the change does not touch, and that does not find what is changed,
finds the same member. -/
theorem find?_updateFirst_of_ne {l : List α} (hq : ∀ a ∈ l, p a = true → q (f a) = q a)
    (hne : ∀ y, l.find? q = some y → p y = false) : (updateFirst p f l).find? q = l.find? q := by
  induction l with
  | nil => rfl
  | cons a l ih =>
    have hrest : q a = false → (updateFirst p f l).find? q = l.find? q := by
      intro ha
      refine ih (fun b hb => hq b (List.mem_cons_of_mem _ hb)) fun y hy => hne y ?_
      rw [List.find?_cons_of_neg (by simp [ha]), hy]
    unfold updateFirst
    split
    · rename_i hp
      cases ha : q a with
      | true =>
        have := hne a (List.find?_cons_of_pos ha)
        rw [hp] at this
        cases this
      | false =>
        have hfa : q (f a) = false := (hq a List.mem_cons_self hp).trans ha
        rw [List.find?_cons_of_neg (by simp [hfa]), List.find?_cons_of_neg (by simp [ha])]
    · cases ha : q a with
      | true => rw [List.find?_cons_of_pos ha, List.find?_cons_of_pos ha]
      | false =>
        rw [List.find?_cons_of_neg (by simp [ha]), List.find?_cons_of_neg (by simp [ha]), hrest ha]

/-- Where one member at most is meant, the change is made of that one. -/
theorem mem_updateFirst_iff {key : α → β} [BEq β] [LawfulBEq β] {k : β} {l : List α} (hnd : (l.map key).Nodup)
    {y : α} :
    y ∈ updateFirst (fun a => key a == k) f l ↔ (y ∈ l ∧ key y ≠ k) ∨ ∃ x ∈ l, key x = k ∧ y = f x := by
  induction l with
  | nil => simp [updateFirst]
  | cons a l ih =>
    obtain ⟨ha, hrest⟩ := List.nodup_cons.1 hnd
    have hother : ∀ x ∈ l, key x ≠ key a := fun x hx e => ha (e ▸ List.mem_map_of_mem hx)
    unfold updateFirst
    split
    · rename_i hp
      have hk : key a = k := by simpa using hp
      subst hk
      -- the change is made here, and no later member has the key
      constructor
      · intro hy
        rcases List.mem_cons.1 hy with rfl | hy
        · exact Or.inr ⟨a, List.mem_cons_self, rfl, rfl⟩
        · exact Or.inl ⟨List.mem_cons_of_mem _ hy, hother y hy⟩
      · rintro (⟨hy, hne⟩ | ⟨x, hx, hxk, rfl⟩)
        · rcases List.mem_cons.1 hy with rfl | hy
          · exact absurd rfl hne
          · exact List.mem_cons_of_mem _ hy
        · rcases List.mem_cons.1 hx with rfl | hx
          · exact List.mem_cons_self
          · exact absurd hxk (hother x hx)
    · rename_i hp
      have hk : key a ≠ k := by simpa using hp
      rw [List.mem_cons, ih hrest]
      constructor
      · rintro (rfl | ⟨hy, hne⟩ | ⟨x, hx, hxk, rfl⟩)
        · exact Or.inl ⟨List.mem_cons_self, hk⟩
        · exact Or.inl ⟨List.mem_cons_of_mem _ hy, hne⟩
        · exact Or.inr ⟨x, List.mem_cons_of_mem _ hx, hxk, rfl⟩
      · rintro (⟨hy, hne⟩ | ⟨x, hx, hxk, rfl⟩)
        · rcases List.mem_cons.1 hy with rfl | hy
          · exact Or.inl rfl
          · exact Or.inr (Or.inl ⟨hy, hne⟩)
        · rcases List.mem_cons.1 hx with rfl | hx
          · exact absurd hxk hk
          · exact Or.inr (Or.inr ⟨x, hx, hxk, rfl⟩)

end UpdateFirst

namespace Text

theorem equalIgnoringAsciiCase_iff {a b : String} :
    equalIgnoringAsciiCase a b = true ↔ lowerAscii a = lowerAscii b := by simp [equalIgnoringAsciiCase]

end Text

namespace Store

variable {s : Store}

/-- Each identifier belongs to one repository. -/
def DistinctIds (s : Store) : Prop := (s.repositories.map (·.id)).Nodup

/-- No two repositories have one name, whatever the case of the letters `A` to `Z`. -/
def DistinctNames (s : Store) : Prop := (s.repositories.map fun r => Text.lowerAscii r.fullName).Nodup

theorem DistinctIds.eq (h : s.DistinctIds) {x y : Repository} (hx : x ∈ s.repositories) (hy : y ∈ s.repositories)
    (hid : x.id = y.id) : x = y := List.inj_on_of_nodup_map h hx hy hid

/-- An identifier finds the repository that it belongs to. -/
theorem DistinctIds.find?_id (h : s.DistinctIds) {x : Repository} (hx : x ∈ s.repositories) :
    s.repositories.find? (·.id == x.id) = some x := by
  cases hfound : s.repositories.find? (·.id == x.id) with
  | none => simpa using List.find?_eq_none.1 hfound x hx
  | some y =>
    have hid := List.find?_some hfound
    simp only [beq_iff_eq] at hid
    rw [h.eq (List.mem_of_find?_eq_some hfound) hx hid]

theorem named?_eq_some {name : String} {x : Repository} (h : s.named? name = some x) :
    x ∈ s.repositories ∧ Text.lowerAscii x.fullName = Text.lowerAscii name := by
  unfold named? at h
  have hname := List.find?_some h
  exact ⟨List.mem_of_find?_eq_some h, Text.equalIgnoringAsciiCase_iff.1 hname⟩

theorem named?_eq_none_iff {name : String} :
    s.named? name = none ↔ ∀ x ∈ s.repositories, Text.lowerAscii x.fullName ≠ Text.lowerAscii name := by
  unfold named?
  rw [List.find?_eq_none]
  simp [Text.equalIgnoringAsciiCase_iff]

theorem named?_eq_none_of {name : String}
    (h : ∀ x ∈ s.repositories, Text.equalIgnoringAsciiCase x.fullName name = false) : s.named? name = none := by
  rw [named?_eq_none_iff]
  intro x hx heq
  have hnot := h x hx
  rw [Text.equalIgnoringAsciiCase_iff.2 heq] at hnot
  cases hnot

/-- Where names are distinct, a name finds whoever has it. -/
theorem DistinctNames.named?_eq_some (h : s.DistinctNames) {x : Repository} {name : String}
    (hx : x ∈ s.repositories) (hname : Text.equalIgnoringAsciiCase x.fullName name = true) :
    s.named? name = some x := by
  have hname := Text.equalIgnoringAsciiCase_iff.1 hname
  cases hfound : s.named? name with
  | none => exact absurd hname (named?_eq_none_iff.1 hfound x hx)
  | some y =>
    obtain ⟨hy, hyname⟩ := Store.named?_eq_some hfound
    rw [List.inj_on_of_nodup_map h hy hx (hyname.trans hname.symm)]

/-- Names that differ in case only find the same. -/
theorem named?_congr {m n : String} (h : Text.lowerAscii m = Text.lowerAscii n) : s.named? m = s.named? n := by
  simp only [named?, Text.equalIgnoringAsciiCase, h]

/-! ## Saving -/

/-- **How a repository is saved**: in the place of the one with its identifier, or at
the end. -/
theorem saveRepository_cases (s : Store) (r : Repository) :
    ((∃ x ∈ s.repositories, x.id = r.id) ∧
        (s.saveRepository r).repositories = updateFirst (·.id == r.id) (fun _ => r) s.repositories) ∨
      ((∀ x ∈ s.repositories, x.id ≠ r.id) ∧ (s.saveRepository r).repositories = s.repositories ++ [r]) := by
  unfold saveRepository
  split
  · rename_i hknown
    exact Or.inl ⟨by simpa using hknown, rfl⟩
  · rename_i hnew
    exact Or.inr ⟨by simpa using hnew, rfl⟩

@[simp] theorem saveRepository_analyses (s : Store) (r : Repository) :
    (s.saveRepository r).analyses = s.analyses := by
  unfold saveRepository
  split <;> rfl

/-- **The repositories after a saving**: the saved one and those of other identifiers. -/
theorem mem_saveRepository (h : s.DistinctIds) {r y : Repository} :
    y ∈ (s.saveRepository r).repositories ↔ (y ∈ s.repositories ∧ y.id ≠ r.id) ∨ y = r := by
  rcases s.saveRepository_cases r with ⟨⟨x, hx, hxr⟩, hs⟩ | ⟨hnew, hs⟩
  · rw [hs, mem_updateFirst_iff h]
    refine or_congr_right ⟨fun ⟨_, _, _, hy⟩ => hy, fun hy => ⟨x, hx, hxr, hy⟩⟩
  · rw [hs, List.mem_append, List.mem_singleton]
    refine or_congr_left ⟨fun hy => ⟨hy, hnew y hy⟩, fun hy => hy.1⟩

theorem saveRepository_distinctIds (h : s.DistinctIds) (r : Repository) : (s.saveRepository r).DistinctIds := by
  unfold DistinctIds
  rcases s.saveRepository_cases r with ⟨-, hs⟩ | ⟨hnew, hs⟩
  · rw [hs, map_updateFirst_of_mem]
    · exact h
    · intro x _ hx
      exact (by simpa using hx : x.id = r.id).symm
  · rw [hs, List.map_append]
    refine List.nodup_append.2 ⟨h, by simp, ?_⟩
    rintro i hi j hj rfl
    obtain ⟨x, hx, rfl⟩ := List.mem_map.1 hi
    exact hnew x hx (by simpa using hj)

/-- **A name finds what it found before** if another name is saved, under an
identifier that the name does not belong to. -/
theorem named?_saveRepository {r : Repository} {name : String}
    (hr : Text.lowerAscii r.fullName ≠ Text.lowerAscii name)
    (hid : ∀ x ∈ s.repositories, x.id = r.id → Text.lowerAscii x.fullName ≠ Text.lowerAscii name) :
    (s.saveRepository r).named? name = s.named? name := by
  unfold named?
  rcases s.saveRepository_cases r with ⟨-, hs⟩ | ⟨-, hs⟩
  · rw [hs]
    apply find?_updateFirst_of_ne
    · intro x hx hxr
      have hx' := hid x hx (by simpa using hxr)
      simp [Text.equalIgnoringAsciiCase, hr, hx']
    · intro y hy
      obtain ⟨hmem, hname⟩ := named?_eq_some hy
      by_contra hyr
      exact hid y hmem (by simpa using hyr) hname
  · rw [hs, List.find?_append, List.find?_cons_of_neg (by simp [Text.equalIgnoringAsciiCase, hr])]
    simp

/-- A repository that keeps its name leaves names distinct. -/
theorem saveRepository_distinctNames (h : s.DistinctNames) {r : Repository}
    (hold : ∀ x ∈ s.repositories, x.id = r.id → x.fullName = r.fullName)
    (hnew : (∀ x ∈ s.repositories, x.id ≠ r.id) → s.named? r.fullName = none) :
    (s.saveRepository r).DistinctNames := by
  unfold DistinctNames
  rcases s.saveRepository_cases r with ⟨-, hs⟩ | ⟨hid, hs⟩
  · rw [hs, map_updateFirst_of_mem]
    · exact h
    · intro x hx hxr
      rw [hold x hx (by simpa using hxr)]
  · rw [hs, List.map_append]
    refine List.nodup_append.2 ⟨h, by simp, ?_⟩
    intro n hn m hm e
    obtain ⟨x, hx, rfl⟩ := List.mem_map.1 hn
    exact named?_eq_none_iff.1 (hnew hid) x hx (by simpa using e.trans (List.mem_singleton.1 hm))

/-! ## Ending an analysis -/

/-- The repositories after an analysis has ended. -/
theorem ended_repositories (s : Store) (now : Instant) (a : Analysis) :
    (s.ended now a).repositories =
      if a.status = .completed then
        updateFirst (·.id == a.repository) (fun r => { r with lastAnalyzedAt := some (a.completedAt.getD now) })
          s.repositories
      else s.repositories := by
  unfold ended
  split <;> rfl

/-- **Ending an analysis touches nothing of a repository but its time.** -/
theorem map_ended {β : Type} (g : Repository → β) (hg : ∀ r t, g { r with lastAnalyzedAt := t } = g r)
    (now : Instant) (a : Analysis) : (s.ended now a).repositories.map g = s.repositories.map g := by
  rw [ended_repositories]
  split
  · exact map_updateFirst g (fun r _ => hg r _) _
  · rfl

theorem ended_distinctIds (h : s.DistinctIds) (now : Instant) (a : Analysis) : (s.ended now a).DistinctIds := by
  unfold DistinctIds
  rw [map_ended _ fun _ _ => rfl]
  exact h

theorem ended_distinctNames (h : s.DistinctNames) (now : Instant) (a : Analysis) :
    (s.ended now a).DistinctNames := by
  unfold DistinctNames
  rw [map_ended _ fun _ _ => rfl]
  exact h

/-- **A name finds what it found before** if no analysis of that repository completes. -/
theorem named?_ended {now : Instant} {a : Analysis} {name : String}
    (hne : a.status = .completed → ∀ y, s.named? name = some y → y.id ≠ a.repository) :
    (s.ended now a).named? name = s.named? name := by
  unfold named?
  rw [ended_repositories]
  split
  · rename_i hstatus
    apply find?_updateFirst_of_ne
    · intro x _ _
      rfl
    · intro y hy
      simpa using hne hstatus y hy
  · rfl

end Store

end CodeAtlas
