import CodeAtlas.Profile.Codec
import CodeAtlas.Proofs.Json.Forms

/-!
# Written profiles

What is written of each part of a profile stands for it. Only of numbers something
has to be known: whole numbers fit into their words, and the one float is what its
text is read as.

* `Sorted.ofPairs_eq_self`: sorted pairs stay as they are.
* `FeatureSet.stands`, `Structure.stands`, `TechStack.stands`, `Metrics.stands`, `Index.stands`.
-/

namespace CodeAtlas

open Json

variable {α : Type}

/-! ## Sorted pairs -/

theorem Sorted.put_of_lt {k : String} {l : List (String × α)} (h : ∀ p ∈ l, p.1 < k) (a : α) :
    Sorted.put k a l = l ++ [(k, a)] := by
  induction l with
  | nil => rfl
  | cons p l ih =>
    obtain ⟨j, b⟩ := p
    have hj : j < k := h (j, b) List.mem_cons_self
    have hne : k ≠ j := by
      rintro rfl
      exact String.lt_irrefl k hj
    rw [Sorted.put, if_neg (String.lt_asymm hj), if_neg hne, ih fun p hp => h p (List.mem_cons_of_mem _ hp)]
    rfl

/-- **Sorted pairs stay as they are.** -/
theorem Sorted.ofPairs_eq_self {l : List (String × α)} (h : l.Pairwise fun p q => p.1 < q.1) :
    Sorted.ofPairs l = l := by
  -- what comes next is put behind all that has been put before
  have hfold : ∀ m : List (String × α), (∀ p ∈ m, ∀ q ∈ l, p.1 < q.1) →
      l.foldl (fun sorted p => Sorted.put p.1 p.2 sorted) m = m ++ l := by
    induction l with
    | nil => simp
    | cons q l ih =>
      intro m hm
      obtain ⟨hq, hl⟩ := List.pairwise_cons.1 h
      rw [List.foldl_cons, Sorted.put_of_lt (fun p hp => hm p hp q List.mem_cons_self), ih hl]
      · simp
      · intro p hp r hr
        rcases List.mem_append.1 hp with hp | hp
        · exact hm p hp r (List.mem_cons_of_mem _ hr)
        · obtain rfl := List.mem_singleton.1 hp
          exact hq r hr
  exact (hfold [] (by simp)).trans (List.nil_append l)

/-! ## Parts -/

theorem Feature.stands (f : Feature) (d : ℕ) : Stands (d + 2) Feature.decode f.encode f :=
  (Form.Stands.start (d + 1) Feature.mk
    |>.req (Stands.str _ f.name)
    |>.req (Stands.str _ f.description)
    |>.dflt (Stands.str _ f.category)
    |>.dflt (Stands.strings d f.files)).record "Feature" (by simp)

theorem FeatureSet.stands (s : FeatureSet) (d : ℕ) : Stands (d + 4) FeatureSet.decode s.encode s :=
  (Form.Stands.start (d + 3) FeatureSet.mk
    |>.req (Stands.list fun f _ => f.stands d)).record "FeatureSet" (by simp)

theorem DirectoryRole.stands (r : DirectoryRole) (d : ℕ) : Stands (d + 1) DirectoryRole.decode r.encode r :=
  (Form.Stands.start d DirectoryRole.mk
    |>.req (Stands.str _ r.path)
    |>.req (Stands.str _ r.purpose)).record "DirectoryRole" (by simp)

theorem Structure.stands (s : Structure) (d : ℕ) : Stands (d + 3) Structure.decode s.encode s :=
  (Form.Stands.start (d + 2) Structure.mk
    |>.req (Stands.str _ s.architecture)
    |>.dflt (Stands.strings (d + 1) s.patterns)
    |>.dflt (Stands.list fun r _ => r.stands d)
    |>.dflt (Stands.strings (d + 1) s.entryPoints)).record "Structure" (by simp)

theorem TechStack.stands (t : TechStack) (d : ℕ) : Stands (d + 2) TechStack.decode t.encode t :=
  (Form.Stands.start (d + 1) TechStack.mk
    |>.req (Stands.strings d t.languages)
    |>.dflt (Stands.strings d t.frameworks)
    |>.dflt (Stands.strings d t.libraries)
    |>.dflt (Stands.strings d t.tools)
    |>.dflt (Stands.strings d t.databases)).record "TechStack" (by simp)

theorem Complexity.stands (c : Complexity) (d : ℕ) : Stands d Complexity.decode (.str c.label) c :=
  Stands.label d (by cases c <;> rfl)

theorem Index.stands (i : Index) (d : ℕ) : Stands (d + 2) Index.decode i.encode i :=
  (Form.Stands.start (d + 1) Index.mk
    |>.req (Stands.strings d i.keywords)
    |>.req (Stands.strings d i.directories)
    |>.req (Stands.strings d i.fileTypes)).record "SearchableIndex" (by simp)

/-! ## Numbers -/

/-- Numbers under texts stand for themselves if they fit into their words. -/
theorem stands_counts {l : List (String × ℕ)} (h : ∀ p ∈ l, p.2 < Nat.pow 2 64) (d : ℕ) :
    Stands (d + 1) (Decode.map Decode.size) (encodeCounts l) l := by
  constructor
  · refine ⟨Nat.succ_pos d, (legibleMembers_iff _ _).2 fun m hm => ?_⟩
    obtain ⟨p, hp, rfl⟩ := List.mem_map.1 hm
    exact (Stands.natOfBits d "usize" (by omega) (h p hp)).legible
  · have hall : Decode.decodeMembers Decode.size (Doc.ofMembers (l.map fun p => (p.1, .nat p.2))) = .ok l := by
      induction l with
      | nil => rfl
      | cons p l ih =>
        have hrest := ih fun p hp => h p (List.mem_cons_of_mem _ hp)
        have hp := (Stands.natOfBits d "usize" (by omega) (h p List.mem_cons_self)).decoded
        have hp : Decode.size (Doc.ofJson (.nat p.2)) = .ok p.2 := hp
        simp only [List.map_cons, Doc.ofMembers, Decode.decodeMembers, hp, hrest]
        rfl
    simp only [encodeCounts, Doc.ofJson, Decode.map, hall]
    rfl

/-- **Whether the numbers of a repository's code are read as they are written.** -/
structure Metrics.Fits (m : Metrics) : Prop where
  linesOfCode : m.linesOfCode < Nat.pow 2 64
  fileCount : m.fileCount < Nat.pow 2 64
  maintainability : FloatReads m.maintainability
  languages : ∀ p ∈ m.languages, p.2 < Nat.pow 2 64
  sorted : m.languages.Pairwise fun p q => p.1 < q.1

theorem Metrics.stands {m : Metrics} (h : m.Fits) (d : ℕ) : Stands (d + 2) Metrics.decode m.encode m := by
  have hread : Stands (d + 2) Metrics.decode m.encode { m with languages := Sorted.ofPairs m.languages } :=
    (Form.Stands.start (d + 1) (fun lines files complexity maintainability languages =>
        Metrics.mk lines files complexity maintainability (Sorted.ofPairs languages))
      |>.req (Stands.natOfBits _ "usize" (by omega) h.linesOfCode)
      |>.req (Stands.natOfBits _ "usize" (by omega) h.fileCount)
      |>.req (m.complexity.stands _)
      |>.req (Stands.float _ h.maintainability)
      |>.dflt (stands_counts h.languages d)).record "CodeMetrics" (by simp)
  -- the languages are put in order once more
  rw [Sorted.ofPairs_eq_self h.sorted] at hread
  exact hread

end CodeAtlas
