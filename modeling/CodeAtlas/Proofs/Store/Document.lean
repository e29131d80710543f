import CodeAtlas.Proofs.Instant.Written
import CodeAtlas.Proofs.Store.Reading

/-!
# The document of a store

What a store is written as holds all of the store: every record with every part of it, whatever
is in its texts and whatever is left out. Only of floats it has to be assumed that their
texts are read as they are written.

* `Store.Typed`: what a store can hold.
* `Store.floats`: the floats in it.
* `Archive.decodeText_persist`: **what is written of a store is read as the store.**
-/

namespace CodeAtlas

/-! ## What a store can hold -/

/-- Counts are words of 64 bits, and languages are in order, each once. -/
structure Metrics.Typed (m : Metrics) : Prop where
  linesOfCode : m.linesOfCode < Nat.pow 2 64
  fileCount : m.fileCount < Nat.pow 2 64
  languages : ∀ p ∈ m.languages, p.2 < Nat.pow 2 64
  sorted : m.languages.Pairwise fun p q => p.1 < q.1

structure Repository.Typed (r : Repository) : Prop where
  stars : r.stars < Nat.pow 2 64
  forks : r.forks < Nat.pow 2 64
  createdAt : r.createdAt.InRange
  lastAnalyzedAt : ∀ t ∈ r.lastAnalyzedAt, t.InRange

structure Analysis.Typed (a : Analysis) : Prop where
  startedAt : a.startedAt.InRange
  completedAt : ∀ t ∈ a.completedAt, t.InRange
  artifacts : ∀ r ∈ a.result, ∀ x ∈ r.artifacts, x.Fits
  metrics : ∀ r ∈ a.result, r.metrics.Typed

namespace Store

/-- **What a store can hold**: numbers are words of their sizes, and moments are those that there are. -/
structure Typed (s : Store) : Prop where
  repositories : ∀ r ∈ s.repositories, r.Typed
  analyses : ∀ a ∈ s.analyses, a.Typed

/-- The floats in a store. -/
def floats (s : Store) : List Float := s.analyses.filterMap fun a => a.result.map (·.metrics.maintainability)

variable {s t : Store}

theorem mem_floats {a : Analysis} (ha : a ∈ s.analyses) {r : Result} (hr : r ∈ a.result) :
    r.metrics.maintainability ∈ s.floats :=
  List.mem_filterMap.2 ⟨a, ha, by rw [show a.result = some r from hr]; rfl⟩

/-- **All that a store can hold is read as it is written**, if the floats are. -/
theorem Typed.fits (h : s.Typed) (hfloats : ∀ x ∈ s.floats, Json.FloatReads x) : s.Fits := by
  constructor
  · intro r hr
    obtain ⟨hstars, hforks, hcreated, hlast⟩ := h.repositories r hr
    exact ⟨hstars, hforks, Instant.ofText_text hcreated, fun t ht => Instant.ofText_text (hlast t ht)⟩
  · intro a ha
    obtain ⟨hstarted, hcompleted, hartifacts, hmetrics⟩ := h.analyses a ha
    refine ⟨Instant.ofText_text hstarted, fun t ht => Instant.ofText_text (hcompleted t ht), fun r hr => ?_⟩
    obtain ⟨hlines, hfiles, hlanguages, hsorted⟩ := hmetrics r hr
    exact ⟨hartifacts r hr, hlines, hfiles, hfloats _ (mem_floats ha hr), hlanguages, hsorted⟩

end Store

namespace Archive

/-! ## The document -/

/-- **What is written of a store is read as the store**: every repository and every analysis, with all that
is in it. So nothing else is written as the same text. -/
theorem decodeText_persist {s : Store} (h : s.Typed) (hfloats : ∀ x ∈ s.floats, Json.FloatReads x)
    (old : Option String) :
    ∃ text, persist .done (.file old) s = .ok (.file (some text)) ∧ Json.decodeText Store.decode text = .ok s ∧
      ∀ t : Store, t.Typed → (∀ x ∈ t.floats, Json.FloatReads x) →
        persist .done (.file old) t = .ok (.file (some text)) → t = s := by
  have hread : s.ReadsBack := (h.fits hfloats).readsBack
  refine ⟨textOf s, rfl, hread, ?_⟩
  intro t ht hfloats' hsame
  have htext : textOf t = textOf s := by
    simpa only [persist, Except.ok.injEq, Keeping.file.injEq, Option.some.injEq] using hsame
  have hread' : t.ReadsBack := (ht.fits hfloats').readsBack
  unfold Store.ReadsBack at hread hread'
  rw [htext, hread, Except.ok.injEq] at hread'
  exact hread'.symm

/-- A store with an analysis that has completed, one that has failed and one in progress; all elements of an
outline are in the first, and texts with marks of the notation. -/
def everything : Store where
  repositories := [
    { id := ⟨1⟩, fullName := "a/\"b\"", owner := "a", description := some "line\nline", primaryLanguage := some "Rust"
      stars := 2 ^ 64 - 1, forks := 1, createdAt := ⟨-62167219201, 999999999⟩, lastAnalyzedAt := some ⟨0, 1000⟩ },
    .register ⟨2⟩ ⟨253402300800, 0⟩ "\\"]
  analyses := [
    (Analysis.begun ⟨3⟩ ⟨1⟩ ⟨-1, 1000000000⟩).completed ⟨0, 1000⟩
      { features := { features := [{ name := "\t", files := ["f", ""] }] }
        layout := { patterns := ["p"], directories := [{ path := "src" }], entryPoints := ["m"] }
        techStack := { languages := ["Rust"], tools := ["é\x00"] }
        artifacts := [
          { path := "f", language := "rust", size := 9, parseSuccess := true
            functions := [⟨"f", "fn f() \x7b\x7d", ⟨1, 2⟩, ["x", "y"], true, 2 ^ 32 - 1⟩]
            classes := [⟨"C", .struct, "struct C;", ⟨3, 3⟩, []⟩]
            imports := [⟨"std", ["io"], "use std::io;", ⟨4, 4⟩⟩]
            exports := [⟨"f", "pub fn f", ⟨1, 2⟩⟩]
            bindings := [⟨"v", "let", "let v = 1;", ⟨5, 5⟩⟩]
            comments := [⟨"/ doc", true, ⟨6, 6⟩⟩]
            calls := [⟨"g", ⟨7, 7⟩⟩]
            controlFlow := [⟨"if", ⟨8, 9⟩⟩]
            literals := [⟨"\"", ⟨10, 10⟩⟩]
            dependencies := ["std"] },
          .degraded "g" "python" "def"]
        metrics :=
          { linesOfCode := 9, complexity := .medium, maintainability := 7.5, languages := [("a", 1), ("b", 2)] }
        index := { keywords := ["k"] }
        summary := "s", complexity := .high, degradedStages := ["features"] },
    (Analysis.begun ⟨4⟩ ⟨2⟩ ⟨1, 0⟩).failed ⟨2, 5000000⟩ "none",
    .begun ⟨5⟩ ⟨2⟩ ⟨3, 0⟩]

/-- All of it is read. -/
theorem decodeText_persist_everything :
    everything.Typed ∧ (∀ x ∈ everything.floats, Json.FloatReads x) ∧
      ∃ text, persist .done (.file none) everything = .ok (.file (some text)) ∧
        Json.decodeText Store.decode text = .ok everything := by
  have htyped : everything.Typed := by
    constructor
    · unfold everything
      simp only [List.forall_mem_cons]
      refine ⟨⟨by decide, by decide, by decide, ?_⟩, ⟨by decide, by decide, by decide, ?_⟩,
        fun _ h => absurd h List.not_mem_nil⟩
      all_goals rintro _ ⟨⟩
      decide
    · unfold everything
      simp only [List.forall_mem_cons]
      refine ⟨⟨by decide, ?_, ?_, ?_⟩, ⟨by decide, ?_, ?_, ?_⟩, ⟨by decide, ?_, ?_, ?_⟩,
        fun _ h => absurd h List.not_mem_nil⟩
      all_goals rintro _ ⟨⟩
      · decide
      · simp only [List.forall_mem_cons]
        refine ⟨?_, ?_, fun _ h => absurd h List.not_mem_nil⟩
        · constructor
          case size => decide
          case functions => exact List.forall_mem_singleton.2 ⟨⟨by decide, by decide⟩, by decide⟩
          all_goals exact List.forall_mem_singleton.2 ⟨by decide, by decide⟩
        · constructor
          case size => decide
          all_goals exact fun _ h => absurd h List.not_mem_nil
      · exact ⟨by decide, by decide, by decide, by decide⟩
      · decide
  have hfloats : ∀ x ∈ everything.floats, Json.FloatReads x := by
    intro x hx
    obtain rfl : x = 7.5 := List.mem_singleton.1 hx
    rfl
  obtain ⟨text, hpersist, hread, -⟩ := decodeText_persist htyped hfloats none
  exact ⟨htyped, hfloats, text, hpersist, hread⟩

end Archive

end CodeAtlas
