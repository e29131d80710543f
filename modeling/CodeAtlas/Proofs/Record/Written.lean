import CodeAtlas.Proofs.Outline.Written
import CodeAtlas.Proofs.Profile.Written
import CodeAtlas.Record.Codec
import Mathlib.Algebra.Ring.Nat

/-!
# Written records

Identifiers are read as they are written. What is written of a record stands for
it, provided that its moments and its numbers are what their texts are read as.

* `Ident.ofText_text`: **identifiers are read as they are written.**
* `Repository.stands`, `Result.stands`, `Analysis.stands`: **records are read as they are written.**
-/

namespace CodeAtlas

open Json

/-! ## Identifiers -/

namespace Ident

@[simp] theorem length_hexDigits (count n : ℕ) : (hexDigits count n).length = count := by
  induction count generalizing n with
  | zero => rfl
  | succ count ih => simp [hexDigits, ih]

theorem isSome_of_mem_hexDigits {count n : ℕ} {c : Char} (hc : c ∈ hexDigits count n) :
    (hexDigit? c).isSome = true := by
  induction count generalizing n with
  | zero => cases hc
  | succ count ih =>
    rw [hexDigits, List.mem_append, List.mem_singleton] at hc
    rcases hc with hc | rfl
    · exact ih hc
    · rw [hexDigit?_digitChar (Nat.mod_lt _ (by omega))]
      rfl

/-- **Hexadecimal digits are read as the number** that they are of. -/
theorem foldlM_hexDigits (count m : ℕ) {n : ℕ} (hn : n < Nat.pow 16 count) :
    (hexDigits count n).foldlM (fun n c => (hexDigit? c).map (n * 16 + ·)) m = some (m * Nat.pow 16 count + n) := by
  induction count generalizing n with
  | zero =>
    obtain rfl : n = 0 := Nat.lt_one_iff.1 hn
    simp [hexDigits]
  | succ count ih =>
    have hpow : Nat.pow 16 (count + 1) = Nat.pow 16 count * 16 := rfl
    rw [hpow] at hn ⊢
    have hq : n / 16 < Nat.pow 16 count := by omega
    have hlast : hexDigit? (Nat.digitChar (n % 16)) = some (n % 16) := hexDigit?_digitChar (Nat.mod_lt _ (by omega))
    rw [hexDigits, List.foldlM_append, ih hq]
    simp only [List.foldlM_cons, List.foldlM_nil, hlast, Option.map_some, Option.bind_eq_bind, Option.bind_some,
      Option.pure_def]
    congr 1
    rw [← Nat.mul_assoc]
    omega

theorem ofDigits?_hexDigits (i : Ident) : ofDigits? (hexDigits 32 i.bits.toNat) = some i := by
  have hlt : i.bits.toNat < Nat.pow 16 32 := lt_of_lt_of_eq i.bits.isLt (by decide)
  unfold ofDigits?
  rw [foldlM_hexDigits 32 0 hlt]
  simp

/-- **The hyphens are taken out** where they were put in. -/
theorem joinGroups?_hyphenate {gs : List ℕ} (hgs : gs ≠ []) {digits : List Char} (hlen : digits.length = gs.sum) :
    joinGroups? gs (hyphenate gs digits) = some digits := by
  induction gs generalizing digits with
  | nil => exact absurd rfl hgs
  | cons g gs ih =>
    cases gs with
    | nil =>
      have hlen : digits.length = g := by simpa using hlen
      simp [hyphenate, joinGroups?, hlen]
    | cons g' gs =>
      rw [List.sum_cons] at hlen
      have hg : (digits.take g).length = g := by
        rw [List.length_take]
        omega
      have hrest : (digits.drop g).length = (g' :: gs).sum := by
        rw [List.length_drop]
        omega
      -- a hyphen follows every group but the last
      simp only [hyphenate, joinGroups?]
      rw [List.drop_left' hg, List.take_left' hg]
      simp only [ih (by simp) hrest, Option.map_some, List.take_append_drop]

/-- A text is no shorter in bytes than in characters. -/
theorem length_le_utf8ByteSize (l : List Char) : l.length ≤ (String.ofList l).utf8ByteSize := by
  induction l with
  | nil => simp
  | cons c l ih =>
    have happ : String.ofList (c :: l) = String.singleton c ++ String.ofList l := by
      rw [← List.singleton_append, String.ofList_append]
      rfl
    have hc := Char.utf8Size_pos c
    rw [happ, String.utf8ByteSize_append, String.utf8ByteSize_singleton, List.length_cons]
    omega

/-- What begins with a hexadecimal digit is taken as a whole. -/
theorem body_of_hexDigit {c : Char} (hc : (hexDigit? c).isSome = true) (s : List Char) :
    body (c :: s) = (c :: s, 0, true) := by
  have hbrace : c ≠ '\x7b' := by
    rintro rfl
    exact absurd hc (by decide)
  have hu : 'u' ≠ c := by
    rintro rfl
    exact absurd hc (by decide)
  have hurn : Text.stripFront? "urn:uuid:".toList (c :: s) = none := if_neg hu
  unfold body
  split
  · rename_i h
    exact absurd (List.cons.inj h).1 hbrace
  · simp only [hurn]

theorem length_hyphenate_groups {digits : List Char} (hlen : digits.length = 32) :
    (hyphenate groups digits).length = 36 := by
  simp [groups, hyphenate]
  omega

/-- **Identifiers are read as they are written.** -/
theorem ofText_text (i : Ident) : ofText i.text = .ok i := by
  have hlen := length_hexDigits 32 i.bits.toNat
  have hjoin := joinGroups?_hyphenate (show groups ≠ [] by simp [groups]) (hlen.trans (by decide))
  have hall : ∀ c ∈ hexDigits 32 i.bits.toNat, (hexDigit? c).isSome = true := fun c => isSome_of_mem_hexDigits
  have hread := ofDigits?_hexDigits i
  -- 36 characters are no 32 bytes, so there are hyphens to be taken out
  have hlong := length_le_utf8ByteSize (hyphenate groups (hexDigits 32 i.bits.toNat))
  rw [length_hyphenate_groups hlen] at hlong
  unfold ofText text
  rw [String.toList_ofList]
  generalize hexDigits 32 i.bits.toNat = digits at *
  cases digits with
  | nil => cases hlen
  | cons c ds =>
    have hbody := body_of_hexDigit (hall c List.mem_cons_self) (ds.take 7 ++ '-' :: hyphenate [4, 4, 4, 12] (ds.drop 7))
    have hbody : body (hyphenate groups (c :: ds)) = (hyphenate groups (c :: ds), 0, true) := hbody
    have hsize : (String.ofList (hyphenate groups (c :: ds))).utf8ByteSize ≠ 32 := by omega
    simp only [hbody, hsize, hjoin, hread, decide_false, Bool.and_false, Bool.false_eq_true, if_false,
      Option.bind_some]

theorem stands (i : Ident) (d : ℕ) : Stands d Ident.decode i.encode i := by
  refine ⟨trivial, ?_⟩
  have hread : ofText i.text = .ok i := ofText_text i
  simp only [encode, Doc.ofJson, decode, hread]
  rfl

end Ident

/-! ## Records -/

/-- **Whether the text of a moment is read as the moment.** -/
def Instant.Reads (i : Instant) : Prop := ofText i.text = .ok i

theorem Instant.stands {i : Instant} (h : i.Reads) (d : ℕ) : Stands d Instant.decode i.encode i := by
  refine ⟨trivial, ?_⟩
  have hread : ofText i.text = .ok i := h
  simp only [encode, Doc.ofJson, decode, hread]
  rfl

theorem Status.stands (s : Status) (d : ℕ) : Stands d Status.decode (.str s.label) s :=
  Stands.label d (by cases s <;> rfl)

/-- Whether a repository's numbers fit into their words and its moments are read. -/
structure Repository.Fits (r : Repository) : Prop where
  stars : r.stars < Nat.pow 2 64
  forks : r.forks < Nat.pow 2 64
  createdAt : r.createdAt.Reads
  lastAnalyzedAt : ∀ t ∈ r.lastAnalyzedAt, t.Reads

theorem Repository.stands {r : Repository} (h : r.Fits) (d : ℕ) : Stands (d + 1) Repository.decode r.encode r :=
  (Form.Stands.start d Repository.mk
    |>.req (r.id.stands d)
    |>.req (Stands.str d r.fullName)
    |>.req (Stands.str d r.owner)
    |>.opt (Stands.option (fun s _ => Stands.str d s) (by simp [Doc.ofJson]))
    |>.opt (Stands.option (fun s _ => Stands.str d s) (by simp [Doc.ofJson]))
    |>.dflt (Stands.natOfBits d "u64" (by omega) h.stars)
    |>.dflt (Stands.natOfBits d "u64" (by omega) h.forks)
    |>.req (Instant.stands h.createdAt d)
    |>.opt (Stands.option (fun t ht => Instant.stands (h.lastAnalyzedAt t ht) d)
      (by simp [Instant.encode, Doc.ofJson]))).record "Repository" (by simp)

/-- Whether all numbers of a result are read as they are written. -/
structure Result.Fits (r : Result) : Prop where
  artifacts : ∀ a ∈ r.artifacts, a.Fits
  metrics : r.metrics.Fits

/-- **A written result is read as the result.** -/
theorem Result.stands {r : Result} (h : r.Fits) (d : ℕ) : Stands (d + 6) Result.decode r.encode r :=
  (Form.Stands.start (d + 5) Result.mk
    |>.req (r.features.stands _)
    |>.req (r.layout.stands _)
    |>.req (r.techStack.stands _)
    |>.req (Stands.list fun a ha => Outline.Artifact.stands (h.artifacts a ha) d)
    |>.req (Metrics.stands h.metrics _)
    |>.req (r.index.stands _)
    |>.req (Stands.str _ r.summary)
    |>.req (r.complexity.stands _)
    |>.dflt (Stands.strings _ r.degradedStages)).record "AnalysisResult" (by simp)

/-- Whether all numbers and moments of an analysis are read as they are written. -/
structure Analysis.Fits (a : Analysis) : Prop where
  startedAt : a.startedAt.Reads
  completedAt : ∀ t ∈ a.completedAt, t.Reads
  result : ∀ r ∈ a.result, r.Fits

/-- **A written analysis is read as the analysis.** -/
theorem Analysis.stands {a : Analysis} (h : a.Fits) (d : ℕ) : Stands (d + 7) Analysis.decode a.encode a :=
  (Form.Stands.start (d + 6) Analysis.mk
    |>.req (a.id.stands _)
    |>.req (a.repository.stands _)
    |>.req (a.status.stands _)
    |>.req (Instant.stands h.startedAt _)
    |>.opt (Stands.option (fun t ht => Instant.stands (h.completedAt t ht) _) (by simp [Instant.encode, Doc.ofJson]))
    |>.opt (Stands.option (fun s _ => Stands.str _ s) (by simp [Doc.ofJson]))
    |>.opt (Stands.option (fun r hr => Result.stands (h.result r hr) d)
      (by simp [Result.encode, Doc.ofJson]))).record "Analysis" (by simp)

end CodeAtlas
