import CodeAtlas.Json.Basic
import CodeAtlas.Proofs.Text.Lowering

/-!
# JSON strings in lower case

The text of a JSON string has other characters than the string where a quotation mark, a
backslash or a control character is written by an escape. Escaping goes from character to
character, and so does lowercasing but for the sigma that looks back over a control
character: the escape of a line feed ends with a letter, and the line feed is none.

* `lowerChars_escape`: a text is escaped and lowercased in either order if no capital
  sigma stands after a control character (`sigmasApart`).
* `infix_lowerChars_escape`: **what stands in a text in lower case stands in the JSON
  string in lower case** if it has no character that is escaped.
-/

namespace CodeAtlas.Json

open Text

/-- Whether a character is written as itself in a JSON string. -/
def isPlain (c : Char) : Bool := c ≠ '"' && c ≠ '\\' && 0x20 ≤ c.toNat

/-- The characters that are not. -/
def escaped : List Char := '"' :: '\\' :: (List.range 0x20).map Char.ofNat

/-- Whether the nearest character that is not ignored for case is a control character. -/
def meetsControl (done : List Char) : Bool := (done.find? fun c => !isCaseIgnorable c).any fun c => c.toNat < 0x20

/-- Whether no capital sigma of a text stands after a control character, with nothing but
characters between them that are ignored for case; `done` holds what stands before the
text, nearest first. -/
def sigmasApartFrom (done : List Char) : List Char → Bool
  | [] => true
  | c :: rest => !(c = 'Σ' && meetsControl done) && sigmasApartFrom (c :: done) rest

def sigmasApart (s : List Char) : Bool := sigmasApartFrom [] s

/-! ## Characters -/

theorem cases_of_not_isPlain {c : Char} (h : isPlain c = false) : c = '"' ∨ c = '\\' ∨ c.toNat < 0x20 := by
  by_cases hq : c = '"'
  · exact Or.inl hq
  by_cases hb : c = '\\'
  · exact Or.inr (Or.inl hb)
  exact Or.inr (Or.inr (by simpa [isPlain, hq, hb] using h))

theorem mem_escaped {c : Char} (h : isPlain c = false) : c ∈ escaped := by
  unfold escaped
  rcases cases_of_not_isPlain h with rfl | rfl | hc
  · exact List.mem_cons_self
  · exact List.mem_cons_of_mem _ List.mem_cons_self
  · refine List.mem_cons_of_mem _ (List.mem_cons_of_mem _ (List.mem_map.2 ⟨c.toNat, List.mem_range.2 hc, ?_⟩))
    exact Char.ofNat_toNat c

/-- **Escapes are in lower case** already and begin with a backslash. -/
theorem escaped_spec : ∀ c ∈ escaped, lowerChar c = [c] ∧ (escape c).flatMap lowerChar = escape c ∧
    'Σ' ∉ escape c ∧ 'ς' ∉ escape c ∧ (escape c).head? = some '\\' := by
  -- decided over the list, and not over all characters
  have hall : (escaped.all fun c => decide (lowerChar c = [c] ∧ (escape c).flatMap lowerChar = escape c ∧
      'Σ' ∉ escape c ∧ 'ς' ∉ escape c ∧ (escape c).head? = some '\\')) = true := by decide +kernel
  intro c hc
  exact of_decide_eq_true (List.all_eq_true.1 hall c hc)

theorem inRanges_of_lt {ranges : List (ℕ × ℕ)} {n : ℕ} (h : ∀ r ∈ ranges, n ≤ r.1) {c : Char} (hc : c.toNat < n) :
    inRanges ranges c = false := by
  unfold inRanges
  rw [List.any_eq_false]
  intro r hr
  have hle := h r hr
  simp only [Bool.and_eq_true, decide_eq_true_eq, not_and]
  omega

/-- The characters that are escaped have no case and are not ignored for case. -/
theorem case_of_not_isPlain {c : Char} (h : isPlain c = false) : isCaseIgnorable c = false ∧ isCased c = false := by
  have hignorable : ∀ r ∈ caseIgnorable, 0x27 ≤ r.1 := by decide +kernel
  have hcased : ∀ r ∈ cased, 0x27 ≤ r.1 := by decide +kernel
  rcases cases_of_not_isPlain h with rfl | rfl | hc
  · exact ⟨inRanges_of_lt hignorable (by decide), inRanges_of_lt hcased (by decide)⟩
  · decide +kernel
  · exact ⟨inRanges_of_lt hignorable (by omega), inRanges_of_lt hcased (by omega)⟩

theorem escape_of_isPlain {c : Char} (h : isPlain c = true) : escape c = [c] := by
  simp only [isPlain, Bool.and_eq_true, decide_eq_true_eq] at h
  obtain ⟨⟨hq, hb⟩, hc⟩ := h
  have hne : ∀ d : Char, d.toNat < 0x20 → c ≠ d := by
    rintro d hd rfl
    omega
  unfold escape
  rw [if_neg hq, if_neg hb, if_neg (hne '\n' (by decide)), if_neg (hne '\r' (by decide)),
    if_neg (hne '\t' (by decide)), if_neg (by omega), if_neg (by omega), if_neg (by omega)]

theorem flatMap_escape {s : List Char} (h : ∀ c ∈ s, isPlain c = true) : s.flatMap escape = s := by
  induction s with
  | nil => rfl
  | cons c s ih =>
    rw [List.flatMap_cons, escape_of_isPlain (h c List.mem_cons_self),
      ih fun d hd => h d (List.mem_cons_of_mem c hd), List.singleton_append]

/-- The characters above `Z` become characters above the backslash. -/
theorem lowerRuns_spec : ∀ r ∈ lowerRuns, r.2.1 < 0x80 ∨ (0x5C < r.1 + r.2.2.2 ∧
    (r.2.1 + r.2.2.2 < 0xD800 ∨ (0xDFFF < r.1 + r.2.2.2 ∧ r.2.1 + r.2.2.2 < 0x110000))) := by
  decide +kernel

theorem isPlain_of_lt {c : Char} (h : 0x5C < c.toNat) : isPlain c = true := by
  have hne : ∀ d : Char, d.toNat ≤ 0x5C → c ≠ d := by
    rintro d hd rfl
    omega
  have hc : 0x20 ≤ c.toNat := by omega
  simp [isPlain, hne '"' (by decide), hne '\\' (by decide), hc]

/-- **The lowercase form of a plain character is plain.** -/
theorem isPlain_lowerChar {c : Char} (h : isPlain c = true) : ∀ d ∈ lowerChar c, isPlain d = true := by
  intro d hd
  unfold lowerChar at hd
  split at hd
  · -- `A` to `Z` become `a` to `z`
    rename_i hc
    have hascii : ∀ n < 0x80, isPlain (Char.ofNat n) = true → isPlain (Char.ofNat n).toLower = true := by
      decide +kernel
    have hlower := hascii c.toNat hc
    rw [Char.ofNat_toNat] at hlower
    rw [List.mem_singleton.1 hd]
    exact hlower h
  rename_i hc
  split at hd
  · have hboth : ['i', Char.ofNat 0x307].all isPlain = true := by decide
    exact List.all_eq_true.1 hboth d hd
  split at hd
  · rename_i r hr
    obtain ⟨hin, hmem⟩ := And.intro (List.find?_some hr) (List.mem_of_find?_eq_some hr)
    simp only [Bool.and_eq_true, decide_eq_true_eq] at hin
    have hrun := lowerRuns_spec r hmem
    obtain ⟨n, hn⟩ : ∃ n : ℕ, (c.toNat : Int) + r.2.2.2 = n := ⟨((c.toNat : Int) + r.2.2.2).toNat, by omega⟩
    have hvalid : n.isValidChar := by
      unfold Nat.isValidChar
      omega
    rw [hn, Int.toNat_natCast, List.mem_singleton] at hd
    rw [hd]
    refine isPlain_of_lt ?_
    have hd : (Char.ofNat n).toNat = n := by
      rw [Char.ofNat, dif_pos hvalid]
      rfl
    omega
  · rw [List.mem_singleton.1 hd]
    exact h

/-- **A character is escaped and lowercased in either order.** -/
theorem flatMap_escape_lowerChar (c : Char) : (lowerChar c).flatMap escape = (escape c).flatMap lowerChar := by
  cases hc : isPlain c with
  | true =>
    rw [flatMap_escape (isPlain_lowerChar hc), escape_of_isPlain hc, List.flatMap_singleton]
  | false =>
    obtain ⟨hlower, hescape, -⟩ := escaped_spec c (mem_escaped hc)
    rw [hlower, hescape, List.flatMap_singleton]

/-! ## Strings -/

theorem isPlain_of_ignorable {c : Char} (h : isCaseIgnorable c = true) : isPlain c = true := by
  by_contra hc
  rw [(case_of_not_isPlain (by simpa using hc)).1] at h
  cases h

/-- The escapes change nothing of what is met first in what follows. -/
theorem meetsCased_flatMap_escape (s : List Char) : meetsCased (s.flatMap escape) = meetsCased s := by
  induction s with
  | nil => rfl
  | cons c s ih =>
    rw [List.flatMap_cons]
    cases hi : isCaseIgnorable c with
    | true =>
      rw [escape_of_isPlain (isPlain_of_ignorable hi), List.singleton_append, meetsCased_cons_of_ignorable hi,
        meetsCased_cons_of_ignorable hi, ih]
    | false =>
      rw [meetsCased_cons_of_not_ignorable hi]
      cases hc : isPlain c with
      | true => rw [escape_of_isPlain hc, List.singleton_append, meetsCased_cons_of_not_ignorable hi]
      | false =>
        -- the character has no case, and the backslash that its escape begins with has none either
        obtain ⟨l, hl⟩ := List.head?_eq_some_iff.1 (escaped_spec c (mem_escaped hc)).2.2.2.2
        obtain ⟨hslash, hcased⟩ := case_of_not_isPlain (c := '\\') (by decide)
        rw [hl, List.cons_append, meetsCased_cons_of_not_ignorable hslash, hcased, (case_of_not_isPlain hc).2]

/-- The escapes change nothing of what is met first in what stands before, unless that is
a control character. -/
theorem meetsCased_escaped_before {done : List Char} (h : meetsControl done = false) :
    meetsCased (done.flatMap fun c => (escape c).reverse) = meetsCased done := by
  induction done with
  | nil => rfl
  | cons c done ih =>
    unfold meetsControl at ih h
    rw [List.flatMap_cons]
    cases hi : isCaseIgnorable c with
    | true =>
      rw [List.find?_cons_of_neg (by simp [hi])] at h
      rw [escape_of_isPlain (isPlain_of_ignorable hi), List.reverse_singleton, List.singleton_append,
        meetsCased_cons_of_ignorable hi, meetsCased_cons_of_ignorable hi, ih h]
    | false =>
      rw [List.find?_cons_of_pos (by simp [hi])] at h
      rw [meetsCased_cons_of_not_ignorable hi]
      cases hc : isPlain c with
      | true =>
        rw [escape_of_isPlain hc, List.reverse_singleton, List.singleton_append, meetsCased_cons_of_not_ignorable hi]
      | false =>
        -- a quotation mark or a backslash, and both end their own escapes
        have hlast : (escape c).reverse = [c, '\\'] := by
          rcases cases_of_not_isPlain hc with rfl | rfl | hlt
          · decide
          · decide
          · simp [hlt] at h
        rw [hlast, List.cons_append, meetsCased_cons_of_not_ignorable hi]

theorem lowered_flatMap_escape {done s : List Char} (h : sigmasApartFrom done s = true) :
    lowered (done.flatMap fun c => (escape c).reverse) (s.flatMap escape) = (lowered done s).flatMap escape := by
  induction s generalizing done with
  | nil => rfl
  | cons c s ih =>
    simp only [sigmasApartFrom, Bool.and_eq_true, Bool.not_eq_true', Bool.and_eq_false_imp, decide_eq_true_eq] at h
    obtain ⟨hsigma, hrest⟩ := h
    have hrest := ih hrest
    rw [List.flatMap_cons] at hrest
    rw [List.flatMap_cons, lowered, List.flatMap_append, ← hrest]
    by_cases hc : c = 'Σ'
    · -- the sigma meets the same on either side
      subst hc
      have hplain : escape 'Σ' = ['Σ'] := escape_of_isPlain (by decide)
      rw [hplain, List.singleton_append, lowered, List.reverse_singleton, List.singleton_append]
      congr 1
      unfold lowerIn
      rw [if_pos rfl, if_pos rfl, meetsCased_escaped_before (hsigma rfl), meetsCased_flatMap_escape]
      cases meetsCased done && !meetsCased s <;> decide
    · have hnot : 'Σ' ∉ escape c := by
        cases hp : isPlain c with
        | true =>
          rw [escape_of_isPlain hp]
          simpa using Ne.symm hc
        | false => exact (escaped_spec c (mem_escaped hp)).2.2.1
      rw [lowered_append_of_notMem hnot, ← flatMap_escape_lowerChar]
      unfold lowerIn
      rw [if_neg hc]

/-- **A text is escaped and lowercased in either order** if no capital sigma stands after
a control character. -/
theorem lowerChars_escape {s : List Char} (h : sigmasApart s = true) :
    lowerChars (s.flatMap escape) = (lowerChars s).flatMap escape := by
  simp only [lowerChars_eq]
  exact lowered_flatMap_escape h

theorem map_foldSigma_escape (c : Char) : (escape c).map foldSigma = escape (foldSigma c) := by
  by_cases hc : c = 'ς'
  · subst hc
    decide
  have hfinal : 'ς' ∉ escape c := by
    cases hp : isPlain c with
    | true =>
      rw [escape_of_isPlain hp]
      simpa using Ne.symm hc
    | false => exact (escaped_spec c (mem_escaped hp)).2.2.2.1
  rw [foldSigma_eq_self hc, List.map_congr_left fun d hd => foldSigma_eq_self fun e => hfinal (e ▸ hd), List.map_id']

theorem map_foldSigma_flatMap_escape (s : List Char) :
    (s.flatMap escape).map foldSigma = (s.map foldSigma).flatMap escape := by
  rw [List.map_flatMap, List.flatMap_map]
  simp only [map_foldSigma_escape]

/-- Where the forms of sigma are not told apart, every text is. -/
theorem map_foldSigma_lowerChars_escape (s : List Char) :
    (lowerChars (s.flatMap escape)).map foldSigma = ((lowerChars s).flatMap escape).map foldSigma := by
  calc (lowerChars (s.flatMap escape)).map foldSigma
      = ((s.flatMap escape).flatMap lowerChar).map foldSigma := by rw [lowerChars_eq, map_foldSigma_lowered]
    _ = ((s.flatMap lowerChar).flatMap escape).map foldSigma := by
      rw [List.flatMap_assoc, List.flatMap_assoc]
      simp only [flatMap_escape_lowerChar]
    _ = ((s.flatMap lowerChar).map foldSigma).flatMap escape := map_foldSigma_flatMap_escape _
    _ = ((lowerChars s).map foldSigma).flatMap escape := by rw [lowerChars_eq, map_foldSigma_lowered]
    _ = ((lowerChars s).flatMap escape).map foldSigma := (map_foldSigma_flatMap_escape _).symm

/-- **What stands in a text in lower case stands in its JSON string in lower case**, if it
has no character that is escaped, and no sigma unless those of the text stand apart from
control characters. -/
theorem infix_lowerChars_escape {p s : List Char} (hp : ∀ c ∈ p, isPlain c = true)
    (hsigma : sigmasApart s = true ∨ ('σ' ∉ p ∧ 'ς' ∉ p)) (h : p <:+: lowerChars s) :
    p <:+: lowerChars (s.flatMap escape) := by
  have hescaped : p <:+: (lowerChars s).flatMap escape := by
    obtain ⟨a, b, hab⟩ := h
    rw [← hab, List.flatMap_append, List.flatMap_append, flatMap_escape hp]
    exact List.infix_append _ _ _
  rcases hsigma with hs | hs
  · rwa [lowerChars_escape hs]
  · refine infix_of_map_foldSigma hs ?_
    rw [map_foldSigma_lowerChars_escape]
    exact hescaped.map foldSigma

end CodeAtlas.Json
