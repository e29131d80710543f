import CodeAtlas.Proofs.Text.Lowering

/-!
# Lowercase text stays as it is

What lowercasing writes has no lowercase form but itself. For single characters this is a
fact about the table of runs: where a run is shifted to, no run begins again. A capital
sigma is never written, so nothing in what is written looks around.

* `Run.keepsOut`: a test of two runs, and `Run.has_shifted` what it says of their members.
* `Run.keepsOut_of_mem`: **no run of the table is shifted into another.**
* `lowerChar_of_mem_lowerIn`: **each character that is written** is its own lowercase form.
* `lower_eq_self_iff`: the texts in lower case.
* `lower_lower`: **lowercasing a second time changes nothing.**
* `mem_of_mem_lowered`: characters that are written for themselves only.
-/

namespace CodeAtlas.Text

/-! ## Runs -/

/-- First, last, step and shift, as in the table of runs. -/
abbrev Run := Nat × Nat × Nat × Int

namespace Run

variable {r q : Run} {n : ℕ}

/-- Whether the character with a number belongs to a run. -/
def has (r : Run) (n : ℕ) : Bool := r.1 ≤ n && n ≤ r.2.1 && (n - r.1) % r.2.2.1 == 0

/-- The number of the lowercase form of a member. -/
def shifted (r : Run) (n : ℕ) : ℕ := ((n : Int) + r.2.2.2).toNat

/-- Whether all that `r` is shifted to keeps out of `q`: it lies before `q` or after it, or
falls between the members of `q`, of which every second number is one. -/
def keepsOut (r q : Run) : Bool :=
  (r.shifted r.2.1).blt q.1 || q.2.1.blt (r.shifted r.1) ||
    0 ≤ r.1 + r.2.2.2 && (r.2.2.1 == 2 || r.1 == r.2.1) && q.2.2.1 == 2 && (r.shifted r.1 + q.1) % 2 == 1

/-- **No member is shifted into a run that its own keeps out of.** -/
theorem has_shifted (h : r.keepsOut q = true) (hn : r.has n = true) : q.has (r.shifted n) = false := by
  obtain ⟨first, last, step, shift⟩ := r
  obtain ⟨first', last', step', shift'⟩ := q
  simp only [keepsOut, shifted, Bool.and_eq_true, Bool.or_eq_true, decide_eq_true_eq, beq_iff_eq, Nat.blt_eq] at h
  simp only [has, Bool.and_eq_true, decide_eq_true_eq, beq_iff_eq] at hn
  obtain ⟨⟨hfirst, hlast⟩, hstep⟩ := hn
  rw [Bool.eq_false_iff]
  simp only [has, ne_eq, Bool.and_eq_true, decide_eq_true_eq, beq_iff_eq]
  rintro ⟨⟨hfirst', hlast'⟩, hstep'⟩
  simp only [shifted] at hfirst' hlast' hstep'
  rcases h with (hbefore | hafter) | ⟨⟨⟨hpos, heven⟩, rfl⟩, hodd⟩
  · omega
  · omega
  · -- distances from the first member are even in `r`, and so odd in `q`
    have hparity : (n - first) % 2 = 0 := by
      rcases heven with rfl | rfl
      · exact hstep
      · omega
    omega

/-- Whether all that `r` is shifted to lies before a range of numbers or after it. -/
def liesOutside (r : Run) (first last : ℕ) : Bool := (r.shifted r.2.1).blt first || last.blt (r.shifted r.1)

theorem keepsOut_of_liesOutside {first last : ℕ} (h : r.liesOutside first last = true) (hfirst : first ≤ q.1)
    (hlast : q.2.1 ≤ last) : r.keepsOut q = true := by
  simp only [liesOutside, Bool.or_eq_true, Nat.blt_eq] at h
  simp only [keepsOut, Bool.or_eq_true, Nat.blt_eq]
  exact Or.inl (h.imp (fun hbefore => by omega) fun hafter => by omega)

/-- The table in stretches of thirteen runs. Most runs keep out of most stretches as a whole, and
are not compared with each run in them. -/
def stretches : List (List Run) := (List.range 14).map fun i => (lowerRuns.drop (13 * i)).take 13

/-- The numbers from which and up to which a stretch goes. -/
def bounds (l : List Run) : ℕ × ℕ := (l.head?.elim 0 (·.1), l.getLast?.elim 0 (·.2.1))

/-- What can be read off the table. No run is shifted to the one character whose lowercase form
is two, and all runs but the first begin at `0x80` or later. -/
theorem table_spec : stretches.flatten = lowerRuns ∧
    (stretches.all fun l => l.all fun q => (bounds l).1 ≤ q.1 && q.2.1 ≤ (bounds l).2) = true ∧
    (lowerRuns.all fun r : Run => stretches.all fun l =>
      r.liesOutside (bounds l).1 (bounds l).2 || l.all r.keepsOut) = true ∧
    (lowerRuns.all fun r => Run.keepsOut r (0x130, 0x130, 1, 0)) = true ∧ ∀ r ∈ lowerRuns.tail, 0x80 ≤ r.1 := by
  decide +kernel

/-- **No run of the table is shifted into another or into itself.** -/
theorem keepsOut_of_mem (hr : r ∈ lowerRuns) (hq : q ∈ lowerRuns) : r.keepsOut q = true := by
  obtain ⟨htable, hwithin, houtside, -⟩ := table_spec
  rw [← htable] at hq
  obtain ⟨l, hl, hq⟩ := List.mem_flatten.1 hq
  have hstretch := List.all_eq_true.1 (List.all_eq_true.1 houtside r hr) l hl
  rw [Bool.or_eq_true] at hstretch
  rcases hstretch with hlies | hall
  · have hin := List.all_eq_true.1 (List.all_eq_true.1 hwithin l hl) q hq
    simp only [Bool.and_eq_true, decide_eq_true_eq] at hin
    exact keepsOut_of_liesOutside hlies hin.1 hin.2
  · exact List.all_eq_true.1 hall q hq

end Run

/-! ## Characters -/

/-- The lowercase form of a character by the run it belongs to. -/
def lowerByRun (c : Char) : List Char :=
  match lowerRuns.find? (Run.has · c.toNat) with
  | some r => [Char.ofNat (Run.shifted r c.toNat)]
  | none => [c]

/-- The letters `A` to `Z`, the first run of the table. -/
def capitals : Run := (0x41, 0x5A, 1, 32)

theorem capitals_has_iff {n : ℕ} : capitals.has n = true ↔ 0x41 ≤ n ∧ n ≤ 0x5A := by
  change (decide (0x41 ≤ n) && decide (n ≤ 0x5A) && (n - 0x41) % 1 == 0) = true ↔ 0x41 ≤ n ∧ n ≤ 0x5A
  simp [Nat.mod_one]

theorem toLower_eq_ite (c : Char) :
    c.toLower = if capitals.has c.toNat then Char.ofNat (capitals.shifted c.toNat) else c := by
  have hrange : (c.val ≥ 'A'.val ∧ c.val ≤ 'Z'.val) ↔ capitals.has c.toNat = true := capitals_has_iff.symm
  by_cases hcapital : capitals.has c.toNat = true
  · rw [if_pos hcapital]
    refine (dif_pos (hrange.2 hcapital)).trans ?_
    rw [capitals_has_iff] at hcapital
    have hshift : capitals.shifted c.toNat = c.toNat + 32 := Int.toNat_natCast (c.toNat + 32)
    have hvalid : (c.toNat + 32).isValidChar := Or.inl (by omega)
    have hvalue : Char.ofNat (c.toNat + 32) = Char.ofNatAux (c.toNat + 32) hvalid := by
      rw [Char.ofNat, dif_pos hvalid]
    rw [hshift, hvalue]
    refine Char.ext (UInt32.toNat_inj.1 ?_)
    have hadd : (c.val + ('a'.val - 'A'.val)).toNat = (c.toNat + 32) % 4294967296 := UInt32.toNat_add _ _
    rw [hadd, Nat.mod_eq_of_lt (by omega)]
    rfl
  · rw [if_neg hcapital]
    exact dif_neg fun h => hcapital (hrange.1 h)

/-- **Below `0x80` only the letters `A` to `Z`** are in a run. -/
theorem lowerByRun_ascii {c : Char} (h : c.toNat < 0x80) : lowerByRun c = [c.toLower] := by
  have hnone : lowerRuns.tail.find? (Run.has · c.toNat) = none := by
    rw [List.find?_eq_none]
    intro r hr
    have hfirst := Run.table_spec.2.2.2.2 r hr
    simp only [Run.has, Bool.and_eq_true, decide_eq_true_eq]
    omega
  have htable : lowerRuns = capitals :: lowerRuns.tail := rfl
  rw [toLower_eq_ite, lowerByRun, htable]
  cases hcapital : capitals.has c.toNat with
  | true => simp only [List.find?_cons, hcapital, if_true]
  | false => simp only [List.find?_cons, hcapital, hnone, Bool.false_eq_true, if_false]

/-- **All characters but one go by the runs**, those below `0x80` as well. -/
theorem lowerChar_eq_lowerByRun {c : Char} (h : c.toNat ≠ 0x130) : lowerChar c = lowerByRun c := by
  unfold lowerChar
  by_cases hascii : c.toNat < 0x80
  · rw [if_pos hascii, lowerByRun_ascii hascii]
  · rw [if_neg hascii, if_neg h]
    rfl

/-- Characters that are written without a look at the table, or in place of an invalid one. -/
def writtenApart : List Char := ['\x00', 'i', Char.ofNat 0x307, 'σ', 'ς']

/-- They are in lower case already, and two of them have case. -/
theorem writtenApart_spec : (writtenApart.all fun c => lowerChar c == [c]) = true ∧ lowerChar 'Σ' = ['σ'] ∧
    meetsCased ['i'] = true ∧ meetsCased ['σ'] = true := by
  decide +kernel

theorem lowerChar_of_mem_writtenApart {c : Char} (h : c ∈ writtenApart) : lowerChar c = [c] :=
  beq_iff_eq.1 (List.all_eq_true.1 writtenApart_spec.1 c h)

/-- The one character whose lowercase form is two. -/
theorem mem_writtenApart_of_dotted {c d : Char} (hc : c.toNat = 0x130) (h : d ∈ lowerChar c) : d ∈ writtenApart := by
  have hdotted : c = Char.ofNat 0x130 := by rw [← hc, Char.ofNat_toNat]
  have hd : d ∈ ['i', Char.ofNat 0x307] := by
    rw [hdotted] at h
    exact h
  exact List.mem_cons_of_mem _ (List.mem_append_left ['σ', 'ς'] hd)

/-- Either form of sigma. -/
theorem mem_writtenApart_of_sigma {done rest : List Char} {d : Char} (h : d ∈ lowerIn done 'Σ' rest) :
    d ∈ writtenApart := by
  rw [lowerIn, if_pos rfl, List.mem_singleton] at h
  subst h
  cases meetsCased done && !meetsCased rest <;> decide

/-- **A character in no run** is its own lowercase form. -/
theorem lowerChar_eq_self {c : Char} (h : c.toNat ≠ 0x130) (hruns : ∀ q ∈ lowerRuns, Run.has q c.toNat = false) :
    lowerChar c = [c] := by
  have hnone : lowerRuns.find? (Run.has · c.toNat) = none := by
    rw [List.find?_eq_none]
    intro q hq
    rw [hruns q hq]
    exact Bool.false_ne_true
  rw [lowerChar_eq_lowerByRun h, lowerByRun, hnone]

/-- A number is that of a character, or another character stands for it. -/
theorem ofNat_cases (n : ℕ) : (Char.ofNat n).toNat = n ∨ Char.ofNat n = '\x00' := by
  by_cases hvalid : n.isValidChar
  · refine Or.inl ?_
    rw [Char.ofNat, dif_pos hvalid]
    rfl
  · refine Or.inr ?_
    rw [Char.ofNat, dif_neg hvalid]
    rfl

/-- The lowercase form of a member of a run is in no run. -/
theorem lowerChar_shifted {r : Run} {n : ℕ} (hr : r ∈ lowerRuns) (hn : r.has n = true) :
    lowerChar (Char.ofNat (r.shifted n)) = [Char.ofNat (r.shifted n)] := by
  have hdotted := List.all_eq_true.1 Run.table_spec.2.2.2.1 r hr
  rcases ofNat_cases (r.shifted n) with htoNat | hzero
  · refine lowerChar_eq_self ?_ ?_
    · rw [htoNat]
      intro heq
      have hnot := Run.has_shifted hdotted hn
      rw [heq] at hnot
      exact absurd hnot (by decide)
    · intro q hq
      rw [htoNat]
      exact Run.has_shifted (Run.keepsOut_of_mem hr hq) hn
  · rw [hzero]
    exact lowerChar_of_mem_writtenApart List.mem_cons_self

/-- Each character of a lowercase form is its own. -/
theorem lowerChar_of_mem_lowerChar {c d : Char} (h : d ∈ lowerChar c) : lowerChar d = [d] := by
  by_cases hdotted : c.toNat = 0x130
  · exact lowerChar_of_mem_writtenApart (mem_writtenApart_of_dotted hdotted h)
  · rw [lowerChar_eq_lowerByRun hdotted, lowerByRun] at h
    cases hfind : lowerRuns.find? (Run.has · c.toNat) with
    | none =>
      simp only [hfind, List.mem_singleton] at h
      subst h
      rw [lowerChar_eq_lowerByRun hdotted, lowerByRun, hfind]
    | some r =>
      simp only [hfind, List.mem_singleton] at h
      subst h
      have hhas := List.find?_some hfind
      exact lowerChar_shifted (List.mem_of_find?_eq_some hfind) hhas

variable {done s : List Char} {c d : Char}

/-- **Each character that is written** is its own lowercase form. -/
theorem lowerChar_of_mem_lowerIn {rest : List Char} (h : d ∈ lowerIn done c rest) : lowerChar d = [d] := by
  by_cases hc : c = 'Σ'
  · subst hc
    exact lowerChar_of_mem_writtenApart (mem_writtenApart_of_sigma h)
  · rw [lowerIn, if_neg hc] at h
    exact lowerChar_of_mem_lowerChar h

theorem lowerChar_ne_nil (c : Char) : lowerChar c ≠ [] := by
  unfold lowerChar
  split_ifs
  · simp
  · simp
  · split <;> simp

theorem lowerIn_ne_nil (done : List Char) (c : Char) (rest : List Char) : lowerIn done c rest ≠ [] := by
  unfold lowerIn
  split
  · simp
  · exact lowerChar_ne_nil c

/-! ## Texts -/

theorem lowerChar_of_mem_lowered (h : d ∈ lowered done s) : lowerChar d = [d] := by
  induction s generalizing done with
  | nil => cases h
  | cons c s ih =>
    rcases List.mem_append.1 h with h | h
    · exact lowerChar_of_mem_lowerIn h
    · exact ih h

/-- A capital sigma is not its own lowercase form, so such characters do not look around. -/
theorem lowerIn_eq_self (h : lowerChar c = [c]) (done rest : List Char) : lowerIn done c rest = [c] := by
  have hsigma : c ≠ 'Σ' := by
    rintro rfl
    rw [writtenApart_spec.2.1] at h
    exact absurd h (by decide)
  rw [lowerIn, if_neg hsigma, h]

theorem lowered_eq_self (h : ∀ c ∈ s, lowerChar c = [c]) (done : List Char) : lowered done s = s := by
  induction s generalizing done with
  | nil => rfl
  | cons c s ih =>
    obtain ⟨hc, hs⟩ := List.forall_mem_cons.1 h
    rw [lowered, lowerIn_eq_self hc, ih hs]
    rfl

/-- **A text is in lower case** if each of its characters is its own lowercase form. -/
theorem lower_eq_self_iff {s : String} : lower s = s ↔ ∀ c ∈ s.toList, lowerChar c = [c] := by
  rw [← String.toList_inj, toList_lower, lowerChars_eq]
  constructor
  · intro h c hc
    rw [← h] at hc
    exact lowerChar_of_mem_lowered hc
  · exact fun h => lowered_eq_self h []

/-- **Lowercasing a second time changes nothing.** -/
@[simp]
theorem lower_lower (s : String) : lower (lower s) = lower s := by
  rw [lower_eq_self_iff, toList_lower, lowerChars_eq]
  exact fun c => lowerChar_of_mem_lowered

/-- Only of nothing nothing is written. -/
theorem lower_eq_empty_iff {s : String} : lower s = "" ↔ s = "" := by
  rw [← String.toList_eq_nil_iff, ← String.toList_eq_nil_iff, toList_lower, lowerChars_eq]
  cases s.toList with
  | nil => simp [lowered]
  | cons c rest => simp [lowered, lowerIn_ne_nil]

/-! ## Characters that are written for themselves only -/

/-- Whether a character is the lowercase form of no other: no run is shifted to it, and it is
not one of those that are written apart. -/
def isOwnOnly (d : Char) : Bool :=
  (lowerRuns.all fun r => Run.keepsOut r (d.toNat, d.toNat, 1, 0)) && !writtenApart.contains d

theorem eq_of_mem_lowerChar (hd : isOwnOnly d = true) (h : d ∈ lowerChar c) : c = d := by
  simp only [isOwnOnly, Bool.and_eq_true, List.all_eq_true, Bool.not_eq_true', List.contains_eq_mem,
    decide_eq_false_iff_not] at hd
  obtain ⟨hruns, hapart⟩ := hd
  by_cases hdotted : c.toNat = 0x130
  · exact absurd (mem_writtenApart_of_dotted hdotted h) hapart
  · rw [lowerChar_eq_lowerByRun hdotted, lowerByRun] at h
    cases hfind : lowerRuns.find? (Run.has · c.toNat) with
    | none =>
      simp only [hfind, List.mem_singleton] at h
      exact h.symm
    | some r =>
      simp only [hfind, List.mem_singleton] at h
      subst h
      have hhas := List.find?_some hfind
      have hout := Run.has_shifted (hruns r (List.mem_of_find?_eq_some hfind)) hhas
      rcases ofNat_cases (Run.shifted r c.toNat) with htoNat | hzero
      · -- it would be in the run that has it alone
        rw [htoNat] at hout
        simp [Run.has] at hout
      · rw [hzero] at hapart
        exact absurd List.mem_cons_self hapart

/-- What is written in a place is such a character only if the same character stands there. -/
theorem eq_of_mem_lowerIn {rest : List Char} (hd : isOwnOnly d = true) (h : d ∈ lowerIn done c rest) : c = d := by
  by_cases hc : c = 'Σ'
  · subst hc
    simp [isOwnOnly, mem_writtenApart_of_sigma h] at hd
  · rw [lowerIn, if_neg hc] at h
    exact eq_of_mem_lowerChar hd h

/-- **Such a character stands in the lowercase form** of a text only if it stands in the
text. -/
theorem mem_of_mem_lowered (hd : isOwnOnly d = true) (h : d ∈ lowered done s) : d ∈ s := by
  induction s generalizing done with
  | nil => cases h
  | cons c s ih =>
    rcases List.mem_append.1 h with hfirst | hrest
    · exact List.mem_cons.2 (Or.inl (eq_of_mem_lowerIn hd hfirst).symm)
    · exact List.mem_cons_of_mem c (ih hrest)

end CodeAtlas.Text
