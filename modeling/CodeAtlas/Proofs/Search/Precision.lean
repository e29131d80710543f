import CodeAtlas.Proofs.Search.Ranking

/-!
# How exact scores are

The score of a file is computed with floats: a quotient, and with a generator's score two products
and a sum. Each of these steps rounds, and so do the two weights.

* `Countable`: matches that can be counted and summed.
* `number?_average_near`: an average is near the mean.
* `number?_blend_near`: a blend is near that of exact numbers with exact weights.
* `SearchResult.HasScore.near`: **a score is within `2 ^ -44` of the exact one.**
-/

namespace CodeAtlas.Search

open Decimal

/-- What is of the size of a score is rounded at the 47th binary place. -/
theorem abs_sub_le_of_rounds {q r : ℚ} (h : Rounds q r) (hq : 0 ≤ q) (hlt : q < 128) : |r - q| ≤ 1 / 2 ^ 47 := by
  have hnear := h.abs_sub_le_two_zpow hq (e := 7) (by decide) (by norm_num; exact hlt)
  norm_num at hnear ⊢
  exact hnear

/-! ## Averages -/

/-- **The matches of a file can be counted and summed**: their scores are at most 100, and neither
their sum nor their number is too large to be computed. -/
structure Countable (ms : List Match) : Prop where
  scores : ∀ m ∈ ms, m.score ≤ 100
  sum_lt : (ms.map (·.score)).sum < 2 ^ 32
  length_lt : ms.length < 2 ^ 53

theorem Countable.mean_bounds {ms : List Match} (h : Countable ms) : 0 ≤ mean ms ∧ mean ms ≤ 100 := by
  have hsum := (sum_bounds 0 100 fun m hm => ⟨Nat.zero_le _, h.scores m hm⟩).2
  unfold mean
  refine ⟨by positivity, div_le_of_le_mul₀ (by positivity) (by norm_num) ?_⟩
  exact_mod_cast hsum

/-- **An average is near the mean.** -/
theorem number?_average_near {f : FileMatches} (h : Countable f.matched) :
    ∃ p, number? (average f) = some p ∧ p ≤ 100 ∧ |p - mean f.matched| ≤ 1 / 2 ^ 47 := by
  by_cases hnone : f.matched = []
  · refine ⟨0, ?_, by norm_num, ?_⟩
    · simp [average, hnone, number?_zero]
    · simp [mean, hnone]
  have hlen : 0 < f.matched.length := List.length_pos_of_ne_nil hnone
  obtain ⟨hlow, hhigh⟩ := h.mean_bounds
  have hmod := Nat.mod_eq_of_lt (show (f.matched.map (·.score)).sum < UInt32.size from h.sum_lt)
  have hround : IsRounding (average f) (mean f.matched) := by
    rw [average_eq, if_neg (by simpa using hnone), hmod]
    exact isRounding_div (number?_ofNat (lt_trans h.sum_lt (by norm_num))) (number?_ofNat h.length_lt)
      (by exact_mod_cast hlen)
  obtain ⟨p, hp, hnum⟩ := hround.exists_number? hlow (hhigh.trans (by norm_num))
  exact ⟨p, hnum, hp.le_short (isShort_natCast (n := 100) (by decide)) hlow hhigh,
    abs_sub_le_of_rounds hp hlow (by linarith)⟩

/-! ## Blends -/

/-- **A part of a blend**: the product with a weight that is itself rounded. -/
theorem number?_mul_near {a b : Float} {w p c : ℚ} (hw : number? a = some w) (hlow : c - 1 / 2 ^ 53 ≤ w)
    (hhigh : w ≤ c) (hc : c ≤ 7 / 10) (hp : number? b = some p) (hp100 : p ≤ 100) :
    ∃ y, number? (a * b) = some y ∧ |y - c * p| ≤ 3 / 2 ^ 47 := by
  have hp0 := number?_nonneg hp
  have hprod0 : 0 ≤ w * p := mul_nonneg (number?_nonneg hw) hp0
  have hprod : w * p ≤ 100 := (mul_le_of_le_one_left hp0 (by linarith)).trans hp100
  obtain ⟨y, hy, hnum⟩ := (isRounding_mul hw hp).exists_number? hprod0 (hprod.trans (by norm_num))
  refine ⟨y, hnum, ?_⟩
  have hround : |y - w * p| ≤ 1 / 2 ^ 47 := abs_sub_le_of_rounds hy hprod0 (by linarith)
  have hweight : |w * p - c * p| ≤ 2 / 2 ^ 47 := by
    have hnear : |w - c| ≤ 1 / 2 ^ 53 := abs_le.2 ⟨by linarith, by linarith⟩
    rw [← sub_mul, abs_mul, abs_of_nonneg hp0]
    calc |w - c| * p ≤ 1 / 2 ^ 53 * 100 := mul_le_mul hnear hp100 hp0 (by positivity)
      _ ≤ 2 / 2 ^ 47 := by norm_num
  calc |y - c * p| ≤ |y - w * p| + |w * p - c * p| := abs_sub_le _ _ _
    _ ≤ 1 / 2 ^ 47 + 2 / 2 ^ 47 := add_le_add hround hweight
    _ = 3 / 2 ^ 47 := by ring

/-- **A blend is near that of exact numbers.** -/
theorem number?_blend_near {a x : Float} {p q : ℚ} (ha : number? a = some p) (hp : p ≤ 100)
    (hx : number? x = some q) (hq : q ≤ 100) :
    ∃ r, number? (blend a x) = some r ∧ |r - (3 / 10 * p + 7 / 10 * q)| ≤ 7 / 2 ^ 47 := by
  obtain ⟨v, hv, hvlow, hvhigh⟩ := number?_threeTenths
  obtain ⟨w, hw, hwlow, hwhigh⟩ := number?_sevenTenths
  -- two products and their sum, each of which is rounded once
  obtain ⟨y, hy, hynear⟩ := number?_mul_near hv hvlow hvhigh (by norm_num) ha hp
  obtain ⟨z, hz, hznear⟩ := number?_mul_near hw hwlow hwhigh le_rfl hx hq
  have hsum : |y + z - (3 / 10 * p + 7 / 10 * q)| ≤ 6 / 2 ^ 47 := by
    calc |y + z - (3 / 10 * p + 7 / 10 * q)| = |(y - 3 / 10 * p) + (z - 7 / 10 * q)| := by ring_nf
      _ ≤ |y - 3 / 10 * p| + |z - 7 / 10 * q| := abs_add_le _ _
      _ ≤ 3 / 2 ^ 47 + 3 / 2 ^ 47 := add_le_add hynear hznear
      _ = 6 / 2 ^ 47 := by ring
  have hsum0 : 0 ≤ y + z := add_nonneg (number?_nonneg hy) (number?_nonneg hz)
  have hlt : y + z < 128 := by
    have := (abs_le.1 hsum).2
    norm_num at this
    linarith
  obtain ⟨r, hr, hnum⟩ := (isRounding_add hy hz).exists_number? hsum0 (hlt.le.trans (by norm_num))
  refine ⟨r, hnum, ?_⟩
  have hround : |r - (y + z)| ≤ 1 / 2 ^ 47 := abs_sub_le_of_rounds hr hsum0 hlt
  calc |r - (3 / 10 * p + 7 / 10 * q)| ≤ |r - (y + z)| + |y + z - (3 / 10 * p + 7 / 10 * q)| := abs_sub_le _ _ _
    _ ≤ 1 / 2 ^ 47 + 6 / 2 ^ 47 := add_le_add hround hsum
    _ = 7 / 2 ^ 47 := by ring

/-! ## Scores -/

/-- **A score is near the exact one.** -/
theorem SearchResult.HasScore.near {r : SearchResult} {given : Option ℚ} (h : r.HasScore given)
    (hcount : Countable r.matched) : |r.value - exactScore r.matched given| ≤ 1 / 2 ^ 44 := by
  obtain ⟨p, hp, hp100, hpnear⟩ := number?_average_near (f := r.filed) hcount
  change |p - mean r.matched| ≤ 1 / 2 ^ 47 at hpnear
  cases given with
  | none =>
    have hscore : r.value = p := by simp [value, show r.score = average r.filed from h, hp]
    rw [hscore]
    exact hpnear.trans (by norm_num)
  | some q =>
    obtain ⟨hq, x, hx, hscore⟩ := h
    obtain ⟨s, hs, hsnear⟩ := number?_blend_near hp hp100 hx hq
    have hvalue : r.value = s := by simp [value, hscore, hs]
    -- the blend takes three tenths of the error of the average
    have hmean : |3 / 10 * p + 7 / 10 * q - (3 / 10 * mean r.matched + 7 / 10 * q)| ≤ 1 / 2 ^ 47 := by
      rw [add_sub_add_right_eq_sub, ← mul_sub, abs_mul, abs_of_nonneg (by norm_num : (0 : ℚ) ≤ 3 / 10)]
      exact (mul_le_of_le_one_left (abs_nonneg _) (by norm_num)).trans hpnear
    rw [hvalue, exactScore]
    calc |s - (3 / 10 * mean r.matched + 7 / 10 * q)|
        ≤ |s - (3 / 10 * p + 7 / 10 * q)| + |3 / 10 * p + 7 / 10 * q - (3 / 10 * mean r.matched + 7 / 10 * q)| :=
          abs_sub_le _ _ _
      _ ≤ 7 / 2 ^ 47 + 1 / 2 ^ 47 := add_le_add hsnear hmean
      _ = 1 / 2 ^ 44 := by norm_num

end CodeAtlas.Search
