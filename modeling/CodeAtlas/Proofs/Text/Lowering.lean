import CodeAtlas.Text.Lower
import Mathlib.Data.List.Basic

/-!
# Lowercase text in pieces

Lowercasing goes from character to character. Only a capital sigma looks around: at the
nearest character on either side that is not ignored for case. So a text can be cut at
characters that are neither ignored nor cased (`stops`), and its pieces be lowercased
apart. Without the two lowercase forms of sigma being told apart (`foldSigma`) it can be
cut anywhere.

* `lowered_append`, `lowered_append_stops`: a text in two pieces.
* `lowerChars_mark`: a text around fixed words.
* `map_foldSigma_lowered`: the lowercase form of a text, character by character.
-/

namespace CodeAtlas.Text

/-- The lowercase form of a character, after what stands before it, nearest first, and
before what follows. -/
def lowerIn (done : List Char) (c : Char) (rest : List Char) : List Char :=
  if c = 'Σ' then [if meetsCased done && !meetsCased rest then 'ς' else 'σ'] else lowerChar c

/-- The lowercase form of a text after what stands before it, nearest first. -/
def lowered (done : List Char) : List Char → List Char
  | [] => []
  | c :: rest => lowerIn done c rest ++ lowered (c :: done) rest

/-- Whether the first character that is not ignored for case has no case, and there is
one. -/
def stops (l : List Char) : Bool := (l.find? fun c => !isCaseIgnorable c).any fun c => !isCased c

/-- Both lowercase forms of sigma as one. -/
def foldSigma (c : Char) : Char := if c = 'ς' then 'σ' else c

theorem lowerFrom_eq (done out s : List Char) : lowerFrom done out s = out.reverse ++ lowered done s := by
  induction s generalizing done out with
  | nil => simp [lowerFrom, lowered]
  | cons c rest ih =>
    unfold lowerFrom lowered lowerIn
    split
    · simp [ih]
    · simp [ih]

theorem lowerChars_eq (s : List Char) : lowerChars s = lowered [] s := lowerFrom_eq [] [] s

theorem toList_lower (s : String) : (lower s).toList = lowerChars s.toList := String.toList_ofList

variable {done l s t : List Char}

/-! ## Looking around -/

theorem meetsCased_cons_of_ignorable {c : Char} (h : isCaseIgnorable c = true) (s : List Char) :
    meetsCased (c :: s) = meetsCased s := by
  unfold meetsCased
  rw [List.find?_cons_of_neg (by simp [h])]

theorem meetsCased_cons_of_not_ignorable {c : Char} (h : isCaseIgnorable c = false) (s : List Char) :
    meetsCased (c :: s) = isCased c := by
  unfold meetsCased
  rw [List.find?_cons_of_pos (by simp [h])]

/-! ## Cutting a text -/

theorem meetsCased_append_stops (h : stops l = true) (s : List Char) : meetsCased (s ++ l) = meetsCased s := by
  unfold stops at h
  unfold meetsCased
  rw [List.find?_append]
  cases hs : s.find? fun c => !isCaseIgnorable c with
  | some c => rfl
  | none =>
    cases hl : l.find? fun c => !isCaseIgnorable c with
    | none => simp [hl] at h
    | some c => simpa [hl] using h

theorem stops_append (h : stops s = true) (t : List Char) : stops (s ++ t) = true := by
  unfold stops at h ⊢
  rw [List.find?_append]
  cases hs : s.find? fun c => !isCaseIgnorable c with
  | none => simp [hs] at h
  | some c => simpa [hs] using h

/-- **A text before a piece that stops** the look ahead. -/
theorem lowered_append (h : stops t = true) (done s : List Char) :
    lowered done (s ++ t) = lowered done s ++ lowered (s.reverse ++ done) t := by
  induction s generalizing done with
  | nil => rfl
  | cons c s ih =>
    have hahead : lowerIn done c (s ++ t) = lowerIn done c s := by
      unfold lowerIn
      rw [meetsCased_append_stops h]
    simp only [List.cons_append, lowered, hahead, ih, List.reverse_cons, List.append_assoc, List.nil_append]

/-- **A text after a piece that stops** the look back. -/
theorem lowered_append_stops (h : stops l = true) (done s : List Char) :
    lowered (done ++ l) s = lowered done s := by
  induction s generalizing done with
  | nil => rfl
  | cons c s ih =>
    have hback : lowerIn (done ++ l) c s = lowerIn done c s := by
      unfold lowerIn
      rw [meetsCased_append_stops h]
    have hrest := ih (c :: done)
    rw [List.cons_append] at hrest
    simp only [lowered, hback, hrest]

/-- A piece without a capital sigma does not look around. -/
theorem lowered_append_of_notMem (h : 'Σ' ∉ s) (done t : List Char) :
    lowered done (s ++ t) = s.flatMap lowerChar ++ lowered (s.reverse ++ done) t := by
  induction s generalizing done with
  | nil => rfl
  | cons c s ih =>
    have hc : c ≠ 'Σ' := fun e => h (e ▸ List.mem_cons_self)
    have hs : 'Σ' ∉ s := fun hs => h (List.mem_cons_of_mem c hs)
    simp only [List.cons_append, lowered, lowerIn, hc, if_false, ih hs, List.flatMap_cons, List.reverse_cons,
      List.append_assoc, List.nil_append]

/-! ## Fixed words -/

/-- Fixed words in lower case without a sigma, that stop the look ahead and the look
back. -/
def isMark (l : List Char) : Bool :=
  !l.contains 'Σ' && l.flatMap lowerChar == l && stops l && stops l.reverse

theorem isMark_iff :
    isMark l = true ↔ 'Σ' ∉ l ∧ l.flatMap lowerChar = l ∧ stops l = true ∧ stops l.reverse = true := by
  simp [isMark, and_assoc]

/-- **A text around fixed words** is lowercased piece by piece. -/
theorem lowerChars_mark (h : isMark l = true) (s t : List Char) :
    lowerChars (s ++ (l ++ t)) = lowerChars s ++ (l ++ lowerChars t) := by
  obtain ⟨hsigma, hlower, hahead, hback⟩ := isMark_iff.1 h
  have hcut : stops (l.reverse ++ (s.reverse ++ [])) = true := stops_append hback _
  have hrest : lowered (l.reverse ++ (s.reverse ++ [])) t = lowered [] t := by
    rw [← lowered_append_stops hcut [] t, List.nil_append]
  simp only [lowerChars_eq]
  rw [lowered_append (stops_append hahead t), lowered_append_of_notMem hsigma, hlower, hrest]

/-! ## Sigma -/

theorem foldSigma_eq_self {c : Char} (h : c ≠ 'ς') : foldSigma c = c := if_neg h

theorem map_foldSigma_lowerIn (done : List Char) (c : Char) (rest : List Char) :
    (lowerIn done c rest).map foldSigma = (lowerChar c).map foldSigma := by
  unfold lowerIn
  split
  · rename_i hc
    subst hc
    cases meetsCased done && !meetsCased rest <;> decide
  · rfl

/-- **Where the forms of sigma are not told apart**, no character looks around. -/
theorem map_foldSigma_lowered (done s : List Char) :
    (lowered done s).map foldSigma = (s.flatMap lowerChar).map foldSigma := by
  induction s generalizing done with
  | nil => rfl
  | cons c s ih => simp only [lowered, List.map_append, map_foldSigma_lowerIn, ih, List.flatMap_cons]

/-- A text without a sigma stands where it stands with the forms of sigma as one. -/
theorem infix_of_map_foldSigma {p : List Char} (hp : 'σ' ∉ p ∧ 'ς' ∉ p)
    (h : p.map foldSigma <:+: s.map foldSigma) : p <:+: s := by
  obtain ⟨hsigma, hfinal⟩ := hp
  have hself : p.map foldSigma = p := by
    rw [List.map_congr_left fun c hc => foldSigma_eq_self fun e => hfinal (e ▸ hc), List.map_id']
  rw [hself, List.infix_map_iff] at h
  obtain ⟨q, hq, rfl⟩ := h
  have hplain : ∀ c ∈ q, foldSigma c = c := by
    intro c hc
    refine foldSigma_eq_self ?_
    rintro rfl
    exact hsigma (List.mem_map.2 ⟨'ς', hc, rfl⟩)
  rwa [List.map_congr_left hplain, List.map_id']

end CodeAtlas.Text
