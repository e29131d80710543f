import CodeAtlas.Proofs.Generation.Prompts
import CodeAtlas.Proofs.Text.Tags

/-!
# What sanitizing leaves

Control tokens are taken out of a text one kind after the other, each kind in one pass. A token that
is torn apart by others joins when these are gone, and if its own pass is over by then it stays.
Nothing else goes wrong: the text is clean exactly if no token is torn in this way, and exactly then
sanitizing it again changes nothing.

* `takeOut`: some tokens, one after the other; `sanitize` takes out all of them.
* `Torn`: a token that joins too late.
* `BrokenOff`, `Torn.brokenOff`: what such a token looks like in the text.
* `sanitize_clean_iff`: **when sanitizing leaves a clean text.**
-/

namespace CodeAtlas

/-- Takes out some tokens, one kind after the other. -/
def takeOut (tokens : List String) (text : String) : String := tokens.foldl (fun s token => Text.replace s token "") text

/-- **A control token is torn** in a text if it stands there around texts of which sanitizing leaves nothing, and
after the passes before its own something is left of one of them. -/
def Torn (t s : String) : Prop :=
  ∃ gaps : List String, gaps.length + 1 = t.length ∧ Text.spread t.toList (gaps.map String.toList) <:+: s.toList ∧
    (∀ g ∈ gaps, sanitize g = "") ∧ ∃ g ∈ gaps, takeOut (controlTokens.takeWhile (· ≠ t)) g ≠ ""

/-- **A beginning of a control token is broken off** in a text: an opening bracket stands where the token would go
on. -/
def BrokenOff (s : String) : Prop :=
  ∃ t ∈ controlTokens, ∃ p, p ≠ [] ∧ p <+: t.toList ∧ p ≠ t.toList ∧ p ++ ['<'] <:+: s.toList

theorem sanitize_eq_takeOut (s : String) : sanitize s = takeOut controlTokens s := rfl

theorem toList_takeOut (tokens : List String) (s : String) :
    (takeOut tokens s).toList = Text.withoutEach (tokens.map String.toList) s.toList := by
  unfold takeOut
  induction tokens generalizing s with
  | nil => rfl
  | cons t tokens ih =>
    rw [List.foldl_cons, ih, Text.toList_replace_empty]
    rfl

/-- **Control tokens are tags.** -/
theorem isTag_of_mem_controlTokens : ∀ t ∈ controlTokens, Text.IsTag t.toList := by
  have hall : ∀ t ∈ controlTokens, t.toList = '<' :: t.toList.tail ∧ Text.IsTail t.toList.tail := by decide
  exact fun t ht => ⟨t.toList.tail, hall t ht⟩

theorem takeOut_eq_empty_iff (tokens : List String) (g : String) :
    takeOut tokens g = "" ↔ Text.withoutEach (tokens.map String.toList) g.toList = [] := by
  rw [← toList_takeOut, String.toList_eq_nil_iff]

/-- The passes before the one for a token. -/
theorem takeWhile_toList (t : String) (tokens : List String) :
    (tokens.map String.toList).takeWhile (· ≠ t.toList) = (tokens.takeWhile (· ≠ t)).map String.toList := by
  rw [List.takeWhile_map]
  congr 2
  funext u
  simp [Function.comp, String.toList_inj]

theorem isTag_of_mem_map_toList : ∀ l ∈ controlTokens.map String.toList, Text.IsTag l := by
  intro l hl
  obtain ⟨t, ht, rfl⟩ := List.mem_map.1 hl
  exact isTag_of_mem_controlTokens t ht

/-- A token that is torn is broken off. -/
theorem Torn.brokenOff {t s : String} (ht : t ∈ controlTokens) (h : Torn t s) : BrokenOff s := by
  obtain ⟨gaps, hlength, hin, hgone, g, hg, hleft⟩ := h
  have hlength : (gaps.map String.toList).length + 1 = t.toList.length := by rwa [List.length_map, String.length_toList]
  have hclosed : ∀ l ∈ gaps.map String.toList, Text.IsClosed l := by
    intro l hl
    obtain ⟨x, hx, rfl⟩ := List.mem_map.1 hl
    refine Text.isClosed_of_withoutEach isTag_of_mem_map_toList ?_
    rw [← takeOut_eq_empty_iff]
    exact hgone x hx
  have htorn : g.toList ≠ [] := by
    intro hnil
    -- of nothing nothing is left, whatever is taken out
    have htokens : ∀ l ∈ (controlTokens.takeWhile (· ≠ t)).map String.toList, l ≠ [] := by
      intro l hl
      obtain ⟨u, hu, rfl⟩ := List.mem_map.1 hl
      exact (isTag_of_mem_controlTokens u (List.takeWhile_subset _ hu)).ne_nil
    have hlen := Text.length_withoutEach_le htokens g.toList
    rw [hnil, List.length_nil, Nat.le_zero, List.length_eq_zero_iff] at hlen
    refine hleft ?_
    rw [takeOut_eq_empty_iff, hnil]
    exact hlen
  obtain ⟨p, hne, hpre, hproper, hbroken⟩ :=
    Text.exists_prefix_spread hlength hclosed ⟨g.toList, List.mem_map_of_mem hg, htorn⟩
  exact ⟨t, ht, p, hne, hpre, hproper, hbroken.isInfix.trans hin⟩

/-- **Which control tokens are left.** -/
theorem infix_sanitize_iff {t : String} (ht : t ∈ controlTokens) (s : String) :
    t.toList <:+: (sanitize s).toList ↔ Torn t s := by
  have hnd : (controlTokens.map String.toList).Nodup := by decide
  have hmem : t.toList ∈ controlTokens.map String.toList := List.mem_map_of_mem ht
  rw [sanitize_eq_takeOut, toList_takeOut, Text.infix_withoutEach_iff isTag_of_mem_map_toList hnd (isTag_of_mem_controlTokens t ht)]
  constructor
  · rintro ⟨gaps, hlength, hin, hgone, hlate⟩
    have hgaps : (gaps.map String.ofList).map String.toList = gaps := by simp
    refine ⟨gaps.map String.ofList, by rwa [List.length_map, ← String.length_toList], by rwa [hgaps], ?_, ?_⟩
    · intro g hg
      obtain ⟨l, hl, rfl⟩ := List.mem_map.1 hg
      rw [sanitize_eq_takeOut, takeOut_eq_empty_iff, String.toList_ofList]
      exact hgone l hl
    · obtain ⟨l, hl, hleft⟩ := hlate hmem
      refine ⟨String.ofList l, List.mem_map_of_mem hl, ?_⟩
      rw [takeWhile_toList] at hleft
      rwa [ne_eq, takeOut_eq_empty_iff, String.toList_ofList]
  · rintro ⟨gaps, hlength, hin, hgone, g, hg, hleft⟩
    have hlength : (gaps.map String.toList).length + 1 = t.toList.length := by rwa [List.length_map, String.length_toList]
    refine ⟨gaps.map String.toList, hlength, hin, ?_, fun _ => ⟨g.toList, List.mem_map_of_mem hg, ?_⟩⟩
    · intro l hl
      obtain ⟨x, hx, rfl⟩ := List.mem_map.1 hl
      rw [← takeOut_eq_empty_iff]
      exact hgone x hx
    · rwa [takeWhile_toList, ne_eq, ← takeOut_eq_empty_iff]

/-- Sanitizing changes nothing exactly if there is no control token. -/
theorem sanitize_eq_self_iff (s : String) : sanitize s = s ↔ TokenFree s := by
  have hne : ∀ l ∈ controlTokens.map String.toList, l ≠ [] := by decide
  rw [← String.toList_inj, sanitize_eq_takeOut, toList_takeOut, Text.withoutEach_eq_self_iff hne, tokenFree_iff]
  exact List.forall_mem_map

/-- **When sanitizing leaves a clean text.** No control token is left exactly if none is torn in the text, and
exactly then sanitizing once more changes nothing. So it is where no beginning of a control token is broken off. The
text itself is left as it is exactly if it has no control token. -/
theorem sanitize_clean_iff (s : String) :
    (TokenFree (sanitize s) ↔ ∀ t ∈ controlTokens, ¬Torn t s) ∧
      (sanitize (sanitize s) = sanitize s ↔ ∀ t ∈ controlTokens, ¬Torn t s) ∧
      (¬BrokenOff s → TokenFree (sanitize s)) ∧ (sanitize s = s ↔ TokenFree s) := by
  have hclean : TokenFree (sanitize s) ↔ ∀ t ∈ controlTokens, ¬Torn t s := by
    rw [tokenFree_iff]
    exact forall₂_congr fun t ht => not_congr (infix_sanitize_iff ht s)
  refine ⟨hclean, (sanitize_eq_self_iff _).trans hclean, ?_, sanitize_eq_self_iff s⟩
  intro hwhole
  rw [hclean]
  exact fun t ht htorn => hwhole (htorn.brokenOff ht)

/-- A token around one of a later kind is left, and one around an earlier kind is not. -/
example : sanitize "<|im_<|im_end|>start|>" = "<|im_start|>" ∧ sanitize "<|im_<|im_start|>end|>" = "" := by
  decide +kernel

end CodeAtlas
