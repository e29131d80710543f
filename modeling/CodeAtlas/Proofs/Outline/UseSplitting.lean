import CodeAtlas.Proofs.Outline.UseTrees
import Mathlib.Data.List.Forall2

/-!
# The parts of a `use` declaration

A `use` declaration is cut where a brace follows two colons for the first time, and what comes then at every comma.
Without such a place it is cut at its last two colons.

* `SplitAsWritten`: the source and the specifiers of a tree.
* `UseTree.Plain`: the trees, and the layouts of them, that are cut where they are written to be.
* `splitUse_leaf`, `splitUse_tight`, `splitUse_loose`: what becomes of each sort of tree.
* `use_split`: **the source and the specifiers are those of the tree exactly if it is plain.**
-/

namespace CodeAtlas.Outline.Rust

open SyntaxTree
open Text (isBlank)

/-! ## What is meant -/

/-- A text without braces. -/
def NoBrace (s : String) : Prop := '\x7b' ∉ s.toList ∧ '\x7d' ∉ s.toList

/-- A specifier stands for a leaf: it is the new name of the leaf, or a path to its name. -/
def Leaf.Stands : Leaf → String → Prop
  | .name w, s => w.chars <:+ s.toList
  | .renamed _ new, s => s.toList = new.chars
  | .all, s => ['*'] <:+ s.toList

/-- **The source and the specifiers of a tree**: one specifier for each leaf, in order, and no braces. -/
structure SplitAsWritten (t : UseTree) (source : String) (specifiers : List String) : Prop where
  noBrace_source : NoBrace source
  noBrace_specifiers : ∀ s ∈ specifiers, NoBrace s
  stands : List.Forall₂ Leaf.Stands t.leaves specifiers

/-- **What is cut where it is written to be**: a path, if only a name with names before it is renamed, and a list with
its brace right after the colons of a front, of paths of which none is renamed. -/
def UseTree.Plain (l : Layout) : UseTree → Prop
  | .leaf front last => last.isRenamed = true → front.isEmpty = false
  | .list front members _ =>
    front.isEmpty = false ∧ (∀ p, l[front.tokens.length]? = some p → p.1 = []) ∧
      (∀ t ∈ members, t.isLeaf = true) ∧ ∀ leaf ∈ memberLeaves members, leaf.isRenamed = false

/-! ## Cuts -/

variable {s : String} {a b : List Char}

/-- What is made of a list. -/
def listed (b : List Char) : List String :=
  ((Text.splitBy (· == ',') (Text.dropBackAll (String.ofList b) "\x7d")).map Text.trim).filter (· ≠ "")

theorem splitUse_of_first (h : Text.cutFirst? [':', ':', '\x7b'] s.toList = some (a, b)) :
    splitUse s = (String.ofList a, listed b) := by
  have hsplit : Text.splitFirst? s "::\x7b" = some (String.ofList a, String.ofList b) := by
    rw [Text.splitFirst?, show "::\x7b".toList = [':', ':', '\x7b'] from rfl, h]
    rfl
  unfold splitUse
  rw [hsplit]
  rfl

theorem splitFirst?_eq_none (h : Text.cutFirst? [':', ':', '\x7b'] s.toList = none) :
    Text.splitFirst? s "::\x7b" = none := by
  rw [Text.splitFirst?, show "::\x7b".toList = [':', ':', '\x7b'] from rfl, h]
  rfl

theorem splitUse_of_last (hfirst : Text.cutFirst? [':', ':', '\x7b'] s.toList = none)
    (h : Text.cutLast? [':', ':'] s.toList = some (a, b)) :
    splitUse s = (String.ofList a, [renamed (String.ofList b)]) := by
  have hsplit : Text.splitLast? s "::" = some (String.ofList a, String.ofList b) := by
    rw [Text.splitLast?, show "::".toList = [':', ':'] from rfl, h]
    rfl
  unfold splitUse
  rw [splitFirst?_eq_none hfirst, hsplit]

theorem splitUse_of_none (hfirst : Text.cutFirst? [':', ':', '\x7b'] s.toList = none)
    (h : Text.cutLast? [':', ':'] s.toList = none) : splitUse s = (s, [s]) := by
  have hsplit : Text.splitLast? s "::" = none := by
    rw [Text.splitLast?, show "::".toList = [':', ':'] from rfl, h]
    rfl
  unfold splitUse
  rw [splitFirst?_eq_none hfirst, hsplit]

theorem cutFirst?_eq_none_of_notMem (h : '\x7b' ∉ a) : Text.cutFirst? [':', ':', '\x7b'] a = none := by
  rw [← Option.not_isSome_iff_eq_none, Text.isSome_cutFirst?]
  exact fun hin => h (hin.subset (by simp))

/-- The last part of a renamed path, or all of it, without blanks around it. -/
theorem renamed_of_last {piece : List Char} (h : (Text.pieces [' ', 'a', 's', ' '] b).getLast? = some piece) :
    renamed (String.ofList b) = String.ofList (Text.trimChars isBlank piece) := by
  have hsplit : Text.split (String.ofList b) " as " = (Text.pieces [' ', 'a', 's', ' '] b).map String.ofList := by
    rw [Text.split, String.toList_ofList (l := b), show " as ".toList = [' ', 'a', 's', ' '] from rfl]
  rw [renamed, hsplit, List.getLast?_map, h, Option.map_some, Option.getD_some, Text.trim, Text.trimOf,
    String.toList_ofList]

/-! ## Lists -/

/-- The specifiers among the pieces of a text. -/
def specifiersOf (s : List Char) : List String :=
  ((s.splitOnP (· == ',')).map fun piece => String.ofList (Text.trimChars isBlank piece)).filter (· ≠ "")

theorem listed_of_dropped {d : List Char} (h : Text.dropBackAll (String.ofList b) "\x7d" = String.ofList d) :
    listed b = specifiersOf d := by
  rw [listed, h, Text.splitBy_eq, String.toList_ofList, List.map_map, specifiersOf]
  congr 1
  refine List.map_congr_left fun piece _ => ?_
  simp [Text.trim, Text.trimOf]

/-- A character of a list that is no comma and no blank is in one of its specifiers. -/
theorem exists_specifier_of_mem {c : Char} {d : List Char} (hblank : isBlank c = false) (hcomma : c ≠ ',') (h : c ∈ d) :
    ∃ spec ∈ specifiersOf d, c ∈ spec.toList := by
  obtain ⟨piece, hpiece, hc⟩ : ∃ piece ∈ d.splitOnP (· == ','), [c] <:+: piece :=
    Text.infix_splitOnP (by simpa using hcomma) ((List.singleton_infix_iff c d).2 h)
  have hmem : c ∈ Text.trimChars isBlank piece := (Text.mem_trimChars hblank).2 ((List.singleton_infix_iff c piece).1 hc)
  refine ⟨String.ofList (Text.trimChars isBlank piece), List.mem_filter.2 ⟨List.mem_map_of_mem hpiece, ?_⟩, ?_⟩
  · simpa using List.ne_nil_of_mem hmem
  · simpa using hmem

/-- A brace in a list is in one of its specifiers, unless it is at the end. -/
theorem exists_listed_of_mem (h : '\x7b' ∈ b) : ∃ spec ∈ listed b, '\x7b' ∈ spec.toList := by
  obtain ⟨⟨k, hk⟩, -⟩ := (Text.dropBackAll_eq_iff (s := String.ofList b) (w := "\x7d") (by decide)).1 rfl
  rw [listed_of_dropped (String.ofList_toList).symm]
  refine exists_specifier_of_mem (by decide) (by decide) ?_
  rw [String.toList_ofList] at hk
  rw [hk, List.mem_append] at h
  refine h.resolve_right fun hmem => ?_
  obtain ⟨l, hl, hc⟩ := List.mem_flatten.1 hmem
  rw [List.eq_of_mem_replicate hl] at hc
  exact absurd hc (by decide)

/-- The specifiers of a list with no other brace than the one that closes it. -/
theorem listed_eq (h : '\x7d' ∉ b) : listed (b ++ ['\x7d']) = specifiersOf b := by
  refine listed_of_dropped ((Text.dropBackAll_eq_iff (by decide)).2 ⟨⟨1, by simp⟩, ?_⟩)
  intro hsuffix
  have hmem := hsuffix.subset (show '\x7d' ∈ "\x7d".toList by decide)
  rw [String.toList_ofList (l := b)] at hmem
  exact h hmem

/-- A text ends as what comes after a part of it that does not have the last character. -/
theorem getLast?_of_suffix {x y l : List Char} {c : Char} (h : x ++ y <:+ l) (hx : x ≠ []) (hc : c ∉ x)
    (hl : l.getLast? = some c) : y.getLast? = some c := by
  obtain ⟨r, rfl⟩ := h
  rcases List.eq_nil_or_concat y with rfl | ⟨y, d, rfl⟩
  · rw [List.append_nil, List.getLast?_append_of_ne_nil _ hx] at hl
    exact absurd (List.mem_of_getLast? hl) hc
  · rw [List.concat_eq_append, ← List.append_assoc, ← List.append_assoc, List.getLast?_concat] at hl
    simpa using hl

/-- **A list that is not cut at its brace** leaves a brace in the source or in a specifier. -/
theorem splitUse_loose (hs : s.toList = a ++ '\x7b' :: b) (ha : '\x7b' ∉ a) (hloose : ¬[':', ':'] <:+ a)
    (hend : s.toList.getLast? = some '\x7d') :
    ¬(NoBrace (splitUse s).1 ∧ ∀ spec ∈ (splitUse s).2, NoBrace spec) := by
  rintro ⟨hsource, hspecifiers⟩
  cases hfirst : Text.cutFirst? [':', ':', '\x7b'] s.toList with
  | some q =>
    rw [splitUse_of_first hfirst] at hsource
    have hbrace : '\x7b' ∉ q.1 := by simpa [NoBrace] using hsource.1
    -- the first brace has no colons before it
    have hcut := Text.append_of_cutFirst? hfirst
    rw [hs, show q.1 ++ ([':', ':', '\x7b'] ++ q.2) = (q.1 ++ [':', ':']) ++ '\x7b' :: q.2 by simp] at hcut
    have hnot : '\x7b' ∉ q.1 ++ [':', ':'] := by simp [hbrace]
    have hsame := Text.cutFirst?_eq_some_iff.2 ⟨hcut, hnot⟩
    rw [Text.cutFirst?_eq_some_iff.2 ⟨rfl, ha⟩] at hsame
    obtain ⟨rfl, -⟩ := Prod.mk.inj (Option.some.inj hsame)
    exact hloose (List.suffix_append _ _)
  | none =>
    cases hlast : Text.cutLast? [':', ':'] s.toList with
    | none =>
      rw [splitUse_of_none hfirst hlast] at hsource
      exact hsource.1 (by simp [hs])
    | some q =>
      -- what is left at the end still has the last brace
      rw [splitUse_of_last hfirst hlast] at hspecifiers
      obtain ⟨piece, hpiece, hends⟩ := Text.exists_getLast?_pieces (p := [' ', 'a', 's', ' ']) (by simp) q.2
      have hrest : q.2.getLast? = some '\x7d' :=
        getLast?_of_suffix (x := [':', ':']) ⟨q.1, (Text.append_of_cutLast? hlast).symm⟩ (by simp) (by simp) hend
      have hbrace : piece.getLast? = some '\x7d' := by
        rcases hends with rfl | hends
        · exact hrest
        · exact getLast?_of_suffix hends (by simp) (by simp) hrest
      refine (hspecifiers _ (List.mem_singleton_self _)).2 ?_
      rw [renamed_of_last hpiece, String.toList_ofList, Text.mem_trimChars (by decide)]
      exact List.mem_of_getLast? hbrace

/-! ## Paths -/

variable {l : Layout} {front : Front} {last : Leaf} {gap : List Char}

theorem noBrace_render (hl : Spaced l) (hopening : .opening ∉ l.map Prod.snd) (hclosing : .closing ∉ l.map Prod.snd) :
    '\x7b' ∉ render l ∧ '\x7d' ∉ render l := by
  have hopen : '\x7b' ∈ render l ↔ .opening ∈ l.map Prod.snd := mem_render_iff hl rfl List.mem_cons_self
  have hclose : '\x7d' ∈ render l ↔ .closing ∈ l.map Prod.snd := mem_render_iff hl rfl List.mem_cons_self
  rw [hopen, hclose]
  exact ⟨hopening, hclosing⟩

theorem notMem_front {m : Token} (hm : m.isMark = true) (hne : m ≠ .colons) : m ∉ front.tokens := by
  intro h
  rcases Front.of_mem_tokens h with rfl | hnot
  · exact hne rfl
  · simp [hm] at hnot

theorem notMem_path {m : Token} (hm : m.isMark = true) (hne : m ≠ .colons) : m ∉ front.tokens ++ last.tokens := by
  intro h
  rcases List.mem_append.1 h with h | h
  · exact notMem_front hm hne h
  · simp [Leaf.not_mark h] at hm

/-- What comes before a name or a list ends with two colons. -/
theorem exists_render_front (htokens : l.map Prod.snd = front.tokens) (hfront : front.isEmpty = false) :
    ∃ a, render l = a ++ [':', ':'] := by
  obtain ⟨ts, hts⟩ := Front.exists_tokens_eq hfront
  rw [hts] at htokens
  obtain ⟨lf, lone, rfl, -, hlone⟩ := List.map_eq_append_iff.1 htokens
  obtain ⟨⟨gap, t⟩, rfl, rfl⟩ := List.map_eq_singleton_iff.1 hlone
  exact ⟨render lf ++ gap, by simp [render, Token.chars]⟩

/-- A path has no braces. -/
theorem noBrace_path (hl : Spaced l) (htokens : l.map Prod.snd = front.tokens ++ last.tokens) :
    '\x7b' ∉ render l ∧ '\x7d' ∉ render l :=
  noBrace_render hl (htokens ▸ notMem_path rfl (by simp)) (htokens ▸ notMem_path rfl (by simp))

/-- What is written for a leaf: it begins and ends with a name or a star, and a specifier that ends with it stands for
the leaf just if this is not renamed. -/
structure IsLeafText (last : Leaf) (w : List Char) : Prop where
  ne_nil : w ≠ []
  head_nonblank : ∀ c ∈ w.head?, isBlank c = false
  last_nonblank : ∀ c ∈ w.getLast?, isBlank c = false
  stands_iff : ∀ spec : String, w <:+ spec.toList → (last.Stands spec ↔ last.isRenamed = false)

theorem exists_renamed_layout {w new : Word} (htokens : l.map Prod.snd = (Leaf.renamed w new).tokens) :
    ∃ gap gap₁ gap₂, l = [(gap, .word w), (gap₁, .as), (gap₂, .word new)] := by
  obtain ⟨p, l, rfl, hp, hl⟩ := List.map_eq_cons_iff.1 htokens
  obtain ⟨q, l, rfl, hq, hl⟩ := List.map_eq_cons_iff.1 hl
  obtain ⟨r, rfl, hr⟩ := List.map_eq_singleton_iff.1 hl
  exact ⟨p.1, q.1, r.1, by rw [← hp, ← hq, ← hr]⟩

/-- **Every leaf is written so**, after a gap. -/
theorem exists_leafText (hl : Spaced l) (htokens : l.map Prod.snd = last.tokens) :
    ∃ gap w, render l = gap ++ w ∧ (∀ c ∈ gap, isBlank c = true) ∧ IsLeafText last w := by
  cases last with
  | name w =>
    obtain ⟨⟨gap, t⟩, rfl, rfl⟩ := List.map_eq_singleton_iff.1 htokens
    refine ⟨gap, w.chars, by simp [render, Token.chars], hl.blank _ List.mem_cons_self, w.ne_nil,
      fun c hc => (w.plain c (List.mem_of_mem_head? hc)).1, fun c hc => (w.plain c (List.mem_of_getLast? hc)).1,
      fun spec hspec => ?_⟩
    simp [Leaf.Stands, Leaf.isRenamed, hspec]
  | renamed w new =>
    obtain ⟨gap, gap₁, gap₂, rfl⟩ := exists_renamed_layout htokens
    have happart : gap₁ ≠ [] ∧ gap₂ ≠ [] := by simpa [Token.isWord] using hl.apart
    obtain ⟨c, r, hgap⟩ := List.exists_cons_of_ne_nil happart.1
    have hblank : isBlank c = true := hl.blank (gap₁, .as) (by simp) c (by simp [hgap])
    refine ⟨gap, w.chars ++ (gap₁ ++ (['a', 's'] ++ (gap₂ ++ new.chars))), by simp [render, Token.chars],
      hl.blank _ List.mem_cons_self, by simp [w.ne_nil], fun d hd => ?_, fun d hd => ?_, fun spec hspec => ?_⟩
    · rw [List.head?_append_of_ne_nil _ w.ne_nil] at hd
      exact (w.plain d (List.mem_of_mem_head? hd)).1
    · simp only [← List.append_assoc] at hd
      rw [List.getLast?_append_of_ne_nil _ new.ne_nil] at hd
      exact (new.plain d (List.mem_of_getLast? hd)).1
    · refine iff_of_false (fun hstands => ?_) (by simp [Leaf.isRenamed])
      -- the new name has no blank, the specifier has
      have hmem : c ∈ spec.toList := hspec.subset (by simp [hgap])
      rw [show spec.toList = new.chars from hstands] at hmem
      simp [(new.plain c hmem).1] at hblank
  | all =>
    obtain ⟨⟨gap, t⟩, rfl, rfl⟩ := List.map_eq_singleton_iff.1 htokens
    have hblank : ∀ c ∈ Token.star.chars, isBlank c = false := fun c hc => Token.not_blank hc
    refine ⟨gap, Token.star.chars, by simp [render], hl.blank _ List.mem_cons_self, Token.chars_ne_nil _,
      fun c hc => hblank c (List.mem_of_mem_head? hc), fun c hc => hblank c (List.mem_of_getLast? hc),
      fun spec hspec => ?_⟩
    exact iff_of_true hspec rfl

/-- Pieces without a comma. -/
theorem specifiersOf_of_notMem {d : List Char} (h : ',' ∉ d) :
    specifiersOf d = if Text.trimChars isBlank d = [] then [] else [String.ofList (Text.trimChars isBlank d)] := by
  have hone : d.splitOnP (· == ',') = [d] := List.splitOnP_eq_singleton fun c hc => by
    rw [beq_eq_false_iff_ne]
    rintro rfl
    exact h hc
  rw [specifiersOf, hone]
  by_cases hd : Text.trimChars isBlank d = []
  · simp [hd]
  · simp [hd]

theorem specifiersOf_append {d e : List Char} : specifiersOf (d ++ ',' :: e) = specifiersOf d ++ specifiersOf e := by
  rw [specifiersOf, List.splitOnP_append_cons d e (by decide), List.map_append, List.filter_append]
  rfl

/-- **A member of a list** has a specifier without braces, which stands for its leaf unless this is renamed. -/
theorem specifier_of_path (hl : Spaced l) (htokens : l.map Prod.snd = front.tokens ++ last.tokens)
    (hgap : ∀ c ∈ gap, isBlank c = true) :
    ∃ spec : String, specifiersOf (render l ++ gap) = [spec] ∧ NoBrace spec ∧
      (last.Stands spec ↔ last.isRenamed = false) := by
  obtain ⟨lf, ll, rfl, hfront, hlast⟩ := List.map_eq_append_iff.1 htokens
  obtain ⟨gap', w, hrender, -, hw⟩ := exists_leafText hl.of_append.2 hlast
  -- trimming does not reach what is written for the leaf
  have hsuffix : w <:+ Text.trimChars isBlank (render (lf ++ ll) ++ gap) := by
    have := Text.suffix_trimChars (a := render lf ++ gap') hw.ne_nil hw.head_nonblank hw.last_nonblank hgap
    rwa [List.append_assoc (render lf), ← hrender, ← render_append] at this
  have hne : Text.trimChars isBlank (render (lf ++ ll) ++ gap) ≠ [] := fun h =>
    hw.ne_nil (List.suffix_nil.1 (h ▸ hsuffix))
  have hnot : ∀ {c : Char}, isBlank c = false → c ∉ render (lf ++ ll) → c ∉ render (lf ++ ll) ++ gap := by
    intro c hc hrender hmem
    rcases List.mem_append.1 hmem with hmem | hmem
    · exact hrender hmem
    · simp [hgap c hmem] at hc
  have hcomma : ',' ∉ render (lf ++ ll) := by
    have hiff : ',' ∈ render (lf ++ ll) ↔ .comma ∈ (lf ++ ll).map Prod.snd := mem_render_iff hl rfl List.mem_cons_self
    rw [hiff, htokens]
    exact notMem_path rfl (by simp)
  obtain ⟨hopening, hclosing⟩ := noBrace_path hl htokens
  refine ⟨String.ofList (Text.trimChars isBlank (render (lf ++ ll) ++ gap)), ?_, ⟨?_, ?_⟩, ?_⟩
  · rw [specifiersOf_of_notMem (hnot (by decide) hcomma), if_neg hne]
  · rw [String.toList_ofList, Text.mem_trimChars (by decide)]
    exact hnot (by decide) hopening
  · rw [String.toList_ofList, Text.mem_trimChars (by decide)]
    exact hnot (by decide) hclosing
  · exact hw.stands_iff _ (by rwa [String.toList_ofList])

/-- A name after a gap, trimmed. -/
theorem trimChars_gap_append {w : List Char} (hgap : ∀ c ∈ gap, isBlank c = true) (hw : ∀ c ∈ w, isBlank c = false) :
    Text.trimChars isBlank (gap ++ w) = w :=
  Text.trimChars_eq_iff.2 ⟨⟨gap, [], by simp, hgap, by simp⟩, fun c hc => hw c (List.mem_of_mem_head? hc),
    fun c hc => hw c (List.mem_of_getLast? hc)⟩

/-- One token after the last colons is kept. -/
theorem renamed_token {t : Token} (hgap : gap = [] ∨ gap = [' ']) :
    renamed (String.ofList (gap ++ t.chars)) = String.ofList t.chars := by
  have hblank : ' ' ∉ t.chars := fun h => absurd (Token.not_blank h) (by decide)
  have hnot : ¬[' ', 'a', 's', ' '] <:+: gap ++ t.chars := by
    intro h
    -- it would take two blanks
    have hcount := h.sublist.count_le ' '
    rw [List.count_append, List.count_eq_zero_of_not_mem hblank] at hcount
    rcases hgap with rfl | rfl <;> simp at hcount
  have hlast : (Text.pieces [' ', 'a', 's', ' '] (gap ++ t.chars)).getLast? = some (gap ++ t.chars) := by
    rw [Text.pieces_eq_singleton hnot]
    rfl
  rw [renamed_of_last hlast, trimChars_gap_append (blank_of_single hgap) fun c hc => Token.not_blank hc]

/-- The word of a renaming is not found before it. -/
theorem not_prefix_as {w : Word} {x r : List Char} (hgap : gap = [] ∨ gap = [' ']) (hne : x ≠ [])
    (hx : x <:+ gap ++ w.chars) : ¬[' ', 'a', 's', ' '] <+: x ++ ([' ', 'a', 's', ' '] ++ r) := by
  have hblank : ' ' ∉ w.chars := fun h => absurd (w.plain _ h).1 (by decide)
  intro hprefix
  have hmem : ' ' ∈ x := by
    obtain ⟨d, x, rfl⟩ := List.exists_cons_of_ne_nil hne
    rw [(List.cons_prefix_cons.1 hprefix).1]
    exact List.mem_cons_self
  rcases hgap with rfl | rfl
  · exact hblank (hx.subset hmem)
  · rcases List.suffix_cons_iff.1 hx with rfl | hx
    · -- what comes after the blank would be that word
      obtain ⟨r', hr'⟩ := (List.cons_prefix_cons.1 hprefix).2
      have hcut : Text.cutFirst? [' '] (w.chars ++ ' ' :: (['a', 's', ' '] ++ r)) = some (['a', 's'], r') :=
        Text.cutFirst?_eq_some_iff.2 ⟨hr'.symm, by decide⟩
      rw [Text.cutFirst?_eq_some_iff.2 ⟨rfl, hblank⟩] at hcut
      exact w.ne_as (Prod.mk.inj (Option.some.inj hcut)).1
    · exact hblank (hx.subset hmem)

/-- The new name after the last colons is kept. -/
theorem renamed_new {w new : Word} (hgap : gap = [] ∨ gap = [' ']) :
    renamed (String.ofList (gap ++ w.chars ++ ([' ', 'a', 's', ' '] ++ new.chars))) = String.ofList new.chars := by
  have hcut : Text.cutFirst? [' ', 'a', 's', ' '] (gap ++ w.chars ++ ([' ', 'a', 's', ' '] ++ new.chars)) =
      some (gap ++ w.chars, new.chars) :=
    Text.cutFirst?_eq_some_of fun x hne hx => not_prefix_as hgap hne hx
  have hblank : ' ' ∉ new.chars := fun h => absurd (new.plain _ h).1 (by decide)
  have hlast : Text.pieces [' ', 'a', 's', ' '] new.chars = [new.chars] :=
    Text.pieces_eq_singleton fun h => hblank (h.subset (by simp))
  have hpiece : (Text.pieces [' ', 'a', 's', ' '] (gap ++ w.chars ++ ([' ', 'a', 's', ' '] ++ new.chars))).getLast? =
      some ([] ++ new.chars) := by
    rw [Text.pieces_of_cut (by simp) hcut, hlast]
    rfl
  rw [renamed_of_last hpiece, trimChars_gap_append (by simp) fun c hc => (new.plain c hc).1]

/-- **What is left after the last colons** is the name of a leaf, or its new name. -/
theorem renamed_leaf (hl : Spaced l) (hsingle : ∀ p ∈ l, p.1 = [] ∨ p.1 = [' ']) (htokens : l.map Prod.snd = last.tokens) :
    NoBrace (renamed (String.ofList (render l))) ∧ last.Stands (renamed (String.ofList (render l))) := by
  have hnoBrace : ∀ t : Token, t.isMark = false → NoBrace (String.ofList t.chars) := by
    intro t ht
    rw [NoBrace, String.toList_ofList]
    refine ⟨fun h => ?_, fun h => ?_⟩
    · rw [Token.eq_of_mem (m := .opening) rfl List.mem_cons_self h] at ht
      cases ht
    · rw [Token.eq_of_mem (m := .closing) rfl List.mem_cons_self h] at ht
      cases ht
  cases last with
  | name w =>
    obtain ⟨⟨gap, t⟩, rfl, rfl⟩ := List.map_eq_singleton_iff.1 htokens
    have hrender : render [(gap, Token.word w)] = gap ++ (Token.word w).chars := by simp [render]
    rw [hrender, renamed_token (hsingle _ List.mem_cons_self)]
    exact ⟨hnoBrace _ rfl, by simp [Leaf.Stands, Token.chars]⟩
  | renamed w new =>
    obtain ⟨gap, gap₁, gap₂, rfl⟩ := exists_renamed_layout htokens
    have happart : gap₁ ≠ [] ∧ gap₂ ≠ [] := by simpa [Token.isWord] using hl.apart
    obtain rfl : gap₁ = [' '] := (hsingle (gap₁, .as) (by simp)).resolve_left happart.1
    obtain rfl : gap₂ = [' '] := (hsingle (gap₂, .word new) (by simp)).resolve_left happart.2
    have hrender : render [(gap, Token.word w), ([' '], Token.as), ([' '], Token.word new)] =
        gap ++ w.chars ++ ([' ', 'a', 's', ' '] ++ new.chars) := by simp [render, Token.chars]
    rw [hrender, renamed_new (hsingle _ List.mem_cons_self)]
    exact ⟨hnoBrace (.word new) rfl, by simp [Leaf.Stands]⟩
  | all =>
    obtain ⟨⟨gap, t⟩, rfl, rfl⟩ := List.map_eq_singleton_iff.1 htokens
    have hrender : render [(gap, Token.star)] = gap ++ Token.star.chars := by simp [render]
    rw [hrender, renamed_token (hsingle _ List.mem_cons_self)]
    exact ⟨hnoBrace _ rfl, by simp [Leaf.Stands, Token.chars]⟩

theorem splitAsWritten_leaf {source spec : String} :
    SplitAsWritten (.leaf front last) source [spec] ↔ NoBrace source ∧ NoBrace spec ∧ last.Stands spec := by
  constructor
  · rintro ⟨hsource, hspec, hstands⟩
    exact ⟨hsource, hspec spec (List.mem_singleton_self spec), (List.forall₂_cons.1 hstands).1⟩
  · rintro ⟨hsource, hspec, hstands⟩
    exact ⟨hsource, fun s hs => List.mem_singleton.1 hs ▸ hspec, .cons hstands .nil⟩

/-- **A path** has one specifier, which stands for its leaf unless this is renamed and nothing comes before it. -/
theorem splitUse_leaf (hl : Spaced l) (hsingle : ∀ p ∈ l, p.1 = [] ∨ p.1 = [' '])
    (htokens : l.map Prod.snd = front.tokens ++ last.tokens) (hs : s.toList = render l) :
    SplitAsWritten (.leaf front last) (splitUse s).1 (splitUse s).2 ↔ UseTree.Plain l (.leaf front last) := by
  obtain ⟨hopening, hclosing⟩ := noBrace_path hl htokens
  have hfirst := cutFirst?_eq_none_of_notMem (hs ▸ hopening)
  have hcolon : ∀ {l : Layout}, Spaced l → (∀ t ∈ l.map Prod.snd, t.isMark = false) → ':' ∉ render l := by
    intro l hl hmarks h
    have hmem : .colons ∈ l.map Prod.snd := (mem_render_iff hl rfl List.mem_cons_self).1 h
    cases hmarks _ hmem
  cases hfront : front.isEmpty with
  | true =>
    -- without colons the whole argument is the specifier, a renaming included
    rw [Front.tokens_eq_nil hfront, List.nil_append] at htokens
    have hlast : Text.cutLast? [':', ':'] s.toList = none := by
      refine Text.cutLast?_eq_none fun hin => ?_
      exact hcolon hl (htokens ▸ fun t ht => Leaf.not_mark ht) (hs ▸ hin.subset (by simp))
    obtain ⟨gap, w, hrender, -, hw⟩ := exists_leafText hl htokens
    have hstands := hw.stands_iff s (by rw [hs, hrender]; exact List.suffix_append gap w)
    have hbrace : NoBrace s := by rw [NoBrace, hs]; exact ⟨hopening, hclosing⟩
    rw [splitUse_of_none hfirst hlast, splitAsWritten_leaf, hstands]
    simp [UseTree.Plain, hfront, hbrace]
  | false =>
    obtain ⟨lf, ll, rfl, hlf, hll⟩ := List.map_eq_append_iff.1 htokens
    obtain ⟨a, ha⟩ := exists_render_front hlf hfront
    have hrender : s.toList = a ++ ([':', ':'] ++ render ll) := by rw [hs, render_append, ha, List.append_assoc]
    have hlast : Text.cutLast? [':', ':'] s.toList = some (a, render ll) := by
      rw [hrender]
      exact Text.cutLast?_of_notMem (p := [':']) (hcolon hl.of_append.2 (hll ▸ fun t ht => Leaf.not_mark ht))
    obtain ⟨hbrace, hstands⟩ :=
      renamed_leaf hl.of_append.2 (fun p hp => hsingle p (List.mem_append_right _ hp)) hll
    have hsource : NoBrace (String.ofList a) := by
      rw [NoBrace, String.toList_ofList]
      rw [← hs, hrender] at hopening hclosing
      exact ⟨fun h => hopening (List.mem_append_left _ h), fun h => hclosing (List.mem_append_left _ h)⟩
    rw [splitUse_of_last hfirst hlast, splitAsWritten_leaf]
    exact iff_of_true ⟨hsource, hbrace, hstands⟩ fun _ => hfront

/-! ## Lists in braces -/

variable {members : List UseTree} {comma : Bool}

/-- **The members of a list of paths** have one specifier each, in order. -/
theorem forall₂_specifiers (hleaf : ∀ t ∈ members, t.isLeaf = true) (hl : Spaced l)
    (htokens : l.map Prod.snd = memberTokens comma members) (hgap : ∀ c ∈ gap, isBlank c = true) :
    List.Forall₂ (fun last spec => NoBrace spec ∧ (last.Stands spec ↔ last.isRenamed = false)) (memberLeaves members)
      (specifiersOf (render l ++ gap)) := by
  -- a comma ends the part of the layout that belongs to the first member
  induction members generalizing l with
  | nil =>
    obtain rfl := List.map_eq_nil_iff.1 htokens
    have hcomma : ',' ∉ gap := fun h => absurd (hgap _ h) (by decide)
    have htrim : Text.trimChars isBlank gap = [] :=
      Text.trimChars_eq_iff.2 ⟨⟨gap, [], by simp, hgap, by simp⟩, by simp, by simp⟩
    rw [show render [] ++ gap = gap from rfl, specifiersOf_of_notMem hcomma, if_pos htrim]
    exact .nil
  | cons t ts ih =>
    have hrest := fun t ht => hleaf t (List.mem_cons_of_mem _ ht)
    cases t with
    | list => exact absurd (hleaf _ List.mem_cons_self) (by simp [UseTree.isLeaf])
    | leaf front last =>
      rw [memberTokens, UseTree.tokens] at htokens
      obtain ⟨la, lr, rfl, hla, hlr⟩ := List.map_eq_append_iff.1 htokens
      rw [memberLeaves, UseTree.leaves, List.singleton_append]
      split at hlr
      case isTrue hlast =>
        -- no comma comes after the last member
        obtain ⟨rfl, rfl⟩ : ts = [] ∧ comma = false := by simpa using hlast
        obtain rfl := List.map_eq_nil_iff.1 hlr
        obtain ⟨spec, hspec, hstands⟩ := specifier_of_path hl.of_append.1 hla hgap
        rw [List.append_nil, hspec]
        exact .cons hstands .nil
      case isFalse =>
        obtain ⟨⟨gap', t⟩, lr, rfl, rfl, hmore⟩ := List.map_eq_cons_iff.1 hlr
        have hrender : render (la ++ (gap', Token.comma) :: lr) ++ gap =
            (render la ++ gap') ++ ',' :: (render lr ++ gap) := by simp [render, Token.chars]
        obtain ⟨spec, hspec, hstands⟩ :=
          specifier_of_path hl.of_append.1 hla (hl.of_append.2.blank _ List.mem_cons_self)
        rw [hrender, specifiersOf_append, hspec]
        exact .cons hstands (ih hrest hl.of_append.2.of_cons hmore)

theorem stands_of_forall₂ {leaves : List Leaf} {specs : List String}
    (h : List.Forall₂ (fun last spec => NoBrace spec ∧ (last.Stands spec ↔ last.isRenamed = false)) leaves specs) :
    (∀ spec ∈ specs, NoBrace spec) ∧
      (List.Forall₂ Leaf.Stands leaves specs ↔ ∀ last ∈ leaves, last.isRenamed = false) := by
  induction h with
  | nil => simp
  | cons h _ ih =>
    refine ⟨List.forall_mem_cons.2 ⟨h.1, ih.1⟩, ?_⟩
    rw [List.forall₂_cons, List.forall_mem_cons, h.2, ih.2]

/-- The layout of a list. -/
theorem exists_list_layout (htokens : l.map Prod.snd = (UseTree.list front members comma).tokens) :
    ∃ lf gap lm gap', l = lf ++ (gap, .opening) :: (lm ++ [(gap', .closing)]) ∧ lf.map Prod.snd = front.tokens ∧
      lm.map Prod.snd = memberTokens comma members := by
  rw [UseTree.tokens] at htokens
  obtain ⟨lf, lr, rfl, hlf, hlr⟩ := List.map_eq_append_iff.1 htokens
  obtain ⟨p, lr, rfl, hp, hlr⟩ := List.map_eq_cons_iff.1 hlr
  obtain ⟨lm, lone, rfl, hlm, hlone⟩ := List.map_eq_append_iff.1 hlr
  obtain ⟨q, rfl, hq⟩ := List.map_eq_singleton_iff.1 hlone
  exact ⟨lf, p.1, lm, q.1, by rw [← hp, ← hq], hlf, hlm⟩

theorem noBrace_front (hl : Spaced l) (htokens : l.map Prod.snd = front.tokens) : '\x7b' ∉ render l ∧ '\x7d' ∉ render l :=
  noBrace_render hl (htokens ▸ notMem_front rfl (by simp)) (htokens ▸ notMem_front rfl (by simp))

/-- **A list that is cut at its brace** is split as it is written just if it is one of paths of which none is renamed. -/
theorem splitUse_tight (hl : Spaced l) (htokens : l.map Prod.snd = memberTokens comma members)
    (hgap : ∀ c ∈ gap, isBlank c = true) (ha : '\x7b' ∉ a ∧ '\x7d' ∉ a)
    (hs : s.toList = a ++ ([':', ':', '\x7b'] ++ (render l ++ gap ++ ['\x7d']))) :
    SplitAsWritten (.list front members comma) (splitUse s).1 (splitUse s).2 ↔
      (∀ t ∈ members, t.isLeaf = true) ∧ ∀ last ∈ memberLeaves members, last.isRenamed = false := by
  have hcut : Text.cutFirst? [':', ':', '\x7b'] s.toList = some (a, render l ++ gap ++ ['\x7d']) := by
    rw [hs]
    exact Text.cutFirst?_of_notMem_last (p := [':', ':']) ha.1 (by decide)
  rw [splitUse_of_first hcut]
  dsimp only
  by_cases hleaf : ∀ t ∈ members, t.isLeaf = true
  · have hnot : ∀ m : Token, m = .opening ∨ m = .closing → m ∉ l.map Prod.snd := fun m hm =>
      htokens ▸ UseTree.notMem_memberTokens hleaf hm
    have hclosing : '\x7d' ∉ render l ++ gap := by
      intro h
      rcases List.mem_append.1 h with h | h
      · exact (noBrace_render hl (hnot _ (Or.inl rfl)) (hnot _ (Or.inr rfl))).2 h
      · exact absurd (hgap _ h) (by decide)
    obtain ⟨hspecs, hstands⟩ := stands_of_forall₂ (forall₂_specifiers hleaf hl htokens hgap)
    have hsource : NoBrace (String.ofList a) := by rwa [NoBrace, String.toList_ofList]
    rw [listed_eq hclosing, and_iff_right hleaf, ← hstands]
    exact ⟨fun hsplit => hsplit.stands, fun h => ⟨hsource, hspecs, h⟩⟩
  · refine iff_of_false (fun hsplit => ?_) fun h => hleaf h.1
    -- the brace of the inner list is left
    have hopening : '\x7b' ∈ render l := by
      have hiff : '\x7b' ∈ render l ↔ .opening ∈ l.map Prod.snd := mem_render_iff hl rfl List.mem_cons_self
      rw [hiff, htokens]
      exact UseTree.opening_mem_memberTokens hleaf
    obtain ⟨spec, hspec, hbrace⟩ :=
      exists_listed_of_mem (List.mem_append_left ['\x7d'] (List.mem_append_left gap hopening))
    exact (hsplit.noBrace_specifiers spec hspec).1 hbrace

/-- **A list in braces.** -/
theorem splitUse_list (hl : Spaced l) (htokens : l.map Prod.snd = (UseTree.list front members comma).tokens)
    (hs : s.toList = render l) :
    SplitAsWritten (.list front members comma) (splitUse s).1 (splitUse s).2 ↔
      UseTree.Plain l (.list front members comma) := by
  obtain ⟨lf, gap, lm, gap', rfl, hlf, hlm⟩ := exists_list_layout htokens
  have hgap : (lf ++ (gap, Token.opening) :: (lm ++ [(gap', Token.closing)]))[front.tokens.length]? =
      some (gap, .opening) := by
    rw [← hlf, List.length_map, List.getElem?_append_right le_rfl, Nat.sub_self]
    rfl
  have hrest : Spaced lm := hl.of_append.2.of_cons.of_append.1
  have hclosed : ∀ c ∈ gap', isBlank c = true := hl.blank (gap', .closing) (by simp)
  have hopening : s.toList = (render lf ++ gap) ++ '\x7b' :: (render lm ++ gap' ++ ['\x7d']) := by
    rw [hs]
    simp [render, Token.chars]
  have hend : s.toList.getLast? = some '\x7d' := by
    rw [hopening, ← List.cons_append, ← List.append_assoc, List.getLast?_concat]
  obtain ⟨hfirst, hsecond⟩ := noBrace_front hl.of_append.1 hlf
  have hcolon : ':' ∉ gap := fun h => absurd (hl.blank (gap, .opening) (by simp) _ h) (by decide)
  have hspace : '\x7b' ∉ gap := fun h => absurd (hl.blank (gap, .opening) (by simp) _ h) (by decide)
  have hloose : ¬[':', ':'] <:+ render lf ++ gap →
      ¬SplitAsWritten (.list front members comma) (splitUse s).1 (splitUse s).2 := fun hnot hsplit =>
    splitUse_loose hopening (by simp [hfirst, hspace]) hnot hend ⟨hsplit.noBrace_source, hsplit.noBrace_specifiers⟩
  cases hfront : front.isEmpty with
  | true =>
    -- nothing comes before the brace
    refine iff_of_false (hloose fun hsuffix => ?_) (by simp [UseTree.Plain, hfront])
    rw [Front.tokens_eq_nil hfront, List.map_eq_nil_iff] at hlf
    subst hlf
    exact hcolon (hsuffix.subset List.mem_cons_self)
  | false =>
    by_cases htight : gap = []
    · subst htight
      obtain ⟨a, ha⟩ := exists_render_front hlf hfront
      rw [ha] at hfirst hsecond hopening
      have hbefore : '\x7b' ∉ a ∧ '\x7d' ∉ a :=
        ⟨fun h => hfirst (List.mem_append_left _ h), fun h => hsecond (List.mem_append_left _ h)⟩
      rw [splitUse_tight hrest hlm hclosed hbefore (by simpa using hopening)]
      simp only [UseTree.Plain, hfront, hgap, Option.some.injEq, forall_eq', true_and]
    · -- a blank comes before the brace
      refine iff_of_false (hloose fun hsuffix => ?_) fun h => htight (h.2.1 _ hgap)
      obtain ⟨r, hr⟩ := hsuffix
      have hlast := congrArg List.getLast? hr
      rw [List.getLast?_append_of_ne_nil _ htight, List.getLast?_append_of_ne_nil _ (by simp)] at hlast
      exact hcolon (List.mem_of_getLast? hlast.symm)

/-- Whether a tree is plain does not depend on how many blanks there are. -/
theorem plain_tidy (l : Layout) (t : UseTree) : t.Plain (tidy l) ↔ t.Plain l := by
  cases t with
  | leaf front last => rfl
  | list front members comma =>
    refine and_congr_right fun hfront => and_congr_left fun _ => ?_
    obtain ⟨ts, hts⟩ := Front.exists_tokens_eq hfront
    have hlength : front.tokens.length = ts.length + 1 := by simp [hts]
    rw [hlength, getElem?_tidy_succ]
    cases l[ts.length + 1]? with
    | none => simp
    | some p => by_cases hp : p.1 = [] <;> simp [hp]

/-- **The parts of a `use` declaration**, for every tree and every layout of it: its source and its specifiers are those
of the tree exactly if it is plain. -/
theorem use_split (source : String) (n : Node) (t : UseTree) (l : Layout) (hl : Spaced l)
    (htokens : l.map Prod.snd = t.tokens) (htext : childText? source n "argument" = some (String.ofList (render l))) :
    ∃ i, useFinding source n = [.imported i] ∧ i.snippet = snippet source n ∧ i.location = location n ∧
      (SplitAsWritten t i.source i.specifiers ↔ t.Plain l) := by
  have hargument : (" ".intercalate (Text.words (String.ofList (render l)))).toList = render (tidy l) := by
    rw [Text.toList_singleBlanks, String.toList_ofList, squeeze_render hl]
  have hfinding : useFinding source n = [.imported
      { source := (splitUse (" ".intercalate (Text.words (String.ofList (render l))))).1
        specifiers := (splitUse (" ".intercalate (Text.words (String.ofList (render l))))).2
        snippet := snippet source n, location := location n }] := by
    unfold useFinding
    rw [htext]
  refine ⟨_, hfinding, rfl, rfl, ?_⟩
  rw [← map_snd_tidy] at htokens
  rw [← plain_tidy]
  dsimp only
  cases t with
  | leaf front last => exact splitUse_leaf hl.tidy (fun p hp => gap_of_mem_tidy hp) htokens hargument
  | list front members comma => exact splitUse_list hl.tidy htokens hargument

/-- Two paths in braces, with blanks around the first colons and before the comma. -/
theorem use_split_sync :
    let source := "use std :: sync::\x7bArc , Mutex\x7d;"
    let n : Node := ⟨"use_declaration", none, true, false, ⟨0, 31, 0, 0⟩,
      [⟨"scoped_use_list", some "argument", true, false, ⟨4, 30, 0, 0⟩, []⟩]⟩
    let std := Word.ofString "std" (by decide)
    let sync := Word.ofString "sync" (by decide)
    let arc := Word.ofString "Arc" (by decide)
    let mutex := Word.ofString "Mutex" (by decide)
    let t : UseTree := .list ⟨false, [std, sync]⟩ [.leaf ⟨false, []⟩ (.name arc), .leaf ⟨false, []⟩ (.name mutex)] false
    let l : Layout := [([], .word std), ([' '], .colons), ([' '], .word sync), ([], .colons), ([], .opening),
      ([], .word arc), ([' '], .comma), ([' '], .word mutex), ([], .closing)]
    Spaced l ∧ l.map Prod.snd = t.tokens ∧ childText? source n "argument" = some (String.ofList (render l)) ∧
      ∃ i, useFinding source n = [.imported i] ∧ SplitAsWritten t i.source i.specifiers := by
  intro source n std sync arc mutex t l
  have hspaced : Spaced l := ⟨by simp [l, show isBlank ' ' = true from rfl], by simp [l, Token.isWord]⟩
  have htokens : l.map Prod.snd = t.tokens := rfl
  have htext : childText? source n "argument" = some (String.ofList (render l)) := by decide +kernel
  obtain ⟨i, hi, -, -, hplain⟩ := use_split source n t l hspaced htokens htext
  refine ⟨hspaced, htokens, htext, i, hi, hplain.2 ⟨rfl, ?_, ?_, ?_⟩⟩
  · intro p hp
    obtain rfl := Option.some.inj hp
    rfl
  · decide
  · decide

/-- A list in a list leaves a brace, and a name in a list keeps what it is renamed from. -/
example : splitUse "a::\x7bb::\x7bc as d, e\x7d, f as g\x7d" = ("a", ["b::\x7bc as d", "e\x7d", "f as g"]) := by
  decide +kernel

end CodeAtlas.Outline.Rust
