import CodeAtlas.Outline.Rust
import CodeAtlas.Proofs.Text.Splitting
import Mathlib.Data.List.Chain

/-!
# Trees of a `use` declaration

What a `use` declaration names is a tree: paths of names that end in a name, a renamed name, a star, or a list of
such trees in braces. It is written in tokens, with blanks between them.

* `UseTree`: the trees, their tokens and their leaves.
* `render`, `Spaced`: a layout of tokens, and its text.
* `squeeze_render`: **a layout with single blanks.**
* `mem_render_iff`: which marks stand in the text of a layout.
-/

namespace CodeAtlas.Outline.Rust

open Text (isBlank squeeze afterBlank)

/-! ## Tokens -/

/-- The characters that divide a path or a list. -/
def isMark (c : Char) : Bool := c == ':' || c == ',' || c == '\x7b' || c == '\x7d'

/-- A name. The word of a renaming is none. -/
structure Word where
  chars : List Char
  ne_nil : chars ≠ []
  plain : ∀ c ∈ chars, isBlank c = false ∧ isMark c = false
  ne_as : chars ≠ ['a', 's']

/-- Whether a text is a name. -/
def isName (s : String) : Bool :=
  s.toList ≠ [] && s.toList ≠ ['a', 's'] && s.toList.all fun c => !isBlank c && !isMark c

def Word.ofString (s : String) (h : isName s = true) : Word where
  chars := s.toList
  ne_nil := by simp_all [isName]
  plain := by simp_all [isName]
  ne_as := by simp_all [isName]

inductive Token where
  | word (w : Word)
  | as
  | star
  | colons
  | comma
  | opening
  | closing

namespace Token

def chars : Token → List Char
  | word w => w.chars
  | as => ['a', 's']
  | star => ['*']
  | colons => [':', ':']
  | comma => [',']
  | opening => ['\x7b']
  | closing => ['\x7d']

/-- Tokens that would be one if they stood side by side. -/
def isWord : Token → Bool
  | word _ | as => true
  | _ => false

/-- Tokens of which the characters are marks. -/
def isMark : Token → Bool
  | word _ | as | star => false
  | _ => true

variable {t m : Token} {c : Char}

theorem chars_ne_nil (t : Token) : t.chars ≠ [] := by
  cases t with
  | word w => exact w.ne_nil
  | _ => simp [chars]

theorem not_blank (h : c ∈ t.chars) : isBlank c = false := by
  have hall : ∀ l : List Char, (l.all fun d => !isBlank d) = true → c ∈ l → isBlank c = false := fun l hl hc => by
    simpa using List.all_eq_true.1 hl c hc
  cases t with
  | word w => exact (w.plain c h).1
  | _ => exact hall _ (by decide) h

/-- **A mark is in no other token.** -/
theorem eq_of_mem (hm : m.isMark = true) (hc : c ∈ m.chars) (ht : c ∈ t.chars) : t = m := by
  have hmark : Rust.isMark c = true := by
    have hall : ∀ l : List Char, l.all Rust.isMark = true → c ∈ l → Rust.isMark c = true := fun l hl hc =>
      List.all_eq_true.1 hl c hc
    cases m with
    | word | as | star => cases hm
    | _ => exact hall _ (by decide) hc
  cases t with
  | word w => simp [(w.plain c ht).2] at hmark
  | _ => cases m <;> simp_all [chars, isMark, Rust.isMark]

end Token

/-! ## Trees -/

/-- The names before the last one, each with two colons after it. -/
structure Front where
  /-- Two colons stand at the beginning. -/
  isGlobal : Bool
  names : List Word

namespace Front

def isEmpty (f : Front) : Bool := !f.isGlobal && f.names.isEmpty

def tokens (f : Front) : List Token :=
  (if f.isGlobal then [.colons] else []) ++ f.names.flatMap fun w => [.word w, .colons]

theorem tokens_eq_nil {f : Front} (h : f.isEmpty = true) : f.tokens = [] := by
  obtain ⟨isGlobal, names⟩ := f
  simp only [isEmpty, Bool.and_eq_true, Bool.not_eq_true', List.isEmpty_iff] at h
  obtain ⟨rfl, rfl⟩ := h
  rfl

/-- A front that is not empty ends with two colons. -/
theorem exists_tokens_eq {f : Front} (h : f.isEmpty = false) : ∃ ts, f.tokens = ts ++ [.colons] := by
  obtain ⟨isGlobal, names⟩ := f
  rcases List.eq_nil_or_concat names with rfl | ⟨ws, w, rfl⟩
  · cases isGlobal with
    | true => exact ⟨[], rfl⟩
    | false => cases h
  · exact ⟨(if isGlobal then [.colons] else []) ++ ws.flatMap (fun w => [.word w, .colons]) ++ [.word w],
      by simp [tokens]⟩

theorem of_mem_tokens {f : Front} {t : Token} (h : t ∈ f.tokens) : t = .colons ∨ t.isMark = false := by
  rcases List.mem_append.1 h with h | h
  · split at h
    · exact Or.inl (List.mem_singleton.1 h)
    · cases h
  · obtain ⟨w, -, hw⟩ := List.mem_flatMap.1 h
    rcases List.mem_pair.1 hw with rfl | rfl
    · exact Or.inr rfl
    · exact Or.inl rfl

end Front

/-- What a path names. -/
inductive Leaf where
  | name (w : Word)
  | renamed (w new : Word)
  | all

namespace Leaf

def tokens : Leaf → List Token
  | name w => [.word w]
  | renamed w new => [.word w, .as, .word new]
  | all => [.star]

def isRenamed : Leaf → Bool
  | renamed _ _ => true
  | _ => false

theorem not_mark {leaf : Leaf} {t : Token} (h : t ∈ leaf.tokens) : t.isMark = false := by
  cases leaf <;> simp only [tokens, List.mem_cons, List.not_mem_nil, or_false] at h
  case name => rw [h]; rfl
  case renamed => obtain rfl | rfl | rfl := h <;> rfl
  case all => rw [h]; rfl

end Leaf

inductive UseTree where
  | leaf (front : Front) (last : Leaf)
  /-- A list in braces, perhaps with a comma after its last member. -/
  | list (front : Front) (members : List UseTree) (comma : Bool)

mutual

/-- The tokens of a tree. -/
def UseTree.tokens : UseTree → List Token
  | .leaf front last => front.tokens ++ last.tokens
  | .list front members comma => front.tokens ++ .opening :: (memberTokens comma members ++ [.closing])

/-- The tokens of the members of a list. -/
def memberTokens (comma : Bool) : List UseTree → List Token
  | [] => []
  | t :: ts => t.tokens ++ ((if ts.isEmpty && !comma then [] else [.comma]) ++ memberTokens comma ts)

end

mutual

/-- The leaves of a tree, in order. -/
def UseTree.leaves : UseTree → List Leaf
  | .leaf _ last => [last]
  | .list _ members _ => memberLeaves members

/-- The leaves of the members of a list. -/
def memberLeaves : List UseTree → List Leaf
  | [] => []
  | t :: ts => t.leaves ++ memberLeaves ts

end

namespace UseTree

def isLeaf : UseTree → Bool
  | leaf _ _ => true
  | list _ _ _ => false

variable {members : List UseTree} {comma : Bool}

/-- A list among the members of a list has its brace there. -/
theorem opening_mem_memberTokens (h : ¬∀ t ∈ members, t.isLeaf = true) : .opening ∈ memberTokens comma members := by
  induction members with
  | nil => simp at h
  | cons t ts ih =>
    rw [memberTokens, List.mem_append, List.mem_append]
    cases t with
    | leaf front last =>
      refine Or.inr (Or.inr (ih fun hts => h fun t ht => ?_))
      rcases List.mem_cons.1 ht with rfl | ht
      · rfl
      · exact hts t ht
    | list front inner comma' => exact Or.inl (by simp [tokens])

/-- If there is none, there are no braces. -/
theorem notMem_memberTokens (h : ∀ t ∈ members, t.isLeaf = true) {m : Token} (hm : m = .opening ∨ m = .closing) :
    m ∉ memberTokens comma members := by
  have hmark : m.isMark = true := by rcases hm with rfl | rfl <;> rfl
  induction members with
  | nil => simp [memberTokens]
  | cons t ts ih =>
    cases t with
    | list => exact absurd (h _ List.mem_cons_self) (by simp [isLeaf])
    | leaf front last =>
      have hrest := ih fun t ht => h t (List.mem_cons_of_mem _ ht)
      rw [memberTokens, tokens, List.mem_append, List.mem_append, List.mem_append]
      rintro ((hfront | hlast) | (hcomma | hmem))
      · rcases Front.of_mem_tokens hfront with rfl | hnot
        · simp at hm
        · simp [hmark] at hnot
      · simp [Leaf.not_mark hlast] at hmark
      · rcases hm with rfl | rfl <;> split at hcomma <;> simp at hcomma
      · exact hrest hmem

end UseTree

/-! ## Layouts -/

/-- Tokens, each with what stands between it and the one before it. -/
abbrev Layout := List (List Char × Token)

/-- The text of a layout. -/
def render (l : Layout) : List Char := l.flatMap fun p => p.1 ++ p.2.chars

/-- Only blanks stand between the tokens, and words are kept apart. -/
structure Spaced (l : Layout) : Prop where
  blank : ∀ p ∈ l, ∀ c ∈ p.1, isBlank c = true
  apart : l.IsChain fun p q => p.2.isWord = true → q.2.isWord = true → q.1 ≠ []

variable {l m : Layout} {p : List Char × Token} {t : Token} {c : Char}

theorem render_append (l m : Layout) : render (l ++ m) = render l ++ render m := List.flatMap_append

theorem render_cons (p : List Char × Token) (l : Layout) : render (p :: l) = p.1 ++ (p.2.chars ++ render l) := by
  simp [render]

namespace Spaced

theorem of_append (h : Spaced (l ++ m)) : Spaced l ∧ Spaced m :=
  ⟨⟨fun p hp => h.blank p (List.mem_append_left m hp), (List.isChain_append.1 h.apart).1⟩,
    ⟨fun p hp => h.blank p (List.mem_append_right l hp), (List.isChain_append.1 h.apart).2.1⟩⟩

theorem of_cons (h : Spaced (p :: l)) : Spaced l := (of_append (l := [p]) h).2

end Spaced

/-- **The marks in the text of a layout** are those of its tokens. -/
theorem mem_render_iff (h : Spaced l) (ht : t.isMark = true) (hc : c ∈ t.chars) : c ∈ render l ↔ t ∈ l.map Prod.snd := by
  rw [render, List.mem_flatMap, List.mem_map]
  refine exists_congr fun p => and_congr_right fun hp => ?_
  rw [List.mem_append]
  constructor
  · rintro (hgap | htoken)
    · -- a mark is no blank, so it is in no gap
      have hblank := Token.not_blank hc
      simp [h.blank p hp c hgap] at hblank
    · exact Token.eq_of_mem ht hc htoken
  · rintro rfl
    exact Or.inr hc

/-! ## Single blanks -/

/-- A layout with one blank for several. -/
def singles (l : Layout) : Layout := l.map fun p => (if p.1 = [] then [] else [' '], p.2)

/-- The same with none in front. -/
def tidy : Layout → Layout
  | [] => []
  | p :: l => ([], p.2) :: singles l

theorem afterBlank_render (h : Spaced l) : afterBlank (render l) (render (tidy l)) = render (singles l) := by
  cases l with
  | nil => rfl
  | cons p l =>
    obtain ⟨d, r, hd⟩ := List.exists_cons_of_ne_nil p.2.chars_ne_nil
    have htidy : render (tidy (p :: l)) = p.2.chars ++ render (singles l) := by rw [tidy, render_cons]; rfl
    have hsingles : render (singles (p :: l)) =
        (if p.1 = [] then [] else [' ']) ++ (p.2.chars ++ render (singles l)) := by
      rw [singles, List.map_cons, render_cons]
      rfl
    -- the text begins with a blank just if there is a gap
    rw [htidy, hsingles, render_cons, afterBlank, hd]
    cases hgap : p.1 with
    | nil =>
      have hblank : isBlank d = false := Token.not_blank (by rw [hd]; exact List.mem_cons_self)
      simp [hblank]
    | cons x gap =>
      have hblank : isBlank x = true := h.blank p List.mem_cons_self x (by rw [hgap]; exact List.mem_cons_self)
      simp [hblank]

/-- **The text of a layout with single blanks** is that of the tidy layout. -/
theorem squeeze_render (h : Spaced l) : squeeze (render l) = render (tidy l) := by
  induction l with
  | nil => rfl
  | cons p l ih =>
    rw [render_cons, Text.squeeze_append_of_blank (h.blank p List.mem_cons_self),
      Text.squeeze_append_of_word (fun c hc => Token.not_blank hc) p.2.chars_ne_nil, ih h.of_cons,
      afterBlank_render h.of_cons, tidy, render_cons]
    rfl

theorem map_snd_tidy (l : Layout) : (tidy l).map Prod.snd = l.map Prod.snd := by
  cases l with
  | nil => rfl
  | cons p l => simp [tidy, singles]

theorem getElem?_tidy_succ (l : Layout) (i : ℕ) :
    (tidy l)[i + 1]? = l[i + 1]?.map fun p => (if p.1 = [] then [] else [' '], p.2) := by
  cases l with
  | nil => rfl
  | cons p l => simp [tidy, singles]

theorem blank_of_single {gap : List Char} (h : gap = [] ∨ gap = [' ']) : ∀ c ∈ gap, isBlank c = true := by
  rcases h with rfl | rfl
  · simp
  · intro c hc
    rw [List.mem_singleton.1 hc]
    rfl

/-- What is between two tokens of a tidy layout. -/
theorem gap_of_mem_tidy (h : p ∈ tidy l) : p.1 = [] ∨ p.1 = [' '] := by
  cases l with
  | nil => simp [tidy] at h
  | cons q l =>
    rcases List.mem_cons.1 h with rfl | h
    · exact Or.inl rfl
    · obtain ⟨r, -, rfl⟩ := List.mem_map.1 h
      dsimp only
      split
      · exact Or.inl rfl
      · exact Or.inr rfl

theorem Spaced.tidy (h : Spaced l) : Spaced (tidy l) := by
  refine ⟨fun p hp => blank_of_single (gap_of_mem_tidy hp), ?_⟩
  cases l with
  | nil => exact .nil
  | cons p l =>
    obtain ⟨hfirst, hrest⟩ := List.isChain_cons.1 h.apart
    refine List.isChain_cons.2 ⟨fun q hq hp hqword => ?_, (List.isChain_map _).2 (hrest.imp ?_)⟩
    · rw [singles, List.head?_map] at hq
      obtain ⟨r, hr, rfl⟩ := Option.map_eq_some_iff.1 hq
      simp [hfirst r hr hp hqword]
    · intro q r hqr hq hr
      simp [hqr hq hr]

end CodeAtlas.Outline.Rust
