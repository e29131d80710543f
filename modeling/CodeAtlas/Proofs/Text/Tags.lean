import CodeAtlas.Proofs.Text.Removal

/-!
# Tags in a text

A tag begins with an opening angle bracket, ends with a closing one and has no other ones, so no two
tags overlap. But a tag can be torn apart by others (`spread`): where these are taken out, its
parts join. If tags are taken out one kind after the other, it depends on the order whether a
tag that is joined is still taken out itself.

* `IsTag`, `spread`, `withoutEach`: tags, torn tags, and tags taken out one after the other.
* `without_spread`, `exists_spread`: **the step**: what is taken out of a torn tag is taken out between
  its characters, and each torn tag that is left comes from one.
* `exists_prefix_spread`: what a torn tag looks like where it is torn.
* `infix_withoutEach_iff`: **which tags are left**, after any number of steps.
* `withoutEach_eq_self_iff`: nothing is taken out exactly if there is no tag.
-/

namespace CodeAtlas.Text

/-- What follows the opening bracket of a tag. -/
def IsTail (l : List Char) : Prop := l.getLast? = some '>' ∧ '<' ∉ l ∧ '>' ∉ l.dropLast

instance (l : List Char) : Decidable (IsTail l) :=
  inferInstanceAs (Decidable (l.getLast? = some '>' ∧ '<' ∉ l ∧ '>' ∉ l.dropLast))

/-- **A tag**: two angle brackets around a text without any. -/
def IsTag (t : List Char) : Prop := ∃ l, t = '<' :: l ∧ IsTail l

/-- A text with others between its characters. -/
def spread : List Char → List (List Char) → List Char
  | c :: t, g :: gaps => c :: (g ++ spread t gaps)
  | t, _ => t

/-- What is left of a text if the occurrences of several texts are taken out, one text after the other. -/
def withoutEach (ts : List (List Char)) (s : List Char) : List Char := ts.foldl (fun s t => without t s) s

/-- A text that can only be taken out as a whole: it is empty, or it begins and ends with brackets. -/
def IsClosed (g : List Char) : Prop := g = [] ∨ g.head? = some '<' ∧ g.getLast? = some '>'

@[simp] theorem withoutEach_nil (s : List Char) : withoutEach [] s = s := rfl

@[simp] theorem withoutEach_cons (t : List Char) (ts : List (List Char)) (s : List Char) :
    withoutEach (t :: ts) s = withoutEach ts (without t s) := rfl

variable {c : Char} {t u s a b g : List Char} {gaps : List (List Char)} {ts : List (List Char)}

/-! ## Tags -/

theorem IsTail.ne_nil (h : IsTail t) : t ≠ [] := by
  rintro rfl
  cases h.1

theorem IsTail.cons {d : Char} (h : IsTail (c :: d :: t)) : c ≠ '>' ∧ IsTail (d :: t) := by
  obtain ⟨hlast, hopen, hclose⟩ := h
  rw [List.dropLast_cons_cons, List.mem_cons, not_or] at hclose
  refine ⟨fun hc => hclose.1 hc.symm, by simpa using hlast, ?_, hclose.2⟩
  exact fun hmem => hopen (List.mem_cons_of_mem c hmem)

theorem IsTag.ne_nil (h : IsTag t) : t ≠ [] := by
  obtain ⟨l, rfl, -⟩ := h
  exact List.cons_ne_nil _ _

/-- A tag may be cut off before an opening bracket. -/
theorem without_append_opened (ht : IsTag t) (hb : b = [] ∨ b.head? = some '<') :
    without t (a ++ b) = without t a ++ without t b := by
  refine without_append ht.ne_nil fun x y hxy hx hy _ hyb => ?_
  obtain ⟨l, rfl, -, hopen, -⟩ := ht
  -- the part after the cut would have a bracket that opens
  obtain ⟨d, x, rfl⟩ := List.exists_cons_of_ne_nil hx
  obtain ⟨e, y, rfl⟩ := List.exists_cons_of_ne_nil hy
  obtain ⟨-, rfl⟩ := List.cons.inj hxy
  rcases hb with rfl | hb
  · exact absurd (List.prefix_nil.1 hyb) (List.cons_ne_nil e y)
  · obtain ⟨r, rfl⟩ := hyb
    obtain rfl : e = '<' := by simpa using hb
    exact hopen (List.mem_append_right x List.mem_cons_self)

/-- A tag may be cut off behind a closing bracket. -/
theorem without_append_closed (ht : IsTag t) (ha : a = [] ∨ a.getLast? = some '>') :
    without t (a ++ b) = without t a ++ without t b := by
  refine without_append ht.ne_nil fun x y hxy hx hy hxa _ => ?_
  obtain ⟨l, rfl, -, -, hclose⟩ := ht
  obtain ⟨r, rfl⟩ := hxa
  rcases ha with ha | ha
  · exact hx (List.append_eq_nil_iff.1 ha).2
  · -- the part before the cut would have a bracket that closes
    have hlast : x.getLast? = some '>' := by rwa [List.getLast?_append_of_ne_nil r hx] at ha
    have hmem : '>' ∈ ('<' :: l).dropLast := by
      rw [hxy, List.dropLast_append_of_ne_nil hy]
      exact List.mem_append_left _ (List.mem_of_getLast? hlast)
    cases l with
    | nil => cases hmem
    | cons d l =>
      rw [List.dropLast_cons_cons] at hmem
      rcases List.mem_cons.1 hmem with h | h
      · cases h
      · exact hclose h

theorem without_cons_of_ne (ht : IsTag t) (hc : c ≠ '<') (s : List Char) : without t (c :: s) = c :: without t s := by
  refine without_cons ht.ne_nil fun hpre => ?_
  obtain ⟨l, rfl, -⟩ := ht
  exact hc (List.cons_prefix_cons.1 hpre).1.symm

theorem without_concat_of_ne (ht : IsTag t) (hc : c ≠ '>') (s : List Char) :
    without t (s ++ [c]) = without t s ++ [c] := by
  have hlast : t.getLast? = some '>' := by
    obtain ⟨l, rfl, hl⟩ := ht
    rw [List.getLast?_cons, hl.1]
    rfl
  have hcut : without t (s ++ [c]) = without t s ++ without t [c] := by
    refine without_append ht.ne_nil fun x y hxy _ hy _ hyc => hc ?_
    obtain ⟨d, y, rfl⟩ := List.exists_cons_of_ne_nil hy
    obtain ⟨rfl, hnil⟩ := List.cons_prefix_cons.1 hyc
    obtain rfl := List.prefix_nil.1 hnil
    simpa [hxy] using hlast
  have hkept : without t [c] = [c] := by
    rw [without_eq_self_iff ht.ne_nil]
    intro hin
    exact hc (List.mem_singleton.1 (hin.subset (List.mem_of_getLast? hlast))).symm
  rw [hcut, hkept]

/-! ## Texts of which nothing is left -/

theorem withoutEach_cons_of_ne (hts : ∀ t ∈ ts, IsTag t) (hc : c ≠ '<') (s : List Char) :
    withoutEach ts (c :: s) = c :: withoutEach ts s := by
  induction ts generalizing s with
  | nil => rfl
  | cons t ts ih =>
    simp only [withoutEach_cons, without_cons_of_ne (hts t List.mem_cons_self) hc]
    exact ih (fun u hu => hts u (List.mem_cons_of_mem t hu)) _

theorem withoutEach_concat_of_ne (hts : ∀ t ∈ ts, IsTag t) (hc : c ≠ '>') (s : List Char) :
    withoutEach ts (s ++ [c]) = withoutEach ts s ++ [c] := by
  induction ts generalizing s with
  | nil => rfl
  | cons t ts ih =>
    simp only [withoutEach_cons, without_concat_of_ne (hts t List.mem_cons_self) hc]
    exact ih (fun u hu => hts u (List.mem_cons_of_mem t hu)) _

/-- **Where nothing is left** there are brackets at both ends. -/
theorem isClosed_of_withoutEach (hts : ∀ t ∈ ts, IsTag t) (h : withoutEach ts g = []) : IsClosed g := by
  by_cases hg : g = []
  · exact Or.inl hg
  refine Or.inr ⟨?_, ?_⟩
  · obtain ⟨c, r, rfl⟩ := List.exists_cons_of_ne_nil hg
    by_contra hhead
    rw [withoutEach_cons_of_ne hts (by simpa using hhead)] at h
    cases h
  · obtain ⟨r, c, rfl⟩ := (List.eq_nil_or_concat g).resolve_left hg
    rw [List.concat_eq_append] at *
    by_contra hlast
    rw [withoutEach_concat_of_ne hts (by simpa using hlast)] at h
    simp at h

theorem isClosed_of_without (ht : IsTag t) (h : without t g = []) : IsClosed g := by
  have hts : ∀ u ∈ [t], IsTag u := by simpa using ht
  exact isClosed_of_withoutEach hts h

/-! ## Torn tags -/

theorem spread_of_empty (h : ∀ g ∈ gaps, g = []) : spread t gaps = t := by
  induction gaps generalizing t with
  | nil => cases t <;> rfl
  | cons g gaps ih =>
    cases t with
    | nil => rfl
    | cons c t =>
      rw [spread, h g List.mem_cons_self, ih fun g hg => h g (List.mem_cons_of_mem _ hg)]
      rfl

theorem spread_ne_nil (hlength : gaps.length + 1 = t.length) : spread t gaps ≠ [] := by
  cases t with
  | nil => simp at hlength
  | cons c t => cases gaps <;> exact List.cons_ne_nil _ _

theorem head?_spread (t : List Char) (gaps : List (List Char)) : (spread t gaps).head? = t.head? := by
  cases t with
  | nil => cases gaps <;> rfl
  | cons c t => cases gaps <;> rfl

theorem getLast?_spread (hlength : gaps.length + 1 = t.length) : (spread t gaps).getLast? = t.getLast? := by
  induction gaps generalizing t with
  | nil => cases t <;> rfl
  | cons g gaps ih =>
    cases t with
    | nil => rfl
    | cons c t =>
      have hrest : gaps.length + 1 = t.length := by simpa using hlength
      have hne : t ≠ [] := List.ne_nil_of_length_eq_add_one hrest.symm
      obtain ⟨e, he⟩ : ∃ e, t.getLast? = some e := ⟨_, List.getLast?_eq_some_getLast hne⟩
      have hlast : (g ++ spread t gaps).getLast? = some e := by
        rw [List.getLast?_append, ih hrest, he]
        rfl
      rw [spread, List.getLast?_cons, hlast, List.getLast?_cons, he]

/-- **Where a tag is torn**, a beginning of it comes before an opening bracket. -/
theorem exists_prefix_spread (hlength : gaps.length + 1 = t.length) (hgaps : ∀ g ∈ gaps, IsClosed g)
    (htorn : ∃ g ∈ gaps, g ≠ []) : ∃ p, p ≠ [] ∧ p <+: t ∧ p ≠ t ∧ p ++ ['<'] <+: spread t gaps := by
  induction gaps generalizing t with
  | nil => simp at htorn
  | cons g gaps ih =>
    cases t with
    | nil => simp at hlength
    | cons c t =>
      have hrest : gaps.length + 1 = t.length := by simpa using hlength
      by_cases hg : g = []
      · -- it is torn further on
        subst hg
        obtain ⟨p, hne, hpre, hproper, hin⟩ := ih hrest (fun g hg => hgaps g (List.mem_cons_of_mem _ hg)) (by simpa using htorn)
        refine ⟨c :: p, List.cons_ne_nil c p, List.cons_prefix_cons.2 ⟨rfl, hpre⟩, ?_, ?_⟩
        · exact fun heq => hproper (List.cons.inj heq).2
        · exact List.cons_prefix_cons.2 ⟨rfl, hin⟩
      · have hhead : g.head? = some '<' := ((hgaps g List.mem_cons_self).resolve_left hg).1
        obtain ⟨x, g, rfl⟩ := List.exists_cons_of_ne_nil hg
        obtain rfl : x = '<' := by simpa using hhead
        have hne : t ≠ [] := List.ne_nil_of_length_eq_add_one hrest.symm
        refine ⟨[c], List.cons_ne_nil c [], List.cons_prefix_cons.2 ⟨rfl, List.nil_prefix⟩, ?_, ?_⟩
        · exact fun heq => hne (List.cons.inj heq).2.symm
        · exact ⟨g ++ spread t gaps, rfl⟩

/-- **A tag that begins like a torn one** is that tag, and nothing stands between its characters. -/
theorem eq_of_prefix_spread (hu : IsTail u) (ht : IsTail t) (hlength : gaps.length + 1 = t.length)
    (hgaps : ∀ g ∈ gaps, IsClosed g) (h : u <+: spread t gaps) : u = t ∧ ∀ g ∈ gaps, g = [] := by
  induction t generalizing u gaps with
  | nil => simp at hlength
  | cons c t ih =>
    obtain ⟨d, u, rfl⟩ := List.exists_cons_of_ne_nil hu.ne_nil
    cases gaps with
    | nil =>
      obtain rfl : t = [] := by simpa using hlength
      obtain ⟨rfl, hnil⟩ := List.cons_prefix_cons.1 h
      rw [List.prefix_nil.1 hnil]
      exact ⟨rfl, by simp⟩
    | cons g gaps =>
      have hrest : gaps.length + 1 = t.length := by simpa using hlength
      obtain ⟨rfl, hpre⟩ := List.cons_prefix_cons.1 h
      obtain ⟨e, t, rfl⟩ := List.exists_cons_of_length_eq_add_one hrest.symm
      obtain ⟨hclose, htail⟩ := ht.cons
      -- the tag goes on, since it does not end here
      cases u with
      | nil => exact absurd (by simpa using hu.1) hclose
      | cons f u =>
        obtain ⟨-, hutail⟩ := hu.cons
        have hg : g = [] := by
          refine (hgaps g List.mem_cons_self).resolve_right fun ⟨hhead, _⟩ => ?_
          obtain ⟨x, g, rfl⟩ := List.exists_cons_of_ne_nil (l := g) (by rintro rfl; cases hhead)
          obtain rfl : x = '<' := by simpa using hhead
          obtain ⟨rfl, -⟩ := List.cons_prefix_cons.1 hpre
          exact hutail.2.1 List.mem_cons_self
        subst hg
        obtain ⟨hsame, hempty⟩ := ih hutail htail hrest (fun g hg => hgaps g (List.mem_cons_of_mem _ hg)) hpre
        exact ⟨congrArg (d :: ·) hsame, by simpa using hempty⟩

/-- Behind the opening bracket of a torn tag, all that is taken out stands between its characters. -/
theorem without_spread_tail (hu : IsTag u) (ht : '<' ∉ t) (hlength : gaps.length + 1 = t.length)
    (hgaps : ∀ g ∈ gaps, IsClosed g) : without u (spread t gaps) = spread t (gaps.map (without u)) := by
  induction t generalizing gaps with
  | nil => simp at hlength
  | cons c t ih =>
    have hc : c ≠ '<' := fun h => ht (h ▸ List.mem_cons_self)
    cases gaps with
    | nil =>
      obtain rfl : t = [] := by simpa using hlength
      exact (without_cons_of_ne hu hc []).trans (congrArg (c :: ·) (without_nil hu.ne_nil))
    | cons g gaps =>
      have hclosed : g = [] ∨ g.getLast? = some '>' := (hgaps g List.mem_cons_self).imp_right And.right
      rw [spread, without_cons_of_ne hu hc, without_append_closed hu hclosed,
        ih (fun h => ht (List.mem_cons_of_mem c h)) (by simpa using hlength)
          fun g hg => hgaps g (List.mem_cons_of_mem _ hg)]
      rfl

/-- **What is taken out of a torn tag** is taken out between its characters, unless it is the tag itself, in one
piece. -/
theorem without_spread (hu : IsTag u) (ht : IsTag t) (hlength : gaps.length + 1 = t.length)
    (hgaps : ∀ g ∈ gaps, IsClosed g) (hne : u = t → ∃ g ∈ gaps, g ≠ []) :
    without u (spread t gaps) = spread t (gaps.map (without u)) := by
  obtain ⟨l, rfl, htail⟩ := ht
  obtain ⟨k, rfl, hutail⟩ := id hu
  cases gaps with
  | nil => exact absurd (by simpa using hlength) htail.ne_nil
  | cons g gaps =>
    have hclosed : g = [] ∨ g.getLast? = some '>' := (hgaps g List.mem_cons_self).imp_right And.right
    have hrest : ∀ g ∈ gaps, IsClosed g := fun g hg => hgaps g (List.mem_cons_of_mem _ hg)
    have hnot : ¬('<' :: k <+: '<' :: (g ++ spread l gaps)) := by
      intro hpre
      have hpre := (List.cons_prefix_cons.1 hpre).2
      rcases hgaps g List.mem_cons_self with rfl | ⟨hhead, -⟩
      · -- the tag would stand there in one piece
        obtain ⟨rfl, hempty⟩ := eq_of_prefix_spread hutail htail (by simpa using hlength) hrest hpre
        obtain ⟨g, hg, hfull⟩ := hne rfl
        rcases List.mem_cons.1 hg with rfl | hg
        · exact hfull rfl
        · exact hfull (hempty g hg)
      · obtain ⟨x, g, rfl⟩ := List.exists_cons_of_ne_nil (l := g) (by rintro rfl; cases hhead)
        obtain ⟨d, k, rfl⟩ := List.exists_cons_of_ne_nil hutail.ne_nil
        obtain rfl : x = '<' := by simpa using hhead
        obtain ⟨rfl, -⟩ := List.cons_prefix_cons.1 hpre
        exact hutail.2.1 List.mem_cons_self
    rw [spread, without_cons hu.ne_nil hnot, without_append_closed hu hclosed,
      without_spread_tail hu htail.2.1 (by simpa using hlength) hrest]
    rfl

/-- A torn tag may be cut off from the text around it. -/
theorem without_around_spread (hu : IsTag u) (ht : IsTag t) (hlength : gaps.length + 1 = t.length) (a b : List Char) :
    without u (a ++ (spread t gaps ++ b)) = without u a ++ (without u (spread t gaps) ++ without u b) := by
  obtain ⟨l, rfl, htail⟩ := ht
  have hhead : (spread ('<' :: l) gaps ++ b).head? = some '<' := by
    rw [List.head?_append, head?_spread]
    rfl
  have hlast : (spread ('<' :: l) gaps).getLast? = some '>' := by
    rw [getLast?_spread hlength, List.getLast?_cons, htail.1]
    rfl
  rw [without_append_opened hu (Or.inr hhead), without_append_closed hu (Or.inr hlast)]

/-- **A torn text that is left** comes from a torn text, and its gaps from the gaps of that one. -/
theorem exists_spread_append (hu : IsTag u) {r : List Char} (hlength : gaps.length + 1 = t.length)
    (h : without u s = spread t gaps ++ r) :
    ∃ a gaps' b, s = a ++ (spread t gaps' ++ b) ∧ without u a = [] ∧ gaps'.map (without u) = gaps ∧ without u b = r := by
  induction t generalizing s gaps with
  | nil => simp at hlength
  | cons c t ih =>
    cases gaps with
    | nil =>
      obtain rfl : t = [] := by simpa using hlength
      obtain ⟨a, b, rfl, ha, hb⟩ := exists_of_without_eq_cons hu.ne_nil h
      exact ⟨a, [], b, rfl, ha, rfl, hb⟩
    | cons g gaps =>
      obtain ⟨a, s, rfl, ha, hs⟩ := exists_of_without_eq_cons hu.ne_nil h
      have hs : without u s = g ++ (spread t gaps ++ r) := by rw [hs, ← List.append_assoc]; rfl
      obtain ⟨x, y, rfl, hx, hy⟩ := exists_of_without_eq_append hu.ne_nil hs
      obtain ⟨a', gaps', b, rfl, ha', rfl, hb⟩ := ih (by simpa using hlength) hy
      -- what stands before the rest of the text belongs to the first gap
      have hopened : a' = [] ∨ a'.head? = some '<' := (isClosed_of_without hu ha').imp_right And.left
      refine ⟨a, (x ++ a') :: gaps', b, by simp [spread], ha, ?_, hb⟩
      rw [List.map_cons, without_append_opened hu hopened, hx, ha', List.append_nil]

/-- **A torn tag that is left** comes from one. -/
theorem exists_spread (hu : IsTag u) (ht : IsTag t) (hlength : gaps.length + 1 = t.length)
    (h : spread t gaps <:+: without u s) :
    ∃ gaps', spread t gaps' <:+: s ∧ gaps'.map (without u) = gaps ∧ without u (spread t gaps') = spread t gaps := by
  obtain ⟨x, y, h⟩ := h
  rw [List.append_assoc] at h
  obtain ⟨front, m, rfl, -, hm⟩ := exists_of_without_eq_append hu.ne_nil h.symm
  obtain ⟨a, gaps', b, rfl, ha, hgaps, hb⟩ := exists_spread_append hu hlength hm
  have hlength' : gaps'.length + 1 = t.length := by rw [← hlength, ← hgaps, List.length_map]
  refine ⟨gaps', ⟨front ++ a, b, by simp⟩, hgaps, ?_⟩
  rw [without_around_spread hu ht hlength', ha, hb, List.nil_append] at hm
  exact List.append_cancel_right hm

/-! ## Tags that are left -/

/-- **Which tags are left.** After tags have been taken out one kind after the other, a tag is left exactly if it
stands in the text torn apart by texts of which nothing is left in the end; and if it is one of the tags that
are taken out, something is left of one of these texts when its turn comes. -/
theorem infix_withoutEach_iff (hts : ∀ t ∈ ts, IsTag t) (hnd : ts.Nodup) (ht : IsTag t) :
    t <:+: withoutEach ts s ↔
      ∃ gaps, gaps.length + 1 = t.length ∧ spread t gaps <:+: s ∧ (∀ g ∈ gaps, withoutEach ts g = []) ∧
        (t ∈ ts → ∃ g ∈ gaps, withoutEach (ts.takeWhile (· ≠ t)) g ≠ []) := by
  induction ts generalizing s with
  | nil =>
    constructor
    · intro h
      obtain ⟨l, rfl, -⟩ := ht
      have hempty : ∀ g ∈ List.replicate l.length ([] : List Char), g = [] := fun g hg => List.eq_of_mem_replicate hg
      exact ⟨List.replicate l.length [], by simp, by rwa [spread_of_empty hempty], hempty, by simp⟩
    · rintro ⟨gaps, -, h, hempty, -⟩
      rwa [spread_of_empty hempty] at h
  | cons u ts ih =>
    have hu : IsTag u := hts u List.mem_cons_self
    have hrest : ∀ t ∈ ts, IsTag t := fun t ht => hts t (List.mem_cons_of_mem u ht)
    obtain ⟨hnew, hnd⟩ := List.nodup_cons.1 hnd
    rw [withoutEach_cons, ih hrest hnd]
    constructor
    · rintro ⟨gaps, hlength, h, hgone, hlate⟩
      obtain ⟨gaps', hin, rfl, hwithout⟩ := exists_spread hu ht hlength h
      have hlength' : gaps'.length + 1 = t.length := by simpa using hlength
      refine ⟨gaps', hlength', hin, fun g hg => hgone _ (List.mem_map_of_mem hg), fun hmem => ?_⟩
      by_cases hut : u = t
      · subst hut
        -- in one piece the tag would have been taken out
        by_contra hempty
        push Not at hempty
        have hone : without u u = [] := by
          have := without_append_self hu.ne_nil []
          rwa [List.append_nil, without_nil hu.ne_nil] at this
        have hpiece : ∀ g ∈ gaps', g = [] := by simpa using hempty
        rw [spread_of_empty hpiece, hone] at hwithout
        exact spread_ne_nil hlength hwithout.symm
      · obtain ⟨g, hg, hleft⟩ := hlate ((List.mem_cons.1 hmem).resolve_left fun h => hut h.symm)
        obtain ⟨x, hx, rfl⟩ := List.mem_map.1 hg
        exact ⟨x, hx, by simpa [List.takeWhile_cons, hut] using hleft⟩
    · rintro ⟨gaps, hlength, hin, hgone, hlate⟩
      have hclosed : ∀ g ∈ gaps, IsClosed g := fun g hg => isClosed_of_withoutEach hts (hgone g hg)
      have hpiece : u = t → ∃ g ∈ gaps, g ≠ [] := by
        rintro rfl
        simpa using hlate List.mem_cons_self
      obtain ⟨a, b, rfl⟩ := hin
      refine ⟨gaps.map (without u), by simpa using hlength, ⟨without u a, without u b, ?_⟩, ?_, fun hmem => ?_⟩
      · rw [List.append_assoc, List.append_assoc, without_around_spread hu ht hlength,
          without_spread hu ht hlength hclosed hpiece]
      · intro g hg
        obtain ⟨x, hx, rfl⟩ := List.mem_map.1 hg
        exact hgone x hx
      · obtain ⟨g, hg, hleft⟩ := hlate (List.mem_cons_of_mem u hmem)
        have hut : u ≠ t := fun h => hnew (h ▸ hmem)
        exact ⟨without u g, List.mem_map_of_mem hg, by simpa [List.takeWhile_cons, hut] using hleft⟩

theorem length_withoutEach_le (hts : ∀ t ∈ ts, t ≠ []) (s : List Char) : (withoutEach ts s).length ≤ s.length := by
  induction ts generalizing s with
  | nil => exact le_rfl
  | cons t ts ih =>
    have hrest := ih (fun u hu => hts u (List.mem_cons_of_mem t hu)) (without t s)
    exact hrest.trans (length_without (hts t List.mem_cons_self) s).1

/-- **Nothing is taken out** exactly if none of the texts stands there. -/
theorem withoutEach_eq_self_iff (hts : ∀ t ∈ ts, t ≠ []) : withoutEach ts s = s ↔ ∀ t ∈ ts, ¬t <:+: s := by
  induction ts with
  | nil => simp
  | cons t ts ih =>
    have ht : t ≠ [] := hts t List.mem_cons_self
    have hrest : ∀ u ∈ ts, u ≠ [] := fun u hu => hts u (List.mem_cons_of_mem t hu)
    rw [withoutEach_cons, List.forall_mem_cons]
    constructor
    · intro h
      -- a text that has become shorter stays shorter
      have hlength := length_withoutEach_le hrest (without t s)
      rw [h] at hlength
      have hnot : ¬t <:+: s := fun hin => absurd ((length_without ht s).2 hin) (Nat.not_lt.2 hlength)
      rw [(without_eq_self_iff ht).2 hnot] at h
      exact ⟨hnot, (ih hrest).1 h⟩
    · rintro ⟨hnot, hall⟩
      rw [(without_eq_self_iff ht).2 hnot]
      exact (ih hrest).2 hall

end CodeAtlas.Text
