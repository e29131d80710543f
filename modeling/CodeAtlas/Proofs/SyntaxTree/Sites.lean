import CodeAtlas.SyntaxTree.Walk
import Mathlib.Data.List.Flatten
import Mathlib.Data.List.Infix

/-!
# The sites of a tree

Nodes of some kinds may be closed: what stands inside them is left out of a walk. The sites of a tree
are then those on its surface and those enclosed.

* `Site.inner_induction`: what holds of a site if it holds of the sites right below it.
* `Site.surface`, `Site.enclosed`: the sites that are not inside a closed node, and those that are.
* `Site.surface_within`: **what is below a site of the surface stands there in one piece.**
* `Site.countP_surface`: **every site is on the surface or enclosed**, and counted once.
* `Site.filter_sites`: what is not found inside closed nodes is found on the surface.
* `walkFrom_eq`: **a walk needs no buffer**; `walkStack` is the walk without it.
* `complexity_eq`: the complexity of a tree counts its branches.
-/

namespace CodeAtlas.SyntaxTree

namespace Site

variable {s t : Site} {closed : String → Bool}

theorem size_lt_of_mem_inner (h : t ∈ s.inner) : t.size < s.size := by
  have hmem : t.node ∈ s.node.namedChildren := map_node_inner s ▸ List.mem_map_of_mem h
  exact Node.size_of_mem (List.mem_of_mem_filter hmem)

/-- **Induction on the tree below a site.** -/
theorem inner_induction {motive : Site → Prop} (step : ∀ s : Site, (∀ t ∈ s.inner, motive t) → motive s)
    (s : Site) : motive s := by
  induction hn : s.size using Nat.strong_induction_on generalizing s with
  | _ n ih =>
    subst hn
    exact step s fun t ht => ih t.size (size_lt_of_mem_inner ht) t rfl

mutual

/-- The sites of a tree, parents first, without those inside a closed node. -/
def surfaceFrom (closed : String → Bool) (above before : List Node) : Node → List Site
  | ⟨kind, role, named, isError, span, children⟩ =>
    let n : Node := ⟨kind, role, named, isError, span, children⟩
    { node := n, above, before } :: if closed kind then [] else surfaceAll closed (n :: above) [] children

/-- The sites of the named ones among some siblings. -/
def surfaceAll (closed : String → Bool) (above before : List Node) : List Node → List Site
  | [] => []
  | c :: cs =>
    if c.named then surfaceFrom closed above before c ++ surfaceAll closed above (c :: before) cs
    else surfaceAll closed above before cs

end

/-- The site and the sites below it, without those inside a closed node. -/
def surface (closed : String → Bool) (s : Site) : List Site := surfaceFrom closed s.above s.before s.node

mutual

/-- The sites of a tree that are inside a closed node. -/
def enclosedFrom (closed : String → Bool) (above : List Node) : Node → List Site
  | ⟨kind, role, named, isError, span, children⟩ =>
    let n : Node := ⟨kind, role, named, isError, span, children⟩
    if closed kind then surfaceAll (fun _ => false) (n :: above) [] children
    else enclosedAll closed (n :: above) children

/-- Those below the named ones among some siblings. -/
def enclosedAll (closed : String → Bool) (above : List Node) : List Node → List Site
  | [] => []
  | c :: cs => if c.named then enclosedFrom closed above c ++ enclosedAll closed above cs else enclosedAll closed above cs

end

/-- The sites below a site that are inside a closed node. -/
def enclosed (closed : String → Bool) (s : Site) : List Site := enclosedFrom closed s.above s.node

/-- All sites from a site on. -/
def sites (s : Site) : List Site := s.surface fun _ => false

theorem surfaceAll_eq (closed : String → Bool) (above before cs : List Node) :
    surfaceAll closed above before cs = (ofSiblings above before (cs.filter (·.named))).flatMap (surface closed) := by
  induction cs generalizing before with
  | nil => rfl
  | cons c cs ih =>
    by_cases hc : c.named = true
    · rw [surfaceAll, if_pos hc, ih, List.filter_cons_of_pos hc, ofSiblings, List.flatMap_cons, surface]
    · rw [surfaceAll, if_neg hc, ih, List.filter_cons_of_neg hc]

theorem enclosedAll_eq (closed : String → Bool) (above before cs : List Node) :
    enclosedAll closed above cs = (ofSiblings above before (cs.filter (·.named))).flatMap (enclosed closed) := by
  induction cs generalizing before with
  | nil => rfl
  | cons c cs ih =>
    by_cases hc : c.named = true
    · rw [enclosedAll, if_pos hc, ih (c :: before), List.filter_cons_of_pos hc, ofSiblings, List.flatMap_cons, enclosed]
    · rw [enclosedAll, if_neg hc, ih before, List.filter_cons_of_neg hc]

/-- **The surface from a site on**: the site, and what is on the surface of the sites below it. -/
theorem surface_eq (closed : String → Bool) (s : Site) :
    s.surface closed = s :: if closed s.node.kind then [] else s.inner.flatMap (surface closed) := by
  obtain ⟨⟨kind, role, named, isError, span, children⟩, above, before⟩ := s
  rw [surface, surfaceFrom, surfaceAll_eq]
  rfl

theorem sites_eq (s : Site) : s.sites = s :: s.inner.flatMap sites := by
  rw [sites, surface_eq]
  rfl

theorem enclosed_eq (closed : String → Bool) (s : Site) :
    s.enclosed closed = if closed s.node.kind then s.inner.flatMap sites else s.inner.flatMap (enclosed closed) := by
  obtain ⟨⟨kind, role, named, isError, span, children⟩, above, before⟩ := s
  rw [enclosed, enclosedFrom, surfaceAll_eq, enclosedAll_eq closed _ []]
  rfl

/-- What is below a site is on the surface if the site is and is not closed. -/
theorem surface_within_of_mem_inner (hs : closed s.node.kind = false) (h : t ∈ s.inner) :
    t.surface closed <:+: s.surface closed := by
  rw [surface_eq closed s, hs]
  exact (List.infix_flatMap_of_mem h (surface closed)).trans (List.suffix_cons _ _).isInfix

/-- **What is below a site of the surface stands there in one piece.** -/
theorem surface_within (h : t ∈ s.surface closed) : t.surface closed <:+: s.surface closed := by
  induction s using inner_induction with
  | step s ih =>
    rw [surface_eq] at h
    rcases List.mem_cons.1 h with rfl | h
    · exact List.infix_rfl
    · cases hs : closed s.node.kind with
      | true => simp [hs] at h
      | false =>
        rw [hs] at h
        obtain ⟨u, hu, htu⟩ := List.mem_flatMap.1 h
        exact (ih u hu htu).trans (surface_within_of_mem_inner hs hu)

theorem countP_flatMap_add {f g h : Site → List Site} {p : Site → Bool} {l : List Site}
    (hl : ∀ t ∈ l, (f t).countP p = (g t).countP p + (h t).countP p) :
    (l.flatMap f).countP p = (l.flatMap g).countP p + (l.flatMap h).countP p := by
  induction l with
  | nil => rfl
  | cons t l ih =>
    have ht := hl t List.mem_cons_self
    have hrest := ih fun u hu => hl u (List.mem_cons_of_mem t hu)
    simp only [List.flatMap_cons, List.countP_append]
    omega

/-- **Every site is on the surface or enclosed**, and counted once. -/
theorem countP_surface (closed : String → Bool) (p : Site → Bool) (s : Site) :
    s.sites.countP p = (s.surface closed).countP p + (s.enclosed closed).countP p := by
  induction s using inner_induction with
  | step s ih =>
    rw [sites_eq, surface_eq, enclosed_eq]
    cases closed s.node.kind with
    | true => simp only [if_true, List.countP_cons, List.countP_nil]; omega
    | false =>
      have hinner := countP_flatMap_add ih
      simp only [Bool.false_eq_true, if_false, List.countP_cons]
      omega

/-- What is never found inside a closed node is found on the surface. -/
theorem filter_sites {p : Site → Bool} (h : ∀ t ∈ s.enclosed closed, p t = false) :
    s.sites.filter p = (s.surface closed).filter p := by
  induction s using inner_induction with
  | step s ih =>
    rw [enclosed_eq] at h
    rw [sites_eq, surface_eq, List.filter_cons, List.filter_cons]
    have hbelow : (s.inner.flatMap sites).filter p =
        (if closed s.node.kind then [] else s.inner.flatMap (surface closed)).filter p := by
      cases hs : closed s.node.kind with
      | true =>
        rw [if_pos hs] at h
        rw [if_pos rfl, List.filter_nil, List.filter_eq_nil_iff]
        exact fun t ht => by simp [h t ht]
      | false =>
        rw [if_neg (by simp [hs])] at h
        rw [if_neg (by simp), List.filter_flatMap, List.filter_flatMap]
        exact List.flatMap_congr fun t ht => ih t ht fun u hu => h u (List.mem_flatMap.2 ⟨t, ht, hu⟩)
    rw [hbelow]

/-- What depends on the node of a site only is the same for sites of the same nodes. -/
theorem flatMap_congr_node {β : Type} {f : Site → List β} {l m : List Site} (hnode : l.map node = m.map node)
    (hf : ∀ u ∈ l, ∀ v : Site, u.node = v.node → f u = f v) : l.flatMap f = m.flatMap f := by
  induction l generalizing m with
  | nil =>
    rw [List.map_eq_nil_iff.1 hnode.symm]
  | cons u l ih =>
    cases m with
    | nil => cases hnode
    | cons v m =>
      obtain ⟨huv, hrest⟩ := List.cons.inj hnode
      rw [List.flatMap_cons, List.flatMap_cons, hf u List.mem_cons_self v huv,
        ih hrest fun w hw => hf w (List.mem_cons_of_mem u hw)]

/-- **The nodes of a tree** do not depend on what surrounds it. -/
theorem map_node_surface_congr (closed : String → Bool) (h : s.node = t.node) :
    (s.surface closed).map node = (t.surface closed).map node := by
  induction s using inner_induction generalizing t with
  | step s ih =>
    have hinner : s.inner.map node = t.inner.map node := by rw [map_node_inner, map_node_inner, h]
    have hbelow := flatMap_congr_node hinner fun u hu v huv => ih u hu huv
    rw [surface_eq, surface_eq closed t, List.map_cons, List.map_cons, h]
    cases closed t.node.kind with
    | true => rfl
    | false =>
      simp only [Bool.false_eq_true, if_false, List.map_flatMap]
      rw [hbelow]

end Site

/-! ## Walks -/

variable {σ : Type}

/-- A walk over the sites of a stack, without a buffer. -/
def walkStack (visit : σ → Site → σ × Descent) (state : σ) : List Site → σ
  | [] => state
  | s :: stack =>
    match visit state s with
    | (state, .skip) => walkStack visit state stack
    | (state, .children) => walkStack visit state (s.inner ++ stack)
termination_by stack => Site.sizeAll stack
decreasing_by
  · exact s.sizeAll_cons_lt stack
  · exact s.sizeAll_inner_append_lt stack

/-- **The buffer makes no difference**: whenever a site is taken from the stack it is empty. -/
theorem walkFrom_eq (visit : σ → Site → σ × Descent) (state : σ) (stack : List Site) :
    walkFrom visit state stack [] = walkStack visit state stack := by
  fun_induction walkStack visit state stack with
  | case1 state => rw [walkFrom]
  | case2 state s stack state' hvisit ih =>
    rw [walkFrom, hvisit]
    exact ih
  | case3 state s stack state' hvisit ih =>
    rw [walkFrom, hvisit, List.nil_append, unload_eq]
    exact ih

theorem walk_eq (visit : σ → Site → σ × Descent) (root : Node) (state : σ) :
    walk visit root state = walkStack visit state [{ node := root }] := walkFrom_eq visit state _

/-- A walk over some sites goes on with the others. -/
theorem walkStack_append (visit : σ → Site → σ × Descent) (state : σ) (l m : List Site) :
    walkStack visit state (l ++ m) = walkStack visit (walkStack visit state l) m := by
  fun_induction walkStack visit state l with
  | case1 state => rw [List.nil_append]
  | case2 state s l state' hvisit ih =>
    rw [List.cons_append, walkStack, hvisit]
    exact ih
  | case3 state s l state' hvisit ih =>
    rw [List.cons_append, walkStack, hvisit]
    rwa [List.append_assoc] at ih

/-- A count of the nodes of a kind goes up by one at each of them. -/
theorem walkStack_count (isBranch : String → Bool) (count : ℕ) (stack : List Site) :
    walkStack (fun count s => (if isBranch s.node.kind then count + 1 else count, .children)) count stack =
      count + (stack.flatMap Site.sites).countP fun t => isBranch t.node.kind := by
  fun_induction walkStack (fun count s => (if isBranch s.node.kind then count + 1 else count, .children)) count stack with
  | case1 count => rfl
  | case2 count s stack count' hvisit => cases hvisit
  | case3 count s stack count' hvisit ih =>
    obtain ⟨rfl, -⟩ := Prod.mk.inj hvisit
    rw [ih, List.flatMap_append, List.flatMap_cons, Site.sites_eq s, List.cons_append, List.countP_cons]
    split <;> omega

/-- **The complexity of a tree** is one more than the number of its branches. -/
theorem complexity_eq (isBranch : String → Bool) (s : Site) :
    complexity isBranch s.node = 1 + s.sites.countP fun t => isBranch t.node.kind := by
  have hnodes := Site.map_node_surface_congr (s := { node := s.node }) (t := s) (fun _ => false) rfl
  have hcount : ∀ u : Site, u.sites.countP (fun t => isBranch t.node.kind) =
      (u.sites.map Site.node).countP fun m => isBranch m.kind := fun u => by rw [List.countP_map]; rfl
  rw [complexity, walk_eq, walkStack_count, List.flatMap_singleton, hcount, hcount s]
  exact congrArg (fun nodes => 1 + nodes.countP fun m => isBranch m.kind) hnodes

end CodeAtlas.SyntaxTree
