import CodeAtlas.Proofs.SyntaxTree.Sites

/-!
# Walks and traversals

A walk keeps the sites still to come on a stack. A traversal is the recursion on the tree that it
stands for: the visitor is shown a node, and unless it wants to skip what is below, its named
children are traversed one after the other. Both show the same sites to the visitor in the same
order, whatever the visitor keeps and answers.

* `Site.traverse_eq`: the traversal of a site by those of the sites right below it.
* `walkStack_eq_foldl`: **what a stack stands for**: the traversals of its sites, from the top.
* `walk_eq_traverse`: a walk is a traversal.
* `Shows`, `exists_shows`: **what a visitor is shown**, each node once and parents first.
* `walk_induction`: what a visitor keeps at every site holds at the end of a walk.
* `Node.isOrdered_of_nested`: nodes that lie within each other are in order.
* `Site.pairwise_sites`: **start lines do not decrease** along a tree with its children in order.
-/

namespace CodeAtlas.SyntaxTree

variable {σ : Type}

/-! ## Traversals -/

/-- Traverses the tree at a site. -/
def Site.traverse (visit : σ → Site → σ × Descent) (s : Site) (state : σ) : σ :=
  SyntaxTree.traverse visit s.above s.before s.node state

theorem traverseAll_eq (visit : σ → Site → σ × Descent) (above before cs : List Node) (state : σ) :
    traverseAll visit above before cs state =
      (Site.ofSiblings above before (cs.filter (·.named))).foldl (fun state s => s.traverse visit state) state := by
  induction cs generalizing before state with
  | nil => rfl
  | cons c cs ih =>
    by_cases hc : c.named = true
    · rw [traverseAll, if_pos hc, ih, List.filter_cons_of_pos hc, Site.ofSiblings, List.foldl_cons, Site.traverse]
    · rw [traverseAll, if_neg hc, ih, List.filter_cons_of_neg hc]

/-- **The traversal of a site**: it is shown, and unless it is skipped those right below it are traversed in order. -/
theorem Site.traverse_eq (visit : σ → Site → σ × Descent) (s : Site) (state : σ) :
    s.traverse visit state =
      if (visit state s).2 = .skip then (visit state s).1
      else s.inner.foldl (fun state t => t.traverse visit state) (visit state s).1 := by
  obtain ⟨⟨kind, role, named, isError, span, children⟩, above, before⟩ := s
  rw [traverse, SyntaxTree.traverse]
  dsimp only
  split
  · rename_i state' hvisit
    rw [hvisit, if_pos rfl]
  · rename_i state' hvisit
    rw [hvisit, if_neg (by simp), traverseAll_eq]
    rfl

/-- **What a stack stands for**: the traversals of its sites, one after the other. -/
theorem walkStack_eq_foldl (visit : σ → Site → σ × Descent) (state : σ) (stack : List Site) :
    walkStack visit state stack = stack.foldl (fun state s => s.traverse visit state) state := by
  -- each site that is taken makes what is left to walk smaller
  fun_induction walkStack visit state stack with
  | case1 state => rfl
  | case2 state s stack state' hvisit ih =>
    rw [ih, List.foldl_cons, Site.traverse_eq, hvisit, if_pos rfl]
  | case3 state s stack state' hvisit ih =>
    rw [ih, List.foldl_append, List.foldl_cons, Site.traverse_eq, hvisit, if_neg (by simp)]

/-- **A walk is a traversal.** -/
theorem walk_eq_traverse (visit : σ → Site → σ × Descent) (root : Node) (state : σ) :
    walk visit root state = traverse visit [] [] root state := by
  rw [walk_eq, walkStack_eq_foldl]
  rfl

/-! ## What a visitor is shown -/

/-- A visitor that also notes the sites that it is shown, in order. -/
def logged (visit : σ → Site → σ × Descent) (state : σ × List Site) (s : Site) : (σ × List Site) × Descent :=
  (((visit state.1 s).1, state.2 ++ [s]), (visit state.1 s).2)

variable {visit : σ → Site → σ × Descent}

/-- What some sites show to a visitor, if each of them shows sites of its own tree. -/
theorem foldl_logged {l : List Site}
    (hl : ∀ s ∈ l, ∀ state calls, ∃ seen, seen.Sublist s.sites ∧
      ((∀ state t, (visit state t).2 = .children) → seen = s.sites) ∧
      s.traverse (logged visit) (state, calls) = (s.traverse visit state, calls ++ seen))
    (state : σ) (calls : List Site) :
    ∃ seen, seen.Sublist (l.flatMap Site.sites) ∧
      ((∀ state t, (visit state t).2 = .children) → seen = l.flatMap Site.sites) ∧
      l.foldl (fun state s => s.traverse (logged visit) state) (state, calls) =
        (l.foldl (fun state s => s.traverse visit state) state, calls ++ seen) := by
  induction l generalizing state calls with
  | nil => exact ⟨[], List.Sublist.refl _, fun _ => rfl, by simp⟩
  | cons s l ih =>
    obtain ⟨first, hfirst, hwhole, hs⟩ := hl s List.mem_cons_self state calls
    obtain ⟨others, hothers, hrest, hfold⟩ :=
      ih (fun t ht => hl t (List.mem_cons_of_mem s ht)) (s.traverse visit state) (calls ++ first)
    refine ⟨first ++ others, ?_, fun h => ?_, ?_⟩
    · rw [List.flatMap_cons]
      exact hfirst.append hothers
    · rw [List.flatMap_cons, hwhole h, hrest h]
    · rw [List.foldl_cons, hs, hfold, List.append_assoc, List.foldl_cons]

/-- **What the tree at a site shows to a visitor**: some of its sites in their order, none of them twice, and all of
them if none is skipped. -/
theorem Site.traverse_logged (visit : σ → Site → σ × Descent) (s : Site) (state : σ) (calls : List Site) :
    ∃ seen, seen.Sublist s.sites ∧ ((∀ state t, (visit state t).2 = .children) → seen = s.sites) ∧
      s.traverse (logged visit) (state, calls) = (s.traverse visit state, calls ++ seen) := by
  induction s using inner_induction generalizing state calls with
  | step s ih =>
    rw [sites_eq, traverse_eq, traverse_eq]
    by_cases hskip : (visit state s).2 = .skip
    · refine ⟨[s], (List.nil_sublist _).cons_cons s, fun h => ?_, ?_⟩
      · rw [h] at hskip
        cases hskip
      · rw [if_pos hskip, logged, if_pos hskip]
    · obtain ⟨seen, hseen, hwhole, hfold⟩ := foldl_logged ih (visit state s).1 (calls ++ [s])
      refine ⟨s :: seen, hseen.cons_cons s, fun h => by rw [hwhole h], ?_⟩
      rw [if_neg hskip, logged, if_neg hskip, hfold, List.append_assoc, List.singleton_append]

theorem length_flatMap_sites_le {l : List Site} (h : ∀ s ∈ l, s.sites.length ≤ s.size) :
    (l.flatMap Site.sites).length ≤ Site.sizeAll l := by
  induction l with
  | nil => exact le_rfl
  | cons s l ih =>
    rw [List.flatMap_cons, List.length_append, Site.sizeAll_cons]
    exact Nat.add_le_add (h s List.mem_cons_self) (ih fun t ht => h t (List.mem_cons_of_mem s ht))

theorem Site.length_sites_le (s : Site) : s.sites.length ≤ s.size := by
  induction s using inner_induction with
  | step s ih =>
    have hbelow := length_flatMap_sites_le ih
    have hinner := s.sizeAll_inner
    rw [sites_eq, List.length_cons]
    omega

/-- **What a walk and the traversal of a tree show to a visitor.** -/
structure Shows (visit : σ → Site → σ × Descent) (root : Node) (state : σ) (seen : List Site) : Prop where
  walked : walk (logged visit) root (state, []) = (walk visit root state, seen)
  traversed : traverse (logged visit) [] [] root (state, []) = (walk visit root state, seen)
  same : walk visit root state = traverse visit [] [] root state
  /-- Each node is shown once at most, in the order of the tree. -/
  sublist : seen.Sublist (Site.sites { node := root })
  /-- If nothing is skipped, every named node is shown. -/
  whole : (∀ state s, (visit state s).2 = .children) → seen = Site.sites { node := root }
  /-- The walk does not go on for longer than there are nodes. -/
  length_le : seen.length ≤ root.size

theorem exists_shows (visit : σ → Site → σ × Descent) (root : Node) (state : σ) :
    ∃ seen, Shows visit root state seen := by
  obtain ⟨seen, hseen, hwhole, htraverse⟩ := Site.traverse_logged visit { node := root } state []
  have hsame := walk_eq_traverse visit root state
  refine ⟨seen, ?_, ?_, hsame, hseen, hwhole, ?_⟩
  · rw [walk_eq_traverse, hsame]
    exact htraverse
  · rw [hsame]
    exact htraverse
  · exact hseen.length_le.trans (Site.length_sites_le { node := root })

theorem Site.traverse_induction {motive : σ → Prop} (step : ∀ state s, motive state → motive (visit state s).1)
    (s : Site) {state : σ} (h : motive state) : motive (s.traverse visit state) := by
  induction s using inner_induction generalizing state with
  | step s ih =>
    have hshown := step state s h
    rw [traverse_eq]
    split
    · exact hshown
    · exact List.foldlRecOn _ _ hshown fun state hstate t ht => ih t ht hstate

/-- **What a visitor keeps at every site** holds at the end of a walk. -/
theorem walk_induction {motive : σ → Prop} (step : ∀ state s, motive state → motive (visit state s).1) (root : Node)
    {state : σ} (h : motive state) : motive (walk visit root state) := by
  rw [walk_eq_traverse]
  exact Site.traverse_induction step { node := root } h

/-! ## Trees in order -/

/-- **The named children of a node are in order**: the node starts no later than they do, and everything in one of them
starts no later than those after it. For nodes that lie within their parents it is enough that siblings lie one after
the other (`Node.isOrdered_of_nested`). -/
structure Node.InOrder (n : Node) : Prop where
  starts : ∀ c ∈ n.namedChildren, n.span.startRow ≤ c.span.startRow
  apart : n.namedChildren.Pairwise fun c d => ∀ t ∈ Site.sites { node := c }, t.node.span.startRow ≤ d.span.startRow

/-- The children of every node of a tree are in order. -/
def Node.IsOrdered (root : Node) : Prop := ∀ s ∈ Site.sites { node := root }, s.node.InOrder

/-- **The named children of a node lie one after the other** within its lines. -/
structure Node.Nested (n : Node) : Prop where
  lines : n.span.startRow ≤ n.span.stopRow
  inside : ∀ c ∈ n.namedChildren, n.span.startRow ≤ c.span.startRow ∧ c.span.stopRow ≤ n.span.stopRow
  apart : n.namedChildren.Pairwise fun c d => c.span.stopRow ≤ d.span.startRow

instance (n : Node) : Decidable n.Nested :=
  decidable_of_iff
    (n.span.startRow ≤ n.span.stopRow ∧
      (∀ c ∈ n.namedChildren, n.span.startRow ≤ c.span.startRow ∧ c.span.stopRow ≤ n.span.stopRow) ∧
      n.namedChildren.Pairwise fun c d => c.span.stopRow ≤ d.span.startRow)
    ⟨fun h => ⟨h.1, h.2.1, h.2.2⟩, fun h => ⟨h.lines, h.inside, h.apart⟩⟩

/-- What lies in a tree of nested nodes starts before the tree ends. -/
theorem Site.startRow_le_stopRow {s t : Site} (h : ∀ t ∈ s.sites, t.node.Nested) (ht : t ∈ s.sites) :
    t.node.span.startRow ≤ s.node.span.stopRow := by
  induction s using inner_induction with
  | step s ih =>
    rw [sites_eq] at h ht
    have hs := h s List.mem_cons_self
    rcases List.mem_cons.1 ht with rfl | ht
    · exact hs.lines
    · obtain ⟨u, hu, htu⟩ := List.mem_flatMap.1 ht
      have hchild : u.node ∈ s.node.namedChildren := map_node_inner s ▸ List.mem_map_of_mem hu
      have hbelow := ih u hu (fun v hv => h v (List.mem_cons_of_mem s (List.mem_flatMap.2 ⟨u, hu, hv⟩))) htu
      exact hbelow.trans (hs.inside u.node hchild).2

/-- **A tree of nested nodes has its children in order.** -/
theorem Node.isOrdered_of_nested {root : Node} (h : ∀ s ∈ Site.sites { node := root }, s.node.Nested) :
    root.IsOrdered := by
  intro s hs
  refine ⟨fun c hc => ((h s hs).inside c hc).1, ?_⟩
  refine (h s hs).apart.imp_of_mem fun {c d} hc _ hcd t ht => ?_
  -- what is below a child is below the root
  obtain ⟨u, hu, rfl⟩ := List.mem_map.1 (Site.map_node_inner s ▸ hc)
  have hwithin : u.sites ⊆ Site.sites { node := root } :=
    List.Subset.trans (Site.surface_within_of_mem_inner rfl hu).subset (Site.surface_within hs).subset
  have hnodes := Site.map_node_surface_congr (s := u) (t := { node := u.node }) (fun _ => false) rfl
  obtain ⟨t', ht', hnode⟩ := List.mem_map.1 (hnodes ▸ List.mem_map_of_mem ht)
  have hstart := Site.startRow_le_stopRow (fun v hv => h v (hwithin hv)) ht'
  exact hnode ▸ hstart.trans hcd

/-- **Start lines do not decrease** from site to site of a tree with its children in order. -/
theorem Site.pairwise_sites (s : Site) (h : ∀ t ∈ s.sites, t.node.InOrder) :
    s.sites.Pairwise fun t u => t.node.span.startRow ≤ u.node.span.startRow := by
  induction s using inner_induction with
  | step s ih =>
    rw [sites_eq] at h ⊢
    have hs := h s List.mem_cons_self
    have hinner (t : Site) (ht : t ∈ s.inner) :
        t.sites.Pairwise fun u v => u.node.span.startRow ≤ v.node.span.startRow :=
      ih t ht fun u hu => h u (List.mem_cons_of_mem s (List.mem_flatMap.2 ⟨t, ht, hu⟩))
    -- a site comes before all that is below it
    have hfirst (t : Site) (ht : t ∈ s.inner) (u : Site) (hu : u ∈ t.sites) :
        t.node.span.startRow ≤ u.node.span.startRow := by
      have hpairs := hinner t ht
      rw [sites_eq] at hpairs hu
      rcases List.mem_cons.1 hu with rfl | hu
      · exact le_rfl
      · exact (List.pairwise_cons.1 hpairs).1 u hu
    have hapart : s.inner.Pairwise fun t v => ∀ u ∈ t.sites, u.node.span.startRow ≤ v.node.span.startRow := by
      have hchildren := hs.apart
      rw [← map_node_inner, List.pairwise_map] at hchildren
      refine hchildren.imp fun {t v} htv u hu => ?_
      -- what is below a child does not depend on what surrounds it
      have hnodes := map_node_surface_congr (s := t) (t := { node := t.node }) (fun _ => false) rfl
      obtain ⟨u', hu', hnode⟩ := List.mem_map.1 (hnodes ▸ List.mem_map_of_mem hu)
      exact hnode ▸ htv u' hu'
    refine List.pairwise_cons.2 ⟨fun u hu => ?_, List.pairwise_flatMap.2 ⟨hinner, ?_⟩⟩
    · obtain ⟨t, ht, hut⟩ := List.mem_flatMap.1 hu
      have hchild : t.node ∈ s.node.namedChildren := map_node_inner s ▸ List.mem_map_of_mem ht
      exact (hs.starts t.node hchild).trans (hfirst t ht u hut)
    · refine hapart.imp_of_mem fun {t v} _ hv htv u hu w hw => ?_
      exact (htv u hu).trans (hfirst v hv w hw)

end CodeAtlas.SyntaxTree
