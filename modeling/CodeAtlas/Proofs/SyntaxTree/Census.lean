import CodeAtlas.Proofs.Decimal.Shares
import CodeAtlas.SyntaxTree.Census

/-!
# What a census counts

At every place the pass of a census has the rest of the tree before it: the siblings that are still to
come on each level. What it has counted and what this rest comes to, by recursion on the tree, are
together always the same. Its counter says how many nodes are above the cursor, so it is zero at the
root and nowhere else.

* `Node.errors_eq`, `Node.height_eq`: the numbers of a node by those of its children.
* `Pass.OK`: the counter says how deep the cursor is, and the root stands alone.
* `Pass.outcome`: what a pass comes to, by recursion on the rest of the tree.
* `Pass.OK.step`, `Pass.OK.outcome_step`: **what one step keeps.**
* `Pass.after_spec`, `Pass.exists_after`: **what every number of steps keeps, and how many there are.**
* `Census.collect_eq`: the census of a tree.
* `census_collected`: **the pass over every tree**, with its counter and its end.
-/

namespace CodeAtlas.SyntaxTree

namespace Node

theorem errors_eq (n : Node) : n.errors = (if n.isError then 1 else 0) + errorsAll n.children := by
  cases n
  rfl

theorem errorsAll_append (l m : List Node) : errorsAll (l ++ m) = errorsAll l + errorsAll m := by
  induction l with
  | nil => simp [errorsAll]
  | cons c l ih => rw [List.cons_append, errorsAll, errorsAll, ih, Nat.add_assoc]

theorem height_eq (n : Node) : n.height = heightBelow n.children := by
  cases n
  rfl

mutual

/-- Not more nodes are errors than there are nodes. -/
theorem errors_le_size : ∀ n : Node, n.errors ≤ n.size
  | ⟨_, _, _, isError, _, cs⟩ => by
    have hbelow := errorsAll_le_sizeAll cs
    rw [errors, size]
    split <;> omega

theorem errorsAll_le_sizeAll : ∀ cs : List Node, errorsAll cs ≤ sizeAll cs
  | [] => le_rfl
  | c :: cs => Nat.add_le_add (errors_le_size c) (errorsAll_le_sizeAll cs)

end

end Node

open Node

/-! ## The rest of a tree -/

/-- How deep some siblings go that are at a depth themselves; no sibling goes nowhere. -/
def reachAt (depth : ℕ) : List Node → ℕ
  | [] => 0
  | n :: siblings => max (depth + n.height) (reachAt depth siblings)

/-- **How deep the siblings on some levels go**, the innermost level first. -/
def reach : List (List Node) → ℕ
  | [] => 0
  | siblings :: outer => max (reachAt outer.length siblings) (reach outer)

/-- Below a node at a depth, its children are one deeper. -/
theorem max_reachAt_succ (depth : ℕ) (cs : List Node) :
    max depth (reachAt (depth + 1) cs) = depth + heightBelow cs := by
  induction cs with
  | nil => simp [reachAt, heightBelow]
  | cons c cs ih =>
    rw [reachAt, heightBelow]
    omega

/-- The siblings still to come on each level, those of the cursor's own level first. -/
def Cursor.levels (c : Cursor) : List (List Node) := c.later :: c.above.map Prod.snd

variable {c d : Cursor}

theorem Cursor.levels_firstChild (h : c.firstChild? = some d) :
    d.node :: d.later = c.node.children ∧ d.above.map Prod.snd = c.levels ∧ d.above.length = c.above.length + 1 := by
  unfold firstChild? at h
  split at h
  · cases h
  · rename_i n later hchildren
    cases h
    exact ⟨hchildren.symm, rfl, rfl⟩

theorem Cursor.levels_nextSibling (h : c.nextSibling? = some d) : d.node :: d.later = c.later ∧ d.above = c.above := by
  unfold nextSibling? at h
  split at h
  · cases h
  · rename_i n later hlater
    cases h
    exact ⟨hlater.symm, rfl⟩

theorem Cursor.later_eq_nil (h : c.nextSibling? = none) : c.later = [] := by
  unfold nextSibling? at h
  split at h
  · assumption
  · cases h

theorem Cursor.children_eq_nil (h : c.firstChild? = none) : c.node.children = [] := by
  unfold firstChild? at h
  split at h
  · assumption
  · cases h

/-- From everywhere but the root there is a way up. -/
theorem Cursor.exists_parent (h : c.above ≠ []) :
    ∃ d, c.parent? = some d ∧ c.levels = c.later :: d.levels ∧ c.above.length = d.above.length + 1 := by
  obtain ⟨node, later, above⟩ := c
  cases above with
  | nil => exact absurd rfl h
  | cons p above => exact ⟨_, rfl, rfl, rfl⟩

namespace Pass

variable {p q : Pass} {root : Node}

/-- The trees still to be counted on each level, those of the cursor's own level first. -/
def rest (p : Pass) : List (List Node) :=
  match p.turn with
  | .count => (p.cursor.node :: p.cursor.later) :: p.cursor.above.map Prod.snd
  | .leave => p.cursor.levels

/-- **What a pass comes to**: what it has counted, and the rest of the tree by recursion. -/
def outcome (p : Pass) : Census :=
  { nodes := p.census.nodes + sizeAll p.rest.flatten
    errors := p.census.errors + errorsAll p.rest.flatten
    depth := max p.census.depth (reach p.rest) }

/-- **The counter says how deep the cursor is**, and the root has no siblings. -/
structure OK (p : Pass) : Prop where
  depth : p.depth = p.cursor.above.length
  root : p.cursor.levels.getLast? = some []

theorem start_ok (root : Node) : (start root).OK := ⟨rfl, rfl⟩

/-- Where the counter is not zero, the cursor can go up. -/
theorem OK.exists_parent (hp : p.OK) (h : p.depth ≠ 0) :
    ∃ d, p.cursor.parent? = some d ∧ p.cursor.levels = p.cursor.later :: d.levels ∧
      p.depth = d.above.length + 1 := by
  have habove : p.cursor.above ≠ [] := by
    intro hnil
    exact h (by rw [hp.depth, hnil, List.length_nil])
  obtain ⟨d, hd, hlevels, hlength⟩ := Cursor.exists_parent habove
  exact ⟨d, hd, hlevels, hp.depth.trans hlength⟩

/-- **One step keeps it.** -/
theorem OK.step (hp : p.OK) (h : p.step = some q) : q.OK := by
  have hroot := hp.root
  rcases step_cases h with ⟨child, -, hchild, rfl⟩ | ⟨-, -, rfl⟩ | ⟨sibling, -, hdepth, hsibling, rfl⟩ |
    ⟨-, hdepth, hlast, rfl⟩
  case inl =>
    obtain ⟨-, hlevels, hlength⟩ := Cursor.levels_firstChild hchild
    refine ⟨by rw [hlength, hp.depth], ?_⟩
    rw [Cursor.levels, hlevels, List.getLast?_cons, hroot]
    rfl
  case inr.inl => exact ⟨hp.depth, hroot⟩
  case inr.inr.inl =>
    obtain ⟨-, habove⟩ := Cursor.levels_nextSibling hsibling
    obtain ⟨d, -, hlevels, -⟩ := hp.exists_parent hdepth
    refine ⟨by rw [habove, hp.depth], ?_⟩
    -- the outermost level is further out than that of the sibling
    have hcons : p.cursor.above.map Prod.snd = d.levels := (List.cons.inj hlevels).2
    rw [Cursor.levels, habove, hcons]
    rw [hlevels] at hroot
    rw [Cursor.levels, List.getLast?_cons_cons] at hroot ⊢
    exact hroot
  case inr.inr.inr =>
    obtain ⟨d, hparent, hlevels, hd⟩ := hp.exists_parent hdepth
    rw [hlevels, Cursor.levels, List.getLast?_cons_cons] at hroot
    rw [hparent]
    refine ⟨?_, hroot⟩
    show p.depth - 1 = d.above.length
    omega

/-- **One step changes nothing about what a pass comes to**: what it counts is no longer before it. -/
theorem OK.outcome_step (hp : p.OK) (h : p.step = some q) : q.outcome = p.outcome := by
  rcases step_cases h with ⟨child, hturn, hchild, rfl⟩ | ⟨hturn, hleaf, rfl⟩ | ⟨sibling, hturn, -, hsibling, rfl⟩ |
    ⟨hturn, hdepth, hlast, rfl⟩
  case inl =>
    obtain ⟨hbelow, hlevels, -⟩ := Cursor.levels_firstChild hchild
    -- the children of the node are one level further in, and take its place
    have hdeeper := max_reachAt_succ p.cursor.above.length p.cursor.node.children
    have hsize := size_eq p.cursor.node
    have herrors := errors_eq p.cursor.node
    have hheight := height_eq p.cursor.node
    simp only [outcome, rest, hturn, hbelow, hlevels, Cursor.levels, Census.add, hp.depth, List.flatten_cons,
      sizeAll_append, errorsAll_append, sizeAll, errorsAll, reach, reachAt, List.length_cons, List.length_map,
      Census.mk.injEq]
    exact ⟨by omega, by omega, by omega⟩
  case inr.inl =>
    have hnone := Cursor.children_eq_nil hleaf
    simp only [outcome, rest, hturn, Cursor.levels, Census.add, hp.depth, List.flatten_cons, sizeAll_append,
      errorsAll_append, sizeAll, errorsAll, reach, reachAt, List.length_map, size_eq p.cursor.node, errors_eq p.cursor.node, height_eq p.cursor.node, hnone,
      heightBelow, Census.mk.injEq]
    exact ⟨by omega, by omega, by omega⟩
  case inr.inr.inl =>
    obtain ⟨hlevel, habove⟩ := Cursor.levels_nextSibling hsibling
    simp only [outcome, rest, hturn, Cursor.levels, hlevel, habove]
  case inr.inr.inr =>
    obtain ⟨d, hparent, hlevels, -⟩ := hp.exists_parent hdepth
    simp only [outcome, rest, hturn, hlevels, Cursor.later_eq_nil hlast, hparent, Option.getD_some, List.flatten_cons,
      List.nil_append, reach, reachAt, Nat.zero_max]

/-- **A pass is over at the root**, with nothing before it. -/
theorem OK.of_step_eq_none (hp : p.OK) (h : p.step = none) : p.stepsLeft = 0 ∧ p.outcome = p.census := by
  unfold Pass.step at h
  cases hturn : p.turn with
  | count =>
    simp only [hturn] at h
    split at h <;> cases h
  | leave =>
    simp only [hturn] at h
    split at h
    · rename_i hdepth
      have habove : p.cursor.above = [] := List.eq_nil_of_length_eq_zero (hp.depth.symm.trans hdepth)
      have hlater : p.cursor.later = [] := by
        have hroot := hp.root
        rw [Cursor.levels, habove] at hroot
        simpa using hroot
      simp [stepsLeft, outcome, rest, hturn, hdepth, Cursor.ahead, Cursor.levels, habove, hlater, sizeAll, errorsAll, reach,
        reachAt]
    · split at h <;> cases h

/-- **What a pass has found out when it is over** is what it comes to. -/
theorem OK.run_eq (hp : p.OK) : p.run = p.outcome := by
  fun_induction run p with
  | case1 p hend => exact (hp.of_step_eq_none hend).2.symm
  | case2 p q hstep _ ih => rw [ih (hp.step hstep), hp.outcome_step hstep]

/-! ## The steps of a pass -/

/-- **The pass over a tree after a number of steps**, if there are so many. -/
def after (root : Node) : ℕ → Option Pass
  | 0 => some (start root)
  | k + 1 => (after root k).bind step

theorem outcome_start (root : Node) :
    (start root).outcome = { nodes := root.size, errors := root.errors, depth := root.height } := by
  simp [outcome, rest, start, sizeAll, errorsAll, reach, reachAt]

/-- **What every number of steps keeps.** -/
theorem after_spec {k : ℕ} (h : after root k = some p) :
    p.OK ∧ p.outcome = (start root).outcome ∧ p.stepsLeft + k = 2 * root.size - 1 := by
  induction k generalizing p with
  | zero =>
    cases h
    refine ⟨start_ok root, rfl, ?_⟩
    simp [stepsLeft, start, Cursor.ahead, sizeAll]
  | succ k ih =>
    obtain ⟨r, hr, hstep⟩ := Option.bind_eq_some_iff.1 h
    obtain ⟨hok, houtcome, hleft⟩ := ih hr
    have hless := step_stepsLeft hstep
    exact ⟨hok.step hstep, (hok.outcome_step hstep).trans houtcome, by omega⟩

/-- **How many steps there are**: two for each node, but for the root one. -/
theorem exists_after {k : ℕ} (hk : k ≤ 2 * root.size - 1) : ∃ p, after root k = some p := by
  induction k with
  | zero => exact ⟨start root, rfl⟩
  | succ k ih =>
    obtain ⟨p, hp⟩ := ih (by omega)
    obtain ⟨hok, -, hleft⟩ := after_spec hp
    cases hstep : p.step with
    | none =>
      have hend := (hok.of_step_eq_none hstep).1
      omega
    | some q => exact ⟨q, by rw [after, hp, Option.bind_some, hstep]⟩

/-- After all steps a pass is over. -/
theorem step_eq_none (h : p.stepsLeft = 0) : p.step = none := by
  cases hstep : p.step with
  | none => rfl
  | some q =>
    have hless := step_stepsLeft hstep
    omega

end Pass

/-- **The census of a tree**: its nodes, its errors and its height. -/
theorem Census.collect_eq (root : Node) :
    collect root = { nodes := root.size, errors := root.errors, depth := root.height } := by
  rw [collect, (Pass.start_ok root).run_eq, Pass.outcome_start]

/-- **The pass over every tree.** It ends after two steps for each node, less one, and finds out how many nodes and
how many errors there are and how high the tree is. There is a node, so the share of the errors is a number, in every
tree that has its nodes counted in a machine word. After every number of steps the counter is the number of nodes
above the cursor; when it is counted down the cursor does go up, and the counter was not zero. -/
theorem census_collected (root : Node) :
    let t := Census.collect root
    (t.nodes = root.size ∧ t.errors = root.errors ∧ t.depth = root.height) ∧
      (∃ p, Pass.after root (2 * root.size - 1) = some p ∧ p.step = none ∧ p.census = t) ∧
      (1 ≤ t.nodes ∧ t.errors ≤ t.nodes ∧
        (t.nodes < 2 ^ 64 → ∃ share, Decimal.number? (Float.ofNat t.errors / Float.ofNat t.nodes) = some share)) ∧
      ∀ k p, Pass.after root k = some p →
        p.depth = p.cursor.above.length ∧
          ∀ q, p.step = some q → p.turn = .leave → q.turn = .leave →
            p.cursor.parent? = some q.cursor ∧ q.depth + 1 = p.depth := by
  intro t
  have ht : t = { nodes := root.size, errors := root.errors, depth := root.height } := Census.collect_eq root
  refine ⟨by simp [ht], ?_, ?_, ?_⟩
  · obtain ⟨p, hp⟩ := Pass.exists_after (le_refl (2 * root.size - 1))
    obtain ⟨hok, houtcome, hleft⟩ := Pass.after_spec hp
    have hend : p.step = none := Pass.step_eq_none (by omega)
    refine ⟨p, hp, hend, ?_⟩
    rw [← (hok.of_step_eq_none hend).2, houtcome, Pass.outcome_start, ht]
  · rw [ht]
    exact ⟨root.size_pos, root.errors_le_size, Decimal.exists_number?_share root.size_pos root.errors_le_size⟩
  · intro k p hp
    have hok := (Pass.after_spec hp).1
    refine ⟨hok.depth, fun q hstep hleave hup => ?_⟩
    rcases Pass.step_cases hstep with ⟨_, _, _, rfl⟩ | ⟨hcount, _, _⟩ | ⟨_, _, _, _, rfl⟩ | ⟨_, hdepth, _, rfl⟩
    case inl => cases hup
    case inr.inl => cases hcount.symm.trans hleave
    case inr.inr.inl => cases hup
    case inr.inr.inr =>
      obtain ⟨d, hparent, -, -⟩ := hok.exists_parent hdepth
      refine ⟨by rw [hparent]; rfl, ?_⟩
      show p.depth - 1 + 1 = p.depth
      omega

end CodeAtlas.SyntaxTree
