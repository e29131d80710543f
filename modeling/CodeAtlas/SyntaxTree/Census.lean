import CodeAtlas.SyntaxTree.Node

/-!
# Counting a tree

The number of nodes, the number of error nodes and the greatest depth of a tree, found by one pass with a
cursor. The cursor is moved down, sideways and up, with no call per level, and a counter is kept of how deep
it is.

* `Cursor`: a place in a tree, and the three moves from it.
* `Pass.step`: what a pass does next.
* `Pass.step_cases`, `Pass.step_stepsLeft`: what a step can be, and how many there are.
* `Census.collect`: the census of a tree, by a pass from its root.
* `errors`, `height`: two of the three numbers by recursion on the tree.
-/

namespace CodeAtlas.SyntaxTree

/-- A place in a tree: a node and the siblings after it, and the same of each node above it, the parent first. -/
structure Cursor where
  node : Node
  later : List Node := []
  above : List (Node × List Node) := []
deriving Repr

namespace Cursor

def firstChild? (c : Cursor) : Option Cursor :=
  match c.node.children with
  | [] => none
  | n :: later => some { node := n, later, above := (c.node, c.later) :: c.above }

def nextSibling? (c : Cursor) : Option Cursor :=
  match c.later with
  | [] => none
  | n :: later => some { c with node := n, later }

def parent? (c : Cursor) : Option Cursor :=
  match c.above with
  | [] => none
  | (n, later) :: above => some { node := n, later, above }

/-- The number of nodes that come after everything below the cursor. -/
def ahead (c : Cursor) : Nat := Node.sizeAll c.later + Node.sizeAll (c.above.flatMap (·.2))

theorem size_ahead_firstChild {c d : Cursor} (h : c.firstChild? = some d) :
    d.node.size + d.ahead + 1 = c.node.size + c.ahead := by
  unfold firstChild? at h
  split at h
  · cases h
  · rename_i n later hchildren
    cases h
    simp only [ahead, Node.size_eq c.node, hchildren, Node.sizeAll, List.flatMap_cons, Node.sizeAll_append]
    omega

theorem size_of_firstChild {c : Cursor} (h : c.firstChild? = none) : c.node.size = 1 := by
  unfold firstChild? at h
  split at h
  · rename_i hchildren
    rw [Node.size_eq, hchildren, Node.sizeAll]
  · cases h

theorem size_ahead_nextSibling {c d : Cursor} (h : c.nextSibling? = some d) : d.node.size + d.ahead = c.ahead := by
  unfold nextSibling? at h
  split at h
  · cases h
  · rename_i n later hlater
    cases h
    simp only [ahead, hlater, Node.sizeAll]
    omega

theorem ahead_parent {c d : Cursor} (hlast : c.nextSibling? = none) (h : c.parent? = some d) : d.ahead = c.ahead := by
  unfold nextSibling? at hlast
  unfold parent? at h
  split at hlast
  · rename_i hlater
    split at h
    · cases h
    · rename_i n later above habove
      cases h
      simp only [ahead, hlater, habove, Node.sizeAll, List.flatMap_cons, Node.sizeAll_append]
      omega
  · cases hlast

end Cursor

/-- What one pass over a tree finds out. -/
structure Census where
  nodes : Nat := 0
  errors : Nat := 0
  depth : Nat := 0
deriving Repr, DecidableEq

/-- Adds a node at a depth. -/
def Census.add (t : Census) (n : Node) (depth : Nat) : Census :=
  { nodes := t.nodes + 1, errors := t.errors + (if n.isError then 1 else 0), depth := max t.depth depth }

/-- What is to be done at a place: count the node there, or go on to what comes after everything below it. -/
inductive Turn where
  | count
  | leave
deriving Repr, DecidableEq

/-- A pass over a tree that has come to a place. -/
structure Pass where
  census : Census := {}
  cursor : Cursor
  /-- How deep the pass takes its place to be. -/
  depth : Nat := 0
  turn : Turn := .count
deriving Repr

namespace Pass

/-- One step of a pass, if it is not over. A node is counted on the way down. From a node without children, or with
none left, the pass goes on to the next sibling, or up if there is none; where the counter is zero it is over. -/
def step (p : Pass) : Option Pass :=
  match p.turn with
  | .count =>
    let census := p.census.add p.cursor.node p.depth
    match p.cursor.firstChild? with
    | some child => some { census, cursor := child, depth := p.depth + 1, turn := .count }
    | none => some { p with census, turn := .leave }
  | .leave =>
    if p.depth = 0 then none
    else
      match p.cursor.nextSibling? with
      | some sibling => some { p with cursor := sibling, turn := .count }
      | none => some { p with cursor := p.cursor.parent?.getD p.cursor, depth := p.depth - 1 }

/-- The number of steps still to be made: down and up again for each node still to be counted, and up from where
the pass is. -/
def stepsLeft (p : Pass) : Nat :=
  match p.turn with
  | .count => 2 * (p.cursor.node.size + p.cursor.ahead) + p.depth - 1
  | .leave => 2 * p.cursor.ahead + p.depth

theorem step_cases {p q : Pass} (h : p.step = some q) :
    (∃ child, p.turn = .count ∧ p.cursor.firstChild? = some child ∧
      q = { census := p.census.add p.cursor.node p.depth, cursor := child, depth := p.depth + 1, turn := .count }) ∨
    (p.turn = .count ∧ p.cursor.firstChild? = none ∧
      q = { p with census := p.census.add p.cursor.node p.depth, turn := .leave }) ∨
    (∃ sibling, p.turn = .leave ∧ p.depth ≠ 0 ∧ p.cursor.nextSibling? = some sibling ∧
      q = { p with cursor := sibling, turn := .count }) ∨
    (p.turn = .leave ∧ p.depth ≠ 0 ∧ p.cursor.nextSibling? = none ∧
      q = { p with cursor := p.cursor.parent?.getD p.cursor, depth := p.depth - 1 }) := by
  unfold step at h
  cases hturn : p.turn with
  | count =>
    simp only [hturn] at h
    split at h
    · rename_i child hchild
      exact .inl ⟨child, rfl, hchild, (Option.some.inj h).symm⟩
    · rename_i hleaf
      exact .inr (.inl ⟨rfl, hleaf, (Option.some.inj h).symm⟩)
  | leave =>
    simp only [hturn] at h
    split at h
    · cases h
    rename_i hdepth
    split at h
    · rename_i sibling hsibling
      exact .inr (.inr (.inl ⟨sibling, rfl, hdepth, hsibling, (Option.some.inj h).symm⟩))
    · rename_i hlast
      exact .inr (.inr (.inr ⟨rfl, hdepth, hlast, (Option.some.inj h).symm⟩))

theorem step_stepsLeft {p q : Pass} (h : p.step = some q) : q.stepsLeft + 1 = p.stepsLeft := by
  rcases step_cases h with ⟨child, hturn, hchild, rfl⟩ | ⟨hturn, hleaf, rfl⟩ | ⟨sibling, hturn, -, hsibling, rfl⟩ |
    ⟨hturn, hdepth, hlast, rfl⟩
  · have := Node.size_pos child.node
    have := Cursor.size_ahead_firstChild hchild
    simp only [stepsLeft, hturn]
    omega
  · have := Cursor.size_of_firstChild hleaf
    simp only [stepsLeft, hturn]
    omega
  · have := Node.size_pos sibling.node
    have := Cursor.size_ahead_nextSibling hsibling
    simp only [stepsLeft, hturn]
    omega
  · have hsame : (p.cursor.parent?.getD p.cursor).ahead = p.cursor.ahead := by
      cases hparent : p.cursor.parent? with
      | none => rfl
      | some parent => exact Cursor.ahead_parent hlast hparent
    simp only [stepsLeft, hturn]
    omega

/-- What a pass has found out when it is over. -/
def run (p : Pass) : Census :=
  match h : p.step with
  | none => p.census
  | some q =>
    have : q.stepsLeft < p.stepsLeft := Nat.le_of_eq (step_stepsLeft h)
    q.run
termination_by p.stepsLeft

/-- A pass that begins at the root. -/
def start (root : Node) : Pass := { cursor := { node := root } }

end Pass

/-- The census of a tree. -/
def Census.collect (root : Node) : Census := (Pass.start root).run

namespace Node

mutual

/-- The number of error nodes, by recursion. -/
def errors : Node → Nat
  | ⟨_, _, _, isError, _, cs⟩ => (if isError then 1 else 0) + errorsAll cs

/-- The number of error nodes of some trees together. -/
def errorsAll : List Node → Nat
  | [] => 0
  | c :: cs => c.errors + errorsAll cs

end

mutual

/-- The number of steps from the root to the deepest node, by recursion. -/
def height : Node → Nat
  | ⟨_, _, _, _, _, cs⟩ => heightBelow cs

/-- The number of steps from a parent to the deepest node below it. -/
def heightBelow : List Node → Nat
  | [] => 0
  | c :: cs => max (c.height + 1) (heightBelow cs)

end

end Node

end CodeAtlas.SyntaxTree
