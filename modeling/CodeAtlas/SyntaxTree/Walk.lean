import CodeAtlas.SyntaxTree.Node

/-!
# Walking a tree

A walk shows the named nodes of a tree to a visitor, parents before children and siblings in order. The
visitor keeps a state and says of each node whether its children are to be shown.

* `walk`: the walk with a stack of sites and a buffer, so that nesting of the tree is not nesting of calls.
* `traverse`: the same walk by recursion on the tree.
* `Site.sizeAll_cons_lt`, `Site.sizeAll_inner_append_lt`: **each site that is taken makes the stack smaller**, also if
  what lies below it is put there instead.
-/

namespace CodeAtlas.SyntaxTree

/-- A node with its surroundings: the nodes above it, the parent first, and the named siblings before
it, the nearest first. -/
structure Site where
  node : Node
  above : List Node := []
  before : List Node := []
deriving Inhabited

/-- What a visitor wants after a node. -/
inductive Descent where
  | children
  | skip
deriving Repr, DecidableEq

namespace Site

/-- The sites of some siblings, of which those in `before` come earlier. -/
def ofSiblings (above before : List Node) : List Node → List Site
  | [] => []
  | c :: cs => { node := c, above, before } :: ofSiblings above (c :: before) cs

/-- The sites of the named children. -/
def inner (s : Site) : List Site := ofSiblings (s.node :: s.above) [] s.node.namedChildren

def parent? (s : Site) : Option Node := s.above.head?

def size (s : Site) : Nat := s.node.size

/-- The number of nodes at and below some sites. -/
def sizeAll (l : List Site) : Nat := Node.sizeAll (l.map node)

@[simp] theorem sizeAll_nil : sizeAll [] = 0 := rfl

@[simp] theorem sizeAll_cons (s : Site) (l : List Site) : sizeAll (s :: l) = s.size + sizeAll l := rfl

@[simp] theorem sizeAll_append (l m : List Site) : sizeAll (l ++ m) = sizeAll l + sizeAll m := by
  rw [sizeAll, List.map_append, Node.sizeAll_append, sizeAll, sizeAll]

theorem map_node_ofSiblings (above before l : List Node) : (ofSiblings above before l).map node = l := by
  induction l generalizing before with
  | nil => rfl
  | cons c l ih => rw [ofSiblings, List.map_cons, ih]

@[simp] theorem map_node_inner (s : Site) : s.inner.map node = s.node.namedChildren := map_node_ofSiblings _ _ _

theorem sizeAll_inner (s : Site) : sizeAll s.inner < s.size := by
  rw [sizeAll, map_node_inner]; exact Node.sizeAll_namedChildren s.node

theorem sizeAll_cons_lt (s : Site) (l : List Site) : sizeAll l < sizeAll (s :: l) :=
  Nat.lt_add_of_pos_left s.node.size_pos

theorem sizeAll_inner_append_lt (s : Site) (l : List Site) : sizeAll (s.inner ++ l) < sizeAll (s :: l) := by
  rw [sizeAll_append, sizeAll_cons]; exact Nat.add_lt_add_right s.sizeAll_inner _

end Site

variable {σ : Type}

/-- Puts what a buffer holds on a stack, the last site first, so that the first comes to lie on top. -/
def unload (buffer stack : List Site) : List Site := buffer.reverse.foldl (fun stack s => s :: stack) stack

@[simp] theorem unload_eq (buffer stack : List Site) : unload buffer stack = buffer ++ stack := by
  induction buffer generalizing stack with
  | nil => rfl
  | cons s buffer ih => simp_all [unload]

/-- Walks the sites of a stack, the top first. What is right below a site gathers in the buffer, and goes onto the
stack from there. -/
def walkFrom (visit : σ → Site → σ × Descent) (state : σ) (stack buffer : List Site) : σ :=
  match stack with
  | [] => state
  | s :: stack =>
    match visit state s with
    | (state, .skip) => walkFrom visit state stack buffer
    | (state, .children) => walkFrom visit state (unload (buffer ++ s.inner) stack) []
termination_by Site.sizeAll stack + Site.sizeAll buffer
decreasing_by
  · have h := s.sizeAll_cons_lt stack
    omega
  · have h := s.sizeAll_inner_append_lt (buffer ++ stack)
    simp only [unload_eq, Site.sizeAll_append, Site.sizeAll_cons, Site.sizeAll_nil] at h ⊢
    omega

/-- Walks a tree from its root. -/
def walk (visit : σ → Site → σ × Descent) (root : Node) (state : σ) : σ :=
  walkFrom visit state [{ node := root }] []

mutual

/-- Walks the tree below a site by recursion. -/
def traverse (visit : σ → Site → σ × Descent) (above before : List Node) : Node → σ → σ
  | ⟨kind, role, named, isError, span, children⟩, state =>
    let n : Node := ⟨kind, role, named, isError, span, children⟩
    match visit state { node := n, above, before } with
    | (state, .skip) => state
    | (state, .children) => traverseAll visit (n :: above) [] children state

/-- Walks the named ones among some siblings one after the other. -/
def traverseAll (visit : σ → Site → σ × Descent) (above before : List Node) : List Node → σ → σ
  | [], state => state
  | c :: cs, state =>
    if c.named then traverseAll visit above (c :: before) cs (traverse visit above before c state)
    else traverseAll visit above before cs state

end

/-- One more than the number of named nodes of the tree for which `isBranch` holds of the kind. -/
def complexity (isBranch : String → Bool) (root : Node) : Nat :=
  walk (fun count s => (if isBranch s.node.kind then count + 1 else count, .children)) root 1

end CodeAtlas.SyntaxTree
