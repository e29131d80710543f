/-!
# Trees of source text

What a grammar makes of a source text: an ordered tree whose leaves are the tokens. A node knows its
kind, the role it plays in its parent, and the stretch of text that it covers.

* `Node.size_of_mem`: a child is smaller than its parent.
* `Node.sizeAll_append`: trees are counted one after the other.
* `Node.sizeAll_namedChildren`: the named children together are smaller than their parent.
-/

namespace CodeAtlas.SyntaxTree

/-- A stretch of source text: byte offsets, and the numbers of the lines (from 0) they lie on. -/
structure Span where
  start : Nat
  stop : Nat
  startRow : Nat
  stopRow : Nat
deriving Repr, DecidableEq, Inhabited

/-- A tree of source text. Tokens written literally in the grammar are unnamed. -/
structure Node where
  kind : String
  role : Option String := none
  named : Bool := true
  isError : Bool := false
  span : Span
  children : List Node := []
deriving Repr, Inhabited

namespace Node

mutual

/-- The number of nodes of the tree. -/
def size : Node → Nat
  | ⟨_, _, _, _, _, cs⟩ => 1 + sizeAll cs

/-- The number of nodes of some trees together. -/
def sizeAll : List Node → Nat
  | [] => 0
  | c :: cs => c.size + sizeAll cs

end

theorem size_eq (n : Node) : n.size = 1 + sizeAll n.children := by cases n; rfl

theorem size_pos (n : Node) : 0 < n.size := by rw [size_eq]; omega

@[simp] theorem sizeAll_append (l m : List Node) : sizeAll (l ++ m) = sizeAll l + sizeAll m := by
  induction l with
  | nil => simp [sizeAll]
  | cons c l ih => rw [List.cons_append, sizeAll, sizeAll, ih, Nat.add_assoc]

theorem size_le_sizeAll {c : Node} {cs : List Node} (h : c ∈ cs) : c.size ≤ sizeAll cs := by
  induction cs with
  | nil => cases h
  | cons d cs ih =>
    rcases List.mem_cons.1 h with rfl | h
    · simp [sizeAll]
    · have := ih h; simp [sizeAll]; omega

theorem size_of_mem {c n : Node} (h : c ∈ n.children) : c.size < n.size := by
  have := size_le_sizeAll h
  rw [size_eq n]; omega

/-- The children that are not literal tokens. -/
def namedChildren (n : Node) : List Node := n.children.filter (·.named)

/-- The first child that plays a role. -/
def child? (n : Node) (role : String) : Option Node := n.children.find? (·.role == some role)

/-- All children that play a role. -/
def childrenAs (n : Node) (role : String) : List Node := n.children.filter (·.role == some role)

/-- Whether a child, literal tokens included, has this kind. -/
def hasChild (n : Node) (kind : String) : Bool := n.children.any (·.kind == kind)

/-- The same node in a role. -/
def as (n : Node) (role : String) : Node := { n with role := some role }

theorem sizeAll_filter_le (p : Node → Bool) (cs : List Node) : sizeAll (cs.filter p) ≤ sizeAll cs := by
  induction cs with
  | nil => simp
  | cons c cs ih => by_cases h : p c <;> simp [h, sizeAll] <;> omega

theorem sizeAll_namedChildren (n : Node) : sizeAll n.namedChildren < n.size := by
  have := sizeAll_filter_le (·.named) n.children
  rw [size_eq n, namedChildren]; omega

/-- The text that the node covers in its source. -/
def text (source : String) (n : Node) : String := String.Pos.Raw.extract source ⟨n.span.start⟩ ⟨n.span.stop⟩

end Node

end CodeAtlas.SyntaxTree
