/-!
# Sorted lists of texts

Texts in increasing order, each once, and values under such texts. The order is that of code points, which is
also the order of the bytes.

* `Sorted.insert`, `Sorted.ofList`: texts in order, each once.
* `Sorted.put`, `Sorted.ofPairs`: values under texts in order; a later value replaces an earlier one.
-/

namespace CodeAtlas.Sorted

/-- Adds a text to an increasing list. -/
def insert (a : String) : List String → List String
  | [] => [a]
  | b :: l => if a < b then a :: b :: l else if a = b then b :: l else b :: insert a l

/-- The members of a list in increasing order, each once. -/
def ofList (l : List String) : List String := l.foldl (fun sorted a => insert a sorted) []

variable {α : Type}

/-- Puts a value under a text. -/
def put (k : String) (a : α) : List (String × α) → List (String × α)
  | [] => [(k, a)]
  | (j, b) :: l => if k < j then (k, a) :: (j, b) :: l else if k = j then (k, a) :: l else (j, b) :: put k a l

/-- Pairs in increasing order of their texts; of several values under a text, the last. -/
def ofPairs (l : List (String × α)) : List (String × α) := l.foldl (fun sorted p => put p.1 p.2 sorted) []

/-- The value under a text. -/
def get? (k : String) (l : List (String × α)) : Option α := (l.find? (·.1 == k)).map (·.2)

/-- Adds one to the number under a text. -/
def count (k : String) (l : List (String × Nat)) : List (String × Nat) := put k ((get? k l).getD 0 + 1) l

end CodeAtlas.Sorted
