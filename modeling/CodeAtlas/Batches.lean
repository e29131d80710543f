/-!
# Batches

A list cut into batches of one size, of which the last may be shorter.

* `batches`: the batches.
* `flatten_batches`: together they are the list.
-/

namespace CodeAtlas

variable {α : Type}

/-- Batches of a size of at least one. -/
def batches (size : Nat) (l : List α) : List (List α) :=
  match l with
  | [] => []
  | a :: r => (a :: r.take (size - 1)) :: batches size (r.drop (size - 1))
termination_by l.length

theorem flatten_batches (size : Nat) (l : List α) : (batches size l).flatten = l := by
  fun_induction batches size l with
  | case1 => rfl
  | case2 a r ih => simp [ih]

end CodeAtlas
