/-!
# Counting at the front

The number of items at the front of a list that fit a test is found without looking at all of them, on
the understanding that those that fit come first. If they do not, the number is what these steps come
to. Lists are counted from the front or, turned around, from the back.
-/

namespace DocSearch.Sorting

/-- The end of a list at which something begins. -/
inductive End where
  | front
  | back
  deriving DecidableEq, Repr

/-- The place of the middle one of some items that are listed from this end on. Of two middle ones it
is the one that is farther from the front. -/
def End.middle (e : End) (n : Nat) : Nat :=
  match e with
  | front => n / 2
  | back => (n - 1) / 2

variable {α : Type}

/-- Counts by halving: the middle item tells in which half the items stop to fit. -/
def halve (e : End) (p : α → Bool) (xs : List α) : Nat :=
  match _h : xs.drop (e.middle xs.length) with
  | [] => 0
  | x :: more =>
    if p x then e.middle xs.length + 1 + halve e p more
    else halve e p (xs.take (e.middle xs.length))
termination_by xs.length
decreasing_by
  all_goals
    have hl := congrArg List.length _h
    simp only [List.length_drop, List.length_cons, List.length_take] at hl ⊢
    omega

/-- Counts in leaps, each as far as all before it together, and by halving what the last leap has passed
over. -/
def leap (e : End) (p : α → Bool) (reach : Nat) (xs : List α) : Nat :=
  match _h : xs.drop reach with
  | [] => halve e p xs
  | x :: more =>
    if p x then reach + 1 + leap e p (2 * reach + 1) more
    else halve e p (xs.take reach)
termination_by xs.length
decreasing_by
  have hl := congrArg List.length _h
  simp only [List.length_drop, List.length_cons] at hl
  omega

def fitting (e : End) (p : α → Bool) : List α → Nat
  | [] => 0
  | x :: xs => if p x then 1 + leap e p 0 xs else 0

end DocSearch.Sorting
