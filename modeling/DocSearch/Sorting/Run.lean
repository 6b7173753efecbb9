import DocSearch.Sorting.Front

/-!
# Runs

A run is a stretch of a list that is in order. The items at the front that rise, or fall strictly, are
taken as they are or turned around; if they are few, the items after them are put in their places one by
one.
-/

namespace DocSearch.Sorting

variable {α : Type}

/-- The items after `a` as long as each one follows on the one before it, and the rest. -/
def runFrom (follows : α → α → Bool) (a : α) : List α → List α × List α
  | [] => ([], [])
  | b :: xs =>
    if follows a b then
      let (run, rest) := runFrom follows b xs
      (b :: run, rest)
    else ([], b :: xs)

theorem runFrom_append (follows : α → α → Bool) (a : α) (xs : List α) :
    (runFrom follows a xs).1 ++ (runFrom follows a xs).2 = xs := by
  induction xs generalizing a with
  | nil => rfl
  | cons b xs ih =>
    simp only [runFrom]
    split
    · simp [ih b]
    · rfl

/-- The items at the front that are in order, in rising order, and the rest. -/
def firstRun (lt : α → α → Bool) : List α → List α × List α
  | a :: b :: xs =>
    if lt b a then
      let (run, rest) := runFrom (fun x y => lt y x) b xs
      ((a :: b :: run).reverse, rest)
    else
      let (run, rest) := runFrom (fun x y => !lt y x) b xs
      (a :: b :: run, rest)
  | xs => (xs, [])

theorem firstRun_perm (lt : α → α → Bool) (xs : List α) :
    ((firstRun lt xs).1 ++ (firstRun lt xs).2).Perm xs := by
  match xs with
  | [] => exact .refl _
  | [_] => exact .refl _
  | a :: b :: xs =>
    simp only [firstRun]
    split
    · refine ((List.reverse_perm _).append_right _).trans ?_
      simp [runFrom_append]
    · simp [runFrom_append]

theorem length_rest_lt (lt : α → α → Bool) (a : α) (xs : List α) :
    (firstRun lt (a :: xs)).2.length < (a :: xs).length := by
  match xs with
  | [] => simp [firstRun]
  | b :: xs =>
    have h (follows : α → α → Bool) : (runFrom follows b xs).2.length ≤ xs.length := by
      have := congrArg List.length (runFrom_append follows b xs)
      simp only [List.length_append] at this
      omega
    simp only [firstRun, List.length_cons]
    split
    · exact Nat.lt_of_le_of_lt (h fun x y => lt y x) (by omega)
    · exact Nat.lt_of_le_of_lt (h fun x y => !lt y x) (by omega)

/-- Puts an item behind all items that it does not lie below. -/
def insert (lt : α → α → Bool) (x : α) (xs : List α) : List α :=
  let k := halve .front (fun y => !lt x y) xs
  xs.take k ++ x :: xs.drop k

theorem insert_perm (lt : α → α → Bool) (x : α) (xs : List α) :
    (insert lt x xs).Perm (x :: xs) := by
  refine List.perm_middle.trans ?_
  rw [List.take_append_drop]

def insertAll (lt : α → α → Bool) (run xs : List α) : List α :=
  xs.foldl (fun run x => insert lt x run) run

theorem insertAll_perm (lt : α → α → Bool) (run xs : List α) :
    (insertAll lt run xs).Perm (run ++ xs) := by
  induction xs generalizing run with
  | nil => simp [insertAll]
  | cons x xs ih =>
    refine (ih _).trans ?_
    refine ((insert_perm lt x run).append_right xs).trans ?_
    exact List.perm_middle.symm

/-- A run of at least so many items, if there are so many, and the rest. -/
def nextRun (lt : α → α → Bool) (least : Nat) (xs : List α) : List α × List α :=
  let (run, rest) := firstRun lt xs
  let missing := least - run.length
  (insertAll lt run (rest.take missing), rest.drop missing)

theorem nextRun_perm (lt : α → α → Bool) (least : Nat) (xs : List α) :
    ((nextRun lt least xs).1 ++ (nextRun lt least xs).2).Perm xs := by
  simp only [nextRun]
  refine ((insertAll_perm lt _ _).append_right _).trans ?_
  rw [List.append_assoc, List.take_append_drop]
  exact firstRun_perm lt xs

theorem length_nextRun_lt (lt : α → α → Bool) (least : Nat) (a : α) (xs : List α) :
    (nextRun lt least (a :: xs)).2.length < (a :: xs).length := by
  have := length_rest_lt lt a xs
  simp only [nextRun, List.length_drop]
  omega

end DocSearch.Sorting
