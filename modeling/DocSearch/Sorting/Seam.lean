import DocSearch.Sorting.Merging
import DocSearch.Sorting.Run

/-!
# Sorting by runs

A list is cut into runs, which are merged two by two. Two runs that lie side by side have a seam between
them, and the power of the seam tells how deep it would lie if the list were halved again and again: seams
of greater power are closed first. If the comparison orders the items, the outcome is their only stable
arrangement; if it does not, because some items compare with nothing, the outcome is what these steps
come to.
-/

namespace DocSearch.Sorting

variable {α : Type}

/-- How often a list of `n` items has to be halved until two places fall into different parts. The places
are given twice as great as they are, since middles may lie between items. -/
def halvings (n : Nat) : Nat → Nat → Nat → Nat
  | 0, _, _ => 0
  | fuel + 1, a, b =>
    if n ≤ a then 1 + halvings n fuel (2 * (a - n)) (2 * (b - n))
    else if n ≤ b then 1
    else 1 + halvings n fuel (2 * a) (2 * b)

/-- The power of the seam between two runs, the first of which begins at a place. -/
def seamPower (n start first second : Nat) : Nat :=
  let a := 2 * start + first
  halvings n n a (a + first + second)

/-- The least number of items that a run should have, so that the number of runs is a power of two or a
little less. -/
def leastRunFrom (odd n : Nat) : Nat :=
  if n < 64 then n + odd else leastRunFrom (max odd (n % 2)) (n / 2)

def leastRun (n : Nat) : Nat := leastRunFrom 0 n

/-- A run that waits to be merged, with the power of the seam in front of it. -/
structure Waiting (α : Type) where
  power : Nat
  run : List α

def waitingItems (ws : List (Waiting α)) : List α :=
  ws.flatMap Waiting.run

/-- Closes the seams of greater power at the end of the list; the last run comes first. -/
def closeSeams (lt : α → α → Bool) (power threshold : Nat) (ws : List (Waiting α)) :
    List (Waiting α) × Nat :=
  match ws with
  | w :: v :: ws =>
    if power < w.power then
      let (run, threshold) := merge lt threshold v.run w.run
      closeSeams lt power threshold (⟨v.power, run⟩ :: ws)
    else (w :: v :: ws, threshold)
  | ws => (ws, threshold)
termination_by ws.length

theorem closeSeams_perm (lt : α → α → Bool) (power threshold : Nat) (ws : List (Waiting α)) :
    (waitingItems (closeSeams lt power threshold ws).1).Perm (waitingItems ws) := by
  fun_induction closeSeams lt power threshold ws with
  | case1 threshold w v ws _ run t h ih =>
    refine ih.trans ?_
    simp only [waitingItems, List.flatMap_cons]
    rw [← List.append_assoc]
    refine List.Perm.append_right _ ?_
    have := merge_perm lt threshold v.run w.run
    rw [h] at this
    exact this.trans List.perm_append_comm
  | case2 => exact .refl _
  | case3 => exact .refl _

/-- Closes all seams. A run in the middle is merged with the shorter one of its neighbours. -/
def closeAll (lt : α → α → Bool) (threshold : Nat) (ws : List (Waiting α)) : List α :=
  match ws with
  | [] => []
  | [w] => w.run
  | [w, v] => (merge lt threshold v.run w.run).1
  | w :: v :: u :: ws =>
    if u.run.length < w.run.length then
      let (run, threshold) := merge lt threshold u.run v.run
      closeAll lt threshold (w :: ⟨u.power, run⟩ :: ws)
    else
      let (run, threshold) := merge lt threshold v.run w.run
      closeAll lt threshold (⟨v.power, run⟩ :: u :: ws)
termination_by ws.length

theorem closeAll_perm (lt : α → α → Bool) (threshold : Nat) (ws : List (Waiting α)) :
    (closeAll lt threshold ws).Perm (waitingItems ws) := by
  fun_induction closeAll lt threshold ws with
  | case1 => exact .refl _
  | case2 => simp [waitingItems]
  | case3 threshold w v =>
    refine (merge_perm ..).trans ?_
    simpa [waitingItems] using List.perm_append_comm
  | case4 threshold w v u ws _ run t h ih =>
    refine ih.trans ?_
    simp only [waitingItems, List.flatMap_cons]
    refine List.Perm.append_left _ ?_
    rw [← List.append_assoc]
    refine List.Perm.append_right _ ?_
    have := merge_perm lt threshold u.run v.run
    rw [h] at this
    exact this.trans List.perm_append_comm
  | case5 threshold w v u ws _ run t h ih =>
    refine ih.trans ?_
    simp only [waitingItems, List.flatMap_cons]
    rw [← List.append_assoc, ← List.append_assoc, ← List.append_assoc]
    refine List.Perm.append_right _ (List.Perm.append_right _ ?_)
    have := merge_perm lt threshold v.run w.run
    rw [h] at this
    exact this.trans List.perm_append_comm

/-- Cuts what is left of a list of `n` items into runs, and closes the seams of greater power as they
come up. -/
def collect (lt : α → α → Bool) (n threshold : Nat) (ws : List (Waiting α)) (xs : List α) :
    List (Waiting α) × Nat :=
  match xs with
  | [] => (ws, threshold)
  | x :: xs =>
    let cut := nextRun lt (leastRun n) (x :: xs)
    match ws with
    | [] => collect lt n threshold [⟨0, cut.1⟩] cut.2
    | w :: ws =>
      let start := n - (x :: xs).length - w.run.length
      let power := seamPower n start w.run.length cut.1.length
      let closed := closeSeams lt power threshold (w :: ws)
      collect lt n closed.2 (⟨power, cut.1⟩ :: closed.1) cut.2
termination_by xs.length
decreasing_by
  all_goals exact length_nextRun_lt ..

theorem collect_perm (lt : α → α → Bool) (n threshold : Nat) (ws : List (Waiting α))
    (xs : List α) : (waitingItems (collect lt n threshold ws xs).1).Perm
      (waitingItems ws ++ xs) := by
  fun_induction collect lt n threshold ws xs with
  | case1 => simp
  | case2 threshold x xs cut ih =>
    refine ih.trans ?_
    simpa [waitingItems] using nextRun_perm lt (leastRun n) (x :: xs)
  | case3 threshold x xs cut w ws start power closed ih =>
    refine ih.trans ?_
    simp only [waitingItems, List.flatMap_cons]
    refine (List.perm_append_comm.append_right _).trans ?_
    rw [List.append_assoc]
    exact (closeSeams_perm ..).append (nextRun_perm lt (leastRun n) (x :: xs))

def sort (lt : α → α → Bool) (xs : List α) : List α :=
  let (ws, threshold) := collect lt xs.length worthwhile [] xs
  closeAll lt threshold ws

theorem sort_perm (lt : α → α → Bool) (xs : List α) : (sort lt xs).Perm xs := by
  refine (closeAll_perm ..).trans ?_
  exact collect_perm lt xs.length worthwhile [] xs

/-- The items in falling order; items that do not differ keep their order. -/
def sortFalling (lt : α → α → Bool) (xs : List α) : List α :=
  (sort lt xs.reverse).reverse

theorem sortFalling_perm (lt : α → α → Bool) (xs : List α) : (sortFalling lt xs).Perm xs :=
  (List.reverse_perm _).trans ((sort_perm lt _).trans (List.reverse_perm xs))

end DocSearch.Sorting
