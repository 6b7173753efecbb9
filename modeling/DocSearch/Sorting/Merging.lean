import DocSearch.Sorting.Front

/-!
# Merging two runs

Two runs that lie side by side are merged from the end at which the shorter one lies, so that the room
of the longer one is enough. Items are compared one by one until one run wins often in a row; from then
on each run in turn strides ahead as far as it can. How many wins in a row that takes is adapted to the
items: it falls as long as striding is worth while and rises when it is not.
-/

namespace DocSearch.Sorting

variable {α : Type}

/-- Two runs that are being merged, listed from the end where merging began. -/
structure Merging (α : Type) where
  placed : List α
  short : List α
  long : List α

namespace Merging

/-- All items, in no order. -/
def items (m : Merging α) : List α :=
  m.placed ++ m.short ++ m.long

/-- The last item of the shorter run goes behind the longer one in any case. -/
def isOver (m : Merging α) : Bool :=
  match m.short with
  | _ :: _ :: _ => m.long.isEmpty
  | _ => true

def result (m : Merging α) : List α :=
  m.placed ++ m.long ++ m.short

theorem result_perm (m : Merging α) : m.result.Perm m.items := by
  simp only [result, items, List.append_assoc]
  exact List.perm_append_comm.append_left _

def placeShort (k : Nat) (m : Merging α) : Merging α :=
  ⟨m.placed ++ m.short.take k, m.short.drop k, m.long⟩

theorem items_placeShort (k : Nat) (m : Merging α) : (m.placeShort k).items = m.items := by
  simp [items, placeShort]

def placeLong (k : Nat) (m : Merging α) : Merging α :=
  ⟨m.placed ++ m.long.take k, m.short, m.long.drop k⟩

theorem items_placeLong_perm (k : Nat) (m : Merging α) : (m.placeLong k).items.Perm m.items := by
  simp only [items, placeLong, List.append_assoc]
  refine List.Perm.append_left _ ?_
  rw [← List.append_assoc]
  refine (List.perm_append_comm.append_right _).trans ?_
  rw [List.append_assoc, List.take_append_drop]

/-- The longer run has the next item only if that lies below the one of the shorter run. -/
def longWins (lt : α → α → Bool) (m : Merging α) : Bool :=
  match m.short, m.long with
  | s :: _, l :: _ => lt l s
  | _, _ => false

/-- How many items of the shorter run come before the next one of the longer run. -/
def leadOfShort (e : End) (lt : α → α → Bool) (m : Merging α) : Nat :=
  match m.long with
  | l :: _ => fitting e (fun s => !lt l s) m.short
  | [] => 0

/-- How many items of the longer run come before the next one of the shorter run. -/
def leadOfLong (e : End) (lt : α → α → Bool) (m : Merging α) : Nat :=
  match m.short with
  | s :: _ => fitting e (fun l => lt l s) m.long
  | [] => 0

/-- The shorter run strides ahead, and the longer one follows with one item. -/
def strideShort (e : End) (lt : α → α → Bool) (m : Merging α) : Nat × Merging α :=
  let k := m.leadOfShort e lt
  let m := m.placeShort k
  (k, if m.isOver then m else m.placeLong 1)

theorem strideShort_perm (e : End) (lt : α → α → Bool) (m : Merging α) :
    (m.strideShort e lt).2.items.Perm m.items := by
  simp only [strideShort]
  split
  · rw [items_placeShort]
  · refine (items_placeLong_perm _ _).trans ?_
    rw [items_placeShort]

/-- The longer run strides ahead, and the shorter one follows with one item. -/
def strideLong (e : End) (lt : α → α → Bool) (m : Merging α) : Nat × Merging α :=
  let k := m.leadOfLong e lt
  let m := m.placeLong k
  (k, if m.isOver then m else m.placeShort 1)

theorem strideLong_perm (e : End) (lt : α → α → Bool) (m : Merging α) :
    (m.strideLong e lt).2.items.Perm m.items := by
  simp only [strideLong]
  split
  · exact items_placeLong_perm _ _
  · rw [items_placeShort]
    exact items_placeLong_perm _ _

/-- One stride, and another one if merging is not over. -/
def strideTwice (first second : Merging α → Nat × Merging α) (m : Merging α) : Nat × Merging α :=
  let (j, m) := first m
  if m.isOver then (j, m)
  else
    let (k, m) := second m
    (max j k, m)

theorem strideTwice_perm {first second : Merging α → Nat × Merging α}
    (hf : ∀ m, (first m).2.items.Perm m.items) (hs : ∀ m, (second m).2.items.Perm m.items)
    (m : Merging α) : (strideTwice first second m).2.items.Perm m.items := by
  simp only [strideTwice]
  split
  · exact hf m
  · exact (hs _).trans (hf m)

/-- Both runs stride, the one that lies in front before the other one. The number is that of the longer
stride. -/
def strides (e : End) (lt : α → α → Bool) : Merging α → Nat × Merging α :=
  match e with
  | .front => strideTwice (strideShort e lt) (strideLong e lt)
  | .back => strideTwice (strideLong e lt) (strideShort e lt)

theorem strides_perm (e : End) (lt : α → α → Bool) (m : Merging α) :
    (strides e lt m).2.items.Perm m.items := by
  cases e
  · exact strideTwice_perm (strideShort_perm _ lt) (strideLong_perm _ lt) m
  · exact strideTwice_perm (strideLong_perm _ lt) (strideShort_perm _ lt) m

end Merging

/-- How merging goes on: item by item, after so many wins in a row of the shorter and the longer run, or
in strides. -/
inductive Pace where
  | single (short long : Nat)
  | striding

/-- Strides of fewer items are not worth while; so many wins in a row are asked for at first. -/
def worthwhile : Nat := 7

/-- Merges to the end. The threshold is the number of wins in a row after which the runs stride. -/
def Merging.run (e : End) (lt : α → α → Bool) :
    Nat → Nat → Pace → Merging α → List α × Nat
  | 0, threshold, _, m => (m.result, threshold)
  | fuel + 1, threshold, pace, m =>
    if m.isOver then (m.result, threshold)
    else
      match pace with
      | .single s l =>
        if m.longWins lt then
          run e lt fuel threshold (if threshold ≤ l + 1 then .striding else .single 0 (l + 1))
            (m.placeLong 1)
        else
          run e lt fuel threshold (if threshold ≤ s + 1 then .striding else .single (s + 1) 0)
            (m.placeShort 1)
      | .striding =>
        let (k, m) := m.strides e lt
        if m.isOver then (m.result, threshold)
        else if worthwhile ≤ k then run e lt fuel (max 1 (threshold - 1)) .striding m
        else run e lt fuel (threshold + 1) (.single 0 0) m

theorem Merging.run_perm (e : End) (lt : α → α → Bool) (fuel threshold : Nat) (pace : Pace)
    (m : Merging α) : (Merging.run e lt fuel threshold pace m).1.Perm m.items := by
  induction fuel generalizing threshold pace m with
  | zero => exact m.result_perm
  | succ fuel ih =>
    unfold Merging.run
    split
    · exact m.result_perm
    · cases pace with
      | single s l =>
        simp only
        split
        · exact (ih _ _ _).trans (items_placeLong_perm _ _)
        · refine (ih _ _ _).trans ?_
          rw [items_placeShort]
      | striding =>
        simp only
        split
        · exact (result_perm _).trans (strides_perm e lt m)
        · split
          · exact (ih _ _ _).trans (strides_perm e lt m)
          · exact (ih _ _ _).trans (strides_perm e lt m)

/-- Merges a shorter and a longer run, both listed from the end where the shorter one lies. The first
item of the longer one is known to be the first of all. -/
def mergeFrom (e : End) (lt : α → α → Bool) (threshold : Nat) (short long : List α) :
    List α × Nat :=
  Merging.run e lt (short.length + long.length) threshold (.single 0 0)
    ((⟨[], short, long⟩ : Merging α).placeLong 1)

theorem mergeFrom_perm (e : End) (lt : α → α → Bool) (threshold : Nat) (short long : List α) :
    (mergeFrom e lt threshold short long).1.Perm (short ++ long) :=
  (Merging.run_perm ..).trans (Merging.items_placeLong_perm 1 ⟨[], short, long⟩)

def mergeOverlap (lt : α → α → Bool) (threshold : Nat) (xs ys : List α) : List α × Nat :=
  if xs.length ≤ ys.length then mergeFrom .front lt threshold xs ys
  else
    let (zs, threshold) :=
      mergeFrom .back (fun x y => lt y x) threshold ys.reverse xs.reverse
    (zs.reverse, threshold)

theorem mergeOverlap_perm (lt : α → α → Bool) (threshold : Nat) (xs ys : List α) :
    (mergeOverlap lt threshold xs ys).1.Perm (xs ++ ys) := by
  simp only [mergeOverlap]
  split
  · exact mergeFrom_perm ..
  · refine (List.reverse_perm _).trans ((mergeFrom_perm ..).trans ?_)
    exact ((List.reverse_perm ys).append (List.reverse_perm xs)).trans List.perm_append_comm

/-- Merges two runs that lie side by side, and adapts the threshold. The items of the first run that do
not lie above all of the second one stay where they are, and so do those of the second run that lie below
none of the first one. -/
def merge (lt : α → α → Bool) (threshold : Nat) (xs ys : List α) : List α × Nat :=
  match ys with
  | [] => (xs, threshold)
  | y :: _ =>
    let k := fitting .front (fun x => !lt y x) xs
    match (xs.drop k).getLast? with
    | none => (xs ++ ys, threshold)
    | some x =>
      let n := ys.length - fitting .back (fun z => !lt z x) ys.reverse
      let (zs, threshold) := mergeOverlap lt threshold (xs.drop k) (ys.take n)
      (xs.take k ++ zs ++ ys.drop n, threshold)

theorem merge_perm (lt : α → α → Bool) (threshold : Nat) (xs ys : List α) :
    (merge lt threshold xs ys).1.Perm (xs ++ ys) := by
  unfold merge
  split
  · simp
  · dsimp only
    split
    · exact .refl _
    · dsimp only
      refine (((mergeOverlap_perm ..).append_left _).append_right _).trans ?_
      simp only [List.append_assoc, List.take_append_drop]
      rw [← List.append_assoc, List.take_append_drop]

end DocSearch.Sorting
