import DocSearch.Value.Basic

/-!
# The four groups of a boolean query

`Groups α` holds what was placed in each of the four groups, in order of arrival, and the number of
optional clauses that have to match, which may be unset. Adding appends to one group and replacing
leaves one clause in it; neither touches the other three.
-/

namespace DocSearch

structure Groups (α : Type) where
  filter : List α
  must : List α
  mustNot : List α
  should : List α
  /-- How many clauses of `should` have to match; null leaves it to the reader. -/
  minimum : Value

/-- A clause together with the weight that it adds to a score where it matches. -/
structure Weighted (α : Type) where
  filter : α
  weight : Value

namespace Groups

variable {α β : Type}

def empty : Groups α := ⟨[], [], [], [], .null⟩

def get (g : Groups α) : ClauseGroup → List α
  | .filter => g.filter
  | .must => g.must
  | .mustNot => g.mustNot
  | .should => g.should

def set (g : Groups α) (c : ClauseGroup) (xs : List α) : Groups α :=
  match c with
  | .filter => { g with filter := xs }
  | .must => { g with must := xs }
  | .mustNot => { g with mustNot := xs }
  | .should => { g with should := xs }

def add (g : Groups α) (c : ClauseGroup) (x : α) : Groups α :=
  g.set c (g.get c ++ [x])

def addAll (g : Groups α) (c : ClauseGroup) (xs : List α) : Groups α :=
  g.set c (g.get c ++ xs)

/-- Makes a clause the only one in a group. -/
def replace (g : Groups α) (c : ClauseGroup) (x : α) : Groups α :=
  g.set c [x]

@[simp] theorem get_empty (c : ClauseGroup) : (empty : Groups α).get c = [] := by
  cases c <;> rfl

theorem get_set (g : Groups α) (c d : ClauseGroup) (xs : List α) :
    (g.set c xs).get d = if c = d then xs else g.get d := by
  cases c <;> cases d <;> rfl

@[simp] theorem get_set_self (g : Groups α) (c : ClauseGroup) (xs : List α) :
    (g.set c xs).get c = xs := by
  cases c <;> rfl

@[simp] theorem set_set (g : Groups α) (c : ClauseGroup) (xs ys : List α) :
    (g.set c xs).set c ys = g.set c ys := by
  cases c <;> rfl

@[simp] theorem set_get (g : Groups α) (c : ClauseGroup) : g.set c (g.get c) = g := by
  cases c <;> rfl

@[simp] theorem minimum_set (g : Groups α) (c : ClauseGroup) (xs : List α) :
    (g.set c xs).minimum = g.minimum := by
  cases c <;> rfl

theorem get_add (g : Groups α) (c d : ClauseGroup) (x : α) :
    (g.add c x).get d = g.get d ++ if c = d then [x] else [] := by
  cases c <;> cases d <;> simp [add, set, get]

theorem get_replace (g : Groups α) (c d : ClauseGroup) (x : α) :
    (g.replace c x).get d = if c = d then [x] else g.get d :=
  get_set g c d [x]

@[simp] theorem addAll_nil (g : Groups α) (c : ClauseGroup) : g.addAll c [] = g := by
  simp [addAll]

theorem addAll_cons (g : Groups α) (c : ClauseGroup) (x : α) (xs : List α) :
    g.addAll c (x :: xs) = (g.add c x).addAll c xs := by
  simp [addAll, add]

theorem addAll_append (g : Groups α) (c : ClauseGroup) (xs ys : List α) :
    g.addAll c (xs ++ ys) = (g.addAll c xs).addAll c ys := by
  simp [addAll]

end Groups

end DocSearch
