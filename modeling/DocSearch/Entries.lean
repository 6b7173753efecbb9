/-!
# Ordered entries

A finite map that remembers the order in which its keys first arrived: storing under a known key
replaces the value where it stands, storing under a new key appends. Keys are compared by `==`.
-/

namespace DocSearch

abbrev Entries (κ α : Type) := List (κ × α)

namespace Entries

variable {κ α β : Type} [BEq κ]

/-- The value stored under `k`. -/
def get? : List (κ × α) → κ → Option α
  | [], _ => none
  | (j, a) :: es, k => if j == k then some a else get? es k

def has (es : List (κ × α)) (k : κ) : Bool :=
  (get? es k).isSome

def put : List (κ × α) → κ → α → List (κ × α)
  | [], k, a => [(k, a)]
  | (j, b) :: es, k, a => if j == k then (j, a) :: es else (j, b) :: put es k a

def erase : List (κ × α) → κ → List (κ × α)
  | [], _ => []
  | (j, b) :: es, k => if j == k then es else (j, b) :: erase es k

/-- Stores all entries of the second list, in order. -/
def putAll (es fs : List (κ × α)) : List (κ × α) :=
  fs.foldl (fun acc f => put acc f.1 f.2) es

/-- The entries with repeated keys merged. -/
def ofList (fs : List (κ × α)) : List (κ × α) :=
  putAll [] fs

def keys (es : List (κ × α)) : List κ :=
  es.map (·.1)

/-- The keys that two maps have in common, as the smaller one has them, or the second one if neither
is smaller. -/
def sharedKeys (es fs : List (κ × α)) : List κ :=
  if es.length < fs.length then (keys es).filter (has fs) else (keys fs).filter (has es)

@[simp] theorem get?_nil (k : κ) : get? ([] : List (κ × α)) k = none := rfl

@[simp] theorem get?_cons (j k : κ) (a : α) (es : List (κ × α)) :
    get? ((j, a) :: es) k = if j == k then some a else get? es k := rfl

@[simp] theorem putAll_nil (es : List (κ × α)) : putAll es [] = es := rfl

@[simp] theorem putAll_cons (es : List (κ × α)) (f : κ × α) (fs : List (κ × α)) :
    putAll es (f :: fs) = putAll (put es f.1 f.2) fs := rfl

theorem putAll_append (es fs gs : List (κ × α)) :
    putAll es (fs ++ gs) = putAll (putAll es fs) gs := by
  simp [putAll, List.foldl_append]

theorem keys_put (es : List (κ × α)) (k : κ) (a : α) :
    keys (put es k a) = if has es k then keys es else keys es ++ [k] := by
  induction es with
  | nil => simp [put, keys, has]
  | cons e es ih =>
    obtain ⟨i, b⟩ := e
    by_cases h : (i == k) = true
    · simp [put, keys, has, h]
    · simp only [keys, has] at ih
      simp only [put, keys, has, get?_cons, h, Bool.false_eq_true, if_false, List.map_cons, ih]
      split <;> simp [*]

theorem keys_erase (es : List (κ × α)) (k : κ) : keys (erase es k) = (keys es).erase k := by
  induction es with
  | nil => rfl
  | cons e es ih =>
    obtain ⟨i, b⟩ := e
    simp only [keys] at ih
    by_cases h : (i == k) = true
    · simp [erase, keys, List.erase, h]
    · simp [erase, keys, h, ih]

variable [LawfulBEq κ]

theorem get?_put (es : List (κ × α)) (j k : κ) (a : α) :
    get? (put es j a) k = if j == k then some a else get? es k := by
  induction es with
  | nil => rfl
  | cons e es ih =>
    obtain ⟨i, b⟩ := e
    simp only [put]
    by_cases h : i == j
    · have hij := eq_of_beq h
      subst hij
      by_cases hk : i == k <;> simp [hk]
    · by_cases hk : i == k
      · have hik := eq_of_beq hk
        subst hik
        have hji : (j == i) = false := by
          rw [beq_eq_false_iff_ne]
          exact fun e => h (by simp [e])
        simp [h, hji]
      · simp [h, hk, ih]

theorem get?_erase_ne (es : List (κ × α)) {j k : κ} (h : j ≠ k) :
    get? (erase es j) k = get? es k := by
  induction es with
  | nil => rfl
  | cons e es ih =>
    obtain ⟨i, b⟩ := e
    by_cases hij : (i == j) = true
    · have hik : (i == k) = false := by rw [eq_of_beq hij]; simpa using h
      simp [erase, hij, hik]
    · simp [erase, hij, ih]

end Entries

end DocSearch
