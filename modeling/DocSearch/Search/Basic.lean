import DocSearch.Search.Order

/-!
# Searches

A search holds every document of an index against the query, in the order of the index, scores those
that meet it, leaves out low scores, sorts the rest and lists a window of it.
-/

namespace DocSearch

/-- The items from one position up to another; negative positions count from the end. -/
def slice {α : Type} (xs : List α) (start stop : Int) : List α :=
  let n : Int := xs.length
  let clamp (i : Int) : Nat := (min n (max 0 (if i < 0 then i + n else i))).toNat
  (xs.take (clamp stop)).drop (clamp start)

theorem slice_nat {α : Type} (xs : List α) (i k : Nat) :
    slice xs i (i + k) = (xs.drop i).take k := by
  have h (m : Nat) : (min (xs.length : Int) (max 0 (if (m : Int) < 0 then (m : Int) + xs.length
      else m))).toNat = min xs.length m := by
    have : ¬ (m : Int) < 0 := by omega
    simp only [this, if_false]
    omega
  have hs : ((i : Int) + k) = ((i + k : Nat) : Int) := by omega
  simp only [slice, hs, h, List.drop_take]
  by_cases hi : i ≤ xs.length
  · rw [Nat.min_eq_right hi]
    by_cases hk : i + k ≤ xs.length
    · rw [Nat.min_eq_right hk, Nat.add_sub_cancel_left]
    · rw [Nat.min_eq_left (by omega), List.take_of_length_le (by simp),
        List.take_of_length_le (by simp; omega)]
  · simp [List.drop_of_length_le, Nat.le_of_not_le hi]

theorem map_slice {α β : Type} (f : α → β) (xs : List α) (start stop : Int) :
    (slice xs start stop).map f = slice (xs.map f) start stop := by
  simp only [slice, List.map_drop, List.map_take, List.length_map]

namespace Search

variable {σ : Type} [Arithmetic σ]

/-- The documents that meet a condition, scored in the order of the index. -/
def found (c : Condition) (r : ScoreRule) :
    List (Value × Value) → Except Error (List (Hit σ))
  | [] => .ok []
  | (id, doc) :: ds => do
    if ← c.holds doc "" then
      let s ← r.score doc
      return ⟨id, doc, s⟩ :: (← found c r ds)
    else
      found c r ds

/-- Leaves out the hits that score less than a threshold, if one is given. -/
def aboveThreshold (least : Value) (hs : List (Hit σ)) : Except Error (List (Hit σ)) :=
  if least.isNull || hs.isEmpty then .ok hs
  else do
    let t : σ ← Arithmetic.ofValue least
    return hs.filter fun h => Arithmetic.atLeast h.score t

def hits (docs : List (Value × Value)) (body : Value) : Except Error (List (Hit σ)) := do
  let es ← body.entries
  let query := Value.fieldD es "query" ScoreFunction.matchAll
  let hs ← found (.ofValue query) (.ofQuery query) docs
  let hs ← aboveThreshold (Value.fieldD es "min_score" .null) hs
  Hit.sortBy (Value.fieldD es "sort" (.list [])) hs

def position : Value → Except Error Int
  | .int n => .ok n
  | .bool b => .ok (if b then 1 else 0)
  | _ => .error .wrongKind

/-- A whole number is too large to be added to a double that it is too large for. -/
def checkSum (v w : Value) : Except Error Unit :=
  match v, w with
  | .float _, .int n | .int n, .float _ => (Value.int n).toFloat.map fun _ => ()
  | _, _ => .ok ()

/-- The hits that a search lists: ten from the first one if nothing else is asked for. -/
def window (es : List (Value × Value)) (hs : List (Hit σ)) : Except Error (List (Hit σ)) := do
  let start := Value.fieldD es "from" (.int 0)
  let count := Value.fieldD es "size" (.int 10)
  checkSum start count
  let offset ← position start
  let size ← position count
  return slice hs offset (offset + size)

/-- What a search answers: how many hits there are, and those it lists. -/
structure Answer (σ : Type) where
  total : Nat
  listed : List (Hit σ)

namespace Answer

def maxScore? (a : Answer σ) : Option σ :=
  match a.listed.map Hit.score with
  | [] => none
  | s :: ss => some (Arithmetic.greatest s ss)

end Answer

def run (docs : List (Value × Value)) (body : Value) : Except Error (Answer σ) := do
  let hs ← hits docs body
  return ⟨hs.length, ← window (← body.entries) hs⟩

end Search

open Search in
def Search.Answer.toValue (index : Value) (a : Answer Float) : Value :=
  .object [("took", .int 0), ("timed_out", .bool false),
    ("hits", .object [
      ("total", .object [("value", .int a.total), ("relation", .str "eq")]),
      ("max_score", (a.maxScore?.map Value.float).getD .null),
      ("hits", .list (a.listed.map fun h => .object [("_index", index), ("_id", h.id),
        ("_score", .float h.score), ("_source", h.document)]))])]

end DocSearch
