import DocSearch.Value.Access

/-!
# Frozen values

Freezing makes a value immutable all the way down: mappings become views, lists become tuples and sets
frozen sets. Thawing turns views into dictionaries and all frozen sequences into lists. A record is
copied as a whole.
-/

namespace DocSearch.Value

mutual

def freeze : Value → Except Error Value
  | .seq k xs => (freezeItems xs).map (.seq k.frozen)
  | .map _ es => (freezeEntries es).map (.map .view)
  | v => v.copy

def freezeItems : List Value → Except Error (List Value)
  | [] => .ok []
  | x :: xs => do
    let y ← freeze x
    return y :: (← freezeItems xs)

def freezeEntries : List (Value × Value) → Except Error (List (Value × Value))
  | [] => .ok []
  | (k, v) :: es => do
    let w ← freeze v
    return (k, w) :: (← freezeEntries es)

end

mutual

def thaw : Value → Value
  | .seq .set xs => .seq .set xs
  | .seq _ xs => .list (thawItems xs)
  | .map _ es => .dict (thawEntries es)
  | v => v

def thawItems : List Value → List Value
  | [] => []
  | x :: xs => thaw x :: thawItems xs

def thawEntries : List (Value × Value) → List (Value × Value)
  | [] => []
  | (k, v) :: es => (k, thaw v) :: thawEntries es

end

end DocSearch.Value
