import DocSearch.Value.Basic

/-!
# Equality and order of values

Numbers are equal when they denote the same real number, texts and table members when they read the
same. Sequences are compared item by item and lists differ from tuples; sets are compared as sets and
mappings as finite maps, both whatever their kind. Two responses are never equal. Only numbers, texts and
tuples have an order, each kind among themselves.
-/

namespace DocSearch.Value

def eqScalar (a b : Value) : Bool :=
  match a.number?, b.number? with
  | some x, some y => x.eq y
  | _, _ =>
    match a.word?, b.word? with
    | some s, some t => s == t
    | _, _ => a.isNull && b.isNull

mutual

def eq : Value → Value → Bool
  | .seq k xs, .seq l ys =>
    if k.isSet && l.isSet then xs.length == ys.length && eqWithin xs ys
    else k = l && eqItems xs ys
  | .map _ es, .map _ fs => es.length == fs.length && eqEntries es fs
  | .record k xs, .record l ys =>
    k = l && k ≠ .response && k ≠ .abstractClause && eqItems xs ys
  | a, b => eqScalar a b

def eqItems : List Value → List Value → Bool
  | [], [] => true
  | x :: xs, y :: ys => eq x y && eqItems xs ys
  | _, _ => false

/-- Every item of the first list equals one of the second. -/
def eqWithin : List Value → List Value → Bool
  | [], _ => true
  | x :: xs, ys => ys.any (eq x) && eqWithin xs ys

/-- Every entry of the first list is an entry of the second. -/
def eqEntries : List (Value × Value) → List (Value × Value) → Bool
  | [], _ => true
  | (k, v) :: es, fs => fs.any (fun f => eq k f.1 && eq v f.2) && eqEntries es fs

end

instance : BEq Value := ⟨eq⟩

def distinct (xs : List Value) : List Value :=
  xs.foldl (fun seen x => if seen.any (· == x) then seen else seen ++ [x]) []

/-- The order of scalars, where they have one. -/
def belowScalar? (a b : Value) : Option Bool :=
  match a.number?, b.number? with
  | some x, some y => some (x.lt y)
  | _, _ =>
    match a.word?, b.word? with
    | some s, some t => some (s < t)
    | _, _ => none

mutual

/-- Whether a value stands before another one, where the two compare. -/
def below? : Value → Value → Option Bool
  | .seq .tuple xs, .seq .tuple ys => belowItems? xs ys
  | a, b => belowScalar? a b

/-- The first items that differ decide; a part at the front stands before the whole. -/
def belowItems? : List Value → List Value → Option Bool
  | x :: xs, y :: ys => if x == y then belowItems? xs ys else below? x y
  | [], ys => some (!ys.isEmpty)
  | _ :: _, [] => some false

end

def field? (es : List (Value × Value)) (name : String) : Option Value :=
  Entries.get? es (.str name)

def hasField (es : List (Value × Value)) (name : String) : Bool :=
  (field? es name).isSome

/-- The value stored under a word, or what stands for its absence. -/
def fieldD (es : List (Value × Value)) (name : String) (absent : Value) : Value :=
  (field? es name).getD absent

end DocSearch.Value
