import DocSearch.Search.Condition

/-!
# Matching

Whether a document meets a condition. Parts of a condition are looked at in order and only as far as
needed, so a fault shows exactly when the answer depends on the part that holds it. Names inside a
nested condition may repeat its path.
-/

namespace DocSearch

/-- Whether the text of a value has a needle in it, in any case. -/
def Value.mentions (v needle : Value) : Except Error Bool := do
  let s := Text.lower (← needle.written)
  return Text.occursIn s.toList (Text.lower (← v.written)).toList

def Test.passes (values : List Value) : Test → Except Error Bool
  | .equals e => .ok (values.any (· == e))
  | .resembles e => values.anyM fun v => v.mentions e
  | .among pool => values.anyM fun v => pool.holds v

/-- The objects of a path; only dictionaries count. -/
def Value.objectsAt (doc : Value) (pre path : String) : List Value :=
  (doc.lookup (relativeName pre path)).asList.filter fun v => v matches .map .dict _

namespace Condition

/-- The name that the fields of the objects of a path are written under. -/
def under (path : String) : String := path ++ "."

/-- Whether enough of the optional conditions hold, if there are any. -/
def enough (optional : List Condition) (count : Nat) (required : Except Error Int) :
    Except Error Bool :=
  if optional.isEmpty then .ok true else required.map fun n => decide (n ≤ (count : Int))

mutual

/-- Whether a document meets a condition, inside the path with the leading name `pre`. -/
def holds (doc : Value) (pre : String) : Condition → Except Error Bool
  | .all => .ok true
  | .fault e => .error e
  | .fields ts => ts.allM fun t => do t.2.passes (← doc.fieldValues pre t.1)
  | .anyField needle fs => fs.anyM fun f => do
    (← doc.fieldValues pre f).anyM fun v => v.mentions needle
  | .present f =>
    match f.word? with
    | some s => .ok !(doc.lookup (relativeName pre s)).isNull
    | none => .error .noAttribute
  | .nested path c => (doc.objectsAt pre path).anyM fun o => holds o (under path) c
  | .bool must filter mustNot should required => do
    if !(← allHold doc pre must) then return false
    if !(← allHold doc pre filter) then return false
    if ← someHolds doc pre mustNot then return false
    enough should (← countHolding doc pre should) required

def allHold (doc : Value) (pre : String) : List Condition → Except Error Bool
  | [] => .ok true
  | c :: cs => do if ← holds doc pre c then allHold doc pre cs else return false

def someHolds (doc : Value) (pre : String) : List Condition → Except Error Bool
  | [] => .ok false
  | c :: cs => do if ← holds doc pre c then return true else someHolds doc pre cs

def countHolding (doc : Value) (pre : String) : List Condition → Except Error Nat
  | [] => .ok 0
  | c :: cs => do
    let n := if ← holds doc pre c then 1 else 0
    return n + (← countHolding doc pre cs)

end

end Condition

end DocSearch
