/-!
# Numbers of two kinds

A number is a whole number of any size or a double. Numbers are compared by their exact places on the
number line, so a double and a whole number are equal only when they denote the same real number; what
is not a number has no place and compares with nothing.
-/

namespace DocSearch

inductive Number where
  | int (n : Int)
  | float (x : Float)

/-- Places on the number line with its two ends. -/
inductive Place where
  | below
  | point (q : Rat)
  | above
  deriving DecidableEq

namespace Place

def lt : Place → Place → Bool
  | below, below => false
  | below, _ => true
  | point _, below => false
  | point p, point q => p < q
  | point _, above => true
  | above, _ => false

theorem lt_irrefl : ∀ p : Place, p.lt p = false
  | below => rfl
  | point _ => decide_eq_false Rat.lt_irrefl
  | above => rfl

theorem lt_trans {p q r : Place} (hpq : p.lt q = true) (hqr : q.lt r = true) :
    p.lt r = true := by
  cases p <;> cases q <;> cases r <;> try trivial
  case point.point.point a b c =>
    have hab : a < b := of_decide_eq_true hpq
    have hbc : b < c := of_decide_eq_true hqr
    refine decide_eq_true (Rat.lt_of_le_of_ne ?_ fun e => ?_)
    · exact Rat.le_trans (Rat.le_of_lt hab) (Rat.le_of_lt hbc)
    · subst e
      exact Rat.not_lt.mpr (Rat.le_of_lt hab) hbc

theorem eq_of_not_lt {p q : Place} (hpq : p.lt q = false) (hqp : q.lt p = false) : p = q := by
  cases p <;> cases q <;> try trivial
  case point.point a b =>
    have hab : ¬ a < b := of_decide_eq_false hpq
    have hba : ¬ b < a := of_decide_eq_false hqp
    exact congrArg point (Rat.le_antisymm (Rat.not_lt.mp hba) (Rat.not_lt.mp hab))

end Place

namespace Number

open Float.Model (UnpackedFloat)

/-- The rational number `m · 2 ^ e`, negated on demand. -/
def dyadic (negative : Bool) (m : Nat) (e : Int) : Rat :=
  let n : Int := if negative then -m else m
  if 0 ≤ e then mkRat (n * Nat.pow 2 e.toNat) 1 else mkRat n (Nat.pow 2 (-e).toNat)

def signOf : UnpackedFloat.Sign → Bool
  | .negative => true
  | .positive => false

/-- The place of a double; none if it is not a number. -/
def floatPlace? (x : Float) : Option Place :=
  match x.toModel.unpack with
  | .notANumber => none
  | .infinity s => some (if signOf s then .below else .above)
  | .zero _ => some (.point 0)
  | .finite s m e _ => some (.point (dyadic (signOf s) m e))

def place? : Number → Option Place
  | int n => some (.point n)
  | float x => floatPlace? x

def lt (a b : Number) : Bool :=
  match a.place?, b.place? with
  | some p, some q => p.lt q
  | _, _ => false

def eq (a b : Number) : Bool :=
  match a.place?, b.place? with
  | some p, some q => p = q
  | _, _ => false

def le (a b : Number) : Bool :=
  a.lt b || a.eq b

/-- Neither zero compares equal to anything but the zeros. -/
def isZero (a : Number) : Bool :=
  a.eq (.int 0)

theorem lt_trans {a b c : Number} (hab : a.lt b = true) (hbc : b.lt c = true) :
    a.lt c = true := by
  unfold lt at *
  cases ha : a.place? <;> cases hb : b.place? <;> cases hc : c.place? <;> simp_all
  exact Place.lt_trans hab hbc

/-- The double nearest to a whole number; none if that is out of the range of doubles. -/
def toFloat? (n : Int) : Option Float :=
  let x := Float.ofScientific n.natAbs false 0
  if x.isInf then none else some (if n < 0 then -x else x)

def truncate? (x : Float) : Option Int :=
  match floatPlace? x with
  | some (.point q) => some (Int.tdiv q.num q.den)
  | _ => none

/-- The double that a number stands for; none for whole numbers out of the range of doubles. -/
def asFloat? : Number → Option Float
  | int n => toFloat? n
  | float x => some x

def pred : Number → Number
  | int n => .int (n - 1)
  | float x => .float (x - 1)

/-- The product: exact for whole numbers, otherwise of the two doubles. -/
def mul? : Number → Number → Option Number
  | int m, int n => some (.int (m * n))
  | a, b => do
    let x ← a.asFloat?
    let y ← b.asFloat?
    return .float (x * y)

end Number

end DocSearch
