import DocSearch.Number.Basic

/-!
# Shortest decimals

The digits of a double are the fewest that read back as it: of all decimals that lie in the interval
of reals rounding to the double, those with the least number of digits, and of these the nearest to
the double, an exact tie going to the even digit.
-/

namespace DocSearch.Number

/-- The number `0.d₁d₂… · 10 ^ point`. -/
structure Decimal where
  digits : List Nat
  point : Int

namespace Shortest

/-- Decimal digits of a natural number, most significant first. -/
def digitsOf (n : Nat) : List Nat :=
  (Nat.toDigits 10 n).map fun c => c.toNat - '0'.toNat

/-- How many times `num` can be multiplied by ten before it reaches `den`. -/
def shortfall : Nat → Nat → Nat → Nat
  | 0, _, _ => 0
  | fuel + 1, num, den => if den ≤ num * 10 then 0 else shortfall fuel (num * 10) den + 1

/-- The least `k` with `num / den < 10 ^ k`, for `num` within four hundred decimal places of `den`. -/
def pointOf (num den : Nat) : Int :=
  if den ≤ num then (digitsOf (num / den)).length else -(shortfall 400 num den : Int)

/-- The interval of the reals that round to a double, over a common denominator. -/
structure Interval where
  low : Nat
  value : Nat
  high : Nat
  den : Nat
  closed : Bool

/-- The interval around `m · 2 ^ e`: half a step on each side, a quarter below a power of two. -/
def interval (m : Nat) (e : Int) : Interval :=
  let f := Nat.pow 2 (e - 2).toNat
  { low := (if m = Nat.pow 2 52 && e != -1074 then 4 * m - 1 else 4 * m - 2) * f
    value := 4 * m * f
    high := (4 * m + 2) * f
    den := Nat.pow 2 (2 - e).toNat
    closed := m % 2 == 0 }

/-- The best decimal of `n` digits whose point stands at `k`, as a whole number of its last places. -/
def onGrid? (i : Interval) (k : Int) (n : Nat) : Option Nat :=
  let up := Nat.pow 10 (k - n).toNat
  let down := Nat.pow 10 (n - k).toNat
  let step := i.den * up
  let c := i.value * down / step
  let rest := i.value * down % step
  let inside (x : Nat) : Bool :=
    let lo := i.low * down
    let hi := i.high * down
    if i.closed then lo ≤ x && x ≤ hi else lo < x && x < hi
  let nearDown := 2 * rest < step || (2 * rest == step && c % 2 == 0)
  match inside (c * step), inside ((c + 1) * step) with
  | true, true => some (if nearDown then c else c + 1)
  | true, false => some c
  | false, true => some (c + 1)
  | false, false => none

/-- Tries one more digit at a time. -/
def search (i : Interval) (k : Int) : Nat → Nat → Nat × Nat
  | 0, n => (i.value * Nat.pow 10 (n - k).toNat / (i.den * Nat.pow 10 (k - n).toNat), n)
  | more + 1, n =>
    match onGrid? i k n with
    | some c => (c, n)
    | none => search i k more (n + 1)

end Shortest

open Shortest in
/-- The shortest decimal that reads back as `m · 2 ^ e`. -/
def shortest (m : Nat) (e : Int) : Decimal :=
  let i := interval m e
  let k := pointOf i.value i.den
  let (c, n) := search i k 17 1
  let ds := digitsOf c
  { digits := (ds.reverse.dropWhile (· == 0)).reverse
    point := k + ((ds.length : Int) - n) }

end DocSearch.Number
