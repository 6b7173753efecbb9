import DocSearch.Number.Layout

/-!
# Decimals with a given number of places

Numbers that are not negative, written with a given number of places after the point. What is left over
rounds to the nearest last place, a tie to the even digit.
-/

namespace DocSearch.Number.Places

/-- The whole number nearest to `num / den`, the even one of two. -/
def nearest (num den : Nat) : Nat :=
  let q := num / den
  let r := num % den
  if den < 2 * r || (den = 2 * r && q % 2 = 1) then q + 1 else q

theorem nearest_close (num : Nat) {den : Nat} (hd : 0 < den) :
    2 * (nearest num den * den) ≤ 2 * num + den ∧ 2 * num ≤ 2 * (nearest num den * den) + den := by
  have h := Nat.div_add_mod num den
  have hm : den * (num / den) = num / den * den := Nat.mul_comm _ _
  unfold nearest
  simp only
  split
  · next hc =>
    simp only [Bool.or_eq_true, Bool.and_eq_true, decide_eq_true_eq] at hc
    rw [Nat.add_mul, Nat.one_mul]
    have := Nat.mod_lt num hd
    omega
  · next hc =>
    simp only [Bool.or_eq_true, Bool.and_eq_true, decide_eq_true_eq] at hc
    omega

inductive Style where
  /-- The places are counted from the point. -/
  | fixed
  /-- The places are counted from the first digit, and an exponent moves the point. -/
  | scientific
  /-- Digits are counted and zeros at the end left out, in the shorter of the other two ways. -/
  | general
  deriving DecidableEq, Repr

/-- A whole number of last places with its point; a point at the end is written on demand. -/
def pointed (keepPoint : Bool) (places n : Nat) : List Char :=
  let ds := Nat.toDigits 10 n
  let ds := List.replicate (places + 1 - ds.length) '0' ++ ds
  let whole := ds.length - places
  ds.take whole ++ (if places = 0 && !keepPoint then [] else ['.']) ++ ds.drop whole

/-- The last places of a number with `places + 1` digits, and the exponent of the first one. -/
def rounded (num den places : Nat) : Nat × Int :=
  if num = 0 then (0, 0)
  else
    let e := Shortest.pointOf num den - 1
    let shift : Int := places - e
    let n := nearest (num * Nat.pow 10 shift.toNat) (den * Nat.pow 10 (-shift).toNat)
    if n = Nat.pow 10 (places + 1) then (n / 10, e + 1) else (n, e)

/-- Drops the zeros at the end of a fraction, and the point if nothing follows it. -/
def dropZeros (cs : List Char) : List Char :=
  if cs.contains '.' then
    let kept := (cs.reverse.dropWhile (· = '0')).reverse
    if kept.getLast? = some '.' then kept.dropLast else kept
  else cs

def exponentPart (e : Int) : List Char :=
  'e' :: (exponentText layout.exponentWidth e).toList

/-- No double has more digits than this. -/
def longest : Nat := 1100

/-- The number `num / den` in a style; `keep` keeps the point and all zeros. -/
def write (style : Style) (keep : Bool) (places num den : Nat) : List Char :=
  match style with
  | .fixed => pointed keep places (nearest (num * Nat.pow 10 places) den)
  | .scientific =>
    let (n, e) := rounded num den places
    pointed keep places n ++ exponentPart e
  | .general =>
    let digits := max 1 (if keep then places else min places longest)
    let (n, e) := rounded num den (digits - 1)
    let trim (cs : List Char) : List Char := if keep then cs else dropZeros cs
    if -4 ≤ e && e < digits then trim (pointed keep ((digits : Int) - 1 - e).toNat n)
    else trim (pointed keep (digits - 1) n) ++ exponentPart e

/-- A double in a style: whether it has a minus sign, and what follows the sign. -/
def ofFloat (style : Style) (keep : Bool) (places : Nat) (x : Float) : Bool × List Char :=
  match x.toModel.unpack with
  | .notANumber => (false, layout.notANumber.toList)
  | .infinity s => (signOf s, layout.infinite.toList)
  | .zero s => (signOf s, write style keep places 0 1)
  | .finite s m e _ =>
    let q := dyadic false m e
    (signOf s, write style keep places q.num.natAbs q.den)

end DocSearch.Number.Places
