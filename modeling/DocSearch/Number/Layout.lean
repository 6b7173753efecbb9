import DocSearch.Number.Shortest

/-!
# The text of a number

Whole numbers are written in full. A double is written with its shortest digits, positionally for
decimal exponents from -4 to 15 and with an exponent otherwise; a positional text always has a point.
-/

namespace DocSearch.Number

structure Layout where
  /-- The least decimal exponent that is written positionally. -/
  leastPositional : Int
  /-- The least decimal exponent above it that is written with an exponent. -/
  leastScientific : Int
  exponentWidth : Nat
  notANumber : String
  infinite : String

/-- Exponents have a sign and at least two digits. -/
def layout : Layout where
  leastPositional := -4
  leastScientific := 16
  exponentWidth := 2
  notANumber := "nan"
  infinite := "inf"

def digitText (ds : List Nat) : String :=
  String.ofList (ds.map Nat.digitChar)

def zerosText (n : Nat) : String :=
  String.ofList (List.replicate n '0')

def exponentText (width : Nat) (x : Int) : String :=
  let ds := toString x.natAbs
  (if x < 0 then "-" else "+") ++ zerosText (width - ds.length) ++ ds

def Decimal.text (l : Layout) (d : Decimal) : String :=
  let n := d.digits.length
  let exponent := d.point - 1
  if exponent < l.leastPositional || l.leastScientific ≤ exponent then
    let tail := d.digits.drop 1
    digitText (d.digits.take 1) ++ (if tail.isEmpty then "" else "." ++ digitText tail)
      ++ "e" ++ exponentText l.exponentWidth exponent
  else if d.point ≤ 0 then
    "0." ++ zerosText (-d.point).toNat ++ digitText d.digits
  else if n ≤ d.point.toNat then
    digitText d.digits ++ zerosText (d.point.toNat - n) ++ ".0"
  else
    digitText (d.digits.take d.point.toNat) ++ "." ++ digitText (d.digits.drop d.point.toNat)

def Layout.text (l : Layout) (x : Float) : String :=
  match x.toModel.unpack with
  | .notANumber => l.notANumber
  | .infinity s => (if signOf s then "-" else "") ++ l.infinite
  | .zero s => (if signOf s then "-" else "") ++ "0.0"
  | .finite s m e _ => (if signOf s then "-" else "") ++ (shortest m e).text l

def floatText (x : Float) : String :=
  layout.text x

def text : Number → String
  | int n => toString n
  | float x => floatText x

end DocSearch.Number
