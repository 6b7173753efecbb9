import DocSearch.Number.Basic
import DocSearch.Text.Blank
import DocSearch.Text.Digit

/-!
# Reading numbers

`plain?` reads a decimal with optional sign, point and exponent, or one of the words for infinity and
for what is not a number. The free readers `float?` and `int?` take the texts of callers: blanks at
the ends, digits of any script and single underscores between digits are allowed.
-/

namespace DocSearch.Number.Reading

open DocSearch.Text

def takeDigits (cs : List Char) : List Nat × List Char :=
  ((cs.takeWhile isAsciiDigit).filterMap asciiDigit?, cs.dropWhile isAsciiDigit)

def takeSign : List Char → Bool × List Char
  | '-' :: cs => (true, cs)
  | '+' :: cs => (false, cs)
  | cs => (false, cs)

/-- The double nearest to `m · 10 ^ e`; exponents far out of range are not worked out. -/
def ofDecimal (m : Nat) (e : Int) : Float :=
  let magnitude := (Nat.toDigits 10 m).length + e
  if m = 0 || magnitude < -330 then 0
  else if 320 < magnitude then 1 / 0
  else if 0 ≤ e then Float.ofScientific m false e.toNat
  else Float.ofScientific m true (-e).toNat

def signed (negative : Bool) (x : Float) : Float :=
  if negative then -x else x

def exponent? : List Char → Option Int
  | [] => some 0
  | c :: cs =>
    if c = 'e' || c = 'E' then
      let (negative, rest) := takeSign cs
      let (ds, rest) := takeDigits rest
      if ds.isEmpty || !rest.isEmpty then none
      else some (if negative then -(ofDigits ds : Int) else ofDigits ds)
    else none

/-- An unsigned decimal: digits with at most one point among or around them, then an exponent. -/
def unsigned? (cs : List Char) : Option Float :=
  let (whole, rest) := takeDigits cs
  let (fraction, rest) := match rest with
    | '.' :: more => takeDigits more
    | _ => ([], rest)
  if whole.isEmpty && fraction.isEmpty then none
  else (exponent? rest).map fun e =>
    ofDecimal (ofDigits (whole ++ fraction)) (e - fraction.length)

def word? (cs : List Char) : Option Float :=
  let w := String.ofList (cs.map Char.toLower)
  if w = "inf" || w = "infinity" then some (1 / 0)
  else if w = "nan" then some (0 / 0)
  else none

def plain? (cs : List Char) : Option Float :=
  let (negative, rest) := takeSign cs
  ((unsigned? rest).or (word? rest)).map (signed negative)

/-- ASCII digits for the digits of all scripts. -/
def plainDigits (cs : List Char) : List Char :=
  cs.map fun c => match digitValue? c with
    | some d => Nat.digitChar d
    | none => c

/-- The text without its underscores, each of which must stand between two digits. -/
def dropUnderscores? (prior : Bool) : List Char → Option (List Char)
  | [] => some []
  | '_' :: c :: cs =>
    if prior && isAsciiDigit c then (dropUnderscores? true cs).map (c :: ·) else none
  | ['_'] => none
  | c :: cs => (dropUnderscores? (isAsciiDigit c) cs).map (c :: ·)

def free? (s : String) : Option (List Char) :=
  dropUnderscores? false (plainDigits (trimBoth isSpace s.toList))

def float? (s : String) : Option Float :=
  (free? s).bind plain?

/-- Digits only, at least one. -/
def whole? (cs : List Char) : Option Nat :=
  let (ds, rest) := takeDigits cs
  if ds.isEmpty || !rest.isEmpty then none else some (ofDigits ds)

/-- Whole numbers with more digits than this are not read. -/
def maxDigits : Nat := 4300

/-- The whole number that a caller's text denotes; leading zeros count as digits. -/
def int? (s : String) : Option Int := do
  let (negative, rest) := takeSign (← free? s)
  if maxDigits < rest.length then none
  else
    let n ← whole? rest
    return if negative then -n else n

end DocSearch.Number.Reading
