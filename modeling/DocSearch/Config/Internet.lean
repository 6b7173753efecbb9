import DocSearch.Text.Cut
import DocSearch.Text.Digit

/-!
# Numeric internet addresses

The two written forms of numeric addresses: four decimal octets between points, and eight hexadecimal
groups between colons. In the second form one run of zero groups may be left out, the last two groups
may be written as four octets, and a scope may follow.
-/

namespace DocSearch.Internet

open DocSearch.Text

def isHexDigit (c : Char) : Bool :=
  isAsciiDigit c || ('a' ≤ c && c ≤ 'f') || ('A' ≤ c && c ≤ 'F')

/-- A number up to 255 without leading zeros. -/
def isOctet (cs : List Char) : Bool :=
  !cs.isEmpty && cs.all isAsciiDigit && cs.length ≤ 3 && (cs = ['0'] || cs.head? != some '0')
    && ofDigits (cs.filterMap asciiDigit?) ≤ 255

def isFourPart (cs : List Char) : Bool :=
  let ps := pieces '.' cs
  ps.length = 4 && ps.all isOctet

def isGroup (cs : List Char) : Bool :=
  !cs.isEmpty && cs.length ≤ 4 && cs.all isHexDigit

/-- The groups with four octets at the end replaced by two groups; none if the octets are wrong. -/
def plainGroups? (ps : List (List Char)) : Option (List (List Char)) :=
  match ps.getLast? with
  | some p =>
    if p.contains '.' then
      if isFourPart p then some (ps.dropLast ++ [['0'], ['0']]) else none
    else some ps
  | none => some ps

/-- The number of groups on one side of a gap; a gap at the end leaves one empty piece. -/
def besideGap? (ps : List (List Char)) : Option Nat :=
  if ps = [[]] then some 0 else if ps.all isGroup then some ps.length else none

/-- Eight groups, or less than eight around one gap. -/
def areGroups (ps : List (List Char)) : Bool :=
  match (ps.drop 1).dropLast.findIdx? List.isEmpty with
  | none => ps.length = 8 && ps.all isGroup
  | some i =>
    match besideGap? (ps.take (i + 1)), besideGap? (ps.drop (i + 2)) with
    | some front, some back => front + back ≤ 7
    | _, _ => false

/-- A scope is not empty and has no sign of its own. -/
def isScope : Option (List Char) → Bool
  | none => true
  | some cs => !cs.isEmpty && !cs.contains '%'

def isEightPart (cs : List Char) : Bool :=
  let (address, scope) := cutFirst '%' cs
  isScope scope && ((plainGroups? (pieces ':' address)).map areGroups).getD false

/-- A later form of address: a version in hexadecimal digits, a point, and more. -/
def isFuture : List Char → Bool
  | 'v' :: cs =>
    !(cs.takeWhile isHexDigit).isEmpty &&
      match cs.dropWhile isHexDigit with
      | '.' :: rest => !rest.isEmpty
      | _ => false
  | _ => false

end DocSearch.Internet
