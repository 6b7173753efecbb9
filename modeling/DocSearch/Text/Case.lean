import DocSearch.Text.Case.Table

/-!
# Lower-casing

Every letter is replaced by its lower-case partner. Two letters need more than a table: the capital
i with a dot becomes two characters, and a capital sigma becomes a final sigma exactly when the
nearest cased character before it is adjacent up to ignorable characters and none follows it so.
-/

namespace DocSearch.Text

namespace Case

def lowerChar (c : Char) : List Char :=
  if c.toNat < 0x80 then [c.toLower]
  else if c = 'İ' then ['i', '\u0307']
  else match lowerRuns.find? (·.has c.toNat) with
    | some r => [Char.ofNat (c.toNat + r.shift).toNat]
    | none => [c]

/-- The first character that is not ignorable is cased. -/
def casedAhead (cs : List Char) : Bool :=
  match cs.dropWhile ignorable.has with
  | [] => false
  | c :: _ => cased.has c

/-- `behind` tells whether the nearest character before that is not ignorable is cased. -/
def lowerFrom (behind : Bool) : List Char → List Char
  | [] => []
  | c :: cs =>
    let low := if c = 'Σ' then [if behind && !casedAhead cs then 'ς' else 'σ'] else lowerChar c
    low ++ lowerFrom (if ignorable.has c then behind else cased.has c) cs

end Case

def lower (s : String) : String :=
  String.ofList (Case.lowerFrom false s.toList)

/-- The capital Latin letter whose small forms include `c`. -/
def latinCapital (c : Char) : Char :=
  if c = 'ı' then 'I' else if c = 'ſ' then 'S' else c.toUpper

/-- The text with every small form of a Latin letter replaced by the capital. -/
def latinCapitals (s : String) : String :=
  s.map latinCapital

end DocSearch.Text
