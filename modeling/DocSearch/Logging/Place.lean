import DocSearch.Number.Places
import DocSearch.Value.Access
import DocSearch.Value.Display

/-!
# Places in messages

A place stands in a message for an argument: a percent sign, perhaps the key of the argument, flags, a
width and a precision, and a letter for the form that the argument takes. A star in the place of the
width or the precision stands for an argument of its own.
-/

namespace DocSearch.Logging

/-- The arguments that are left, and those that places can ask for by key. -/
structure Supply where
  items : List Value
  keyed : Option (List (Value × Value))

def Supply.next (s : Supply) : Except Error (Value × Supply) :=
  match s.items with
  | v :: vs => .ok (v, { s with items := vs })
  | [] => .error .wrongKind

structure Place where
  flags : List Char
  width : Int
  precision : Option Nat
  kind : Char

namespace Place

/-- The text up to the bracket that closes an open one, and what follows the bracket. -/
def closing (depth : Nat) : List Char → Option (List Char × List Char)
  | [] => none
  | c :: cs =>
    if c = ')' && depth = 0 then some ([], cs)
    else
      let depth := if c = ')' then depth - 1 else if c = '(' then depth + 1 else depth
      (closing depth cs).map fun r => (c :: r.1, r.2)

/-- A key in brackets makes the argument under it the only one. -/
def readKey (s : Supply) (cs : List Char) : Except Error (Supply × List Char) :=
  match cs, s.keyed with
  | '(' :: _, none => .error .wrongKind
  | '(' :: inside, some es =>
    match closing 0 inside with
    | none => .error .badContent
    | some (key, rest) =>
      match Value.field? es (String.ofList key) with
      | some v => .ok ({ s with items := [v] }, rest)
      | none => .error .noKey
  | _, _ => .ok (s, cs)

def isFlag (c : Char) : Bool :=
  c = '-' || c = '+' || c = ' ' || c = '#' || c = '0'

/-- A whole number of at most the given size, either written out or taken from the arguments. -/
def readSize (limit : Nat) (s : Supply) (cs : List Char) :
    Except Error (Option Int × Supply × List Char) :=
  match cs with
  | '*' :: rest => do
    let (v, s) ← s.next
    let n ← match v with
      | .int n => pure n
      | .bool b => pure (if b then 1 else 0)
      | _ => throw .wrongKind
    if n < -limit - 1 || limit < n then throw .tooLarge
    return (some n, s, rest)
  | _ =>
    let (ds, rest) := Number.Reading.takeDigits cs
    let n := Text.ofDigits ds
    if ds.isEmpty then .ok (none, s, cs)
    else if limit < n then .error .badContent
    else .ok (some n, s, rest)

def greatestWidth : Nat := Nat.pow 2 63 - 1

def greatestPrecision : Nat := Nat.pow 2 31 - 1

/-- A point makes a precision of what follows it, of nothing a precision of zero. -/
def readPrecision (s : Supply) (cs : List Char) :
    Except Error (Option Nat × Supply × List Char) :=
  match cs with
  | '.' :: rest => do
    let (n, s, rest) ← readSize greatestPrecision s rest
    return (some (n.getD 0).toNat, s, rest)
  | _ => .ok (none, s, cs)

/-- A letter for the size of the argument, which does not count. -/
def skipLength : List Char → List Char
  | c :: cs => if c = 'h' || c = 'l' || c = 'L' then cs else c :: cs
  | [] => []

def read (s : Supply) (cs : List Char) : Except Error (Place × Supply × List Char) := do
  let (s, cs) ← readKey s cs
  let flags := cs.takeWhile isFlag
  let (width, s, cs) ← readSize greatestWidth s (cs.dropWhile isFlag)
  let (precision, s, cs) ← readPrecision s cs
  match skipLength cs with
  | kind :: rest => return (⟨flags, width.getD 0, precision, kind⟩, s, rest)
  | [] => throw .badContent

def has (p : Place) (flag : Char) : Bool :=
  p.flags.contains flag

/-- Fills up to the width of the place: with blanks on one side, or with zeros after the front of a
number. -/
def fill (p : Place) (zeros : Bool) (front body : List Char) : List Char :=
  let missing := p.width.natAbs - (front.length + body.length)
  let blanks := List.replicate missing ' '
  if p.has '-' || p.width < 0 then front ++ body ++ blanks
  else if zeros then front ++ List.replicate missing '0' ++ body
  else blanks ++ front ++ body

/-- A text; the precision is the most that is shown of it. -/
def placeText (p : Place) (cs : List Char) : List Char :=
  p.fill false [] (match p.precision with
    | some n => cs.take n
    | none => cs)

def sign (p : Place) (negative : Bool) : List Char :=
  if negative then ['-'] else if p.has '+' then ['+'] else if p.has ' ' then [' '] else []

/-- A number, its sign and perhaps a mark of its base in front. -/
def placeNumber (p : Place) (negative : Bool) (mark body : List Char) : List Char :=
  p.fill (p.has '0') (p.sign negative ++ mark) body

/-- More digits than this are not asked for, so that there is room for a sign and a mark. -/
def greatestLength : Nat := greatestPrecision - 3

/-- A whole number in a base; the precision is the least number of digits. -/
def placeWhole (p : Place) (base : Nat) (n : Int) : Except Error (List Char) :=
  if greatestLength < p.precision.getD 0 then .error .tooLarge
  else
    let ds := Nat.toDigits base n.natAbs
    let ds := List.replicate (p.precision.getD 0 - ds.length) '0' ++ ds
    let mark := if base = 10 || !p.has '#' then [] else ['0', p.kind]
    let shown := if p.kind = 'X' then ds.map Char.toUpper else ds
    .ok (p.placeNumber (n < 0) mark shown)

def placeFloat (p : Place) (style : Number.Places.Style) (x : Float) : List Char :=
  let (negative, cs) := Number.Places.ofFloat style (p.has '#') (p.precision.getD 6) x
  p.placeNumber negative [] (if p.kind.isUpper then cs.map Char.toUpper else cs)

/-- A text with escapes for the characters that are not in the basic set. -/
def basic (s : String) : List Char :=
  s.toList.flatMap fun c =>
    if c.toNat < 0x80 then [c]
    else if c.toNat < 0x100 then '\\' :: 'x' :: Text.hex 2 c.toNat
    else if c.toNat < 0x10000 then '\\' :: 'u' :: Text.hex 4 c.toNat
    else '\\' :: 'U' :: Text.hex 8 c.toNat

/-- The whole number that a number is, cut at the point. -/
def wholeNumber (v : Value) : Except Error Int :=
  match v.number? with
  | some _ => v.toInt
  | none => .error .wrongKind

/-- The whole number that a value is as it stands. -/
def exactWhole : Value → Except Error Int
  | .int n => .ok n
  | .bool b => .ok (if b then 1 else 0)
  | _ => .error .wrongKind

def double (v : Value) : Except Error Float :=
  match v.number? with
  | some _ => v.toFloat
  | none => .error .wrongKind

/-- One character, given as a text or by its number. -/
def character (v : Value) : Except Error Char :=
  match v.word? with
  | some s =>
    match s.toList with
    | [c] => .ok c
    | _ => .error .wrongKind
  | none => do
    let n ← exactWhole v
    if n < 0 || 0x10FFFF < n then throw .tooLarge
    return Char.ofNat n.toNat

/-- The form that shows what kind of value it is, where there is one. -/
def quotedForm (v : Value) : Except Error String :=
  if v.isWritable then .ok v.quoted else .error .badContent

/-- A whole number with all its digits, which must not be too many. -/
def placeDecimal (p : Place) (n : Int) : Except Error (List Char) := do
  let cs ← p.placeWhole 10 n
  if Value.isShort n then return cs else throw .badContent

def render (p : Place) (v : Value) : Except Error (List Char) :=
  match p.kind with
  | 's' => v.written.map fun s => p.placeText s.toList
  | 'r' => (quotedForm v).map fun s => p.placeText s.toList
  | 'a' => (quotedForm v).map fun s => p.placeText (basic s)
  | 'c' => (character v).map fun c => p.fill false [] [c]
  | 'd' | 'i' | 'u' => (wholeNumber v).bind p.placeDecimal
  | 'o' => (exactWhole v).bind (p.placeWhole 8)
  | 'x' | 'X' => (exactWhole v).bind (p.placeWhole 16)
  | 'f' | 'F' => (double v).map (p.placeFloat .fixed)
  | 'e' | 'E' => (double v).map (p.placeFloat .scientific)
  | 'g' | 'G' => (double v).map (p.placeFloat .general)
  | _ => .error .badContent

end Place

end DocSearch.Logging
