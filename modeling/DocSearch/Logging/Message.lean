import DocSearch.Logging.Place

/-!
# Messages

A message may have places that arguments are put into. There has to be an argument for every place and a
place for every argument, except that the entries of one mapping alone need not be used. Two percent
signs stand for one.
-/

namespace DocSearch.Logging

/-- Puts the arguments into their places, from the front on; every place is one character long at
least. -/
def fill : Nat → Supply → List Char → Except Error (List Char)
  | 0, _, _ => .ok []
  | _, s, [] => if s.keyed.isNone && !s.items.isEmpty then .error .wrongKind else .ok []
  | fuel + 1, s, '%' :: '%' :: cs => (fill fuel s cs).map ('%' :: ·)
  | fuel + 1, s, '%' :: cs => do
    let (p, s, rest) ← Place.read s cs
    let (v, s) ← s.next
    let t ← p.render v
    return t ++ (← fill fuel s rest)
  | fuel + 1, s, c :: cs => (fill fuel s cs).map (c :: ·)

/-- The arguments of a message; one mapping alone that is not empty is asked by key. -/
def supplyOf : List Value → Supply
  | [.map k es] => ⟨[.map k es], if es.isEmpty then none else some es⟩
  | args => ⟨args, none⟩

/-- A message with its arguments; without arguments it is taken as it is. -/
def message (template : Value) (args : List Value) : Except Error String := do
  let s ← template.written
  if args.isEmpty then return s
  let cs ← fill (s.length + 1) (supplyOf args) s.toList
  return String.ofList cs

end DocSearch.Logging
