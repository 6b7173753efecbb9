import DocSearch.Value.Access

/-!
# Arguments that are gone through

An operation that goes through an argument gets its items one by one. The argument is a value or a source
of its own, which may break off with an error instead of a further item and need not know its size.
-/

namespace DocSearch

/-- The items of a value; a text is one item. -/
def Value.oneOrMany (v : Value) : Except Error (List Value) :=
  if v.word?.isSome then .ok [v] else v.items

inductive Iterable where
  | value (v : Value)
  | source (items : List Value) (stop : Option Error) (size : Except Error Nat)

namespace Iterable

/-- The items in their order, and the error that comes instead of a further one. -/
def handOut : Iterable → Except Error (List Value × Option Error)
  | value v => v.items.map fun xs => (xs, none)
  | source xs stop _ => .ok (xs, stop)

def size : Iterable → Except Error Nat
  | value v => v.items.map List.length
  | source _ _ n => n

/-- Like `handOut`, but a text is one item. -/
def oneOrMany : Iterable → Except Error (List Value × Option Error)
  | value v => v.oneOrMany.map fun xs => (xs, none)
  | source xs stop _ => .ok (xs, stop)

/-- Goes on after all items, unless the argument broke off. -/
def finish : Option Error → Except Error Unit
  | none => .ok ()
  | some e => .error e

end Iterable

end DocSearch
