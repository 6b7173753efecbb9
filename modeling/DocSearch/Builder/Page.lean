import DocSearch.Value.Arguments

/-!
# Pages

A page is a window of the hits: how many to skip and how many to list. Page `n` of size `s` skips the
`(n - 1) * s` hits of the pages before it.
-/

namespace DocSearch

structure Page where
  offset : Option Value
  size : Option Value

namespace Page

def whole : Page := ⟨none, none⟩

/-- The product of the pages before this one and the size of a page. -/
def skipped (size page : Value) : Except Error Value := do
  match (← page.toNumber).pred.mul? (← size.toNumber) with
  | some n => return .ofNumber n
  | none => throw .tooLarge

def requireLeast (least : Int) (problem : Value → ArgumentError) (v : Value) :
    Except Error Unit := do
  if ← v.isBelow least then throw (.refusing (problem v))

/-- Page number `page`, counted from one, of `size` hits. -/
def number (size page : Value) : Except Error Page := do
  requireLeast 1 .page page
  requireLeast 0 .pageSize size
  return ⟨some (← skipped size page), some size⟩

def bound (name : String) (v : Option Value) : List (String × Value) :=
  (v.map fun v => (name, v)).toList

def entries (p : Page) : List (String × Value) :=
  bound "from" p.offset ++ bound "size" p.size

def toValue (p : Page) : Value :=
  .object p.entries

open Parameter in
def parameters : List Parameter :=
  [required "page_size", optional "page" (.int 1)]

def ofArguments (args : Arguments) : Except Error Page := do
  match ← args.valuesFor parameters with
  | [size, page] => number size page
  | _ => throw .wrongKind

theorem requireLeast_eq_ok_iff {least : Int} {problem : Value → ArgumentError} {v : Value}
    {x : Unit} : requireLeast least problem v = .ok x ↔ v.isBelow least = .ok false := by
  unfold requireLeast
  cases v.isBelow least with
  | error e => simp [bind, Except.bind]
  | ok below =>
    cases below with
    | false => simp [bind, Except.bind, pure, Except.pure]
    | true => simp [bind, Except.bind]

theorem requireLeast_int {least n : Int} (h : least ≤ n) (problem : Value → ArgumentError) :
    requireLeast least problem (.int n) = .ok () :=
  requireLeast_eq_ok_iff.mpr (by simpa using h)

theorem number_int (size page : Int) (hp : 1 ≤ page) (hs : 0 ≤ size) :
    number (.int size) (.int page) = .ok ⟨some (.int ((page - 1) * size)), some (.int size)⟩ := by
  simp [number, requireLeast_int hp, requireLeast_int hs, skipped, Value.toNumber, Value.number?,
    Number.pred, Number.mul?, Value.ofNumber, bind, Except.bind, pure, Except.pure]

end Page

end DocSearch
