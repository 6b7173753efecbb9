import DocSearch.Value.Basic
import DocSearch.Number.Layout
import DocSearch.Number.Reading
import DocSearch.Text.Quoted
import DocSearch.Text.Cut

/-!
# The text of a value

`text` is the plain form, `quoted` the form that shows what kind of value it is: texts stand between
quotes, and collections and records show their parts in quoted form. The two differ on texts, on table
members and on views, whose plain form is that of the dictionary they show. Whole numbers with too many
digits have no text, and neither has what shows one.
-/

namespace DocSearch.Value

open DocSearch.Text (quote joinWith)

/-- Truth values are capitalised words. -/
def boolText (b : Bool) : String :=
  if b then "True" else "False"

def bracket (k : SeqKind) (items : List String) : String :=
  match k, items with
  | .list, _ => "[" ++ joinWith ", " items ++ "]"
  | .tuple, [x] => "(" ++ x ++ ",)"
  | .tuple, _ => "(" ++ joinWith ", " items ++ ")"
  | .set, [] => "set()"
  | .set, _ => "\x7b" ++ joinWith ", " items ++ "\x7d"
  | .frozenset, [] => "frozenset()"
  | .frozenset, _ => "frozenset(\x7b" ++ joinWith ", " items ++ "\x7d)"

/-- The entries of a mapping in braces; a view says that it is one. -/
def brace (k : MapKind) (entries : List String) : String :=
  let body := "\x7b" ++ joinWith ", " entries ++ "\x7d"
  match k with
  | .dict => body
  | .view => "mappingproxy(" ++ body ++ ")"

def symbolName (s : Symbol) : String :=
  s.className ++ "." ++ s.name

mutual

def quoted : Value → String
  | .null => "None"
  | .bool b => boolText b
  | .int n => (Number.int n).text
  | .float x => (Number.float x).text
  | .str s => quote s
  | .symbol s => "<" ++ symbolName s ++ ": " ++ quote s.sign ++ ">"
  | .seq k xs => bracket k (quotedItems xs)
  | .map k es => brace k (quotedEntries es)
  | .record k xs =>
    k.name ++ "("
      ++ joinWith ", " (List.zipWith (fun n v => n ++ "=" ++ v) k.fieldNames (quotedItems xs)) ++ ")"

def quotedItems : List Value → List String
  | [] => []
  | x :: xs => quoted x :: quotedItems xs

def quotedEntries : List (Value × Value) → List String
  | [] => []
  | (k, v) :: es => (quoted k ++ ": " ++ quoted v) :: quotedEntries es

end

def text : Value → String
  | .str s => s
  | .symbol s => symbolName s
  | .map .view es => quoted (.map .dict es)
  | v => quoted v

@[simp] theorem text_str (s : String) : text (.str s) = s := rfl

/-- Whether a whole number has few enough digits for a text. -/
def isShort (n : Int) : Bool :=
  (toString n.natAbs).length ≤ Number.Reading.maxDigits

mutual

def isWritable : Value → Bool
  | .int n => isShort n
  | .seq _ xs => areWritable xs
  | .map _ es => areWritableEntries es
  | .record k xs => !k.showsFields || areWritable xs
  | _ => true

def areWritable : List Value → Bool
  | [] => true
  | x :: xs => isWritable x && areWritable xs

def areWritableEntries : List (Value × Value) → Bool
  | [] => true
  | (k, v) :: es => isWritable k && isWritable v && areWritableEntries es

end

@[simp] theorem isWritable_str (s : String) : isWritable (.str s) = true := rfl

end DocSearch.Value
