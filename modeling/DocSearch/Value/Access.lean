import DocSearch.Error
import DocSearch.Value.Equal
import DocSearch.Number.Reading

/-!
# Access to values

What an operation asks of a value, and the fault if the value is of a kind that cannot answer: its
items, its entries, a part under a key, membership, or the number it stands for.
-/

namespace DocSearch.Value

def letters (s : String) : List Value :=
  s.toList.map fun c => .str (String.singleton c)

/-- The items that a value hands out one by one: those of a sequence, the characters of a text, the
keys of a mapping. -/
def items : Value → Except Error (List Value)
  | .seq _ xs => .ok xs
  | .map _ es => .ok (Entries.keys es)
  | .str s => .ok (letters s)
  | .symbol s => .ok (letters s.sign)
  | _ => .error .wrongKind

/-- The items from the last to the first; a set has no last item. -/
def itemsReversed : Value → Except Error (List Value)
  | .seq k xs => if k.isSet then .error .wrongKind else .ok xs.reverse
  | v => v.items.map List.reverse

def entries : Value → Except Error (List (Value × Value))
  | .map _ es => .ok es
  | _ => .error .noAttribute

def part (v : Value) (key : String) : Except Error Value :=
  match v with
  | .map _ es =>
    match field? es key with
    | some w => .ok w
    | none => .error .noKey
  | _ => .error .wrongKind

def partD (v : Value) (key : String) (absent : Value) : Except Error Value :=
  v.entries.map fun es => fieldD es key absent

/-- `x` is an item of the value, a key of it, or a stretch of its text. -/
def holds (v x : Value) : Except Error Bool :=
  match v with
  | .seq k xs =>
    if k.isSet && !x.isKey && !(x matches .seq .set _) then .error .wrongKind
    else .ok (xs.any (· == x))
  | .map _ es => if x.isKey then .ok (Entries.has es x) else .error .wrongKind
  | .str _ | .symbol _ =>
    match v.word?, x.word? with
    | some s, some t => .ok (Text.occursIn t.toList s.toList)
    | _, _ => .error .wrongKind
  | _ => .error .wrongKind

/-- Null, lists and tuples list items; any other value is an item itself. -/
def isListing : Value → Bool
  | .null => true
  | .seq .list _ => true
  | .seq .tuple _ => true
  | _ => false

/-- A list or tuple as it is, nothing for null, and one item for anything else. -/
def asList : Value → List Value
  | .null => []
  | .seq .list xs => xs
  | .seq .tuple xs => xs
  | v => [v]

@[simp] theorem asList_null : asList .null = [] := rfl

@[simp] theorem asList_list (xs : List Value) : asList (.list xs) = xs := rfl

def toFloat : Value → Except Error Float
  | .bool b => .ok (if b then 1 else 0)
  | .int n => ((Number.toFloat? n).map Except.ok).getD (.error .tooLarge)
  | .float x => .ok x
  | .str s => ((Number.Reading.float? s).map Except.ok).getD (.error .badContent)
  | .symbol _ => .error .badContent
  | _ => .error .wrongKind

/-- The whole number that a number or a text stands for; doubles are cut at the point. -/
def toInt : Value → Except Error Int
  | .bool b => .ok (if b then 1 else 0)
  | .int n => .ok n
  | .float x =>
    if x.isNaN then .error .badContent
    else ((Number.truncate? x).map Except.ok).getD (.error .tooLarge)
  | .str s => ((Number.Reading.int? s).map Except.ok).getD (.error .badContent)
  | .symbol _ => .error .badContent
  | _ => .error .wrongKind

def toNumber (v : Value) : Except Error Number :=
  match v.number? with
  | some n => .ok n
  | none => .error .wrongKind

def ofNumber : Number → Value
  | .int n => .int n
  | .float x => .float x

def isBelow (v : Value) (n : Int) : Except Error Bool :=
  v.toNumber.map fun x => x.lt (.int n)

@[simp] theorem isBelow_int (m n : Int) : isBelow (.int m) n = .ok (decide (m < n)) := by
  simp only [isBelow, toNumber, number?, Number.lt, Number.place?, Place.lt, Except.map,
    Rat.intCast_lt_intCast]

def written (v : Value) : Except Error String :=
  if v.isWritable then .ok v.text else .error .badContent

@[simp] theorem written_str (s : String) : written (.str s) = .ok s := rfl

theorem written_of_isWritable {v : Value} (h : v.isWritable = true) : v.written = .ok v.text :=
  if_pos h

theorem written_of_not_isWritable {v : Value} (h : ¬ v.isWritable = true) :
    v.written = .error .badContent :=
  if_neg h

theorem written_eq_ok_iff {v : Value} {s : String} :
    v.written = .ok s ↔ v.isWritable = true ∧ v.text = s := by
  rw [written]
  split
  case isTrue h => simp [h]
  case isFalse h => simp [h]

/-- A copy of its own; views cannot be copied. -/
def copy (v : Value) : Except Error Value :=
  if v.copyable then .ok v else .error .wrongKind

def asKey (v : Value) : Except Error Value :=
  if v.isKey then .ok v else .error .wrongKind

def entry (key v : Value) : Except Error Value :=
  (asKey key).map fun k => .dict [(k, v)]

def toPair (v : Value) : Except Error (Value × Value) := do
  match ← v.items with
  | [a, b] => return (a, b)
  | _ => throw .badContent

def toEntries : Value → Except Error (List (Value × Value))
  | .map _ es => .ok es
  | v => do
    let pairs ← (← v.items).mapM fun p => do
      let (k, w) ← p.toPair
      return (← k.asKey, w)
    return Entries.ofList pairs

def body : Value → Value
  | .record .response [b] => b
  | .record .raw [b] => b
  | v => v

def toWord {α : Type} (vocabulary : Vocabulary) (find : String → Option α) (v : Value) :
    Except Error α :=
  match v.word?.bind find with
  | some a => .ok a
  | none => .error (if v.isWritable then .fault (.unknownWord v vocabulary) else .badContent)

/-- The member of a set of words that a value is; the value has to be one that a set can hold. -/
def memberOf {α : Type} (find : String → Option α) (v : Value) : Except Error (Option α) :=
  if v.isKey then .ok (v.word?.bind find)
  else match v with
    | .seq .set _ => .ok none
    | _ => .error .wrongKind

end DocSearch.Value

namespace DocSearch

def ClauseGroup.ofValue : Value → Except Error ClauseGroup :=
  Value.toWord .clauseGroup ofWord?

def ExecutionMode.ofValue : Value → Except Error ExecutionMode :=
  Value.toWord .executionMode ofWord?

def ErrorCode.ofValue : Value → Except Error ErrorCode :=
  Value.toWord .errorCode ofWord?

/-- A word that callers give: without blanks at its ends and in lower case. -/
def callerWord (v : Value) : Except Error String :=
  v.written.map fun s => Text.lower (Text.strip s)

def Operator.resolve : Value → Except Error (Option Operator)
  | .symbol (.operator o) => .ok (some o)
  | v => (callerWord v).map ofWord?

def Logic.resolve : Value → Except Error (Option Logic)
  | .symbol (.logic l) => .ok (some l)
  | v => (callerWord v).map ofWord?

theorem Operator.resolve_str (s : String) :
    resolve (.str s) = .ok (ofWord? (Text.lower (Text.strip s))) := rfl

theorem Logic.resolve_str (s : String) :
    resolve (.str s) = .ok (ofWord? (Text.lower (Text.strip s))) := rfl

def Table.resolve (t : Table) (v : Value) : Except Error (Option Symbol) :=
  match t with
  | .operator => (Operator.resolve v).map (Option.map .operator)
  | .logic => (Logic.resolve v).map (Option.map .logic)

theorem callerWord_eq_ok_iff {v : Value} {w : String} :
    callerWord v = .ok w ↔ v.isWritable = true ∧ Text.lower (Text.strip v.text) = w := by
  rw [callerWord, Value.written]
  split
  case isTrue h => simp [h, Except.map]
  case isFalse h => simp [h, Except.map]

namespace Table

theorem resolve_of_not_isWritable {t : Table} {v : Value} (h : ¬ v.isWritable = true) :
    t.resolve v = .error .badContent := by
  have hword : callerWord v = .error .badContent := by
    rw [callerWord, Value.written_of_not_isWritable h]
    rfl
  have hsymbol (s : Symbol) : v ≠ .symbol s := by
    rintro rfl
    exact h rfl
  cases t with
  | operator =>
      rw [resolve, Operator.resolve, hword]
      · rfl
      · exact fun o => hsymbol (.operator o)
  | logic =>
      rw [resolve, Logic.resolve, hword]
      · rfl
      · exact fun l => hsymbol (.logic l)

theorem exists_resolve (t : Table) {v : Value} (h : v.isWritable = true) :
    ∃ s, t.resolve v = .ok s := by
  have hword := callerWord_eq_ok_iff.mpr ⟨h, rfl⟩
  cases t with
  | operator =>
      rw [resolve]
      unfold Operator.resolve
      split
      · exact ⟨_, rfl⟩
      · exact ⟨_, by rw [hword]; rfl⟩
  | logic =>
      rw [resolve]
      unfold Logic.resolve
      split
      · exact ⟨_, rfl⟩
      · exact ⟨_, by rw [hword]; rfl⟩

end Table

end DocSearch
