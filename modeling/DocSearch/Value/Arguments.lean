import DocSearch.Value.Access

/-!
# Named arguments

An operation that is called by name takes named arguments. A parameter without a standard value has to
be given, and only parameters can be given.
-/

namespace DocSearch

abbrev Arguments := List (String × Value)

/-- A parameter of an operation and the value that stands for it when it is not given. -/
structure Parameter where
  name : String
  standard : Option Value

namespace Parameter

def required (name : String) : Parameter := ⟨name, none⟩

def optional (name : String) (standard : Value) : Parameter := ⟨name, some standard⟩

def value? (p : Parameter) (args : Arguments) : Option Value :=
  (Entries.get? args p.name).or p.standard

end Parameter

def Arguments.valuesFor (args : Arguments) (ps : List Parameter) : Except Error (List Value) :=
  if args.all fun a => ps.any (·.name = a.1) then
    ps.mapM fun p => ((p.value? args).map Except.ok).getD (.error .wrongKind)
  else .error .wrongKind

open Parameter in
def Report.parameters : List Parameter :=
  [required "message", optional "code" .null, optional "details" .null]

/-- The report of an error of a class that is made from named arguments. A code that is given has to
be a known one, whatever else is given. -/
def Report.ofArguments (family : ErrorClass) (args : Arguments) : Except Error Report := do
  let code ← (Entries.get? args "code").mapM ErrorCode.ofValue
  match ← args.valuesFor Report.parameters with
  | [message, _, details] => return .make family message code details
  | _ => throw .wrongKind

end DocSearch
