import DocSearch.Config.Address
import DocSearch.Value.Arguments

/-!
# Hosts

A host is given as an address or as a bare name. `Host.normalize` checks it and writes it in full: with
a scheme, a port and no slash at the end.
-/

namespace DocSearch

open DocSearch.Text

namespace Host

def schemes : List (List Char) := ["http".toList, "https".toList]

def standardPort : Value := .int 9200

/-- A bare name is an address of the plain scheme. -/
def candidate (cs : List Char) : List Char :=
  if occursIn "://".toList cs then cs else "http://".toList ++ cs

/-- The parts of an address with a port in its authority. -/
def write (a : Address) (authority : List Char) : String :=
  String.ofList (a.scheme ++ "://".toList ++ authority ++ trimRight (· = '/') a.path)

/-- The full form of a host given without blanks at its ends. -/
def normalizeText (raw : String) (standard : Value) : Except Error String :=
  if raw.isEmpty then .error (.config .emptyHost)
  else match Address.split (candidate raw.toList) with
    | .error e => .error (.fault (.address e))
    | .ok a =>
      if !schemes.contains a.scheme then .error (.config (.unsupportedScheme raw))
      else if a.host.isEmpty then .error (.config (.malformedHost raw))
      else match a.port with
        | .bad => .error (.config (.badPort raw))
        | .known _ => .ok (write a a.authority)
        | .absent =>
          standard.written.map fun port => write a (a.authority ++ ':' :: port.toList)

/-- The full form of a host; what does not count as given is an empty text. -/
def normalize (host standard : Value) : Except Error String :=
  if !host.truthy then .error (.config .emptyHost)
  else match host.word? with
    | some s => normalizeText (strip s) standard
    | none => .error .noAttribute

open Parameter in
def parameters : List Parameter :=
  [required "host", optional "default_port" standardPort]

def ofArguments (args : Arguments) : Except Error String := do
  match ← args.valuesFor parameters with
  | [host, standard] => normalize host standard
  | _ => throw .wrongKind

end Host

end DocSearch
