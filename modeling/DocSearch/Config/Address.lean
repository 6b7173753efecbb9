import DocSearch.Config.Internet
import DocSearch.Error
import DocSearch.Number.Reading
import DocSearch.Text.Blank
import DocSearch.Text.Case

/-!
# Addresses

An address has a scheme, an authority and a path; a query and a fragment are cut off. The authority is
the user, up to the last at sign, then the host, which may stand in brackets, then a port.
-/

namespace DocSearch

structure Address where
  scheme : List Char
  authority : List Char
  path : List Char
  deriving DecidableEq

namespace Address

open DocSearch.Text

def isLetter (c : Char) : Bool :=
  ('a' ≤ c && c ≤ 'z') || ('A' ≤ c && c ≤ 'Z')

def isSchemeChar (c : Char) : Bool :=
  isLetter c || isAsciiDigit c || c = '+' || c = '-' || c = '.'

/-- The text without leading blanks and control characters, and without line breaks and tabs. -/
def clean (cs : List Char) : List Char :=
  (cs.dropWhile (· ≤ ' ')).filter fun c => !(c = '\t' || c = '\r' || c = '\n')

/-- The scheme in front of the first colon and the rest; no scheme if there is none in front of it. -/
def takeScheme (cs : List Char) : List Char × List Char :=
  match cutFirst ':' cs with
  | (c :: word, some rest) =>
    if isLetter c && word.all isSchemeChar then ((c :: word).map Char.toLower, rest) else ([], cs)
  | _ => ([], cs)

def endsAuthority (c : Char) : Bool :=
  c = '/' || c = '?' || c = '#'

def takeAuthority : List Char → List Char × List Char
  | '/' :: '/' :: cs =>
    (cs.takeWhile fun c => !endsAuthority c, cs.dropWhile fun c => !endsAuthority c)
  | cs => ([], cs)

def checkBracketed (cs : List Char) : Except AddressFault Unit :=
  if cs.head? = some 'v' then
    if Internet.isFuture cs then .ok () else .error .malformedFuture
  else if Internet.isFourPart cs then .error .bracketedFourPart
  else if Internet.isEightPart cs then .ok ()
  else .error (.notAnAddress (String.ofList cs))

/-- The host of a server that may be in brackets. Nothing stands before the brackets, and nothing
but a port after them. -/
def bracketedHost (server : List Char) : Except AddressFault (List Char) :=
  match cutFirst '[' server with
  | (front, some inside) =>
    let (host, after) := cutFirst ']' inside
    let port := after.getD []
    if front.isEmpty && (port.isEmpty || port.head? = some ':') then .ok host
    else .error .unbalancedBrackets
  | (_, none) => .ok (cutFirst ':' server).1

/-- An authority has both brackets or none; with brackets its host is a numeric address. -/
def checkBrackets (cs : List Char) : Except AddressFault Unit :=
  match cs.contains '[', cs.contains ']' with
  | true, true => (bracketedHost (afterLast '@' cs)).bind checkBracketed
  | false, false => .ok ()
  | _, _ => .error .unbalancedBrackets

/-- Characters whose compatibility form has a delimiter of addresses in it. -/
def disguised : List Nat :=
  [0x2047, 0x2048, 0x2049, 0x2100, 0x2101, 0x2105, 0x2106, 0x2A74, 0xFE13, 0xFE16, 0xFE55, 0xFE56,
    0xFE5F, 0xFE6B, 0xFF03, 0xFF0F, 0xFF1A, 0xFF1F, 0xFF20]

def checkDelimiters (cs : List Char) : Except AddressFault Unit :=
  if cs.any fun c => disguised.contains c.toNat then
    .error (.hiddenDelimiter (String.ofList cs))
  else .ok ()

def pathOf (cs : List Char) : List Char :=
  (cutFirst '?' (cutFirst '#' cs).1).1

def split (cs : List Char) : Except AddressFault Address := do
  let (scheme, rest) := takeScheme (clean cs)
  let (authority, rest) := takeAuthority rest
  checkBrackets authority
  checkDelimiters authority
  return ⟨scheme, authority, pathOf rest⟩

/-- Host and port, as they stand in the authority. -/
def hostAndPort (a : Address) : List Char × List Char :=
  let server := afterLast '@' a.authority
  match cutFirst '[' server with
  | (_, some inside) =>
    let (host, after) := cutFirst ']' inside
    (host, ((cutFirst ':' (after.getD [])).2).getD [])
  | (_, none) =>
    let (host, port) := cutFirst ':' server
    (host, port.getD [])

def host (a : Address) : List Char := a.hostAndPort.1

/-- The host as it is compared: in lower case up to a scope. -/
def hostname (a : Address) : String :=
  match cutFirst '%' a.host with
  | (name, some scope) => lower (String.ofList name) ++ "%" ++ String.ofList scope
  | (name, none) => lower (String.ofList name)

/-- A port that is not there, that is a number up to 65535, or that is neither. -/
inductive Port where
  | absent
  | known (n : Nat)
  | bad
  deriving DecidableEq

def greatestPort : Nat := 65535

def port (a : Address) : Port :=
  let cs := a.hostAndPort.2
  let n := ofDigits (cs.filterMap asciiDigit?)
  if cs.isEmpty then .absent
  else if cs.all isAsciiDigit && cs.length ≤ Number.Reading.maxDigits && n ≤ greatestPort then
    .known n
  else .bad

end Address

end DocSearch
