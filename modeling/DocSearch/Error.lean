import DocSearch.Value.Display

/-!
# Errors

An error is a cause with what belongs to it. Errors of the builder's own family have a class, a stable
code, a message and details, all of which `Error.report?` derives from the cause. A fault is an
operation that a value of the given kind or content does not support; a client failure is what the
search cluster answered.
-/

namespace DocSearch

inductive ErrorCode where
  | configInvalid
  | inputError
  | missingRequiredField
  | unsupportedOperator
  | invalidState
  deriving DecidableEq, Repr

namespace ErrorCode

def word : ErrorCode → String
  | configInvalid => "CONFIG_INVALID"
  | inputError => "INPUT_ERROR"
  | missingRequiredField => "MISSING_REQUIRED_FIELD"
  | unsupportedOperator => "UNSUPPORTED_OPERATOR"
  | invalidState => "INVALID_STATE"

def all : List ErrorCode :=
  [configInvalid, inputError, missingRequiredField, unsupportedOperator, invalidState]

def ofWord? (s : String) : Option ErrorCode :=
  all.find? (·.word = s)

end ErrorCode

/-- The classes of the builder's family of errors. -/
inductive ErrorClass where
  | builder
  | configuration
  | invalidArgument
  | unsupportedOperator
  | builderState
  deriving DecidableEq, Repr

namespace ErrorClass

def name : ErrorClass → String
  | builder => "BuilderError"
  | configuration => "ConfigurationError"
  | invalidArgument => "InvalidArgumentError"
  | unsupportedOperator => "UnsupportedOperatorError"
  | builderState => "BuilderStateError"

def all : List ErrorClass :=
  [builder, configuration, invalidArgument, unsupportedOperator, builderState]

def ofName? (s : String) : Option ErrorClass :=
  all.find? (·.name = s)

/-- The class itself and what it specialises, up to the head of the family. -/
def lineage : ErrorClass → List ErrorClass
  | builder => [builder]
  | configuration => [configuration, builder]
  | invalidArgument => [invalidArgument, builder]
  | unsupportedOperator => [unsupportedOperator, invalidArgument, builder]
  | builderState => [builderState, invalidArgument, builder]

/-- The code of an error that is given none of its own. -/
def code : ErrorClass → ErrorCode
  | builder => .inputError
  | configuration => .configInvalid
  | invalidArgument => .inputError
  | unsupportedOperator => .unsupportedOperator
  | builderState => .invalidState

end ErrorClass

/-- What an error of the family tells its receiver. -/
structure Report where
  family : ErrorClass
  message : Value
  code : ErrorCode
  details : Value

namespace Report

/-- Absent or empty details are an empty dictionary. -/
def make (family : ErrorClass) (message : Value) (code : Option ErrorCode) (details : Value) :
    Report where
  family := family
  message := message
  code := code.getD family.code
  details := if details.truthy then details else .dict []

def toValue (r : Report) : Value :=
  .object [("code", .str r.code.word), ("message", r.message), ("details", r.details)]

end Report

inductive ConfigError where
  | emptyHost
  | unsupportedScheme (host : String)
  | malformedHost (host : String)
  | badPort (host : String)
  | noHosts
  | unpairedCredentials
  | invalidFields (problems : List String)

inductive ArgumentError where
  | scoreMode (given : Value) (allowed : List String)
  | boostMode (given : Value) (allowed : List String)
  | duplicateKey (key : Value)
  | duplicateKeys (keys : List Value)
  | incompleteNode (missing : String) (node : List (Value × Value))
  | notANode (kindName : String)
  | blankNode (key path : Value)
  | metricWithChildren (fieldType key : Value)
  | page (given : Value)
  | pageSize (given : Value)
  | size (given : Value)
  | direction (given : Value) (allowed : List String)
  | minScore (given : Value)
  | noIndex

inductive StateError where
  | executed
  | wrapped
  | alreadyWrapped
  deriving DecidableEq

inductive AddressFault where
  | unbalancedBrackets
  | notAnAddress (host : String)
  | bracketedFourPart
  | malformedFuture
  | hiddenDelimiter (authority : String)

/-- Closed sets of words that a given value may fall outside of. -/
inductive Vocabulary where
  | clauseGroup
  | executionMode
  | fieldType
  | errorCode
  deriving DecidableEq

def Vocabulary.name : Vocabulary → String
  | clauseGroup => "ClauseGroup"
  | executionMode => "ExecutionMode"
  | fieldType => "FieldType"
  | errorCode => "ErrorCode"

inductive Fault where
  /-- The operation does not take values of this kind. -/
  | wrongKind
  /-- The kind is right, the content is not. -/
  | badContent
  /-- The value does not have the operation or part that is asked for. -/
  | noAttribute
  | noKey
  | tooLarge
  | notImplemented
  | notAClause (kindName : String)
  | unknownWord (given : Value) (vocabulary : Vocabulary)
  | address (fault : AddressFault)
  /-- The client refused the call before sending it. -/
  | refused (message : String)

/-- What the client of the search cluster reports: the kind of the failure, and how it reads. -/
structure ClientFailure where
  kind : String
  text : String
  deriving DecidableEq

inductive Error where
  | config (cause : ConfigError)
  | argument (cause : ArgumentError)
  | unsupported (table : Table) (given : Value)
  | state (cause : StateError)
  | fault (cause : Fault)
  | client (failure : ClientFailure)

open Text (quote joinWith)

namespace ConfigError

def message : ConfigError → String
  | emptyHost => "Invalid configuration: empty host."
  | unsupportedScheme h => "Invalid configuration: unsupported scheme in host [" ++ h ++ "]."
  | malformedHost h => "Invalid configuration: malformed host [" ++ h ++ "]."
  | badPort h => "Invalid configuration: bad port in host [" ++ h ++ "]."
  | noHosts => "Invalid configuration: no hosts given."
  | unpairedCredentials => "Invalid configuration: username and password must be set together."
  | invalidFields ps => "Invalid configuration: " ++ joinWith "; " ps ++ "."

def details : ConfigError → List (String × Value)
  | unsupportedScheme h | malformedHost h | badPort h => [("host", .str h)]
  | invalidFields ps => [("errors", .list (ps.map .str))]
  | emptyHost | noHosts | unpairedCredentials => []

end ConfigError

namespace ArgumentError

def outOfRange (parameter : String) (given : Value) (least : String) : String :=
  "Invalid parameter [" ++ parameter ++ "]: " ++ given.text ++ ", must be >= " ++ least ++ "."

def message : ArgumentError → String
  | scoreMode v _ => "Invalid score_mode [" ++ v.text ++ "]."
  | boostMode v _ => "Invalid boost_mode [" ++ v.text ++ "]."
  | duplicateKey k => "Duplicate aggregation key [" ++ k.text ++ "]."
  | duplicateKeys ks => "Duplicate aggregation key(s) " ++ (Value.list ks).text ++ "."
  | incompleteNode missing _ => "Aggregation node is missing [" ++ missing ++ "]."
  | notANode kind => "Unsupported aggregation node type [" ++ kind ++ "]."
  | blankNode _ _ => "Aggregation node requires a non-empty key and path."
  | metricWithChildren t k =>
    "Metric aggregation [" ++ t.text ++ "] on [" ++ k.text ++ "] cannot have children."
  | page v => outOfRange "page" v "1"
  | pageSize v => outOfRange "page_size" v "0"
  | size v => outOfRange "size" v "0"
  | direction v _ => "Invalid sort direction [" ++ v.text ++ "]."
  | minScore v => "Invalid parameter [min_score]: " ++ v.quoted ++ "."
  | noIndex => "Invalid parameter [index]."

def details : ArgumentError → List (String × Value)
  | scoreMode _ ws | boostMode _ ws | direction _ ws => [("allowed", .list (ws.map .str))]
  | duplicateKey k => [("key", k)]
  | incompleteNode _ es => [("node", .dict es)]
  | blankNode k p => [("key", k), ("path", p)]
  | page v => [("page", v)]
  | pageSize v => [("page_size", v)]
  | size v => [("size", v)]
  | duplicateKeys _ | notANode _ | metricWithChildren _ _ | minScore _ | noIndex => []

/-- The values that stand in the message. -/
def shown : ArgumentError → List Value
  | scoreMode v _ | boostMode v _ | duplicateKey v | page v | pageSize v | size v => [v]
  | direction v _ | minScore v => [v]
  | duplicateKeys ks => ks
  | metricWithChildren t k => [t, k]
  | incompleteNode _ _ | notANode _ | blankNode _ _ | noIndex => []

def code : ArgumentError → ErrorCode
  | noIndex => .missingRequiredField
  | _ => .inputError

end ArgumentError

def StateError.message : StateError → String
  | executed => "Builder has already been executed; create a new one."
  | wrapped => "Clauses cannot be added after functions() wrapped the query."
  | alreadyWrapped => "Query is already wrapped by functions()."

namespace AddressFault

def message : AddressFault → String
  | unbalancedBrackets => "Invalid IPv6 URL"
  | notAnAddress h => quote h ++ " does not appear to be an IPv4 or IPv6 address"
  | bracketedFourPart => "An IPv4 address cannot be in brackets"
  | malformedFuture => "IPvFuture address is invalid"
  | hiddenDelimiter a =>
    "netloc '" ++ a ++ "' contains invalid characters under NFKC normalization"

end AddressFault

namespace Fault

def message? : Fault → Option String
  | notAClause kind => some ("Expected a Query or mapping, got " ++ kind)
  | unknownWord v w => some (v.quoted ++ " is not a valid " ++ w.name)
  | address a => some a.message
  | refused m => some m
  | wrongKind | badContent | noAttribute | noKey | tooLarge | notImplemented => none

end Fault

namespace Error

abbrev wrongKind : Error := .fault .wrongKind

abbrev badContent : Error := .fault .badContent

abbrev noAttribute : Error := .fault .noAttribute

abbrev noKey : Error := .fault .noKey

abbrev tooLarge : Error := .fault .tooLarge

abbrev notImplemented : Error := .fault .notImplemented

/-- The error of an argument that is refused. Its message goes wrong where it shows a value without a
text. -/
def refusing (cause : ArgumentError) : Error :=
  if cause.shown.all Value.isWritable then .argument cause else badContent

theorem refusing_of_writable {cause : ArgumentError}
    (h : cause.shown.all Value.isWritable = true) : refusing cause = .argument cause :=
  if_pos h

/-- The report of an error that belongs to the builder's family. -/
def report? : Error → Option Report
  | config c => some (.make .configuration (.str c.message) none (.object c.details))
  | argument a => some (.make .invalidArgument (.str a.message) (some a.code) (.object a.details))
  | unsupported t v =>
    some (.make .unsupportedOperator
      (.str ("Unsupported " ++ t.word ++ " [" ++ v.text ++ "].")) none
      (.object [(t.word, .str v.text), ("allowed", .list (t.signs.map .str))]))
  | state s => some (.make .builderState (.str s.message) none .null)
  | fault _ => none
  | client _ => none

end Error

end DocSearch
