import DocSearch.Error

/-!
# Events

What an action does besides changing its state, in order: records handed to a logger, calls on a client
of the search cluster, and searches handed to a gateway.
-/

namespace DocSearch

/-- How grave a record is: a number, or a truth value that counts as zero or one. -/
inductive Severity where
  | number (n : Int)
  | truth (b : Bool)
  deriving DecidableEq, Repr

def Severity.value : Severity → Int
  | number n => n
  | truth b => if b then 1 else 0

def Severity.toValue : Severity → Value
  | number n => .int n
  | truth b => .bool b

structure LogRecord where
  level : Severity
  logger : String
  message : String
  deriving DecidableEq

inductive Operation where
  | connect
  | options
  | search
  | index
  | delete
  | close
  | createIndex
  | deleteIndex
  | indexExists
  | putMapping
  | bulk
  deriving DecidableEq, Repr

namespace Operation

def name : Operation → String
  | connect => "connect"
  | options => "options"
  | search => "search"
  | index => "index"
  | delete => "delete"
  | close => "close"
  | createIndex => "indices.create"
  | deleteIndex => "indices.delete"
  | indexExists => "indices.exists"
  | putMapping => "indices.put_mapping"
  | bulk => "async_bulk"

def all : List Operation :=
  [connect, options, search, index, delete, close, createIndex, deleteIndex, indexExists,
    putMapping, bulk]

def ofName? (s : String) : Option Operation :=
  all.find? (·.name = s)

@[simp] theorem ofName?_name (op : Operation) : ofName? op.name = some op := by
  cases op <;> decide

end Operation

/-- A call on the client with the given number; clients are numbered as they are constructed. -/
structure ClientCall where
  client : Nat
  operation : Operation
  arguments : List (String × Value)

inductive Event where
  | logged (record : LogRecord)
  | called (call : ClientCall)
  /-- A compiled search was handed to a gateway. -/
  | searched (params : Value)

namespace Event

def record? : Event → Option LogRecord
  | logged r => some r
  | _ => none

def call? : Event → Option ClientCall
  | called c => some c
  | _ => none

def search? : Event → Option Value
  | searched p => some p
  | _ => none

end Event

inductive Level where
  | debug
  | info
  | warning
  | error
  deriving DecidableEq, Repr

def Level.severity : Level → Severity
  | debug => .number 10
  | info => .number 20
  | warning => .number 30
  | error => .number 40

/-- The loggers that the library writes to. -/
inductive Channel where
  | builder
  | nested
  | client
  | index
  deriving DecidableEq, Repr

def Channel.name : Channel → String
  | builder => "esbuilder.builder"
  | nested => "esbuilder.nested"
  | client => "esbuilder.client"
  | index => "esbuilder.index"

end DocSearch
