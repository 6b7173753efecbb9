import DocSearch.Builder.Call
import DocSearch.Gateway.Basic
import DocSearch.Logging.Loggers

/-!
# Execution

Executing a builder sends a snapshot of its document through a gateway and consumes the builder. The
gateway is the one that builders share; where there is none a builder makes one of its own from the
settings. Nothing is sent, and the builder stays open, unless there is an index, the document compiles
and there is a gateway.
-/

namespace DocSearch

/-- What builders share. -/
structure Site where
  exchange : Exchange
  environment : Environment
  cache : SettingsCache
  loggers : Logging.Loggers

/-- The gateway of a builder: the shared one, or one of its own. -/
inductive Link where
  | shared
  | own (c : Cluster)

/-- A builder at work. -/
structure Desk where
  builder : Builder
  link : Link
  site : Site

namespace Site

/-- The settings of the environment, read when they are first needed. -/
def settings : Action Site Settings := do
  let s ← get
  let (t, c) ← s.cache.get s.environment
  set { s with cache := c }
  return t

end Site

/-- A gateway for the connection that settings describe. -/
def Settings.gateway (s : Settings) (checks : FieldChecks) : Except Error Cluster :=
  (s.connection checks).map fun c => ⟨c, none⟩

namespace Desk

def onBuilder {α : Type} (a : Action Builder α) : Action Desk α :=
  a.within Desk.builder fun b d => { d with builder := b }

def onSite {α : Type} (a : Action Site α) : Action Desk α :=
  a.within Desk.site fun s d => { d with site := s }

def onExchange {α : Type} (a : Action Exchange α) : Action Desk α :=
  a.within (fun d => d.site.exchange)
    fun x d => { d with site := { d.site with exchange := x } }

def onOwn {α : Type} (c : Cluster) (a : Action Line α) : Action Desk α :=
  a.within (fun d => ⟨c, d.site.exchange.wire⟩) fun l d =>
    { d with
      link := .own l.cluster
      site := { d.site with exchange := { d.site.exchange with wire := l.wire } } }

def ensureGateway : Action Desk Unit := do
  let d ← get
  match d.link, d.site.exchange.gateway with
  | .shared, none =>
    let s ← onSite Site.settings
    let c ← s.gateway d.site.environment.checks
    modify fun d => { d with link := .own c }
  | _, _ => pure ()

def search (params timeout : Value) : Action Desk Value := do
  Action.emit (.searched params)
  match (← get).link with
  | .shared => onExchange (Exchange.perform (.search params timeout))
  | .own c => onOwn c (Cluster.search params timeout)

/-- What a builder makes of a response: a copy of its body, or the response as it came. -/
def answer (m : ExecutionMode) (response : Value) : Except Error Value :=
  match m with
  | .decoded => response.body.copy
  | .raw => .ok response

def execute (timeout : Value) : Action Desk Value := do
  onBuilder Builder.requireOpen
  let document := (← get).builder.document
  if !document.index.truthy then throw (.argument .noIndex)
  let s ← document.snapshot
  ensureGateway
  onBuilder (modify fun b => { b with consumed := true })
  Action.log .debug .builder ("Executing search on " ++ s.index.text)
  let response ← search s.params timeout
  answer (← get).builder.mode response

/-- Selects a page and executes the builder. -/
def fetchPage (size page timeout : Value) : Action Desk Value := do
  onBuilder (Builder.paginate size page)
  execute timeout

end Desk

inductive Use where
  | change (c : Call)
  | params
  | snapshot
  | execute (timeout : Value)
  | fetchPage (size page timeout : Value)

/-- What comes out of a use: the builder itself, a value, or a snapshot. -/
inductive Product where
  | builder
  | value (v : Value)
  | snapshot (s : Snapshot)

namespace Use

def apply : Use → Action Desk Product
  | change c => do
    Desk.onBuilder c.apply
    return .builder
  | params => do return .value (← (← get).builder.params)
  | snapshot => do return .snapshot (← (← get).builder.document.snapshot)
  | execute t => do return .value (← Desk.execute t)
  | fetchPage s p t => do return .value (← Desk.fetchPage s p t)

open Parameter

def timeoutParameter : Parameter := optional "timeout" .null

def ofArguments? (name : String) (args : Arguments) : Except Error Use :=
  match name with
  | "get_params" => do
    let _ ← args.valuesFor []
    return .params
  | "snapshot" => do
    let _ ← args.valuesFor []
    return .snapshot
  | "execute" | "get" => do
    match ← args.valuesFor [timeoutParameter] with
    | [t] => return .execute t
    | _ => throw .wrongKind
  | "fetch_page" => do
    match ← args.valuesFor (Call.pageParameters ++ [timeoutParameter]) with
    | [s, p, t] => return .fetchPage s p t
    | _ => throw .wrongKind
  | _ => (Call.ofArguments? name args).map .change

end Use

end DocSearch
