import DocSearch.Builder.Execution
import DocSearch.Gateway.Manager

/-!
# Sessions

A session holds builders that share a site, each under a name, the snapshots that were taken of them,
and a manager for the indices of the site. Every step of a session is an action on it.
-/

namespace DocSearch

structure Seat where
  builder : Builder
  link : Link

structure Session where
  site : Site
  seats : List (String × Seat)
  snapshots : List (String × Snapshot)
  manager : IndexManager

/-- What is told about a builder made from settings. -/
structure Setup where
  mode : ExecutionMode
  strict : Bool
  gateway : String
  hosts : Option (List String)

def Gateway.className : Gateway → String
  | .memory _ => "InMemoryGateway"
  | .cluster _ => "ElasticsearchGateway"

def Gateway.hosts? : Gateway → Option (List String)
  | .memory _ => none
  | .cluster c => some c.connection.hosts

namespace Session

def seat? (s : Session) (id : String) : Option Seat :=
  Entries.get? s.seats id

def putSeat (id : String) (t : Seat) (s : Session) : Session :=
  { s with seats := Entries.put s.seats id t }

def onSite {α : Type} (a : Action Site α) : Action Session α :=
  a.within Session.site fun t s => { s with site := t }

def atSeat {α : Type} (id : String) (t : Seat) (a : Action Desk α) : Action Session α :=
  a.within (fun s => ⟨t.builder, t.link, s.site⟩) fun d s =>
    putSeat id ⟨d.builder, d.link⟩ { s with site := d.site }

open Parameter in
def newParameters : List Parameter :=
  [optional "mode" (.str ExecutionMode.raw.word), optional "strict" (.bool false)]

def builderWith (args : Arguments) : Except Error Builder := do
  match ← args.valuesFor newParameters with
  | [mode, strict] => return .new (← ExecutionMode.ofValue mode) strict.truthy
  | _ => throw .wrongKind

def new (id : String) (args : Arguments) : Action Session Unit := do
  let b ← builderWith args
  modify (putSeat id ⟨b, .shared⟩)

/-- The given settings, or those of the environment. -/
def settingsFor (given : Option Arguments) : Action Site Settings := do
  match given with
  | some values => return ← Settings.read values (← get).environment
  | none => Site.settings

def linkFor (checks : FieldChecks) (s : Settings) (shared : Option Gateway) : Except Error Link :=
  match shared with
  | some _ => .ok .shared
  | none => (s.gateway checks).map .own

def gatewayOf (l : Link) (shared : Option Gateway) : Option Gateway :=
  match l with
  | .own c => some (.cluster c)
  | .shared => shared

/-- Puts a builder made from settings under a name; logs are configured on the way. -/
def create (id : String) (given : Option Arguments) : Action Session Setup := do
  let s ← onSite (settingsFor given)
  onSite (modify fun t => { t with loggers := t.loggers.configure s })
  let site := (← get).site
  let shared := site.exchange.gateway
  let l ← linkFor site.environment.checks s shared
  modify (putSeat id ⟨.new s.mode s.strictOperators, l⟩)
  let g := gatewayOf l shared
  return ⟨s.mode, s.strictOperators, (g.map Gateway.className).getD "NoneType",
    g.bind Gateway.hosts?⟩

def use (id : String) (t : Seat) (u : Use) : Action Session Product :=
  atSeat id t u.apply

def snapshot (id : String) (t : Seat) (name : String) : Action Session Snapshot := do
  match ← use id t .snapshot with
  | .snapshot s =>
    modify fun x => { x with snapshots := Entries.put x.snapshots name s }
    return s
  | _ => throw .wrongKind

/-- What was kept under a name, as a search takes it. -/
def thaw (name : String) : Action Session Value := do
  match Entries.get? (← get).snapshots name with
  | some s => return s.params
  | none => throw .noKey

def onExchange {α : Type} (a : Action Exchange α) : Action Session α :=
  a.within (fun s => s.site.exchange)
    fun x s => { s with site := { s.site with exchange := x } }

def manage (c : ManagerCall) : Action Session Value := do
  onExchange (c.apply (← get).manager)

/-- The records among some events that the loggers let pass. -/
def passed (ls : Logging.Loggers) (es : List Event) : List LogRecord :=
  (es.filterMap Event.record?).filter fun r => ls.passes r.logger r.level.value

end Session

/-- How a site comes by its gateway. -/
inductive GatewayChoice where
  | memory
  | none
  | fromSettings
  | cluster (config : Option Arguments) (connected : Bool)

namespace GatewayChoice

/-- The gateway of a choice; one that is connected has a client from the start. -/
def make (e : Environment) : GatewayChoice → Except Error (Option Gateway × Nat)
  | memory => .ok (some (.memory .empty), 0)
  | none => .ok (Option.none, 0)
  | fromSettings => do
    return (some (.cluster (← (← Settings.read [] e).gateway e.checks)), 0)
  | cluster config connected => do
    let c ← (config.map (Connection.ofArguments e.checks)).getD (.ok .standard)
    return (some (.cluster ⟨c, if connected then some 0 else Option.none⟩),
      if connected then 1 else 0)

end GatewayChoice

open Parameter in
def IndexManager.parameters : List Parameter := [optional "prefix" (.str "")]

def IndexManager.ofArguments (args : Arguments) : Except Error IndexManager := do
  match ← args.valuesFor IndexManager.parameters with
  | [v] => return ⟨v⟩
  | _ => throw .wrongKind

def Session.start (g : GatewayChoice) (manager : Arguments) (builder : Option Arguments)
    (replies : List (Operation × Reply)) (e : Environment) (debug : Bool) :
    Except Error Session := do
  let (gateway, opened) ← g.make e
  let m ← IndexManager.ofArguments manager
  let seats ← match builder with
    | some args => do
      let b ← builderWith args
      pure [("b", (⟨b, .shared⟩ : Seat))]
    | none => pure []
  return ⟨⟨⟨gateway, ⟨replies, opened⟩⟩, e, .empty, .initial debug⟩, seats, [], m⟩

end DocSearch
