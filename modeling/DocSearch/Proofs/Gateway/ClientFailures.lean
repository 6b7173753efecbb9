import DocSearch.Proofs.Gateway.Searches

/-!
# Failures of the cluster

Every request makes one call that the cluster answers. When that answer is a failure the request fails
with it, unchanged. Six kinds of requests write one record of it first, which says what was tried; a
bulk, the question whether an index exists and the closing of the client write none.
-/

namespace DocSearch

open DocSearch.Action

namespace Event

def calls (op : Operation) : Event → Bool
  | called c => c.operation = op
  | _ => false

def errors (es : List Event) : List LogRecord :=
  (es.filterMap record?).filter fun r => r.level = Level.error.severity

theorem errors_append (es fs : List Event) : errors (es ++ fs) = errors es ++ errors fs := by
  rw [errors, List.filterMap_append, List.filter_append]
  rfl

/-- The event is neither a call of the operation nor the record of an error. -/
def Beside (op : Operation) (e : Event) : Prop :=
  e.calls op = false ∧ errors [e] = []

theorem errors_of_beside {op : Operation} {es : List Event} (h : ∀ e ∈ es, e.Beside op) :
    errors es = [] := by
  induction es with
  | nil => rfl
  | cons e es ih =>
      obtain ⟨he, hes⟩ := List.forall_mem_cons.mp h
      rw [← List.singleton_append, errors_append, he.2, ih hes, List.nil_append]

end Event

namespace Request

def operation : Request → Operation
  | search _ _ => .search
  | indexDocument _ _ _ _ => .index
  | deleteDocument _ _ _ => .delete
  | bulkIndex _ _ _ => .bulk
  | createIndex _ _ => .createIndex
  | deleteIndex _ => .deleteIndex
  | indexExists _ => .indexExists
  | putMapping _ _ => .putMapping
  | close => .close

/-- What was tried, as the record of a failure says it. -/
def attempt? : Request → Option String
  | search p _ => some ("Search error on " ++ ((p.part "index").toOption.getD .null).text)
  | indexDocument i k _ _ => some ("Index error for " ++ i.text ++ "/" ++ k.text)
  | deleteDocument i k _ => some ("Delete error for " ++ i.text ++ "/" ++ k.text)
  | createIndex i _ => some ("Create index error for " ++ i.text)
  | deleteIndex i => some ("Delete index error for " ++ i.text)
  | putMapping i _ => some ("Put mapping error for " ++ i.text)
  | bulkIndex _ _ _ | indexExists _ | close => none

end Request

def ClientFailure.record (f : ClientFailure) (attempt : String) : LogRecord :=
  ⟨Level.error.severity, Channel.client.name, attempt ++ ": " ++ f.text⟩

namespace Wire

variable {op p : Operation}

theorem take_left_of_ne (h : p ≠ op) (rs : List (Operation × Reply)) :
    (take op (take p rs).2).1 = (take op rs).1 := by
  induction rs with
  | nil => rfl
  | cons r rs ih =>
      by_cases hp : r.1 = p
      · have hop : r.1 ≠ op := fun hop => h (hp.symm.trans hop)
        simp only [take, if_pos hp, if_neg hop]
      · by_cases hop : r.1 = op
        · simp only [take, if_neg hp, if_pos hop]
        · simp only [take, if_neg hp, if_neg hop, ih]

def next (op : Operation) (w : Wire) : Option Reply := (take op w.replies).1

theorem state_ask (client : Nat) (op : Operation) (arguments : List (String × Value)) (w : Wire) :
    ((ask client op arguments).run w).state = { w with replies := (take op w.replies).2 } := by
  simp only [ask, run_bind, run_emit, run_get, run_modify]
  cases h : (take op w.replies).1 with
  | none => rfl
  | some r => cases r <;> rfl

theorem steady_ask_of_ne (h : p ≠ op) (client : Nat) (arguments : List (String × Value)) :
    (ask client p arguments).Steady (next op) (Event.Beside op) := by
  intro w
  constructor
  · rw [state_ask]
    exact take_left_of_ne h w.replies
  · intro e he
    rw [events_ask, List.mem_singleton] at he
    obtain rfl := he
    exact ⟨decide_eq_false h, rfl⟩

theorem result_ask {w : Wire} {e : Error} (h : w.next op = some (.failure e)) (client : Nat)
    (arguments : List (String × Value)) :
    ((ask client op arguments).run w).result = .error e := by
  rw [next] at h
  simp only [ask, run_bind, run_emit, run_get, run_modify, h, run_throw]

end Wire

namespace Cluster

variable {op : Operation} {f : ClientFailure} {α β : Type}

/-- What comes before the call of an operation leaves the answer to it. -/
abbrev Prepares (op : Operation) (a : Action Line α) : Prop :=
  a.Steady (fun l => l.wire.next op) (Event.Beside op)

theorem prepares_log {level : Level} (h : level ≠ .error) (c : Channel) (m : String) :
    Prepares op (log level c m) := by
  intro l
  refine ⟨rfl, fun e he => ?_⟩
  obtain rfl := List.mem_singleton.mp he
  refine ⟨rfl, ?_⟩
  cases level with
  | error => exact absurd rfl h
  | _ => rfl

theorem prepares_overWire {a : Action Wire α} (ha : a.Steady (Wire.next op) (Event.Beside op)) :
    Prepares op (overWire a) :=
  ha.within fun _ _ ht => ht

theorem prepares_ask {p : Operation} (h : p ≠ op) (client : Nat)
    (arguments : List (String × Value)) : Prepares op (overWire (Wire.ask client p arguments)) :=
  prepares_overWire (Wire.steady_ask_of_ne h client arguments)

theorem prepares_openClient (h : op ≠ .connect) : Prepares op openClient := by
  refine steady_openClient_of (prepares_ask h.symm) (fun n => ?_) (fun c => ?_) fun m => ?_
  · refine prepares_overWire ?_
    exact steady_modify fun _ => rfl
  · exact steady_modify fun _ => rfl
  · exact prepares_log (by decide) .client m

/-- If the cluster answers the call of an operation with a failure, the action fails with it and has
written these records of errors. -/
def Reports (op : Operation) (f : ClientFailure) (records : List LogRecord) (a : Action Line α) :
    Prop :=
  ∀ l, l.wire.next op = some (.failure (.client f)) →
    (∃ e ∈ (a.run l).events, e.calls op) →
      (a.run l).result = .error (.client f) ∧ Event.errors (a.run l).events = records

theorem reports_ask (client : Nat) (arguments : List (String × Value)) :
    Reports op f [] (overWire (Wire.ask client op arguments)) := by
  intro l hnext _
  refine ⟨Wire.result_ask hnext client arguments, ?_⟩
  rw [overWire, run_within, Wire.events_ask]
  rfl

/-- What would come after the call does not happen. -/
theorem reports_ask_bind (client : Nat) (arguments : List (String × Value))
    (rest : Value → Action Line β) :
    Reports op f [] (overWire (Wire.ask client op arguments) >>= rest) := by
  intro l hnext hcall
  have hresult : ((overWire (Wire.ask client op arguments)).run l).result = .error (.client f) :=
    Wire.result_ask hnext client arguments
  rw [run_bind_of_error hresult] at hcall ⊢
  exact ⟨rfl, (reports_ask client arguments l hnext hcall).2⟩

theorem Reports.after {records : List LogRecord} {a : Action Line α} {rest : α → Action Line β}
    (ha : Prepares op a) (hrest : ∀ x, Reports op f records (rest x)) :
    Reports op f records (a >>= rest) := by
  intro l hnext hcall
  obtain ⟨hkept, hbeside⟩ := ha l
  have hsilent : ¬ ∃ e ∈ (a.run l).events, e.calls op := by
    rintro ⟨e, he, hcalls⟩
    exact absurd hcalls (by simp [(hbeside e he).1])
  cases hresult : (a.run l).result with
  | error d =>
      rw [run_bind_of_error hresult] at hcall
      exact absurd hcall hsilent
  | ok x =>
      rw [run_bind_of_ok hresult] at hcall ⊢
      have hcall' : ∃ e ∈ ((rest x).run (a.run l).state).events, e.calls op := by
        obtain ⟨e, he, hcalls⟩ := hcall
        rcases List.mem_append.mp he with he | he
        · exact absurd ⟨e, he, hcalls⟩ hsilent
        · exact ⟨e, he, hcalls⟩
      obtain ⟨hfails, hrecords⟩ := hrest x _ (hkept.trans hnext) hcall'
      refine ⟨hfails, ?_⟩
      rw [Event.errors_append, Event.errors_of_beside hbeside, hrecords, List.nil_append]

/-- What is written about a failure before it is raised again. -/
def notes (what : String) : Error → List Event
  | .client f => [.logged (f.record what)]
  | _ => []

theorem not_calls_of_mem_notes {what : String} {d : Error} {e : Event} (h : e ∈ notes what d) :
    ¬ e.calls op := by
  unfold notes at h
  split at h
  · obtain rfl := List.mem_singleton.mp h
    exact Bool.false_ne_true
  · cases h

theorem run_guarded_of_error (what : String) {a : Action Line α} {l : Line} {d : Error}
    (h : (a.run l).result = .error d) :
    ((guarded what a).run l).result = .error d ∧
      ((guarded what a).run l).events = (a.run l).events ++ notes what d := by
  rw [guarded, run_recover_of_error h]
  cases d <;> exact ⟨rfl, rfl⟩

theorem Reports.guarded {a : Action Line α} (ha : Reports op f [] a) (what : String) :
    Reports op f [f.record what] (guarded what a) := by
  intro l hnext hcall
  cases hresult : (a.run l).result with
  | ok x =>
      rw [Cluster.guarded, run_recover_of_ok hresult] at hcall
      cases hresult.symm.trans (ha l hnext hcall).1
  | error d =>
      obtain ⟨hraised, hevents⟩ := run_guarded_of_error what hresult
      rw [hevents] at hcall ⊢
      have hcall' : ∃ e ∈ (a.run l).events, e.calls op := by
        obtain ⟨e, he, hcalls⟩ := hcall
        rcases List.mem_append.mp he with he | he
        · exact ⟨e, he, hcalls⟩
        · exact absurd hcalls (not_calls_of_mem_notes he)
      obtain ⟨hfails, hrecords⟩ := ha l hnext hcall'
      obtain rfl := Except.error.inj (hresult.symm.trans hfails)
      refine ⟨hraised, ?_⟩
      rw [Event.errors_append, hrecords]
      rfl

theorem operation_ne_connect (r : Request) : r.operation ≠ .connect := by
  cases r <;> nofun

theorem reports_search (params timeout : Value) :
    Reports .search f [f.record ("Search error on "
      ++ ((params.part "index").toOption.getD .null).text)] (search params timeout) := by
  refine Reports.after (prepares_openClient (by decide)) fun c => ?_
  have hbody : Reports .search f [] (do
      let arguments := [("index", ← params.part "index"), ("body", ← params.part "body")]
      overWire (Wire.ask c .search arguments)) := by
    refine Reports.after (steady_lift _) fun i => Reports.after (steady_lift _) fun b => ?_
    exact reports_ask c _
  split
  · exact Reports.after (prepares_ask (by decide) c _) fun _ => hbody.guarded _
  · exact hbody.guarded _

theorem reports_request (r : Request) (f : ClientFailure) :
    Reports r.operation f (r.attempt?.map f.record).toList r.onCluster := by
  have hopen := prepares_openClient (operation_ne_connect r)
  cases r with
  | search params timeout => exact reports_search params timeout
  | indexDocument i k d r => exact Reports.after hopen fun c => (reports_ask _ _).guarded _
  | deleteDocument i k r => exact Reports.after hopen fun c => (reports_ask _ _).guarded _
  | bulkIndex i ds r =>
      refine Reports.after hopen fun c => Reports.after (steady_lift _) fun actions => ?_
      exact reports_ask_bind _ _ _
  | createIndex i b => exact Reports.after hopen fun c => (reports_ask_bind _ _ _).guarded _
  | deleteIndex i => exact Reports.after hopen fun c => (reports_ask_bind _ _ _).guarded _
  | indexExists i => exact Reports.after hopen fun c => reports_ask_bind _ _ _
  | putMapping i ps =>
      refine Reports.after hopen fun c => Reports.guarded ?_ _
      exact Reports.after (steady_lift _) fun body => reports_ask_bind _ _ _
  | close =>
      refine Reports.after steady_get fun l => ?_
      split
      · exact reports_ask_bind _ _ _
      · rintro l - ⟨e, he, -⟩
        exact absurd he List.not_mem_nil

end Cluster

namespace Request

/-- A request whose call the cluster answers with a failure raises just that failure, and a record is
written by the requests that have a text for it. -/
theorem reported_of_client_failure (r : Request) (l : Line) {f : ClientFailure} {client : Nat}
    {arguments : List (String × Value)}
    (hcall : .called ⟨client, r.operation, arguments⟩ ∈ (r.onCluster.run l).events)
    (hreply : l.wire.next r.operation = some (.failure (.client f))) :
    (r.onCluster.run l).result = .error (.client f) ∧
      Event.errors (r.onCluster.run l).events = (r.attempt?.map f.record).toList :=
  Cluster.reports_request r f l hreply ⟨_, hcall, decide_eq_true rfl⟩

/-- A line with an open client and one answer to come, that the cluster cannot be reached. -/
def brokenLine (op : Operation) : Line :=
  ⟨⟨.standard, some 0⟩, ⟨[(op, .failure (.client ⟨"ConnectionError", "Connection error"⟩))], 1⟩⟩

theorem reported_of_broken_line :
    let o := (deleteIndex (.str "shop")).onCluster.run (brokenLine .deleteIndex)
    o.result = .error (.client ⟨"ConnectionError", "Connection error"⟩) ∧
      Event.errors o.events =
        [⟨.number 40, "esbuilder.client", "Delete index error for shop: Connection error"⟩] :=
  reported_of_client_failure (deleteIndex (.str "shop")) (brokenLine .deleteIndex)
    List.mem_cons_self rfl

/-- Not every failure is recorded: nothing is written where an index was asked for. -/
theorem unrecorded_of_broken_line :
    ¬ ∀ (r : Request) (l : Line) (f : ClientFailure) (client : Nat)
      (arguments : List (String × Value)), r.operation ≠ .close →
      .called ⟨client, r.operation, arguments⟩ ∈ (r.onCluster.run l).events →
      l.wire.next r.operation = some (.failure (.client f)) →
        (r.onCluster.run l).result = .error (.client f) ∧
          (Event.errors (r.onCluster.run l).events).length = 1 := by
  intro h
  have hcall : Event.called ⟨0, .indexExists, [("index", .str "shop")]⟩ ∈
      ((indexExists (.str "shop")).onCluster.run (brokenLine .indexExists)).events :=
    List.mem_cons_self
  obtain ⟨-, hone⟩ := h (indexExists (.str "shop")) _ _ 0 _ (by decide) hcall rfl
  exact absurd hone (by decide)

end Request

end DocSearch
