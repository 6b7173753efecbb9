import DocSearch.Proofs.Action.Attempts
import DocSearch.Proofs.Gateway.ClientFailures

/-!
# The clients of a cluster gateway

The calls that a gateway makes and the answers to them tell which clients are open: those that were
constructed and not closed since. A gateway constructs a client only where none is open, and every
other call goes to the one that is, so there are never two.
-/

namespace DocSearch

open DocSearch.Action

/-- The client that a call is made on, and what it is asked for. -/
def ClientCall.request (call : ClientCall) : Nat × Operation := (call.client, call.operation)

namespace Event

def clientCalls (es : List Event) : List ClientCall := es.filterMap call?

theorem clientCalls_append (es fs : List Event) :
    clientCalls (es ++ fs) = clientCalls es ++ clientCalls fs :=
  List.filterMap_append

theorem clientCalls_notes (what : String) (e : Error) :
    clientCalls (Cluster.notes what e) = [] := by
  unfold Cluster.notes
  split <;> rfl

end Event

/-! ## Which clients are open -/

/-- The clients that are open, how many were constructed, and the answers to come. -/
structure Roster where
  standing : List Nat
  made : Nat
  replies : List (Operation × Reply)

namespace Roster

def ofLine (l : Line) : Roster := ⟨l.cluster.client.toList, l.wire.opened, l.wire.replies⟩

/-- A client that is constructed is open until it is closed. -/
def note (t : Roster) (call : ClientCall) : Roster :=
  match call.operation with
  | .connect => { t with standing := call.client :: t.standing, made := t.made + 1 }
  | .close => { t with standing := t.standing.erase call.client }
  | _ => t

/-- A call takes the next answer; if that is a failure, the call has done nothing. -/
def serve (t : Roster) (call : ClientCall) : Roster :=
  let (answer, left) := Wire.take call.operation t.replies
  let noted := match answer with
    | some (.failure _) => t
    | _ => t.note call
  { noted with replies := left }

def after (t : Roster) (calls : List ClientCall) : Roster :=
  calls.foldl serve t

/-- A client is constructed with the given arguments where none is open; any other call goes to the
one that is. -/
def Allows (arguments : List (String × Value)) (t : Roster) (call : ClientCall) : Prop :=
  if call.operation = .connect then
    t.standing = [] ∧ call.client = t.made ∧ call.arguments = arguments
  else t.standing = [call.client]

/-- Every call is allowed at its moment. -/
def Proper (arguments : List (String × Value)) : Roster → List ClientCall → Prop
  | _, [] => True
  | t, call :: calls => t.Allows arguments call ∧ (t.serve call).Proper arguments calls

variable {arguments : List (String × Value)} {t : Roster} {calls front back : List ClientCall}

theorem after_append : t.after (front ++ back) = (t.after front).after back :=
  List.foldl_append

theorem proper_append : t.Proper arguments (front ++ back) ↔
    t.Proper arguments front ∧ (t.after front).Proper arguments back := by
  induction front generalizing t with
  | nil => simp [Proper, after]
  | cons call front ih =>
      rw [List.cons_append, Proper, Proper, ih, and_assoc]
      rfl

theorem Allows.length_note {call : ClientCall} (h : t.Allows arguments call) :
    (t.note call).standing.length ≤ 1 := by
  unfold Allows at h
  unfold note
  split at h
  · rename_i hop
    simp [hop, h.1]
  · rename_i hop
    split
    · exact absurd ‹_› hop
    · simp [h]
    · simp [h]

theorem Allows.length_serve {call : ClientCall} (h : t.Allows arguments call) :
    (t.serve call).standing.length ≤ 1 := by
  have ht : t.standing.length ≤ 1 := by
    unfold Allows at h
    split at h
    · simp [h.1]
    · simp [h]
  change (match (Wire.take call.operation t.replies).1 with
    | some (.failure _) => t
    | _ => t.note call).standing.length ≤ 1
  split
  · exact ht
  · exact h.length_note

theorem Proper.length_after (h : t.Proper arguments calls) (ht : t.standing.length ≤ 1) :
    (t.after calls).standing.length ≤ 1 := by
  -- what a call is allowed in tells how many clients are open, so the bound need not be carried over
  induction calls generalizing t with
  | nil => exact ht
  | cons call calls ih => exact ih h.2 h.1.length_serve

theorem length_ofLine (l : Line) : (ofLine l).standing.length ≤ 1 := by
  unfold ofLine
  cases l.cluster.client <;> simp

end Roster

theorem Wire.run_ask (client : Nat) (op : Operation) (arguments : List (String × Value))
    (w : Wire) : (ask client op arguments).run w =
      ⟨match (take op w.replies).1 with
        | none => .ok (standardReply op)
        | some (.value v) => .ok v
        | some (.failure e) => .error e,
        { w with replies := (take op w.replies).2 }, [.called ⟨client, op, arguments⟩]⟩ := by
  simp only [ask, run_bind, run_emit, run_get, run_modify]
  cases h : (take op w.replies).1 with
  | none => rfl
  | some r => cases r <;> rfl

namespace Cluster

variable {α β : Type} {a : Action Line α} {l : Line} {c : Nat} {ops more : List Operation}

/-- What an action on a line does to the clients around it, however it ends. -/
structure Heeds (l : Line) (a : Action Line α) : Prop where
  proper : (Roster.ofLine l).Proper (clientArguments l.cluster.connection)
    (Event.clientCalls (a.run l).events)
  after : (Roster.ofLine l).after (Event.clientCalls (a.run l).events) =
    Roster.ofLine (a.run l).state
  connection : (a.run l).state.cluster.connection = l.cluster.connection

theorem Heeds.bind {f : α → Action Line β} (ha : Heeds l a)
    (hf : ∀ x, (a.run l).result = .ok x → Heeds (a.run l).state (f x)) : Heeds l (a >>= f) := by
  cases hresult : (a.run l).result with
  | error e =>
      have hrun := run_bind_of_error (f := f) hresult
      exact ⟨hrun ▸ ha.proper, hrun ▸ ha.after, hrun ▸ ha.connection⟩
  | ok x =>
      have hx := hf x hresult
      have hproper := hx.proper
      rw [ha.connection, ← ha.after] at hproper
      constructor <;> rw [run_bind_of_ok hresult]
      · rw [Event.clientCalls_append]
        exact Roster.proper_append.mpr ⟨ha.proper, hproper⟩
      · rw [Event.clientCalls_append, Roster.after_append, ha.after, hx.after]
      · exact hx.connection.trans ha.connection

/-- The action calls nothing but these operations of one client, in this order, and it calls them
all if it returns. -/
structure Serves (c : Nat) (ops : List Operation) (a : Action Line α) : Prop where
  heeds : ∀ l, l.cluster.client = some c → Heeds l a
  client : ∀ l, (a.run l).state.cluster.client = l.cluster.client
  calls : ∀ l, (Event.clientCalls (a.run l).events).map ClientCall.request
    <+: ops.map (c, ·)
  complete : ∀ l, (a.run l).result.isOk →
    (Event.clientCalls (a.run l).events).length = ops.length

theorem serves_nothing (hstate : ∀ l, (a.run l).state = l)
    (hcalls : ∀ l, Event.clientCalls (a.run l).events = []) : Serves c [] a where
  heeds l _ := by
    constructor
    · rw [hcalls]
      exact trivial
    · rw [hcalls, hstate]
      rfl
    · rw [hstate]
  client l := by rw [hstate]
  calls l := by rw [hcalls]; exact List.nil_prefix
  complete l _ := by rw [hcalls]; rfl

theorem serves_pure (x : α) : Serves c [] (pure x : Action Line α) :=
  serves_nothing (fun _ => rfl) fun _ => rfl

theorem serves_lift (x : Except Error α) : Serves c [] (liftM x : Action Line α) :=
  serves_nothing (fun _ => rfl) fun _ => rfl

theorem serves_log (level : Level) (channel : Channel) (m : String) :
    Serves c [] (Action.log level channel m : Action Line Unit) :=
  serves_nothing (fun _ => rfl) fun _ => rfl

theorem serves_ask {op : Operation} (arguments : List (String × Value))
    (hop : op ≠ .connect ∧ op ≠ .close) :
    Serves c [op] (overWire (Wire.ask c op arguments)) := by
  have hrun (l : Line) : (overWire (Wire.ask c op arguments)).run l =
      ⟨((Wire.ask c op arguments).run l.wire).result,
        { l with wire := { l.wire with replies := (Wire.take op l.wire.replies).2 } },
        [.called ⟨c, op, arguments⟩]⟩ := by
    rw [overWire, run_within, Wire.state_ask, Wire.events_ask]
  have hnote (t : Roster) : t.note ⟨c, op, arguments⟩ = t := by
    unfold Roster.note
    split
    · exact absurd ‹_› hop.1
    · exact absurd ‹_› hop.2
    · rfl
  refine ⟨fun l hl => ?_, fun l => ?_, fun l => ?_, fun l _ => ?_⟩
  · constructor <;> rw [hrun]
    · refine ⟨?_, trivial⟩
      rw [Roster.Allows, if_neg hop.1, Roster.ofLine, hl]
      rfl
    · have hserve (t : Roster) : t.serve ⟨c, op, arguments⟩ =
          { t with replies := (Wire.take op t.replies).2 } := by
        simp only [Roster.serve, hnote]
        split <;> rfl
      exact hserve _
  · rw [hrun]
  · rw [hrun]
    exact List.prefix_rfl
  · rw [hrun]
    rfl

theorem Serves.bind {f : α → Action Line β} (ha : Serves c ops a)
    (hf : ∀ x, Serves c more (f x)) : Serves c (ops ++ more) (a >>= f) := by
  refine ⟨fun l hl => ?_, fun l => ?_, fun l => ?_, fun l => ?_⟩
  · exact (ha.heeds l hl).bind fun x _ => (hf x).heeds _ ((ha.client l).trans hl)
  · cases hresult : (a.run l).result with
    | error e => rw [run_bind_of_error hresult, ha.client]
    | ok x => rw [run_bind_of_ok hresult, (hf x).client, ha.client]
  · rw [List.map_append]
    cases hresult : (a.run l).result with
    | error e =>
        rw [run_bind_of_error hresult]
        exact (ha.calls l).trans (List.prefix_append _ _)
    | ok x =>
        -- the second action goes on where the first one has called all of its operations
        have hall : (Event.clientCalls (a.run l).events).map
            ClientCall.request = ops.map (c, ·) := by
          refine (ha.calls l).eq_of_length ?_
          simpa using ha.complete l (by rw [hresult]; rfl)
        rw [run_bind_of_ok hresult, Event.clientCalls_append, List.map_append, hall]
        exact (List.prefix_append_right_inj _).mpr ((hf x).calls _)
  · cases hresult : (a.run l).result with
    | error e =>
        rw [run_bind_of_error hresult]
        nofun
    | ok x =>
        rw [run_bind_of_ok hresult, Event.clientCalls_append, List.length_append,
          List.length_append, ha.complete l (by rw [hresult]; rfl)]
        exact fun h => congrArg _ ((hf x).complete _ h)

theorem serves_ite {b : Action Line α} {p : Prop} [Decidable p] (ha : Serves c ops a)
    (hb : Serves c ops b) : Serves c ops (if p then a else b) := by
  split
  · exact ha
  · exact hb

theorem Serves.guarded (ha : Serves c ops a) (what : String) : Serves c ops (guarded what a) := by
  have hrun (l : Line) : ((Cluster.guarded what a).run l).state = (a.run l).state ∧
      Event.clientCalls ((Cluster.guarded what a).run l).events =
        Event.clientCalls (a.run l).events ∧
      ((Cluster.guarded what a).run l).result = (a.run l).result := by
    cases hresult : (a.run l).result with
    | ok x =>
        rw [Cluster.guarded, run_recover_of_ok hresult]
        exact ⟨rfl, rfl, rfl⟩
    | error e =>
        obtain ⟨hraised, hevents⟩ := run_guarded_of_error what hresult
        refine ⟨?_, ?_, hraised⟩
        · rw [Cluster.guarded, run_recover_of_error hresult]
          cases e <;> rfl
        · rw [hevents, Event.clientCalls_append, Event.clientCalls_notes, List.append_nil]
  refine ⟨fun l hl => ?_, fun l => ?_, fun l => ?_, fun l => ?_⟩
  · obtain ⟨hstate, hcalls, -⟩ := hrun l
    have h := ha.heeds l hl
    exact ⟨hcalls ▸ h.proper, by rw [hcalls, hstate, h.after], hstate ▸ h.connection⟩
  · rw [(hrun l).1, ha.client]
  · rw [(hrun l).2.1]
    exact ha.calls l
  · rw [(hrun l).2.1, (hrun l).2.2]
    exact ha.complete l

/-- The client that the next request is for. -/
def clientFor (l : Line) : Nat := l.cluster.client.getD l.wire.opened

/-- The call that constructs a client, where none is open. -/
def constructions (l : Line) : List ClientCall :=
  if l.cluster.client.isNone then
    [⟨l.wire.opened, .connect, clientArguments l.cluster.connection⟩]
  else []

theorem run_connect (l : Line) : connect.run l =
    match (Wire.take .connect l.wire.replies).1 with
    | some (.failure e) =>
      ⟨.error e, ⟨l.cluster, (Wire.take .connect l.wire.replies).2, l.wire.opened⟩,
        [.called ⟨l.wire.opened, .connect, clientArguments l.cluster.connection⟩]⟩
    | _ =>
      ⟨.ok l.wire.opened, ⟨{ l.cluster with client := some l.wire.opened },
          (Wire.take .connect l.wire.replies).2, l.wire.opened + 1⟩,
        [.called ⟨l.wire.opened, .connect, clientArguments l.cluster.connection⟩,
          .logged ⟨Level.info.severity, Channel.client.name,
            "Connected to Elasticsearch at " ++ l.cluster.connection.hostList.text⟩]⟩ := by
  simp only [connect, run_bind, run_get, overWire, run_within, Wire.run_ask]
  cases (Wire.take .connect l.wire.replies).1 with
  | none => rfl
  | some r => cases r <;> rfl

/-- What an action does that leaves a client open. -/
structure Opens (l : Line) (a : Action Line Nat) : Prop where
  heeds : Heeds l a
  calls : Event.clientCalls (a.run l).events = constructions l
  returns : ∀ x, (a.run l).result = .ok x →
    x = clientFor l ∧ (a.run l).state.cluster.client = some x

theorem opens_connect (h : l.cluster.client = none) : Opens l connect := by
  let call : ClientCall := ⟨l.wire.opened, .connect, clientArguments l.cluster.connection⟩
  have hproper : (Roster.ofLine l).Proper (clientArguments l.cluster.connection) [call] := by
    refine ⟨?_, trivial⟩
    simp [Roster.Allows, Roster.ofLine, h, call]
  have hcalls : constructions l = [call] := by simp [constructions, h, call]
  have hrun := run_connect l
  -- a failure leaves no client open, any other answer the one that was constructed
  split at hrun
  · rename_i e hreply
    have hserve : (Roster.ofLine l).serve call =
        ⟨[], l.wire.opened, (Wire.take .connect l.wire.replies).2⟩ := by
      simp [Roster.serve, Roster.ofLine, h, call, hreply]
    refine ⟨⟨?_, ?_, ?_⟩, ?_, ?_⟩ <;> rw [hrun]
    · exact hproper
    · exact hserve.trans (by simp [Roster.ofLine, h])
    · exact hcalls.symm
    · nofun
  · rename_i hreply
    have hserve : (Roster.ofLine l).serve call =
        ⟨[l.wire.opened], l.wire.opened + 1, (Wire.take .connect l.wire.replies).2⟩ := by
      simp [Roster.serve, Roster.ofLine, Roster.note, h, call]
    refine ⟨⟨?_, ?_, ?_⟩, ?_, ?_⟩ <;> rw [hrun]
    · exact hproper
    · exact hserve
    · exact hcalls.symm
    · intro x hx
      obtain rfl := Except.ok.inj hx
      exact ⟨by rw [clientFor, h]; rfl, rfl⟩

theorem opens_openClient (l : Line) : Opens l openClient := by
  cases h : l.cluster.client with
  | none =>
      have hrun : openClient.run l = connect.run l := by
        simp [openClient, run_bind, h]
      obtain ⟨⟨hproper, hafter, hconnection⟩, hcalls, hreturns⟩ := opens_connect h
      rw [← hrun] at hproper hafter hconnection hcalls hreturns
      exact ⟨⟨hproper, hafter, hconnection⟩, hcalls, hreturns⟩
  | some c =>
      have hrun : openClient.run l = ⟨.ok c, l, []⟩ := by
        simp [openClient, run_bind, h]
      refine ⟨⟨?_, ?_, ?_⟩, ?_, ?_⟩ <;> rw [hrun]
      · exact trivial
      · rfl
      · rw [constructions, h]
        rfl
      · intro x hx
        obtain rfl := Except.ok.inj hx
        exact ⟨by rw [clientFor, h]; rfl, h⟩

theorem run_close_of_none (h : l.cluster.client = none) : close.run l = ⟨.ok .null, l, []⟩ := by
  simp [close, run_bind, h]

theorem run_close_of_some (h : l.cluster.client = some c) : close.run l =
    match (Wire.take .close l.wire.replies).1 with
    | some (.failure e) =>
      ⟨.error e, ⟨l.cluster, (Wire.take .close l.wire.replies).2, l.wire.opened⟩,
        [.called ⟨c, .close, []⟩]⟩
    | _ =>
      ⟨.ok .null, ⟨{ l.cluster with client := none }, (Wire.take .close l.wire.replies).2,
        l.wire.opened⟩, [.called ⟨c, .close, []⟩]⟩ := by
  simp only [close, run_bind, run_get, h, overWire, run_within, Wire.run_ask]
  cases (Wire.take .close l.wire.replies).1 with
  | none => rfl
  | some r => cases r <;> rfl

theorem heeds_close (l : Line) : Heeds l close := by
  cases h : l.cluster.client with
  | none =>
      have hrun := run_close_of_none h
      refine ⟨?_, ?_, ?_⟩ <;> rw [hrun]
      · exact trivial
      · rfl
  | some c =>
      have hproper : (Roster.ofLine l).Proper (clientArguments l.cluster.connection)
          [⟨c, .close, []⟩] := by
        refine ⟨?_, trivial⟩
        simp [Roster.Allows, Roster.ofLine, h]
      have hrun := run_close_of_some h
      split at hrun
      · rename_i e hreply
        have hserve : (Roster.ofLine l).serve ⟨c, .close, []⟩ =
            ⟨[c], l.wire.opened, (Wire.take .close l.wire.replies).2⟩ := by
          simp [Roster.serve, Roster.ofLine, h, hreply]
        refine ⟨?_, ?_, ?_⟩ <;> rw [hrun]
        · exact hproper
        · exact hserve.trans (by simp [Roster.ofLine, h])
      · have hserve : (Roster.ofLine l).serve ⟨c, .close, []⟩ =
            ⟨[], l.wire.opened, (Wire.take .close l.wire.replies).2⟩ := by
          simp [Roster.serve, Roster.ofLine, Roster.note, h]
        refine ⟨?_, ?_, ?_⟩ <;> rw [hrun]
        · exact hproper
        · exact hserve

end Cluster

/-! ## Requests -/

namespace Request

def operations : Request → List Operation
  | search _ timeout => (if timeout.isNull then [] else [.options]) ++ [.search]
  | r => [r.operation]

theorem operation_ne_close {r : Request} (hr : r ≠ .close) : r.operation ≠ .close := by
  cases r with
  | close => exact absurd rfl hr
  | _ => nofun

open Cluster in
theorem exists_rest {r : Request} (hr : r ≠ .close) :
    ∃ rest, r.onCluster = openClient >>= rest ∧ ∀ c, Serves c r.operations (rest c) := by
  have hop : r.operation ≠ .connect ∧ r.operation ≠ .close :=
    ⟨operation_ne_connect r, operation_ne_close hr⟩
  -- what comes behind the opening of the client is for that client alone
  cases r with
  | search params timeout =>
      refine ⟨_, rfl, fun c => ?_⟩
      have hbody : Serves c [.search] (guarded
          ("Search error on " ++ ((params.part "index").toOption.getD .null).text) do
            let arguments := [("index", ← params.part "index"), ("body", ← params.part "body")]
            overWire (Wire.ask c .search arguments)) := by
        refine Serves.guarded ((serves_lift _).bind fun i => (serves_lift _).bind fun b => ?_) _
        exact serves_ask _ hop
      cases ht : timeout.isNull with
      | true => simpa [operations, ht] using hbody
      | false =>
          have hoptions : Operation.options ≠ .connect ∧ Operation.options ≠ .close :=
            ⟨nofun, nofun⟩
          simpa [operations, ht] using (serves_ask _ hoptions).bind fun _ => hbody
  | indexDocument i k d r => exact ⟨_, rfl, fun c => (serves_ask _ hop).guarded _⟩
  | deleteDocument i k r => exact ⟨_, rfl, fun c => (serves_ask _ hop).guarded _⟩
  | bulkIndex i ds r =>
      refine ⟨_, rfl, fun c => (serves_lift _).bind fun actions => ?_⟩
      refine (serves_ask _ hop).bind fun answer => (serves_lift _).bind fun pair => ?_
      refine serves_ite ?_ (serves_pure _)
      exact (serves_lift _).bind fun n => (serves_log _ _ _).bind fun _ => serves_pure _
  | createIndex i b =>
      refine ⟨_, rfl, fun c => Serves.guarded ?_ _⟩
      exact (serves_ask _ hop).bind fun v => (serves_log _ _ _).bind fun _ => serves_pure v
  | deleteIndex i =>
      refine ⟨_, rfl, fun c => Serves.guarded ?_ _⟩
      exact (serves_ask _ hop).bind fun v => (serves_log _ _ _).bind fun _ => serves_pure v
  | indexExists i =>
      exact ⟨_, rfl, fun c => (serves_ask _ hop).bind fun v => serves_pure _⟩
  | putMapping i ps =>
      refine ⟨_, rfl, fun c => Serves.guarded ((serves_lift _).bind fun body => ?_) _⟩
      exact (serves_ask _ hop).bind fun v => (serves_log _ _ _).bind fun _ => serves_pure v
  | close => exact absurd rfl hr

/-- How a request goes about with the clients around a line. The closing of the client is called on
the one that is open and takes it away unless it fails; where none is open it does nothing at all.
Any other request first constructs a client if none is open, and then asks that one client for its
operations, one after the other, up to the first that fails. -/
structure Attends (r : Request) (l : Line) : Prop where
  asks : r ≠ .close → ∃ calls,
    Event.clientCalls (r.onCluster.run l).events = Cluster.constructions l ++ calls ∧
      calls.map ClientCall.request <+:
        r.operations.map (Cluster.clientFor l, ·) ∧
      ((r.onCluster.run l).result.isOk → calls.length = r.operations.length)
  closes : r = .close → ∀ c, l.cluster.client = some c →
    Event.clientCalls (r.onCluster.run l).events = [⟨c, .close, []⟩] ∧
      ((r.onCluster.run l).state.cluster.client = none ↔ (r.onCluster.run l).result.isOk)
  idle : r = .close → l.cluster.client = none → r.onCluster.run l = ⟨.ok .null, l, []⟩

variable (r : Request) (l : Line)

theorem heeds_onCluster : Cluster.Heeds l r.onCluster := by
  by_cases hr : r = .close
  · subst hr
    exact Cluster.heeds_close l
  · obtain ⟨rest, hrest, hserves⟩ := exists_rest hr
    have hopens := Cluster.opens_openClient l
    rw [hrest]
    exact hopens.heeds.bind fun c hc => (hserves c).heeds _ (hopens.returns c hc).2

theorem attends : r.Attends l := by
  by_cases hr : r = .close
  · subst hr
    refine ⟨fun h => absurd rfl h, fun _ c hc => ?_, fun _ => Cluster.run_close_of_none⟩
    have hrun : close.onCluster.run l = _ := Cluster.run_close_of_some hc
    rw [hrun]
    split
    · exact ⟨rfl, iff_of_false (by simp [hc]) nofun⟩
    · exact ⟨rfl, iff_of_true rfl rfl⟩
  · refine ⟨fun _ => ?_, fun h => absurd h hr, fun h => absurd h hr⟩
    obtain ⟨rest, hrest, hserves⟩ := exists_rest hr
    obtain ⟨-, hcalls, hreturns⟩ := Cluster.opens_openClient l
    rw [hrest]
    cases hopen : (Cluster.openClient.run l).result with
    | error e =>
        rw [run_bind_of_error hopen]
        exact ⟨[], by rw [List.append_nil, hcalls], List.nil_prefix, nofun⟩
    | ok c =>
        obtain ⟨hc, -⟩ := hreturns c hopen
        rw [run_bind_of_ok hopen, Event.clientCalls_append, hcalls]
        exact ⟨_, rfl, hc ▸ (hserves c).calls _, (hserves c).complete _⟩

end Request

/-! ## Runs -/

namespace Line

variable (l : Line) (rs : List Request)

theorem heeds_attempts : Cluster.Heeds l (attempts (rs.map Request.onCluster)) := by
  induction rs generalizing l with
  | nil => exact ⟨trivial, rfl, rfl⟩
  | cons r rs ih =>
      -- the roster after the calls of a request is that of the line which it leaves
      have hr := r.heeds_onCluster l
      obtain ⟨hproper, hafter, hconnection⟩ := ih (r.onCluster.run l).state
      rw [hr.connection, ← hr.after] at hproper
      constructor <;> simp only [List.map_cons, state_attempts_cons, events_attempts_cons,
        Event.clientCalls_append]
      · exact Roster.proper_append.mpr ⟨hr.proper, hproper⟩
      · rw [Roster.after_append, hr.after, hafter]
      · exact hconnection.trans hr.connection

end Line

theorem Cluster.not_both_credentials (c : Connection) :
    ¬ ("api_key" ∈ (clientArguments c).map Prod.fst ∧
      "basic_auth" ∈ (clientArguments c).map Prod.fst) := by
  unfold clientArguments credentials
  split
  · cases c.timeout <;> simp
  · split <;> cases c.timeout <;> simp

/-- Whatever requests a gateway is given, and however they end, a client is constructed only where
none is open, always with the same arguments, and every other call goes to the one client that is
open. So at most one is open at any time, and it is the one that the gateway holds. -/
theorem Line.never_two_clients (l : Line) (rs : List Request) :
    let o := (attempts (rs.map Request.onCluster)).run l
    let calls := Event.clientCalls o.events
    let arguments := Cluster.clientArguments l.cluster.connection
    (∀ front call back, calls = front ++ call :: back →
      ((Roster.ofLine l).after front).Allows arguments call) ∧
    (∀ front, front <+: calls → ((Roster.ofLine l).after front).standing.length ≤ 1) ∧
    (Roster.ofLine l).after calls = Roster.ofLine o.state ∧
    (∀ call ∈ calls, call.operation = .connect → call.arguments = arguments) ∧
    ¬ ("api_key" ∈ arguments.map Prod.fst ∧ "basic_auth" ∈ arguments.map Prod.fst) ∧
    ∀ r : Request, r.Attends o.state := by
  intro o calls arguments
  obtain ⟨hproper, hafter, -⟩ := l.heeds_attempts rs
  change (Roster.ofLine l).Proper arguments calls at hproper
  have hallows : ∀ front call back, calls = front ++ call :: back →
      ((Roster.ofLine l).after front).Allows arguments call := by
    intro front call back h
    rw [h] at hproper
    exact (Roster.proper_append.mp hproper).2.1
  refine ⟨hallows, fun front hfront => ?_, hafter, fun call hcall hop => ?_,
    Cluster.not_both_credentials _, fun r => r.attends _⟩
  · obtain ⟨back, hback⟩ := hfront
    rw [← hback] at hproper
    exact (Roster.proper_append.mp hproper).1.length_after (Roster.length_ofLine l)
  · obtain ⟨front, back, h⟩ := List.append_of_mem hcall
    have h := hallows front call back h
    rw [Roster.Allows, if_pos hop] at h
    exact h.2.2

/-- A gateway that is closed and used again constructs a second client. -/
example :
    let params : Value := .object [("index", .str "shop"), ("body", .null)]
    let requests : List Request :=
      [.search params (.int 5), .close, .close, .indexExists (.str "shop")]
    let line : Line := ⟨⟨.standard, none⟩, ⟨[], 0⟩⟩
    (Event.clientCalls ((attempts (requests.map Request.onCluster)).run line).events).map
        ClientCall.request =
      [(0, .connect), (0, .options), (0, .search), (0, .close), (1, .connect),
        (1, .indexExists)] := by
  decide +kernel

end DocSearch
