import DocSearch.Gateway.Basic
import DocSearch.Proofs.Action.Outcomes

/-!
# Searches inside a gateway

A gateway that is handed a search may talk to the cluster and write records, but it hands no search
on: whatever a store or a cluster does, none of its events is a search.
-/

namespace DocSearch

open DocSearch.Action

/-- The event is not a search handed to a gateway. -/
def Event.NoSearch (e : Event) : Prop := e.search? = none

theorem Event.noSearch_logged (r : LogRecord) : (Event.logged r).NoSearch := rfl

theorem Wire.steady_ask (client : Nat) (op : Operation) (arguments : List (String × Value)) :
    (Wire.ask client op arguments).Steady (fun _ => ()) Event.NoSearch := by
  intro w
  refine ⟨rfl, ?_⟩
  intro e he
  rw [Wire.events_ask, List.mem_singleton] at he
  exact he ▸ rfl

namespace Cluster

theorem steady_overWire {α : Type} {a : Action Wire α}
    (ha : a.Steady (fun _ => ()) Event.NoSearch) :
    (overWire a).Steady (fun _ => ()) Event.NoSearch :=
  ha.within fun _ _ _ => rfl

/-- Opening a client is steady if its steps are. -/
theorem steady_openClient_of {ρ : Type} {view : Line → ρ} {p : Event → Prop}
    (hask : ∀ n args, (overWire (Wire.ask n .connect args)).Steady view p)
    (hcount : ∀ n, (overWire (modify fun w => { w with opened := n })).Steady view p)
    (hclient : ∀ c, (setClient c).Steady view p)
    (hlog : ∀ m, (Action.log .info .client m : Action Line Unit).Steady view p) :
    openClient.Steady view p := by
  refine steady_get.bind fun l => ?_
  split
  · exact steady_pure _
  · refine steady_get.bind fun l => (hask _ _).bind fun _ => (hcount _).bind fun _ => ?_
    exact (hclient _).bind fun _ => (hlog _).bind fun _ => steady_pure _

theorem steady_openClient : openClient.Steady (fun _ => ()) Event.NoSearch := by
  refine steady_openClient_of (fun n args => ?_) (fun n => ?_) (fun c => ?_) fun m => ?_
  · exact steady_overWire (Wire.steady_ask n .connect args)
  · exact steady_overWire (steady_modify fun _ => rfl)
  · exact steady_modify fun _ => rfl
  · exact steady_log Event.noSearch_logged _ _ _

theorem steady_guarded {α : Type} {what : String} {a : Action Line α}
    (ha : a.Steady (fun _ => ()) Event.NoSearch) :
    (guarded what a).Steady (fun _ => ()) Event.NoSearch := by
  refine ha.recover fun e => ?_
  cases e with
  | client f => exact (steady_log Event.noSearch_logged _ _ _).bind fun _ => steady_throw _
  | _ => exact steady_throw _

theorem steady_search (params timeout : Value) :
    (search params timeout).Steady (fun _ => ()) Event.NoSearch := by
  refine steady_openClient.bind fun c => ?_
  have hbody : (guarded ("Search error on " ++ ((params.part "index").toOption.getD .null).text) do
      let arguments := [("index", ← params.part "index"), ("body", ← params.part "body")]
      overWire (Wire.ask c .search arguments)).Steady (fun _ => ()) Event.NoSearch := by
    refine steady_guarded ((steady_lift _).bind fun i => (steady_lift _).bind fun b => ?_)
    exact steady_overWire (Wire.steady_ask _ _ _)
  refine steady_ite ?_ hbody
  exact (steady_overWire (Wire.steady_ask _ _ _)).bind fun _ => hbody

end Cluster

theorem Store.steady_search (params : Value) :
    (Store.search params).Steady (fun _ => ()) Event.NoSearch := by
  refine (steady_lift _).bind fun recorded => ?_
  refine Steady.bind (steady_modify fun _ => rfl) fun _ => ?_
  refine (steady_lift _).bind fun index => (steady_lift _).bind fun body => ?_
  refine (steady_lift _).bind fun _ => steady_get.bind fun s => ?_
  exact (steady_lift _).bind fun i => (steady_lift _).bind fun answer => steady_pure _

theorem Exchange.steady_perform_search (params timeout : Value) :
    (Exchange.perform (.search params timeout)).Steady (fun _ => ()) Event.NoSearch := by
  refine steady_get.bind fun x => ?_
  split
  · exact steady_throw _
  · exact (Store.steady_search params).within fun _ _ _ => rfl
  · exact (Cluster.steady_search params timeout).within fun _ _ _ => rfl

end DocSearch
