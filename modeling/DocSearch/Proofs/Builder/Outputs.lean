import DocSearch.Proofs.Builder.Copies
import DocSearch.Proofs.Value.Thawing

/-!
# The outputs of a builder

The compiled search, its snapshot and the search that a store in memory records are one document:
frozen and thawed, the compiled body comes back with lists in place of its tuples and sets, and the
store records what comes back.
-/

namespace DocSearch

open DocSearch.Action

/-! ## Snapshots -/

theorem Document.params_eq_ok_iff {d : Document} {v : Value} :
    d.params = .ok v ↔ ∃ body, d.body = .ok body ∧
      .object [("index", d.index), ("body", body)] = v :=
  Except.map_eq_ok_iff

theorem Document.snapshot_eq_ok_iff {d : Document} {s : Snapshot} :
    d.snapshot = .ok s ↔ ∃ body frozen, d.body = .ok body ∧ body.freeze = .ok frozen ∧
      ⟨d.index, frozen⟩ = s := by
  simp [Document.snapshot, Except.bind_eq_ok_iff]

/-- A snapshot is the compiled search with lists in place of all sequences in its body. -/
theorem Document.params_of_snapshot {d : Document} {s : Snapshot} (h : d.snapshot = .ok s) :
    ∃ body, d.body = .ok body ∧ s.params = .object [("index", d.index), ("body", body.listed)] := by
  obtain ⟨body, frozen, hbody, hfreeze, rfl⟩ := snapshot_eq_ok_iff.mp h
  refine ⟨body, hbody, ?_⟩
  rw [Snapshot.params, Value.thaw_freeze body hfreeze]

namespace Document.Copyable

variable {d : Document}

theorem exists_snapshot (h : d.Copyable) {body : Value} (hbody : d.body = .ok body) :
    ∃ s, d.snapshot = .ok s := by
  obtain ⟨frozen, hfreeze⟩ := Value.exists_freeze body (h.copyable_body hbody)
  exact ⟨_, snapshot_eq_ok_iff.mpr ⟨body, frozen, hbody, hfreeze, rfl⟩⟩

theorem copyable_snapshot (h : d.Copyable) {s : Snapshot} (hs : d.snapshot = .ok s) :
    s.params.copyable = true := by
  obtain ⟨body, hbody, hparams⟩ := params_of_snapshot hs
  rw [hparams]
  refine Value.copyable_object ?_
  simp [h.index, Value.copyable_listed body (h.copyable_body hbody)]

end Document.Copyable

/-! ## Stores in memory -/

theorem Store.searches_search {params : Value} (h : params.copyable = true) (s : Store) :
    ((search params).run s).state.searches = s.searches ++ [params] := by
  -- the request is recorded before it is looked at, so also if the rest fails
  have hrest : (do
      let index ← params.part "index"
      let body ← params.partD "body" (.dict [])
      let _ ← body.entries
      let answer : Search.Answer Float ← Search.run ((← get).documents (← index.asKey)) body
      return answer.toValue index : Action Store Value).Steady searches fun _ => True :=
    (steady_lift _).bind fun index => (steady_lift _).bind fun body => (steady_lift _).bind fun _ =>
      steady_get.bind fun t => (steady_lift _).bind fun i => (steady_lift _).bind fun answer =>
        steady_pure _
  rw [search, Value.copy_eq_ok h]
  exact (hrest { s with searches := s.searches ++ [params] }).1

namespace Exchange

/-- The gateway is a store in memory that has recorded these searches. -/
def Records (x : Exchange) (ps : List Value) : Prop :=
  ∃ st, x.gateway = some (.memory st) ∧ st.searches = ps

theorem Records.search {x : Exchange} {ps : List Value} (hx : x.Records ps) {params : Value}
    (h : params.copyable = true) (timeout : Value) :
    ((perform (.search params timeout)).run x).state.Records (ps ++ [params]) := by
  obtain ⟨st, hst, rfl⟩ := hx
  refine ⟨((Store.search params).run st).state, ?_, Store.searches_search h st⟩
  rw [perform, run_bind]
  simp only [run_get, hst]
  rfl

end Exchange

/-- The builder works on the gateway that it shares with others, a store in memory. -/
def Desk.Shares (d : Desk) (ps : List Value) : Prop :=
  d.link = .shared ∧ d.site.exchange.Records ps

/-- The builder is open, it has an index and its document compiles. -/
def Builder.Ready (b : Builder) (s : Snapshot) : Prop :=
  b.consumed = false ∧ b.document.index.truthy = true ∧ b.document.snapshot = .ok s

namespace Desk

variable {d : Desk} {ps : List Value}

theorem run_prepare (hd : d.Shares ps) :
    (∃ s, d.builder.Ready s ∧ prepare.run d = ⟨.ok s, d, []⟩) ∨
      (∀ s, ¬ d.builder.Ready s) ∧ ∃ e, prepare.run d = ⟨.error e, d, []⟩ := by
  obtain ⟨hlink, st, hst, -⟩ := hd
  have hgateway : ensureGateway.run d = ⟨.ok (), d, []⟩ := by
    rw [ensureGateway, run_bind]
    simp only [run_get, hlink, hst]
    rfl
  have hopen : (onBuilder Builder.requireOpen).run d =
      ⟨if d.builder.consumed then .error (.state .executed) else .ok (), d, []⟩ := by
    cases hc : d.builder.consumed <;>
      simp [onBuilder, run_within, Builder.requireOpen, run_bind, hc]
  unfold Builder.Ready
  cases hc : d.builder.consumed <;> cases hi : d.builder.document.index.truthy <;>
    cases hs : d.builder.document.snapshot <;>
      simp [prepare, run_bind, hopen, hc, hi, hs, hgateway, -bind_pure_comp]

theorem state_send (timeout : Value) (s : Snapshot) (d : Desk) :
    ((send timeout s).run d).state =
      ((serve s.params timeout).run
        { d with builder := { d.builder with consumed := true } }).state := by
  have hsend : ((send timeout s).run d).state = (Action.run (do
      let response ← serve s.params timeout
      answer (← get).builder.mode response)
      { d with builder := { d.builder with consumed := true } }).state := by
    simp only [send, search_eq, bind_assoc]
    rfl
  rw [hsend, run_bind]
  split <;> rfl

theorem state_send_of_shared (timeout : Value) (s : Snapshot) (h : d.link = .shared) :
    ((send timeout s).run d).state.link = .shared ∧
      ((send timeout s).run d).state.site.exchange =
        ((Exchange.perform (.search s.params timeout)).run d.site.exchange).state := by
  rw [state_send, serve, run_bind]
  simp only [run_get, h]
  exact ⟨rfl, rfl⟩

/-- An execution on a store in memory either does nothing or leaves the search with the store. -/
theorem execute_of_shares (hd : d.Shares ps)
    (hcopy : ∀ s, d.builder.document.snapshot = .ok s → s.params.copyable = true)
    (timeout : Value) :
    ((∀ s, ¬ d.builder.Ready s) ∧ ((execute timeout).run d).state = d) ∨
      ∃ s, d.builder.Ready s ∧ ((execute timeout).run d).state.Shares (ps ++ [s.params]) ∧
        ((execute timeout).run d).state.builder = { d.builder with consumed := true } := by
  rw [execute_eq]
  rcases run_prepare hd with ⟨s, hready, hp⟩ | ⟨hnot, e, hp⟩
  · right
    rw [run_bind_of_ok (x := s) (by rw [hp]), hp]
    obtain ⟨hlink, hexchange⟩ := state_send_of_shared timeout s hd.1
    have hsearch := hd.2.search (hcopy s hready.2.2) timeout
    exact ⟨s, hready, ⟨hlink, hexchange ▸ hsearch⟩, (run_send timeout s d).1⟩
  · left
    rw [run_bind_of_error (e := e) (by rw [hp]), hp]
    exact ⟨hnot, rfl⟩

end Desk

namespace Use

variable {u : Use} {d : Desk} {ps : List Value}

/-- Every use of a builder on a store in memory either makes its call and no more, or it consumes
the builder after the call and leaves the compiled search with the store. -/
theorem run_of_shares (hd : d.Shares ps) (hdoc : d.builder.document.Copyable)
    (hu : u.Copyable) :
    ((u.run d).state.Shares ps ∧ (u.run d).state.builder = u.changed d.builder) ∨
      ∃ s, (u.changed d.builder).Ready s ∧ (u.run d).state.Shares (ps ++ [s.params]) ∧
        (u.run d).state.builder = { u.changed d.builder with consumed := true } := by
  have hexecute (d : Desk) (hd : d.Shares ps) (hdoc : d.builder.document.Copyable)
      (timeout : Value) :
      (((Desk.execute timeout).run d).state.Shares ps ∧
          ((Desk.execute timeout).run d).state.builder = d.builder) ∨
        ∃ s, d.builder.Ready s ∧ ((Desk.execute timeout).run d).state.Shares (ps ++ [s.params]) ∧
          ((Desk.execute timeout).run d).state.builder = { d.builder with consumed := true } := by
    rcases Desk.execute_of_shares hd (fun s => hdoc.copyable_snapshot) timeout with ⟨-, h⟩ | h
    · rw [h]
      exact Or.inl ⟨hd, rfl⟩
    · exact Or.inr h
  cases u with
  | change c =>
      rw [state_change]
      exact Or.inl ⟨hd, rfl⟩
  | params =>
      rw [(run_reading rfl d).1]
      exact Or.inl ⟨hd, rfl⟩
  | snapshot =>
      rw [(run_reading rfl d).1]
      exact Or.inl ⟨hd, rfl⟩
  | execute t =>
      rw [state_execute]
      exact hexecute d hd hdoc t
  | fetchPage s p t =>
      have hpage := state_change (.paginate s p) d
      rcases state_fetchPage s p t d with h | h
      · rw [h, hpage]
        exact Or.inl ⟨hd, rfl⟩
      · rw [h, hpage]
        exact hexecute { d with builder := (fetchPage s p t).changed d.builder } hd
          (hdoc.changed hu) t

end Use

end DocSearch
