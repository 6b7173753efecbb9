import DocSearch.Proofs.Builder.Consumption

/-!
# What a use makes of its builder

A use makes at most one call on its builder, whether it executes it or not, and apart from that call
it can only consume the builder.
-/

namespace DocSearch

open DocSearch.Action

namespace Use

def call? : Use → Option Call
  | change c => some c
  | fetchPage s p _ => some (.paginate s p)
  | params | snapshot | execute _ => none

def changed (u : Use) (b : Builder) : Builder :=
  match u.call? with
  | some c => (c.apply.run b).state
  | none => b

end Use

namespace Desk

/-- Executing can only consume the builder. -/
theorem builder_execute (timeout : Value) (d : Desk) :
    ((execute timeout).run d).state.builder =
      { d.builder with consumed := ((execute timeout).run d).state.builder.consumed } := by
  have hprepare : (prepare.run d).state.builder = d.builder := (steady_prepare d).1
  rw [execute_eq]
  cases hp : (prepare.run d).result with
  | error e => rw [run_bind_of_error hp, hprepare]
  | ok s =>
      rw [run_bind_of_ok hp]
      have hsend := (run_send timeout s (prepare.run d).state).1
      simp only [hsend, hprepare]

end Desk

namespace Use

theorem state_change (c : Call) (d : Desk) :
    ((change c).run d).state = { d with builder := (c.apply.run d.builder).state } :=
  (Desk.run_bind_pure (Desk.onBuilder c.apply) (fun _ => Product.builder) d).1

theorem state_execute (timeout : Value) (d : Desk) :
    ((execute timeout).run d).state = ((Desk.execute timeout).run d).state :=
  (Desk.run_bind_pure (Desk.execute timeout) Product.value d).1

/-- Fetching a page is executing the builder if the page can be selected. -/
theorem state_fetchPage (size page timeout : Value) (d : Desk) :
    let paginated := ((change (.paginate size page)).run d).state
    ((fetchPage size page timeout).run d).state = paginated ∨
      ((fetchPage size page timeout).run d).state =
        ((Desk.execute timeout).run paginated).state := by
  intro paginated
  have hpage : paginated = ((Desk.onBuilder (Builder.paginate size page)).run d).state :=
    state_change (.paginate size page) d
  have hfetch : ((fetchPage size page timeout).run d).state =
      ((Desk.fetchPage size page timeout).run d).state :=
    (Desk.run_bind_pure (Desk.fetchPage size page timeout) Product.value d).1
  rw [hfetch, hpage, Desk.fetchPage]
  cases hr : ((Desk.onBuilder (Builder.paginate size page)).run d).result with
  | error e => exact Or.inl (by rw [run_bind_of_error hr])
  | ok x => exact Or.inr (by rw [run_bind_of_ok hr])

/-- Apart from its call a use can only consume the builder. -/
theorem builder_run (u : Use) (d : Desk) :
    (u.run d).state.builder =
      { u.changed d.builder with consumed := (u.run d).state.builder.consumed } := by
  cases u with
  | change c =>
      rw [state_change]
      rfl
  | params =>
      rw [(run_reading rfl d).1]
      rfl
  | snapshot =>
      rw [(run_reading rfl d).1]
      rfl
  | execute t =>
      rw [state_execute]
      exact Desk.builder_execute t d
  | fetchPage s p t =>
      have hpage := congrArg Desk.builder (state_change (.paginate s p) d)
      rcases state_fetchPage s p t d with h | h
      · rw [h, hpage]
        rfl
      · rw [h, Desk.builder_execute, hpage]
        rfl

theorem document_run (u : Use) (d : Desk) :
    (u.run d).state.builder.document = (u.changed d.builder).document := by
  rw [builder_run]

theorem consumed_changed (u : Use) (b : Builder) : (u.changed b).consumed = b.consumed := by
  unfold changed
  split
  · rename_i c _
    exact (c.harmless_apply b).1
  · rfl

end Use

end DocSearch
