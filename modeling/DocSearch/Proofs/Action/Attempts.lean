import DocSearch.Proofs.Action.Outcomes

/-!
# Runs that go on after failures

Actions can be tried one after the other, whether those before them fail or not. The run itself
never fails: it tells how each of them ended.
-/

namespace DocSearch.Action

variable {σ α : Type}

/-- The action with its failure as a value. -/
def attempt (a : Action σ α) : Action σ (Except Error α) := fun s =>
  ⟨.ok (a.run s).result, (a.run s).state, (a.run s).events⟩

def attempts : List (Action σ α) → Action σ (List (Except Error α))
  | [] => pure []
  | a :: as => do
    let r ← a.attempt
    return r :: (← attempts as)

variable (a : Action σ α) (as : List (Action σ α)) (s : σ)

theorem state_attempts_cons :
    ((attempts (a :: as)).run s).state = ((attempts as).run (a.run s).state).state := by
  change ((attempts as >>= fun rs => pure ((a.run s).result :: rs)).run (a.run s).state).state = _
  rw [run_bind]
  cases ((attempts as).run (a.run s).state).result <;> rfl

theorem events_attempts_cons :
    ((attempts (a :: as)).run s).events =
      (a.run s).events ++ ((attempts as).run (a.run s).state).events := by
  change (a.run s).events ++
    ((attempts as >>= fun rs => pure ((a.run s).result :: rs)).run (a.run s).state).events = _
  rw [run_bind]
  cases ((attempts as).run (a.run s).state).result <;> simp

theorem steady_attempts {ρ : Type} {view : σ → ρ} {p : Event → Prop} {as : List (Action σ α)}
    (h : ∀ a ∈ as, a.Steady view p) : (attempts as).Steady view p := by
  induction as with
  | nil => exact steady_pure _
  | cons a as ih =>
      obtain ⟨ha, has⟩ := List.forall_mem_cons.mp h
      have hattempt : a.attempt.Steady view p := ha
      exact hattempt.bind fun r => (ih has).bind fun rs => steady_pure _

/-! ## Invariants -/

variable {β : Type} {I : σ → Prop}

/-- What holds before the action holds after it, however it ends. -/
def Keeps (I : σ → Prop) (a : Action σ α) : Prop := ∀ s, I s → I (a.run s).state

theorem keeps_pure (x : α) : (pure x : Action σ α).Keeps I := fun _ hs => hs

theorem keeps_get : (get : Action σ σ).Keeps I := fun _ hs => hs

theorem keeps_lift (x : Except Error α) : (liftM x : Action σ α).Keeps I := fun _ hs => hs

theorem keeps_modify {f : σ → σ} (h : ∀ s, I s → I (f s)) : (modify f : Action σ Unit).Keeps I := h

theorem Keeps.bind {a : Action σ α} {f : α → Action σ β} (ha : a.Keeps I)
    (hf : ∀ x, (f x).Keeps I) : (a >>= f).Keeps I := by
  intro s hs
  cases h : (a.run s).result with
  | ok x =>
      rw [run_bind_of_ok h]
      exact hf x _ (ha s hs)
  | error e =>
      rw [run_bind_of_error h]
      exact ha s hs

theorem keeps_ite {c : Prop} [Decidable c] {a b : Action σ α} (ha : a.Keeps I) (hb : b.Keeps I) :
    (if c then a else b).Keeps I := by
  split
  · exact ha
  · exact hb

theorem keeps_attempts {as : List (Action σ α)} (h : ∀ a ∈ as, a.Keeps I) :
    (attempts as).Keeps I := by
  induction as with
  | nil => exact keeps_pure _
  | cons a as ih =>
      obtain ⟨ha, has⟩ := List.forall_mem_cons.mp h
      have hattempt : a.attempt.Keeps I := ha
      exact hattempt.bind fun r => (ih has).bind fun rs => keeps_pure _

end DocSearch.Action
