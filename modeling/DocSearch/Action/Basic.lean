import DocSearch.Action.Event

/-!
# Actions

An action reads and changes a state, emits events and either returns a value or fails. A failed action
keeps the changes and the events made before the failure; what comes after it does not happen. The
lemmas compute the outcome of each way to build an action.
-/

namespace DocSearch

structure Outcome (σ α : Type) where
  result : Except Error α
  state : σ
  events : List Event

def Action (σ α : Type) : Type := σ → Outcome σ α

namespace Action

variable {σ τ α β : Type}

def run (a : Action σ α) (s : σ) : Outcome σ α := a s

protected def pure (x : α) : Action σ α :=
  fun s => ⟨.ok x, s, []⟩

protected def bind (a : Action σ α) (f : α → Action σ β) : Action σ β := fun s =>
  let o := a s
  match o.result with
  | .ok x =>
    let p := f x o.state
    ⟨p.result, p.state, o.events ++ p.events⟩
  | .error e => ⟨.error e, o.state, o.events⟩

instance : Monad (Action σ) where
  pure := Action.pure
  bind := Action.bind

/-- Fails without changing anything. -/
def fail (e : Error) : Action σ α :=
  fun s => ⟨.error e, s, []⟩

def recover (a : Action σ α) (f : Error → Action σ α) : Action σ α := fun s =>
  let o := a s
  match o.result with
  | .ok x => ⟨.ok x, o.state, o.events⟩
  | .error e =>
    let p := f e o.state
    ⟨p.result, p.state, o.events ++ p.events⟩

instance : MonadExceptOf Error (Action σ) where
  throw := fail
  tryCatch := recover

instance : MonadStateOf σ (Action σ) where
  get := fun s => ⟨.ok s, s, []⟩
  set s := fun _ => ⟨.ok (), s, []⟩
  modifyGet f := fun s => let r := f s; ⟨.ok r.1, r.2, []⟩

/-- A computation that has no state and may fail. -/
def ofExcept (x : Except Error α) : Action σ α :=
  fun s => ⟨x, s, []⟩

instance : MonadLift (Except Error) (Action σ) := ⟨ofExcept⟩

def emit (e : Event) : Action σ Unit :=
  fun s => ⟨.ok (), s, [e]⟩

def log (l : Level) (c : Channel) (message : String) : Action σ Unit :=
  emit (.logged ⟨l.severity, c.name, message⟩)

/-- An action on a part of the state. -/
def within (view : σ → τ) (put : τ → σ → σ) (a : Action τ α) : Action σ α := fun s =>
  let o := a (view s)
  ⟨o.result, put o.state s, o.events⟩

theorem ext {a b : Action σ α} (h : ∀ s, a.run s = b.run s) : a = b := funext h

@[simp] theorem run_pure (x : α) (s : σ) : (pure x : Action σ α).run s = ⟨.ok x, s, []⟩ := rfl

theorem run_bind (a : Action σ α) (f : α → Action σ β) (s : σ) :
    (a >>= f).run s =
      match (a.run s).result with
      | .ok x =>
        let p := (f x).run (a.run s).state
        ⟨p.result, p.state, (a.run s).events ++ p.events⟩
      | .error e => ⟨.error e, (a.run s).state, (a.run s).events⟩ := rfl

theorem run_bind_of_ok {a : Action σ α} {f : α → Action σ β} {s : σ} {x : α}
    (h : (a.run s).result = .ok x) :
    (a >>= f).run s =
      let p := (f x).run (a.run s).state
      ⟨p.result, p.state, (a.run s).events ++ p.events⟩ := by
  rw [run_bind, h]

theorem run_bind_of_error {a : Action σ α} {f : α → Action σ β} {s : σ} {e : Error}
    (h : (a.run s).result = .error e) :
    (a >>= f).run s = ⟨.error e, (a.run s).state, (a.run s).events⟩ := by
  rw [run_bind, h]

@[simp] theorem run_get (s : σ) : (get : Action σ σ).run s = ⟨.ok s, s, []⟩ := rfl

@[simp] theorem run_set (s t : σ) : (set t : Action σ Unit).run s = ⟨.ok (), t, []⟩ := rfl

@[simp] theorem run_modify (f : σ → σ) (s : σ) :
    (modify f : Action σ Unit).run s = ⟨.ok (), f s, []⟩ := rfl

@[simp] theorem run_throw (e : Error) (s : σ) :
    (throw e : Action σ α).run s = ⟨.error e, s, []⟩ := rfl

@[simp] theorem run_ofExcept (x : Except Error α) (s : σ) :
    (ofExcept x : Action σ α).run s = ⟨x, s, []⟩ := rfl

@[simp] theorem run_emit (e : Event) (s : σ) :
    (emit e : Action σ Unit).run s = ⟨.ok (), s, [e]⟩ := rfl

instance : LawfulMonad (Action σ) := LawfulMonad.mk' (Action σ)
  (by
    intro α a
    apply ext
    intro s
    show (a >>= pure).run s = a.run s
    rw [run_bind]
    cases h : (a.run s).result <;> simp [← h])
  (by
    intro α β x f
    apply ext
    intro s
    rw [run_bind]
    simp)
  (by
    intro α β γ a f g
    apply ext
    intro s
    rw [run_bind, run_bind, run_bind]
    cases (a.run s).result with
    | error e => rfl
    | ok x =>
      simp only [run_bind]
      cases ((f x).run (a.run s).state).result <;> simp)

end Action

end DocSearch
