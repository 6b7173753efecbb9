import DocSearch.Proofs.Builder.Compilation
import DocSearch.Search.Matching

/-!
# Boolean queries

A boolean query whose clauses can all be held against a document decides by what they answer:
`Groups.selects` says how. From it follows what one more clause does to the documents that match.
-/

namespace DocSearch

/-! ## Lists of conditions -/

namespace Condition

variable {α : Type} {doc : Value} {pre : String} {xs : List α} {c : α → Condition} {p : α → Bool}

theorem allHold_map (h : ∀ x ∈ xs, holds doc pre (c x) = .ok (p x)) :
    allHold doc pre (xs.map c) = .ok (xs.all p) := by
  induction xs with
  | nil => rfl
  | cons x xs ih =>
      have hx := h x List.mem_cons_self
      have hxs := ih fun y hy => h y (List.mem_cons_of_mem x hy)
      cases hp : p x <;> simp [allHold, hx, hxs, hp]

theorem someHolds_map (h : ∀ x ∈ xs, holds doc pre (c x) = .ok (p x)) :
    someHolds doc pre (xs.map c) = .ok (xs.any p) := by
  induction xs with
  | nil => rfl
  | cons x xs ih =>
      have hx := h x List.mem_cons_self
      have hxs := ih fun y hy => h y (List.mem_cons_of_mem x hy)
      cases hp : p x <;> simp [someHolds, hx, hxs, hp]

theorem countHolding_map (h : ∀ x ∈ xs, holds doc pre (c x) = .ok (p x)) :
    countHolding doc pre (xs.map c) = .ok (xs.countP p) := by
  induction xs with
  | nil => rfl
  | cons x xs ih =>
      have hx := h x List.mem_cons_self
      have hxs := ih fun y hy => h y (List.mem_cons_of_mem x hy)
      cases hp : p x <;> simp [countHolding, hx, hxs, hp, Nat.add_comm]

end Condition

/-! ## The four groups of a query -/

namespace Groups

variable {α β : Type}

def map (f : α → β) (g : Groups α) : Groups β :=
  ⟨g.filter.map f, g.must.map f, g.mustNot.map f, g.should.map f, g.minimum⟩

/-- The parts of a boolean query under their names; a minimum that is not set has no entry. -/
def entries (g : Groups Value) : List (String × Value) :=
  [("filter", .list g.filter), ("must", .list g.must), ("must_not", .list g.mustNot),
    ("should", .list g.should)]
    ++ if g.minimum.isNull then [] else [("minimum_should_match", g.minimum)]

def body (g : Groups Value) : Value :=
  .object [("bool", .object g.entries)]

/-- How many optional clauses have to match, if there are any: what is set, or one unless the
documents have to match other clauses. -/
def required (g : Groups α) : Except Error Int :=
  if g.minimum.isNull then .ok (if g.must.isEmpty && g.filter.isEmpty then 1 else 0)
  else g.minimum.toInt

/-- Whether `n` optional clauses match, if there are any. -/
def enough (xs : List α) (p : α → Bool) (n : Int) : Bool :=
  xs.isEmpty || decide (n ≤ xs.countP p)

/-- Whether a query matches where `p` tells which clauses match and `n` optional ones have to. -/
def selects (g : Groups α) (p : α → Bool) (n : Int) : Bool :=
  g.must.all p && g.filter.all p && !g.mustNot.any p && enough g.should p n

theorem ofValue_body (g : Groups Value) :
    Condition.ofValue g.body =
      .bool (g.must.map .ofValue) (g.filter.map .ofValue) (g.mustNot.map .ofValue)
        (g.should.map .ofValue) g.required := by
  generalize hes : (g.entries.map fun e => (Value.str e.1, e.2)) = es
  have hbody : Condition.ofValue g.body =
      .bool (Condition.conditionsIn "must" es) (Condition.conditionsIn "filter" es)
        (Condition.conditionsIn "must_not" es) (Condition.conditionsIn "should" es)
        (Condition.required es) := by
    simp [body, Value.object, Condition.ofValue, Condition.envelopeIn, Condition.leaf?,
      Condition.nestedIn, Condition.boolIn, Value.hasField, Value.field?_word_cons, hes]
  have hfilter : Value.fieldD es "filter" .null = .list g.filter := by
    simp [← hes, entries, Value.fieldD, Value.field?_word_cons]
  have hmust : Value.fieldD es "must" .null = .list g.must := by
    simp [← hes, entries, Value.fieldD, Value.field?_word_cons]
  have hnot : Value.fieldD es "must_not" .null = .list g.mustNot := by
    simp [← hes, entries, Value.fieldD, Value.field?_word_cons]
  have hshould : Value.fieldD es "should" .null = .list g.should := by
    simp [← hes, entries, Value.fieldD, Value.field?_word_cons]
  have hminimum : Value.fieldD es "minimum_should_match" .null = g.minimum := by
    cases hk : g.minimum <;>
      simp [← hes, entries, Value.isNull, Value.fieldD, Value.field?_word_cons, hk]
  have hrequired : Condition.required es = g.required := by
    unfold Condition.required required
    rw [hminimum, hmust, hfilter]
    cases g.minimum with
    | null => cases g.must <;> cases g.filter <;> rfl
    | _ => rfl
  rw [hbody, hrequired]
  simp only [Condition.conditionsIn_eq, hmust, hfilter, hnot, hshould, Value.asList_list]

/-- A query whose clauses can all be held against a document decides by what they answer. -/
theorem holds_body {g : Groups α} {v : α → Value} {p : α → Bool} {n : Int} {doc : Value}
    {pre : String}
    (hp : ∀ k, ∀ x ∈ g.get k, (Condition.ofValue (v x)).holds doc pre = .ok (p x))
    (hn : g.required = .ok n) :
    (Condition.ofValue (g.map v).body).holds doc pre = .ok (g.selects p n) := by
  have hall (k : ClauseGroup) : Condition.allHold doc pre (((g.get k).map v).map .ofValue) =
      .ok ((g.get k).all p) := by
    rw [List.map_map]
    exact Condition.allHold_map (hp k)
  have hsome : Condition.someHolds doc pre ((g.mustNot.map v).map .ofValue) =
      .ok (g.mustNot.any p) := by
    rw [List.map_map]
    exact Condition.someHolds_map (hp .mustNot)
  have hcount : Condition.countHolding doc pre ((g.should.map v).map .ofValue) =
      .ok (g.should.countP p) := by
    rw [List.map_map]
    exact Condition.countHolding_map (hp .should)
  have hrequired : (g.map v).required = .ok n := by
    rw [← hn]
    simp [required, map]
  have henough : Condition.enough ((g.should.map v).map .ofValue) (g.should.countP p) (.ok n) =
      .ok (enough g.should p n) := by
    cases g.should <;> rfl
  have hmust := hall .must
  have hfilter := hall .filter
  simp only [get] at hmust hfilter
  rw [ofValue_body, Condition.holds, hrequired]
  simp only [map, hmust, hfilter, hsome, hcount, henough, Except.ok_bind, selects]
  cases g.must.all p <;> cases g.filter.all p <;> cases g.mustNot.any p <;> rfl

/-! ## One more clause -/

variable {g : Groups α} {x : α} {p : α → Bool} {n : Int}

/-- A clause that every match has to meet, or that one may not meet, does not change how many
optional clauses are needed, unless it is the first one to take the need away. -/
theorem required_add {k : ClauseGroup}
    (h : k = .mustNot ∨ k = .should ∨ g.minimum.isNull = false ∨ g.must ≠ [] ∨ g.filter ≠ []) :
    (g.add k x).required = g.required := by
  cases hk : g.minimum.isNull with
  | false => simp [required, add, hk]
  | true =>
      cases k with
      | filter | must =>
          have hne : (g.must.isEmpty && g.filter.isEmpty) = false := by
            rw [Bool.and_eq_false_iff, List.isEmpty_eq_false_iff, List.isEmpty_eq_false_iff]
            simpa [hk] using h
          simp [required, add, set, get, hk, hne]
      | mustNot | should => simp [required, add, set, get, hk]

theorem selects_add_of_all {k : ClauseGroup} (hk : k = .filter ∨ k = .must) :
    (g.add k x).selects p n = (g.selects p n && p x) := by
  rcases hk with rfl | rfl <;> cases hx : p x <;> simp [selects, add, set, get, hx]

theorem selects_add_mustNot : (g.add .mustNot x).selects p n = (g.selects p n && !p x) := by
  cases hx : p x <;> simp [selects, add, set, get, hx]

theorem exists_required (h : g.minimum = .null ∨ ∃ n, g.minimum = .int n) :
    ∃ n, g.required = .ok n := by
  rcases h with hnull | ⟨n, hn⟩
  · simp [required, hnull, Value.isNull]
  · simp [required, hn, Value.isNull, Value.toInt]

/-- Where there are no optional clauses it does not matter how many are needed. -/
theorem selects_of_should_nil (h : g.should = []) (m : Int) : g.selects p m = g.selects p n := by
  rw [selects, selects, h]
  rfl

theorem selects_add_should (hs : g.should ≠ []) (h : g.selects p n = true) :
    (g.add .should x).selects p n = true := by
  have hle : g.should.countP p ≤ (g.should ++ [x]).countP p := by
    rw [List.countP_append]
    exact Nat.le_add_right _ _
  have henough : enough g.should p n = true → enough (g.should ++ [x]) p n = true := by
    simp only [enough, Bool.or_eq_true, List.isEmpty_iff, hs, false_or, decide_eq_true_eq]
    intro hn
    right
    omega
  rw [selects, Bool.and_eq_true] at h
  rw [selects, Bool.and_eq_true]
  exact ⟨h.1, henough h.2⟩

end Groups

/-! ## Clauses against documents -/

namespace Clause

/-- Whether a document meets a clause, inside the path with the leading name `pre`. -/
def meets (doc : Value) (pre : String) (c : Clause) : Except Error Bool := do
  (Condition.ofValue (← c.render)).holds doc pre

variable {doc : Value} {pre : String}

theorem meets_eq_ok_iff {c : Clause} {b : Bool} :
    c.meets doc pre = .ok b ↔
      ∃ v, c.render = .ok v ∧ (Condition.ofValue v).holds doc pre = .ok b :=
  Except.bind_eq_ok_iff

/-- A query of clauses that can be held against a document can be held against it. -/
theorem meets_bool {g : Groups Clause} {p : Clause → Bool} {n : Int}
    (hp : ∀ k, ∀ d ∈ g.get k, d.meets doc pre = .ok (p d)) (hn : g.required = .ok n) :
    (bool g).meets doc pre = .ok (g.selects p n) := by
  let v (d : Clause) : Value := d.render.toOption.getD .null
  have hv (k : ClauseGroup) (d : Clause) (hd : d ∈ g.get k) : d.render = .ok (v d) := by
    obtain ⟨w, hw, -⟩ := meets_eq_ok_iff.mp (hp k d hd)
    simp [v, hw]
  have hall (k : ClauseGroup) : renderAll (g.get k) = .ok ((g.get k).map v) := by
    have h := renderAll_map_ok (hv k)
    rwa [List.map_id'] at h
  have hrender : (bool g).render = .ok (g.map v).body := by
    have hf := hall .filter
    have hm := hall .must
    have hn := hall .mustNot
    have hs := hall .should
    simp only [Groups.get] at hf hm hn hs
    simp only [render, hf, hm, hn, hs, Except.ok_bind]
    rfl
  refine meets_eq_ok_iff.mpr ⟨_, hrender, Groups.holds_body ?_ hn⟩
  intro k d hd
  obtain ⟨w, hw, hholds⟩ := meets_eq_ok_iff.mp (hp k d hd)
  rw [hv k d hd] at hw
  exact Except.ok.inj hw ▸ hholds

/-- What one more clause does to the documents that match a query. -/
theorem meets_add {g : Groups Clause} {c : Clause}
    (hg : ∀ k, ∀ d ∈ g.get k, ∃ b, d.meets doc pre = .ok b) (hc : ∃ b, c.meets doc pre = .ok b)
    (hmin : g.minimum = .null ∨ ∃ n, g.minimum = .int n) :
    ∃ b m : Bool, (bool g).meets doc pre = .ok b ∧ c.meets doc pre = .ok m ∧
      (∀ k, k = .filter ∨ k = .must →
        g.should = [] ∨ g.minimum ≠ .null ∨ g.must ≠ [] ∨ g.filter ≠ [] →
          (bool (g.add k c)).meets doc pre = .ok (b && m)) ∧
      (bool (g.add .mustNot c)).meets doc pre = .ok (b && !m) ∧
      (g.should ≠ [] → b = true → (bool (g.add .should c)).meets doc pre = .ok true) := by
  let p (d : Clause) : Bool := (d.meets doc pre).toOption.getD false
  have hp {d : Clause} (h : ∃ b, d.meets doc pre = .ok b) : d.meets doc pre = .ok (p d) := by
    obtain ⟨b, hb⟩ := h
    simp [p, hb]
  have hadd (k l : ClauseGroup) : ∀ d ∈ (g.add k c).get l, d.meets doc pre = .ok (p d) := by
    intro d hd
    rw [Groups.get_add, List.mem_append] at hd
    rcases hd with hd | hd
    · exact hp (hg l d hd)
    · split at hd
      · exact List.mem_singleton.mp hd ▸ hp hc
      · cases hd
  obtain ⟨n, hn⟩ := Groups.exists_required hmin
  refine ⟨g.selects p n, p c, meets_bool (fun k d hd => hp (hg k d hd)) hn, hp hc, ?_, ?_, ?_⟩
  · intro k hk hcases
    obtain ⟨m, hm⟩ := (g.add k c).exists_required (by rwa [Groups.add, Groups.minimum_set])
    have hmeets := meets_bool (hadd k) hm
    rw [Groups.selects_add_of_all hk] at hmeets
    -- Without optional clauses the needed number may change, but nobody asks for it.
    rcases hcases with hs | hothers
    · rwa [Groups.selects_of_should_nil hs] at hmeets
    · have hnull : g.minimum ≠ .null → g.minimum.isNull = false := by
        cases g.minimum <;> simp [Value.isNull]
      rw [Groups.required_add (.inr (.inr (hothers.imp_left hnull))), hn] at hm
      rwa [Except.ok.inj hm]
  · rw [← Groups.selects_add_mustNot]
    exact meets_bool (hadd .mustNot) ((Groups.required_add (.inl rfl)).trans hn)
  · intro hs hb
    rw [← Groups.selects_add_should hs hb]
    exact meets_bool (hadd .should) ((Groups.required_add (.inr (.inl rfl))).trans hn)

theorem meets_add_of_optional_clause :
    let doc : Value := .object [("n", .int 1), ("colour", .str "red")]
    let green : Clause := .ofField (.str "colour") (.str "green")
    let red : Clause := .ofField (.str "colour") (.str "red")
    let g : Groups Clause := ⟨[.ofField (.str "n") (.int 1)], [], [], [green], .null⟩
    (bool (g.add .must red)).meets doc "" = .ok true ∧
      (bool (g.add .filter green)).meets doc "" = .ok false ∧
      (bool (g.add .mustNot red)).meets doc "" = .ok false ∧
      (bool (g.add .should red)).meets doc "" = .ok true := by
  intro doc green red g
  have hn : (ofField (.str "n") (.int 1)).meets doc "" = .ok true :=
    Except.toOption_eq_some_iff.mp (by decide +kernel)
  have hgreen : green.meets doc "" = .ok false :=
    Except.toOption_eq_some_iff.mp (by decide +kernel)
  have hred : red.meets doc "" = .ok true := Except.toOption_eq_some_iff.mp (by decide +kernel)
  have hquery : (bool g).meets doc "" = .ok true :=
    Except.toOption_eq_some_iff.mp (by decide +kernel)
  have hg : ∀ k, ∀ d ∈ g.get k, ∃ b, d.meets doc "" = .ok b := by
    intro k d hd
    cases k with
    | filter => exact List.mem_singleton.mp hd ▸ ⟨_, hn⟩
    | should => exact List.mem_singleton.mp hd ▸ ⟨_, hgreen⟩
    | must | mustNot => cases hd
  obtain ⟨b, m, hb, hm, hall, hnot, hshould⟩ := meets_add hg ⟨_, hred⟩ (.inl rfl)
  obtain ⟨b', m', hb', hm', hall', -, -⟩ := meets_add hg ⟨_, hgreen⟩ (.inl rfl)
  rw [hquery] at hb hb'
  rw [hred] at hm
  rw [hgreen] at hm'
  cases hb
  cases hb'
  cases hm
  cases hm'
  have hfilter : g.filter ≠ [] := nofun
  exact ⟨hall .must (.inr rfl) (.inr (.inr (.inr hfilter))),
    hall' .filter (.inl rfl) (.inr (.inr (.inr hfilter))), hnot, hshould nofun rfl⟩

end Clause

end DocSearch
