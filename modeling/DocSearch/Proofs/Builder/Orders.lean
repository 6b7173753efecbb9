import DocSearch.Proofs.Builder.Compilation
import DocSearch.Proofs.Builder.Failures

/-!
# Orders that are refused

Pairs of field and direction are appended to the order one after the other, each as soon as its own
direction has been read. A refused direction therefore ends the call after the pairs in front of it
have been appended, and the call is all or nothing only if there are no such pairs.
-/

namespace DocSearch

open DocSearch.Action

namespace Builder

variable {os ws : List (Value × Value)} {name given orders : Value} {b b' : Builder} {e : Error}

def ordered (b : Builder) (ws : List (Value × Value)) : Builder :=
  { b with document := { b.document with sort := b.document.sort ++ ws } }

@[simp] theorem ordered_nil (b : Builder) : b.ordered [] = b := by
  simp [ordered]

@[simp] theorem ordered_ordered (b : Builder) (us ws : List (Value × Value)) :
    (b.ordered us).ordered ws = b.ordered (us ++ ws) := by
  simp [ordered]

@[simp] theorem sort_ordered (b : Builder) (ws : List (Value × Value)) :
    (b.ordered ws).document.sort = b.document.sort ++ ws := rfl

/-- The first direction that is refused, for the reason `e`, stands behind pairs that read as `ws`.
-/
def RefusedAfter (os ws : List (Value × Value)) (e : Error) : Prop :=
  ∃ front name given back, os = front ++ (name, given) :: back ∧ directed front = .ok ws ∧
    direction given = .error e

theorem not_refusedAfter_nil : ¬ RefusedAfter [] ws e := by
  rintro ⟨front, name, given, back, h, -⟩
  cases front <;> cases h

theorem refusedAfter_cons :
    RefusedAfter ((name, given) :: os) ws e ↔
      (direction given = .error e ∧ ws = []) ∨
        ∃ w us, direction given = .ok w ∧ RefusedAfter os us e ∧ ws = (name, w) :: us := by
  constructor
  · rintro ⟨front, n, g, back, hos, hws, he⟩
    rcases List.cons_eq_append_iff.mp hos with ⟨rfl, hhead⟩ | ⟨rest, rfl, rfl⟩
    · obtain ⟨⟨rfl, rfl⟩, rfl⟩ := List.cons_eq_cons.mp hhead
      exact Or.inl ⟨he, (Except.ok.inj hws).symm⟩
    · obtain ⟨w, hw, hws⟩ := Except.bind_eq_ok_iff.mp hws
      obtain ⟨us, hus, hws⟩ := Except.bind_eq_ok_iff.mp hws
      exact Or.inr ⟨w, us, hw, ⟨rest, n, g, back, rfl, hus, he⟩, (Except.ok.inj hws).symm⟩
  · rintro (⟨he, rfl⟩ | ⟨w, us, hw, ⟨front, n, g, back, rfl, hus, he⟩, rfl⟩)
    · exact ⟨[], name, given, os, rfl, rfl, he⟩
    · refine ⟨(name, given) :: front, n, g, back, rfl, ?_, he⟩
      rw [directed, hw, Except.ok_bind, hus]
      rfl

/-- Appending stops at the first refused direction and keeps what stands in front of it. -/
theorem fails_appendOrders_iff :
    (appendOrders os).Fails b e b' ↔ ∃ ws, RefusedAfter os ws e ∧ b.ordered ws = b' := by
  induction os generalizing b with
  | nil => simp [appendOrders, not_refusedAfter_nil]
  | cons o os ih =>
      obtain ⟨name, given⟩ := o
      have hstep (w : Value) :
          (modifyDocument (fun d => { d with sort := d.sort ++ [(name, w)] }) >>=
            fun _ => appendOrders os).Fails b e b' ↔
              (appendOrders os).Fails (b.ordered [(name, w)]) e b' := Iff.rfl
      simp only [appendOrders, fails_lift_bind_iff, hstep, ih, refusedAfter_cons]
      constructor
      · rintro (⟨he, rfl⟩ | ⟨w, hw, us, hus, rfl⟩)
        · exact ⟨[], Or.inl ⟨he, rfl⟩, ordered_nil b⟩
        · exact ⟨(name, w) :: us, Or.inr ⟨w, us, hw, hus, rfl⟩, by simp⟩
      · rintro ⟨ws, ⟨he, rfl⟩ | ⟨w, us, hw, hus, rfl⟩, rfl⟩
        · exact Or.inl ⟨he, (ordered_nil b).symm⟩
        · exact Or.inr ⟨w, hw, us, hus, by simp⟩

theorem fails_orderBy_iff :
    (Call.orderBy orders given).apply.Fails b e b' ↔
      (b.consumed = true ∧ .state .executed = e ∧ b = b') ∨
        b.consumed = false ∧ ((ordersOf orders given = .error e ∧ b = b') ∨
          ∃ os ws, ordersOf orders given = .ok os ∧ RefusedAfter os ws e ∧ b.ordered ws = b') := by
  simp only [Call.apply, orderBy]
  rw [fails_bind_iff]
  simp [fails_appendOrders_iff, and_assoc]

theorem ordered_of_fails (h : (Call.orderBy orders given).apply.Fails b e b') :
    b = b' ∨ ∃ os ws, ordersOf orders given = .ok os ∧ RefusedAfter os ws e ∧ b.ordered ws = b' := by
  rcases fails_orderBy_iff.mp h with ⟨-, -, h⟩ | ⟨-, ⟨-, h⟩ | h⟩
  · exact Or.inl h
  · exact Or.inl h
  · exact Or.inr h

/-- A call that fails changes nothing, or it has appended the pairs in front of a refused direction, or
it has added the clauses of the keywords in front of where they break off. -/
theorem fails_cases {c : Call} (h : c.apply.Fails b e b') :
    b = b' ∨ (∃ o g os ws, c = .orderBy o g ∧ ordersOf o g = .ok os ∧ RefusedAfter os ws e ∧
      b.ordered ws = b') ∨ c.BreaksOff e ∧ c.cut.apply.Returns b () b' := by
  by_cases hc : ∃ o g, c = .orderBy o g
  case pos =>
      obtain ⟨o, g, rfl⟩ := hc
      refine (ordered_of_fails h).imp_right fun ⟨os, ws, hos, hrefused, h⟩ => ?_
      exact Or.inl ⟨o, g, os, ws, rfl, hos, hrefused, h⟩
  case neg =>
      have horder : ∀ o g, c ≠ .orderBy o g := fun o g hog => hc ⟨o, g, hog⟩
      exact (Call.unchanged_or_cut horder h).imp_right Or.inr

/-- The call appends all of its pairs in their order, or it fails and leaves the order as it was. -/
def AllOrNothing (b : Builder) (orders given : Value) : Prop :=
  let c : Call := .orderBy orders given
  (∃ b', c.apply.Returns b () b' ∧ b'.document.sort = b.document.sort ++ c.orders) ∨
    ∃ e b', c.apply.Fails b e b' ∧ b'.document.sort = b.document.sort

theorem allOrNothing_iff :
    AllOrNothing b orders given ↔ (b.consumed = false → ∀ os ws e,
      ordersOf orders given = .ok os → RefusedAfter os ws e → ws = []) := by
  constructor
  · intro h hopen os ws e hos hrefused
    have hfails : (Call.orderBy orders given).apply.Fails b e (b.ordered ws) :=
      fails_orderBy_iff.mpr (Or.inr ⟨hopen, Or.inr ⟨os, ws, hos, hrefused, rfl⟩⟩)
    rcases h with ⟨b', hreturns, -⟩ | ⟨d, b', h, hsort⟩
    · exact absurd hreturns hfails.not_returns
    · rw [← hfails.state_eq h, sort_ordered] at hsort
      exact List.append_right_eq_self.mp hsort
  · intro h
    cases hr : ((Call.orderBy orders given).apply.run b).result with
    | ok x =>
        have hreturns : (Call.orderBy orders given).apply.Returns b x _ := ⟨hr, rfl⟩
        obtain ⟨-, -, ⟨ws, hws⟩, hstate⟩ := Call.returns_apply_iff.mp hreturns
        refine Or.inl ⟨_, hreturns, ?_⟩
        rw [← hstate, Call.change, hws, Call.orders_accepted hws]
        rfl
    | error e =>
        have hfails : (Call.orderBy orders given).apply.Fails b e _ := ⟨hr, rfl⟩
        refine Or.inr ⟨e, _, hfails, ?_⟩
        rcases fails_orderBy_iff.mp hfails with
          ⟨-, -, hstate⟩ | ⟨hopen, ⟨-, hstate⟩ | ⟨os, ws, hos, hrefused, hstate⟩⟩
        · rw [← hstate]
        · rw [← hstate]
        · obtain rfl := h hopen os ws e hos hrefused
          rw [← hstate, ordered_nil]

/-- A call that fails has appended the pairs in front of the first refused direction, and nothing if
it never got to the pairs. So it is all or nothing exactly if no pair stands in front of a refused
direction, or if the builder takes no calls any more. -/
theorem failed_order_keeps_front (b : Builder) (orders given : Value) :
    (∀ e b', (Call.orderBy orders given).apply.Fails b e b' → b = b' ∨
      ∃ os ws, ordersOf orders given = .ok os ∧ RefusedAfter os ws e ∧ b.ordered ws = b') ∧
      (AllOrNothing b orders given ↔ (b.consumed = false → ∀ os ws e,
        ordersOf orders given = .ok os → RefusedAfter os ws e → ws = [])) := by
  exact ⟨fun e b' h => ordered_of_fails h, allOrNothing_iff⟩

/-- The first of two fields stays in the order although the direction of the second one is refused.
-/
theorem first_field_stays_ordered :
    ¬ AllOrNothing (.new .raw false) (.object [("a", .str "asc"), ("b", .str "bad")])
      (.str "desc") := by
  rw [allOrNothing_iff]
  intro h
  have hrefused : RefusedAfter [(.str "a", .str "asc"), (.str "b", .str "bad")]
      [(.str "a", .str "asc")] (.argument (.direction (.str "bad") directions)) :=
    ⟨[(.str "a", .str "asc")], .str "b", .str "bad", [], rfl, by rfl, by rfl⟩
  cases h rfl _ _ _ rfl hrefused

end Builder

end DocSearch
