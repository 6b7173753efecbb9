import DocSearch.Builder.Session
import DocSearch.Proofs.Builder.Outputs

/-!
# Builders that take turns

Several builders share one store in memory and are used in turns. Whatever the turns are, the store
records the compiled searches of the builders that were executed, in the order of their execution
and one for each of them.
-/

namespace DocSearch

open DocSearch.Action

namespace Session

/-- One turn: the builder of that name is put to a use. -/
def turn (s : Session) (t : String × Use) : Session :=
  match s.seat? t.1 with
  | some seat => ((use t.1 seat t.2).run s).state
  | none => s

/-- The session after turns one after the other, going on after those that fail. -/
def after (s : Session) (ts : List (String × Use)) : Session :=
  ts.foldl turn s

/-- There is a builder of that name, and it is consumed. -/
def isConsumed (s : Session) (id : String) : Bool :=
  (s.seat? id).any fun t => t.builder.consumed

/-- The builders that the turns consume, in the order in which they do. -/
def executed : Session → List (String × Use) → List String
  | _, [] => []
  | s, t :: ts =>
    if !s.isConsumed t.1 && (s.turn t).isConsumed t.1 then t.1 :: executed (s.turn t) ts
    else executed (s.turn t) ts

variable {s : Session} {id j : String} {u : Use} {seat : Seat} {ts : List (String × Use)}

theorem isConsumed_iff :
    s.isConsumed id = true ↔ ∃ seat, s.seat? id = some seat ∧ seat.builder.consumed = true := by
  unfold isConsumed
  cases s.seat? id <;> simp

@[simp] theorem after_nil (s : Session) : s.after [] = s := rfl

@[simp] theorem after_cons (s : Session) (t : String × Use) (ts : List (String × Use)) :
    s.after (t :: ts) = (s.turn t).after ts := rfl

/-! ## One turn -/

theorem seat?_putSeat (s : Session) (id j : String) (seat : Seat) :
    (putSeat id seat s).seat? j = if id = j then some seat else s.seat? j := by
  simp [putSeat, seat?, Entries.get?_put]

theorem turn_of_none (h : s.seat? id = none) (u : Use) : s.turn (id, u) = s := by
  simp [turn, h]

theorem turn_of_some (h : s.seat? id = some seat) (u : Use) :
    let d := (u.run ⟨seat.builder, seat.link, s.site⟩).state
    s.turn (id, u) = putSeat id ⟨d.builder, d.link⟩ { s with site := d.site } := by
  simp only [turn, h]
  rfl

theorem site_turn (h : s.seat? id = some seat) (u : Use) :
    (s.turn (id, u)).site = (u.run ⟨seat.builder, seat.link, s.site⟩).state.site := by
  rw [turn_of_some h]
  rfl

theorem seat?_turn_self (h : s.seat? id = some seat) (u : Use) :
    let d := (u.run ⟨seat.builder, seat.link, s.site⟩).state
    (s.turn (id, u)).seat? id = some ⟨d.builder, d.link⟩ := by
  intro d
  rw [turn_of_some h, seat?_putSeat, if_pos rfl]

theorem seat?_turn_of_ne (h : id ≠ j) (u : Use) : (s.turn (id, u)).seat? j = s.seat? j := by
  cases hs : s.seat? id with
  | none => rw [turn_of_none hs]
  | some seat =>
      rw [turn_of_some hs, seat?_putSeat, if_neg h]
      rfl

theorem seat?_turn_of_consumed (h : s.isConsumed j = true) (t : String × Use) :
    (s.turn t).seat? j = s.seat? j := by
  obtain ⟨id, u⟩ := t
  by_cases hid : id = j
  · subst hid
    obtain ⟨seat, hseat, hconsumed⟩ := isConsumed_iff.mp h
    have hstate := (Use.run_of_consumed (d := ⟨seat.builder, seat.link, s.site⟩) hconsumed u).1
    rw [seat?_turn_self hseat, hstate, hseat]
  · exact seat?_turn_of_ne hid u

theorem isConsumed_turn (h : s.isConsumed j = true) (t : String × Use) :
    (s.turn t).isConsumed j = true := by
  unfold isConsumed at h ⊢
  rw [seat?_turn_of_consumed h]
  exact h

theorem isConsumed_turn_of_ne (h : id ≠ j) (u : Use) :
    (s.turn (id, u)).isConsumed j = s.isConsumed j := by
  rw [isConsumed, seat?_turn_of_ne h, isConsumed]

/-! ## Execution order -/

theorem seat?_after_of_consumed (h : s.isConsumed j = true) (ts : List (String × Use)) :
    (s.after ts).seat? j = s.seat? j := by
  induction ts generalizing s with
  | nil => rfl
  | cons t ts ih => rw [after_cons, ih (isConsumed_turn h t), seat?_turn_of_consumed h]

theorem isConsumed_after (h : s.isConsumed j = true) (ts : List (String × Use)) :
    (s.after ts).isConsumed j = true := by
  unfold isConsumed at h ⊢
  rw [seat?_after_of_consumed h]
  exact h

/-- The turns consume those builders that are consumed after but not before them. -/
theorem mem_executed_iff :
    id ∈ s.executed ts ↔ s.isConsumed id = false ∧ (s.after ts).isConsumed id = true := by
  induction ts generalizing s with
  | nil => cases h : s.isConsumed id <;> simp [executed, h]
  | cons t ts ih =>
      obtain ⟨j, u⟩ := t
      by_cases hid : j = id
      · subst hid
        cases hc : s.isConsumed j with
        | true => simp [executed, hc, ih, isConsumed_turn hc]
        | false =>
            cases ht : (s.turn (j, u)).isConsumed j with
            | true => simp [executed, hc, ht, isConsumed_after ht]
            | false => simp [executed, hc, ht, ih]
      · rw [after_cons, ← isConsumed_turn_of_ne hid u, ← ih, executed]
        split
        · simp [Ne.symm hid]
        · rfl

theorem nodup_executed (s : Session) (ts : List (String × Use)) : (s.executed ts).Nodup := by
  induction ts generalizing s with
  | nil => exact List.nodup_nil
  | cons t ts ih =>
      unfold executed
      split
      · rename_i h
        rw [Bool.and_eq_true] at h
        refine List.nodup_cons.mpr ⟨fun hmem => ?_, ih _⟩
        rw [mem_executed_iff, h.2] at hmem
        cases hmem.1
      · exact ih _

/-! ## Recorded searches -/

/-- All builders hold values that can be copied and share a store in memory, which has recorded
these searches. -/
structure Shares (s : Session) (ps : List Value) : Prop where
  records : s.site.exchange.Records ps
  link : ∀ id t, s.seat? id = some t → t.link = .shared
  copyable : ∀ id t, s.seat? id = some t → t.builder.document.Copyable

/-- What the document of the builder of that name compiles to, in containers of its own. -/
def compiled? (s : Session) (id : String) : Option Value := do
  let t ← s.seat? id
  let x ← t.builder.document.snapshot.toOption
  return x.params

theorem compiled?_of_snapshot {x : Snapshot} (hseat : s.seat? id = some seat)
    (hx : seat.builder.document.snapshot = .ok x) : s.compiled? id = some x.params := by
  simp [compiled?, hseat, hx]

variable {ps : List Value}

theorem Shares.put {qs : List Value} (h : s.Shares ps) (hseat : s.seat? id = some seat)
    (hd : (u.run ⟨seat.builder, seat.link, s.site⟩).state.Shares qs)
    (hdoc : (u.run ⟨seat.builder, seat.link, s.site⟩).state.builder.document.Copyable) :
    (s.turn (id, u)).Shares qs where
  records := by
    rw [site_turn hseat]
    exact hd.2
  link j t ht := by
    by_cases hid : id = j
    · subst hid
      rw [seat?_turn_self hseat] at ht
      obtain rfl := Option.some.inj ht
      exact hd.1
    · exact h.link j t (seat?_turn_of_ne hid u ▸ ht)
  copyable j t ht := by
    by_cases hid : id = j
    · subst hid
      rw [seat?_turn_self hseat] at ht
      obtain rfl := Option.some.inj ht
      exact hdoc
    · exact h.copyable j t (seat?_turn_of_ne hid u ▸ ht)

/-- In a turn either no builder is consumed and no search recorded, or the builder of the turn is
consumed and what it compiles to is recorded. -/
theorem Shares.turn (h : s.Shares ps) (hu : u.Copyable) :
    ((s.turn (id, u)).Shares ps ∧ (s.turn (id, u)).isConsumed id = s.isConsumed id) ∨
      ∃ p, s.isConsumed id = false ∧ (s.turn (id, u)).isConsumed id = true ∧
        (s.turn (id, u)).compiled? id = some p ∧ (s.turn (id, u)).Shares (ps ++ [p]) := by
  cases hseat : s.seat? id with
  | none =>
      rw [turn_of_none hseat]
      exact Or.inl ⟨h, rfl⟩
  | some seat =>
      have hself := seat?_turn_self hseat u
      have hdoc := (h.copyable id seat hseat).changed hu
      have hdesk : Desk.Shares ⟨seat.builder, seat.link, s.site⟩ ps :=
        ⟨h.link id seat hseat, h.records⟩
      rcases Use.run_of_shares hdesk (h.copyable id seat hseat) hu with
        ⟨hd, hbuilder⟩ | ⟨x, hready, hd, hbuilder⟩
      · left
        refine ⟨h.put hseat hd ?_, ?_⟩
        · rw [hbuilder]
          exact hdoc
        · rw [isConsumed, hself, isConsumed, hseat]
          simp [hbuilder, Use.consumed_changed]
      · right
        have hopen := (Use.consumed_changed u seat.builder).symm.trans hready.1
        refine ⟨x.params, ?_, ?_, compiled?_of_snapshot hself ?_, h.put hseat hd ?_⟩
        · simp [isConsumed, hseat, hopen]
        · simp [isConsumed, hself, hbuilder]
        · simp only [hbuilder]
          exact hready.2.2
        · rw [hbuilder]
          exact hdoc

/-- The searches recorded in the course of the turns are those of the builders that the turns
execute, in the order of their execution. -/
theorem Shares.after (h : s.Shares ps)
    (hts : ∀ t ∈ ts, t.2.Copyable) :
    ∃ qs, (s.after ts).Shares (ps ++ qs) ∧
      (s.executed ts).map (s.after ts).compiled? = qs.map some := by
  induction ts generalizing s ps with
  | nil => exact ⟨[], by simpa using h, rfl⟩
  | cons t ts ih =>
      obtain ⟨id, u⟩ := t
      obtain ⟨hu, hts⟩ := List.forall_mem_cons.mp hts
      rcases h.turn hu with ⟨hturn, hsame⟩ | ⟨p, hopen, hconsumed, hcompiles, hturn⟩
      · obtain ⟨qs, hqs, hall⟩ := ih hturn hts
        refine ⟨qs, hqs, ?_⟩
        simpa [executed, hsame] using hall
      · obtain ⟨qs, hqs, hall⟩ := ih hturn hts
        rw [List.append_assoc] at hqs
        refine ⟨p :: qs, hqs, ?_⟩
        -- consumed in this turn, the builder keeps the document that was recorded
        have hfinal : ((s.turn (id, u)).after ts).compiled? id = some p := by
          rw [compiled?, seat?_after_of_consumed hconsumed]
          exact hcompiles
        simpa [executed, hopen, hconsumed, hfinal] using hall

/-- Executing a builder that is ready leaves its compiled search with the store. -/
theorem Shares.execute {x : Snapshot} (h : s.Shares ps) (hseat : s.seat? id = some seat)
    (hready : seat.builder.Ready x) (timeout : Value) :
    (s.turn (id, .execute timeout)).site.exchange.Records (ps ++ [x.params]) := by
  have hdesk : Desk.Shares ⟨seat.builder, seat.link, s.site⟩ ps :=
    ⟨h.link id seat hseat, h.records⟩
  have hcopy := fun y => (h.copyable id seat hseat).copyable_snapshot (s := y)
  rw [site_turn hseat, Use.state_execute]
  rcases Desk.execute_of_shares hdesk hcopy timeout with ⟨hnot, -⟩ | ⟨y, hy, hd, -⟩
  · exact absurd hready (hnot x)
  · obtain rfl := Except.ok.inj (hy.2.2.symm.trans hready.2.2)
    exact hd.2

/-- Several new builders share a store in memory and are used in turns, with arguments that can be
copied. A builder that compiles has a snapshot, which is the compiled search with lists in place of
all tuples and sets in its body, and the compiled search itself exactly if there are none. If it is
open and has an index, executing it leaves one more search with the store, the one of the snapshot.
In all the store has recorded what the executed builders compile to, in the order of their execution
and each of them once. -/
theorem outputs_agree {start : Session} (hstore : start.site.exchange.Records ps)
    (hnew : ∀ id t, start.seat? id = some t →
      t.link = .shared ∧ ∃ mode strict, t.builder = .new mode strict)
    (hts : ∀ t ∈ ts, t.2.Copyable) :
    let s := start.after ts
    ∃ qs, s.site.exchange.Records (ps ++ qs) ∧
      (start.executed ts).map s.compiled? = qs.map some ∧
      (start.executed ts).Nodup ∧ (∀ id, id ∈ start.executed ts ↔ s.isConsumed id = true) ∧
      ∀ id seat v, s.seat? id = some seat → seat.builder.params = .ok v →
        ∃ body x, v = .object [("index", seat.builder.document.index), ("body", body)] ∧
          seat.builder.document.snapshot = .ok x ∧
          x.params = .object [("index", seat.builder.document.index), ("body", body.listed)] ∧
          (x.params = v ↔ body.isListed = true) ∧
          (seat.builder.consumed = false → seat.builder.document.index.truthy = true →
            ∀ timeout, (s.turn (id, .execute timeout)).site.exchange.Records
              (ps ++ qs ++ [x.params])) := by
  intro s
  have hstart : start.Shares ps := by
    refine ⟨hstore, fun id t ht => (hnew id t ht).1, fun id t ht => ?_⟩
    obtain ⟨-, mode, strict, hb⟩ := hnew id t ht
    rw [hb]
    exact Document.Copyable.empty
  obtain ⟨qs, hs, hcompiled⟩ := hstart.after hts
  refine ⟨qs, hs.records, hcompiled, nodup_executed start ts, fun id => ?_, ?_⟩
  · rw [mem_executed_iff]
    refine and_iff_right ?_
    rw [← Bool.not_eq_true, isConsumed_iff]
    rintro ⟨t, ht, hc⟩
    obtain ⟨-, mode, strict, hb⟩ := hnew id t ht
    rw [hb] at hc
    cases hc
  · intro id seat v hseat hv
    have hdoc := hs.copyable id seat hseat
    obtain ⟨body, hbody, rfl⟩ := Document.params_eq_ok_iff.mp hv
    obtain ⟨x, hx⟩ := hdoc.exists_snapshot hbody
    obtain ⟨body', hbody', hparams⟩ := Document.params_of_snapshot hx
    obtain rfl := Except.ok.inj (hbody.symm.trans hbody')
    refine ⟨body, x, rfl, hx, hparams, ?_, fun hopen hindex timeout => ?_⟩
    · simp [hparams, Value.object, Value.listed_eq_self_iff]
    · exact hs.execute hseat ⟨hopen, hindex, hx⟩ timeout

/-- Of two builders the second one is executed first, and a second time in vain. -/
theorem outputs_agree_of_two_builders :
    ∃ (start : Session) (ts : List (String × Use)) (p q : Value),
      start.executed ts = ["b", "a"] ∧
        (start.after ts).site.exchange.Records [p, q] ∧
        (start.after ts).compiled? "b" = some p ∧ (start.after ts).compiled? "a" = some q := by
  let site : Site := ⟨⟨some (.memory .empty), .quiet⟩, .empty, .empty, .initial false⟩
  let start : Session := ⟨site, [("a", ⟨.new .raw false, .shared⟩),
    ("b", ⟨.new .decoded true, .shared⟩)], [], ⟨.str ""⟩⟩
  let ts : List (String × Use) := [("a", .change (.setIndex (.str "shop"))),
    ("a", .change (.addWhere (.str "tags") (.tuple [.str "red", .str "blue"]) (.str "=")
      (.str "terms"))),
    ("b", .execute .null), ("b", .change (.setIndex (.str "shop"))), ("b", .execute .null),
    ("a", .execute .null), ("b", .execute .null)]
  have hexecuted : start.executed ts = ["b", "a"] := by decide +kernel
  have hnew : ∀ id t, start.seat? id = some t →
      t.link = .shared ∧ ∃ mode strict, t.builder = .new mode strict := by
    intro id t ht
    simp only [start, seat?, Entries.get?_cons, Entries.get?_nil] at ht
    split at ht
    · obtain rfl := Option.some.inj ht
      exact ⟨rfl, _, _, rfl⟩
    · split at ht
      · obtain rfl := Option.some.inj ht
        exact ⟨rfl, _, _, rfl⟩
      · cases ht
  have hts : ∀ t ∈ ts, t.2.Copyable := by
    simp [ts, Use.Copyable, Use.call?, Call.Copyable, Call.arguments, Value.copyable,
      Value.copyableItems]
  obtain ⟨qs, hrecords, hcompiled, -⟩ := outputs_agree ⟨.empty, rfl, rfl⟩ hnew hts
  rw [hexecuted, List.map_cons, List.map_cons] at hcompiled
  obtain ⟨p, rest, rfl, hb, hrest⟩ := List.map_eq_cons_iff.mp hcompiled.symm
  obtain ⟨q, rest, rfl, ha, hnil⟩ := List.map_eq_cons_iff.mp hrest
  obtain rfl := List.map_eq_nil_iff.mp hnil
  exact ⟨start, ts, p, q, hexecuted, hrecords, hb.symm, ha.symm⟩

end Session

end DocSearch
