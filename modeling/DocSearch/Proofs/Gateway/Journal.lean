import DocSearch.Proofs.Value.Named
import Mathlib.Data.List.Induction
import Mathlib.Data.Nat.Find

/-!
# Journals

What a store has to hold, told from the changes that were asked of it. A document is there if its
last write is not followed by its removal, and it takes its place in the list of its index with the
first write that no removal follows. An index is there if something made it after it was last
dropped.
-/

namespace DocSearch

inductive Change where
  | write (index id : String) (document : Value)
  | remove (index id : String)
  | make (index : String)
  | drop (index : String)
  | clear

namespace Change

def Writes (i k : String) (c : Change) : Prop := ∃ d, c = .write i k d

/-- The document goes, alone or with its index or with everything. -/
def Removes (i k : String) (c : Change) : Prop := c = .remove i k ∨ c = .drop i ∨ c = .clear

/-- The index is there afterwards; a write makes it. -/
def Makes (i : String) (c : Change) : Prop := c = .make i ∨ ∃ k, c.Writes i k

def Drops (i : String) (c : Change) : Prop := c = .drop i ∨ c = .clear

end Change

namespace Journal

open Change

/-- At the position a change of the first kind, and after it none of the second kind. -/
def StandsAt (opens closes : Change → Prop) (cs : List Change) (p : Nat) : Prop :=
  (∃ c, cs[p]? = some c ∧ opens c) ∧ ∀ q c, p < q → cs[q]? = some c → ¬ closes c

def Stands (opens closes : Change → Prop) (cs : List Change) : Prop :=
  ∃ p, StandsAt opens closes cs p

variable {opens closes : Change → Prop} {cs : List Change} {c : Change} {p : Nat}

theorem StandsAt.lt_length (h : StandsAt opens closes cs p) : p < cs.length := by
  obtain ⟨⟨c, hc, -⟩, -⟩ := h
  exact (List.getElem?_eq_some_iff.mp hc).1

/-- The last change stands if it opens, and an earlier one if it stood and the last one does not
close. -/
theorem standsAt_append_singleton :
    StandsAt opens closes (cs ++ [c]) p ↔
      (p = cs.length ∧ opens c) ∨ (StandsAt opens closes cs p ∧ ¬ closes c) := by
  have hlast : (cs ++ [c])[cs.length]? = some c := by simp
  have hearlier {q : Nat} (hq : q < cs.length) : (cs ++ [c])[q]? = cs[q]? :=
    List.getElem?_append_left hq
  have hlater {q : Nat} {e : Change} (hq : (cs ++ [c])[q]? = some e) : q ≤ cs.length := by
    obtain ⟨hlt, -⟩ := List.getElem?_eq_some_iff.mp hq
    rw [List.length_append, List.length_singleton] at hlt
    omega
  constructor
  · rintro ⟨⟨e, he, hopens⟩, hcloses⟩
    rcases Nat.lt_or_eq_of_le (hlater he) with hp | rfl
    · rw [hearlier hp] at he
      refine Or.inr ⟨⟨⟨e, he, hopens⟩, fun q f hq hf => ?_⟩, hcloses _ c hp hlast⟩
      obtain ⟨hlt, -⟩ := List.getElem?_eq_some_iff.mp hf
      exact hcloses q f hq ((hearlier hlt).trans hf)
    · rw [hlast] at he
      exact Or.inl ⟨rfl, Option.some.inj he ▸ hopens⟩
  · rintro (⟨rfl, hopens⟩ | ⟨hstands, hc⟩)
    · refine ⟨⟨c, hlast, hopens⟩, fun q e hq he => ?_⟩
      exact absurd (hlater he) (Nat.not_le_of_lt hq)
    · have hp := hstands.lt_length
      obtain ⟨⟨e, he, hopens⟩, hcloses⟩ := hstands
      refine ⟨⟨e, (hearlier hp).trans he, hopens⟩, fun q f hq hf => ?_⟩
      rcases Nat.lt_or_eq_of_le (hlater hf) with hlt | rfl
      · exact hcloses q f hq ((hearlier hlt).symm.trans hf)
      · rw [hlast] at hf
        exact Option.some.inj hf ▸ hc

theorem stands_append_singleton :
    Stands opens closes (cs ++ [c]) ↔ opens c ∨ (Stands opens closes cs ∧ ¬ closes c) := by
  unfold Stands
  simp only [standsAt_append_singleton]
  constructor
  · rintro ⟨p, ⟨-, hc⟩ | ⟨hp, hc⟩⟩
    · exact Or.inl hc
    · exact Or.inr ⟨⟨p, hp⟩, hc⟩
  · rintro (hc | ⟨⟨p, hp⟩, hc⟩)
    · exact ⟨_, Or.inl ⟨rfl, hc⟩⟩
    · exact ⟨p, Or.inr ⟨hp, hc⟩⟩

theorem not_stands_nil : ¬ Stands opens closes [] := by
  rintro ⟨p, hp⟩
  exact absurd hp.lt_length (Nat.not_lt_zero p)

/-- The last write of the document is not followed by its removal. -/
def Live (cs : List Change) (i k : String) : Prop :=
  Stands (Writes i k) (Removes i k) cs

/-- The last write of the document wrote this, and it is not followed by a removal. -/
def Holds (cs : List Change) (i k : String) (d : Value) : Prop :=
  Stands (· = .write i k d) (fun c => c.Writes i k ∨ c.Removes i k) cs

/-- The first write of the document that is not followed by its removal. -/
def ArrivesAt (cs : List Change) (i k : String) (p : Nat) : Prop :=
  StandsAt (Writes i k) (Removes i k) cs p ∧
    ∀ q < p, ¬ StandsAt (Writes i k) (Removes i k) cs q

/-- The index was made, and not dropped since. -/
def Made (cs : List Change) (i : String) : Prop :=
  Stands (Makes i) (Drops i) cs

variable {i k : String} {d : Value}

theorem made_append_singleton :
    Made (cs ++ [c]) i ↔ c.Makes i ∨ (Made cs i ∧ ¬ c.Drops i) :=
  stands_append_singleton

theorem live_iff_exists_holds : Live cs i k ↔ ∃ d, Holds cs i k d := by
  induction cs using List.reverseRecOn with
  | nil => simp [Live, Holds, not_stands_nil]
  | append_singleton cs c ih =>
      unfold Live Holds at *
      simp only [stands_append_singleton, ih]
      by_cases hw : c.Writes i k
      · obtain ⟨d, rfl⟩ := hw
        simp [Writes]
      · have hne (d : Value) : c ≠ .write i k d := fun h => hw ⟨d, h⟩
        simp [hw, hne]

theorem exists_arrivesAt (h : Live cs i k) : ∃ p, ArrivesAt cs i k p := by
  classical
  exact ⟨Nat.find h, Nat.find_spec h, fun q hq => Nat.find_min h hq⟩

/-- A change that does not remove the document leaves its place. -/
theorem ArrivesAt.append_singleton (h : ArrivesAt cs i k p) (hc : ¬ c.Removes i k) :
    ArrivesAt (cs ++ [c]) i k p := by
  refine ⟨standsAt_append_singleton.mpr (Or.inr ⟨h.1, hc⟩), fun q hq hstands => ?_⟩
  rcases standsAt_append_singleton.mp hstands with ⟨rfl, -⟩ | ⟨hstands, -⟩
  · exact absurd hq (Nat.lt_asymm h.1.lt_length)
  · exact h.2 q hq hstands

/-- A document that is not there comes last when it is written. -/
theorem arrivesAt_length (h : ¬ Live cs i k) (d : Value) :
    ArrivesAt (cs ++ [.write i k d]) i k cs.length := by
  refine ⟨standsAt_append_singleton.mpr (Or.inl ⟨rfl, d, rfl⟩), fun q hq hstands => ?_⟩
  rcases standsAt_append_singleton.mp hstands with ⟨rfl, -⟩ | ⟨hstands, -⟩
  · exact Nat.lt_irrefl _ hq
  · exact h ⟨q, hstands⟩

/-! ## The documents of an index -/

/-- The documents of an index as a journal tells them: each that is there once, as it was written
last, in the order of their arrival. -/
structure Lists (cs : List Change) (i : String) (es : List (String × Value)) : Prop where
  nodup : (Entries.keys es).Nodup
  holds : ∀ k d, Entries.get? es k = some d ↔ Holds cs i k d
  order : (Entries.keys es).Pairwise fun k l =>
    ∃ p q, ArrivesAt cs i k p ∧ ArrivesAt cs i l q ∧ p < q

namespace Lists

variable {es : List (String × Value)}

theorem nil : Lists [] i [] where
  nodup := List.nodup_nil
  holds k d := by simp [Holds, not_stands_nil]
  order := List.Pairwise.nil

theorem live_iff (h : Lists cs i es) : Live cs i k ↔ k ∈ Entries.keys es := by
  rw [Entries.mem_keys_iff, Entries.has, Option.isSome_iff_exists, live_iff_exists_holds]
  exact exists_congr fun d => (h.holds k d).symm

/-- Documents that are not removed stay in the order of their arrival. -/
theorem order_append_singleton (h : Lists cs i es) {ks : List String}
    (hks : List.Sublist ks (Entries.keys es)) (hc : ∀ k ∈ ks, ¬ c.Removes i k) :
    ks.Pairwise fun k l =>
      ∃ p q, ArrivesAt (cs ++ [c]) i k p ∧ ArrivesAt (cs ++ [c]) i l q ∧ p < q := by
  refine (h.order.sublist hks).imp_of_mem fun hk hl => ?_
  rintro ⟨p, q, hp, hq, hlt⟩
  exact ⟨p, q, hp.append_singleton (hc _ hk), hq.append_singleton (hc _ hl), hlt⟩

/-- A change of other documents changes nothing. -/
theorem frame (h : Lists cs i es) (hc : ∀ k, ¬ c.Writes i k ∧ ¬ c.Removes i k) :
    Lists (cs ++ [c]) i es where
  nodup := h.nodup
  holds k d := by
    have hne : c ≠ .write i k d := fun hd => (hc k).1 ⟨d, hd⟩
    rw [h.holds, Holds, Holds, stands_append_singleton]
    simp [hne, hc k]
  order := h.order_append_singleton (List.Sublist.refl _) fun k _ => (hc k).2

theorem write (h : Lists cs i es) (k : String) (d : Value) :
    Lists (cs ++ [.write i k d]) i (Entries.put es k d) where
  nodup := Entries.nodup_keys_put h.nodup k d
  holds l e := by
    rw [Entries.get?_put, Holds, stands_append_singleton]
    by_cases hkl : k = l
    · subst hkl
      simp [Writes]
    · have hother : ¬ ((Change.write i k d).Writes i l ∨ (Change.write i k d).Removes i l) := by
        simp [Writes, Removes, hkl]
      have hlookup := h.holds l e
      simp only [beq_eq_false_iff_ne.mpr hkl, Bool.false_eq_true, if_false, hlookup, Holds]
      simp [hother, hkl]
  order := by
    have hkeep := h.order_append_singleton (c := .write i k d) (List.Sublist.refl _) fun l _ => by
      simp [Removes]
    rw [Entries.keys_put]
    -- A document that is there keeps its place; another one comes after all that are there.
    split
    · exact hkeep
    · rename_i hk
      rw [← Entries.mem_keys_iff] at hk
      refine List.pairwise_append.mpr ⟨hkeep, List.pairwise_singleton _ _, fun j hj l hl => ?_⟩
      obtain rfl := List.mem_singleton.mp hl
      obtain ⟨p, hp⟩ := exists_arrivesAt (h.live_iff.mpr hj)
      refine ⟨p, cs.length, hp.append_singleton (by simp [Removes]), ?_, hp.1.lt_length⟩
      exact arrivesAt_length (fun hlive => hk (h.live_iff.mp hlive)) d

theorem remove (h : Lists cs i es) (k : String) :
    Lists (cs ++ [.remove i k]) i (Entries.erase es k) where
  nodup := Entries.nodup_keys_erase h.nodup k
  holds l e := by
    rw [Entries.get?_erase h.nodup, Holds, stands_append_singleton]
    by_cases hkl : k = l
    · subst hkl
      simp [Writes, Removes]
    · have hother : ¬ ((Change.remove i k).Writes i l ∨ (Change.remove i k).Removes i l) := by
        simp [Writes, Removes, hkl]
      have hlookup := h.holds l e
      simp only [beq_eq_false_iff_ne.mpr hkl, Bool.false_eq_true, if_false, hlookup, Holds]
      simp [hother]
  order := by
    rw [Entries.keys_erase]
    refine h.order_append_singleton List.erase_sublist fun l hl => ?_
    have hne : l ≠ k := (h.nodup.mem_erase_iff.mp hl).1
    simp [Removes, Ne.symm hne]

/-- Where all documents of the index go, none is left. -/
theorem emptied (hc : ∀ k, c.Removes i k) : Lists (cs ++ [c]) i [] where
  nodup := List.nodup_nil
  holds k d := by
    have hne : c ≠ .write i k d := by
      rintro rfl
      simpa [Removes] using hc k
    rw [Holds, stands_append_singleton]
    simp [hne, hc k]
  order := List.Pairwise.nil

end Lists

end Journal

end DocSearch
