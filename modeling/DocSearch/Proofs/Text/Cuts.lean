import DocSearch.Text.Blank
import DocSearch.Text.Cut
import Mathlib.Data.List.DropRight

/-!
# Cuts of texts that are put together

A text that was put together from two is cut in the first one if the separator occurs there, and in
the second one otherwise. What is trimmed at its end belongs to the second one, unless that goes
altogether.
-/

namespace DocSearch.Text

variable {d : Char} {cs xs ys front back : List Char} {p : Char → Bool}

/-! ## The first separator -/

theorem cutFirst_append_of_not_mem (h : d ∉ xs) :
    cutFirst d (xs ++ ys) = (xs ++ (cutFirst d ys).1, (cutFirst d ys).2) := by
  induction xs with
  | nil => rfl
  | cons x xs ih =>
      obtain ⟨hx, hxs⟩ := not_or.mp (List.mem_cons.not.mp h)
      rw [List.cons_append, cutFirst, if_neg fun hxd => hx hxd.symm, ih hxs, List.cons_append]

theorem cutFirst_append_cons (h : d ∉ front) :
    cutFirst d (front ++ d :: back) = (front, some back) := by
  rw [cutFirst_append_of_not_mem h, cutFirst, if_pos rfl, List.append_nil]

/-- A text without the separator, or what stands in front of the first one and after it. -/
theorem cutFirst_cases (d : Char) (cs : List Char) :
    (d ∉ cs ∧ cutFirst d cs = (cs, none)) ∨
      ∃ front back, cs = front ++ d :: back ∧ d ∉ front ∧ cutFirst d cs = (front, some back) := by
  by_cases h : d ∈ cs
  · obtain ⟨front, back, rfl, hfront⟩ := List.eq_append_cons_of_mem h
    exact Or.inr ⟨front, back, rfl, hfront, cutFirst_append_cons hfront⟩
  · exact Or.inl ⟨h, cutFirst_of_not_mem h⟩

theorem cutFirst_isPrefix (d : Char) (cs : List Char) : (cutFirst d cs).1 <+: cs := by
  rcases cutFirst_cases d cs with ⟨-, hcut⟩ | ⟨front, back, rfl, -, hcut⟩
  · exact ⟨[], by rw [hcut, List.append_nil]⟩
  · rw [hcut]
    exact List.prefix_append front (d :: back)

theorem cutFirst_isSuffix (d : Char) (cs : List Char) : (cutFirst d cs).2.getD [] <:+ cs := by
  rcases cutFirst_cases d cs with ⟨-, hcut⟩ | ⟨front, back, rfl, -, hcut⟩
  · rw [hcut]
    exact List.nil_suffix
  · rw [hcut]
    exact ⟨front ++ [d], by simp⟩

/-! ## The last separator -/

theorem afterLast_append_of_not_mem (h : d ∉ ys) :
    afterLast d (xs ++ ys) = afterLast d xs ++ ys := by
  have hreverse : d ∉ ys.reverse := fun hd => h (List.mem_reverse.mp hd)
  rw [afterLast, List.reverse_append, cutFirst_append_of_not_mem hreverse, List.reverse_append,
    List.reverse_reverse, afterLast]

theorem afterLast_isSuffix (d : Char) (cs : List Char) : afterLast d cs <:+ cs := by
  rcases cutFirst_cases d cs.reverse with ⟨-, hcut⟩ | ⟨front, back, hcs, -, hcut⟩
  · exact ⟨[], by rw [afterLast, hcut, List.nil_append, List.reverse_reverse]⟩
  · refine ⟨back.reverse ++ [d], ?_⟩
    rw [afterLast, hcut, ← List.reverse_reverse cs, hcs]
    simp

/-! ## The ends of a text -/

theorem mem_head?_of_isPrefix (h : xs <+: ys) (hd : d ∈ xs.head?) : d ∈ ys.head? := by
  obtain ⟨rest, rfl⟩ := h
  rw [List.head?_append, Option.mem_def.mp hd]
  rfl

theorem trimRight_isPrefix (p : Char → Bool) (cs : List Char) : trimRight p cs <+: cs :=
  List.rdropWhile_prefix p cs

theorem trimRight_trimRight (p : Char → Bool) (cs : List Char) :
    trimRight p (trimRight p cs) = trimRight p cs :=
  List.rdropWhile_idempotent p cs

theorem trimRight_eq_self_iff : trimRight p cs = cs ↔ ∀ c ∈ cs.getLast?, p c = false := by
  rw [trimRight, ← List.rdropWhile, List.rdropWhile_eq_self_iff]
  constructor
  · intro h c hc
    obtain ⟨ys, rfl⟩ := List.getLast?_eq_some_iff.mp hc
    simpa using h (by simp)
  · intro h hne
    have hlast := h _ (List.getLast?_eq_some_getLast hne)
    simp [hlast]

theorem trimRight_append (h : trimRight p xs = xs) :
    trimRight p (xs ++ ys) = xs ++ trimRight p ys := by
  have hxs : xs.reverse.dropWhile p = xs.reverse := by
    rw [← List.reverse_reverse (xs.reverse.dropWhile p)]
    exact congrArg List.reverse h
  rw [trimRight, List.reverse_append, List.dropWhile_append]
  split
  · rename_i hnone
    rw [hxs, List.reverse_reverse, trimRight, List.isEmpty_iff.mp hnone, List.reverse_nil,
      List.append_nil]
  · rw [List.reverse_append, List.reverse_reverse, trimRight]

end DocSearch.Text
