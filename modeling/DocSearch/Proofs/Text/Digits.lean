import DocSearch.Value.Access
import Mathlib.Algebra.Group.Int.Defs
import Mathlib.Algebra.Group.Nat.Defs

/-!
# Digits

The text of a whole number is its digits, after a minus sign if it is negative. The digits read back as
the number.
-/

namespace DocSearch.Text

variable {c : Char} {cs : List Char}

theorem asciiDigit?_eq (c : Char) :
    asciiDigit? c = if c.isDigit then some (c.toNat - '0'.toNat) else none := rfl

theorem isAsciiDigit_eq_isDigit (c : Char) : isAsciiDigit c = c.isDigit := by
  rw [isAsciiDigit, asciiDigit?_eq]
  cases c.isDigit <;> rfl

theorem toNat_of_isDigit (h : c.isDigit = true) : 48 ≤ c.toNat ∧ c.toNat ≤ 57 := by
  rw [Char.isDigit, Bool.and_eq_true, decide_eq_true_eq, decide_eq_true_eq] at h
  exact h

theorem isBlank_of_isDigit (h : c.isDigit = true) : isBlank c = false := by
  have hrange := toNat_of_isDigit h
  simp only [isBlank, blanks, Ranges.has_cons, Ranges.has_nil, Bool.or_eq_false_iff,
    Bool.and_eq_false_iff, decide_eq_false_iff_not, and_true]
  omega

theorem ofDigits_filterMap (h : ∀ c ∈ cs, c.isDigit = true) :
    ofDigits (cs.filterMap asciiDigit?) = Nat.ofDigitChars 10 cs 0 := by
  have hvalues : cs.filterMap asciiDigit? = cs.map fun c => c.toNat - '0'.toNat := by
    induction cs with
    | nil => rfl
    | cons c cs ih =>
        obtain ⟨hc, hcs⟩ := List.forall_mem_cons.mp h
        rw [List.filterMap_cons, asciiDigit?_eq, if_pos hc, ih hcs, List.map_cons]
  rw [hvalues, ofDigits, List.foldl_map, Nat.ofDigitChars_eq_foldl]

theorem ofDigits_toDigits (n : Nat) : ofDigits ((Nat.toDigits 10 n).filterMap asciiDigit?) = n := by
  have hdigits : ∀ c ∈ Nat.toDigits 10 n, c.isDigit = true :=
    fun c => Nat.isDigit_of_mem_toDigits (by decide) (by decide)
  rw [ofDigits_filterMap hdigits, Nat.ofDigitChars_ten_toDigits]

theorem all_isAsciiDigit_toDigits (n : Nat) : (Nat.toDigits 10 n).all isAsciiDigit = true := by
  rw [List.all_eq_true]
  intro c hc
  rw [isAsciiDigit_eq_isDigit]
  exact Nat.isDigit_of_mem_toDigits (by decide) (by decide) hc

/-- The characters of whole numbers. -/
def isNumeral (c : Char) : Bool :=
  c = '-' || c.isDigit

theorem toList_text_ofNat (n : Nat) : (Value.int n).text.toList = Nat.toDigits 10 n :=
  Nat.toList_repr

theorem toList_text_negSucc (n : Nat) :
    (Value.int (Int.negSucc n)).text.toList = '-' :: Nat.toDigits 10 (n + 1) := by
  have htext : (Value.int (Int.negSucc n)).text = "-" ++ (n + 1).repr := rfl
  rw [htext, String.toList_append, Nat.toList_repr]
  rfl

theorem isNumeral_of_mem_text {n : Int} (h : c ∈ (Value.int n).text.toList) :
    isNumeral c = true := by
  have hdigit (m : Nat) (hc : c ∈ Nat.toDigits 10 m) : isNumeral c = true := by
    rw [isNumeral, Nat.isDigit_of_mem_toDigits (by decide) (by decide) hc, Bool.or_true]
  cases n with
  | ofNat m => exact hdigit m (toList_text_ofNat m ▸ h)
  | negSucc m =>
      rw [toList_text_negSucc] at h
      rcases List.mem_cons.mp h with rfl | h
      · rfl
      · exact hdigit _ h

/-- The text of a whole number ends in a digit. -/
theorem isDigit_of_getLast?_text {n : Int} (h : (Value.int n).text.toList.getLast? = some c) :
    c.isDigit = true := by
  have hdigit (m : Nat) (hc : (Nat.toDigits 10 m).getLast? = some c) : c.isDigit = true :=
    Nat.isDigit_of_mem_toDigits (by decide) (by decide) (List.mem_of_getLast? hc)
  cases n with
  | ofNat m => exact hdigit m (toList_text_ofNat m ▸ h)
  | negSucc m =>
      rw [toList_text_negSucc, List.getLast?_cons_of_ne_nil Nat.toDigits_ne_nil] at h
      exact hdigit _ h

theorem text_int_ne_nil (n : Int) : (Value.int n).text.toList ≠ [] := by
  cases n with
  | ofNat m =>
      rw [Int.ofNat_eq_natCast, toList_text_ofNat]
      exact Nat.toDigits_ne_nil
  | negSucc m =>
      rw [toList_text_negSucc]
      exact List.cons_ne_nil _ _

end DocSearch.Text

namespace DocSearch.Value

open Number.Reading in
theorem written_int_eq_ok_iff {n : Int} {s : String} :
    (Value.int n).written = .ok s ↔
      (toString n.natAbs).length ≤ maxDigits ∧ (Value.int n).text = s := by
  rw [written_eq_ok_iff, isWritable, isShort, decide_eq_true_eq]

open Number.Reading in
theorem not_isWritable_int {n : Int} :
    ¬ (Value.int n).isWritable = true ↔ maxDigits < (toString n.natAbs).length := by
  rw [isWritable, isShort, decide_eq_true_eq, Nat.not_le]

open Number.Reading in
theorem isWritable_int_iff {n : Int} :
    (Value.int n).isWritable = true ↔ n.natAbs < 10 ^ maxDigits := by
  have hlength : (toString n.natAbs).length = (Nat.toDigits 10 n.natAbs).length := by
    rw [← Nat.toList_repr, String.length_toList]
    rfl
  rw [isWritable, isShort, decide_eq_true_eq, hlength]
  exact Nat.length_toDigits_le_iff (by decide) (by decide)

open Number.Reading in
theorem not_isWritable_pow {k : Nat} (h : maxDigits ≤ k) :
    ¬ (Value.int (10 ^ k)).isWritable = true := by
  rw [isWritable_int_iff, Int.natAbs_pow, Nat.not_lt]
  exact Nat.pow_le_pow_right (by decide) h

end DocSearch.Value
