/-!
# Cutting texts

A text is cut at every occurrence of a separator (`pieces`), at the first one (`cutFirst`) or at the
last one (`cutLast`). Joining what a cut returns gives the text back.
-/

namespace DocSearch.Text

/-- The stretches between the occurrences of `d`, empty ones included. -/
def pieces (d : Char) : List Char → List (List Char)
  | [] => [[]]
  | c :: cs =>
    if c = d then [] :: pieces d cs else
    match pieces d cs with
    | [] => [[c]]
    | p :: ps => (c :: p) :: ps

theorem pieces_ne_nil (d : Char) (cs : List Char) : pieces d cs ≠ [] := by
  cases cs with
  | nil => simp [pieces]
  | cons c cs =>
    simp only [pieces]
    split
    · simp
    · split <;> simp

theorem pieces_of_not_mem {d : Char} {cs : List Char} (h : d ∉ cs) : pieces d cs = [cs] := by
  induction cs with
  | nil => rfl
  | cons c cs ih =>
    have hc : c ≠ d := fun e => h (by simp [e])
    simp [pieces, hc, ih fun m => h (List.mem_cons_of_mem _ m)]

theorem intercalate_pieces (d : Char) (cs : List Char) :
    [d].intercalate (pieces d cs) = cs := by
  induction cs with
  | nil => rfl
  | cons c cs ih =>
    have hne := pieces_ne_nil d cs
    simp only [pieces]
    generalize hps : pieces d cs = ps at ih hne
    cases ps with
    | nil => exact absurd rfl hne
    | cons p ps =>
      split
      · next hc => subst hc; simp [List.intercalate, ← ih]
      · cases ps with
        | nil => simpa [List.intercalate] using ih
        | cons q ps => simpa [List.intercalate] using ih

/-- The text before the first `d`, and the text after it if there is one. -/
def cutFirst (d : Char) : List Char → List Char × Option (List Char)
  | [] => ([], none)
  | c :: cs =>
    if c = d then ([], some cs) else
    let r := cutFirst d cs
    (c :: r.1, r.2)

theorem cutFirst_of_not_mem {d : Char} {cs : List Char} (h : d ∉ cs) :
    cutFirst d cs = (cs, none) := by
  induction cs with
  | nil => rfl
  | cons c cs ih =>
    have hc : c ≠ d := fun e => h (by simp [e])
    simp [cutFirst, hc, ih fun m => h (List.mem_cons_of_mem _ m)]

theorem not_mem_cutFirst (d : Char) (cs : List Char) : d ∉ (cutFirst d cs).1 := by
  induction cs with
  | nil => simp [cutFirst]
  | cons c cs ih =>
    simp only [cutFirst]
    split
    · simp
    · next hc =>
      simp only [List.mem_cons, not_or]
      exact ⟨fun e => hc e.symm, ih⟩

/-- The text after the last `d`, or all of it. -/
def afterLast (d : Char) (cs : List Char) : List Char :=
  (cutFirst d cs.reverse).1.reverse

/-- What follows `p` at the front of a text. -/
def dropPrefix? (p cs : List Char) : Option (List Char) :=
  if p.isPrefixOf cs then some (cs.drop p.length) else none

def occursIn (needle : List Char) : List Char → Bool
  | [] => needle.isEmpty
  | c :: cs => needle.isPrefixOf (c :: cs) || occursIn needle cs

theorem occursIn_iff (needle cs : List Char) : occursIn needle cs = true ↔ needle <:+: cs := by
  induction cs with
  | nil => simp [occursIn, List.isEmpty_iff]
  | cons c cs ih =>
    rw [occursIn, Bool.or_eq_true, ih, List.isPrefixOf_iff_prefix, List.infix_cons_iff]

def joinWith (sep : String) : List String → String
  | [] => ""
  | [s] => s
  | s :: t :: ss => s ++ sep ++ joinWith sep (t :: ss)

end DocSearch.Text
