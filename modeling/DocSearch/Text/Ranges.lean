/-!
# Sets of characters given by ranges

A character class of a text standard is a list of closed ranges of code points.
-/

namespace DocSearch.Text

abbrev Ranges := List (Nat × Nat)

def Ranges.has (rs : Ranges) (c : Char) : Bool :=
  rs.any fun r => r.1 ≤ c.toNat && c.toNat ≤ r.2

@[simp] theorem Ranges.has_nil (c : Char) : Ranges.has [] c = false := rfl

@[simp] theorem Ranges.has_cons (r : Nat × Nat) (rs : Ranges) (c : Char) :
    Ranges.has (r :: rs) c = ((r.1 ≤ c.toNat && c.toNat ≤ r.2) || Ranges.has rs c) := rfl

end DocSearch.Text
