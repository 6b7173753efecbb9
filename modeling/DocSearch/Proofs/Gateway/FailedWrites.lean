import DocSearch.Proofs.Gateway.Invariants
import DocSearch.Proofs.Gateway.Operations

/-!
# What a failed write leaves

A write that fails is not undone, but little of it stays. Other indices are as they were, no index is
gone and no document is lost. Only a bulk writes more than one document, one after the other, and
leaves those in front of the first one that fails.
-/

namespace DocSearch

open DocSearch.Action

namespace Store

variable {s t : Store} {e : Error} {index : Value} {α : Type}

/-- The store with an index of that name, if there can be one. -/
def opened (index : Value) (s : Store) : Store :=
  if index.isKey then s.ensureIndex index else s

end Store

end DocSearch
