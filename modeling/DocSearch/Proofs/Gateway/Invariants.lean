import DocSearch.Gateway.Basic
import DocSearch.Proofs.Action.Attempts
import DocSearch.Proofs.Value.Copies
import DocSearch.Proofs.Value.Worded

/-!
# Invariants of a store

A request changes a store in few ways. What each of them keeps is kept by every request, whether it
returns or fails on the way.
-/

namespace DocSearch.Store

open DocSearch.Action

/-- `I` is kept by what is written to an index. A mapping is only put where the index is there, so
`J` may be assumed for it, which holds from then on. -/
structure Lasting (i : Value) (I J : Store → Prop) : Prop where
  ensure : ∀ s, I s → J (s.ensureIndex i)
  relax : ∀ s, J s → I s
  documents : ∀ s ds, I s → I { s with indices := Entries.put s.indices i ds }
  mapping : ∀ s m, J s → J (s.putMapping i m)

/-- `I` is kept by all changes to an index, its removal included. -/
structure Stable (i : Value) (I J : Store → Prop) : Prop extends Lasting i I J where
  erase : ∀ s, I s →
    I { s with indices := Entries.erase s.indices i, mappings := Entries.erase s.mappings i }

theorem keeps_asKey_bind {α : Type} {I : Store → Prop} {i : Value} {f : Value → Action Store α}
    (hf : (f i).Keeps I) : (liftM i.asKey >>= f).Keeps I := by
  unfold Value.asKey
  split
  · exact hf
  · exact fun s hs => hs

namespace Lasting

variable {i : Value} {I J : Store → Prop}

theorem keeps_ensureIndex (h : Lasting i I J) :
    (modify (ensureIndex i) : Action Store Unit).Keeps I :=
  keeps_modify fun s hs => h.relax _ (h.ensure s hs)

/-- What follows the making of the index may count on it. -/
theorem keeps_ensured (h : Lasting i I J) {α : Type} {rest : Unit → Action Store α}
    (hrest : (rest ()).Keeps J) : (modify (ensureIndex i) >>= rest).Keeps I :=
  fun s hs => h.relax _ (hrest _ (h.ensure s hs))

theorem keeps_putMapping (h : Lasting i I J) (m : Value) :
    (modify (putMapping i m) : Action Store Unit).Keeps J :=
  keeps_modify fun s hs => h.mapping s m hs

theorem keeps_documents (h : Lasting i I J) (f : Store → List (Value × Value)) :
    (modify fun s => { s with indices := Entries.put s.indices i (f s) } :
      Action Store Unit).Keeps I :=
  keeps_modify fun s hs => h.documents s (f s) hs

theorem keeps_indexDocument (h : Lasting i I J) (id doc : Value) : (indexDocument i id doc).Keeps I := by
  refine keeps_asKey_bind ?_
  refine h.keeps_ensureIndex.bind fun _ => (keeps_lift _).bind fun k => keeps_get.bind fun s => ?_
  exact (keeps_lift _).bind fun d => Keeps.bind (h.keeps_documents _) fun _ => keeps_pure _

theorem keeps_indexAll (h : Lasting i I J) (pairs : List Value) : (indexAll i pairs).Keeps I := by
  induction pairs with
  | nil => exact keeps_pure _
  | cons pair pairs ih =>
      exact (keeps_lift _).bind fun p => (h.keeps_indexDocument p.1 p.2).bind fun _ => ih

theorem keeps_bulkIndex (h : Lasting i I J) (documents : Iterable) :
    (bulkIndex i documents).Keeps I :=
  (keeps_lift _).bind fun handed => (h.keeps_indexAll handed.1).bind fun _ =>
    (keeps_lift _).bind fun _ => (keeps_lift _).bind fun _ => keeps_pure _

theorem keeps_deleteDocument (h : Lasting i I J) (id : Value) : (deleteDocument i id).Keeps I := by
  refine keeps_asKey_bind (keeps_get.bind fun s => keeps_ite ?_ (keeps_pure _))
  refine (keeps_lift _).bind fun k => keeps_get.bind fun s => keeps_ite ?_ (keeps_pure _)
  exact Keeps.bind (h.keeps_documents _) fun _ => keeps_pure _

theorem keeps_createIndex (h : Lasting i I J) (body : Value) : (createIndex i body).Keeps I := by
  refine keeps_asKey_bind (h.keeps_ensured (keeps_ite ?_ (keeps_pure _)))
  refine (keeps_lift _).bind fun given => keeps_ite ?_ (keeps_pure _)
  refine (keeps_lift _).bind fun v => (keeps_lift _).bind fun m => ?_
  exact (h.keeps_putMapping m).bind fun _ => keeps_pure _

theorem keeps_addFields (h : Lasting i I J) (properties : Value) : (addFields i properties).Keeps I := by
  refine keeps_asKey_bind (h.keeps_ensured (keeps_get.bind fun s => ?_))
  refine (h.keeps_putMapping _).bind fun _ => (keeps_lift _).bind fun fields => ?_
  refine (keeps_lift _).bind fun es => (h.keeps_putMapping _).bind fun _ => ?_
  refine (keeps_lift _).bind fun merged => (h.keeps_putMapping _).bind fun _ => keeps_pure _

end Lasting

theorem Stable.keeps_deleteIndex {i : Value} {I J : Store → Prop} (h : Stable i I J) :
    (deleteIndex i).Keeps I := by
  refine keeps_get.bind fun s => keeps_ite (keeps_asKey_bind ?_) (keeps_pure _)
  exact (keeps_modify h.erase).bind fun _ => keeps_pure _

theorem keeps_indexExists {I : Store → Prop} (index : Value) : (indexExists index).Keeps I :=
  keeps_get.bind fun _ => (keeps_lift _).bind fun _ => keeps_pure _

/-- What a store has under a key, and its record of searches. -/
def glimpse (j : Value) (s : Store) :
    Option (List (Value × Value)) × Option Value × List Value :=
  (Entries.get? s.indices j, Entries.get? s.mappings j, s.searches)

/-- Changes to an index neither add to what is under another key nor take from it. -/
theorem stable_glimpse {i j : Value} (h : i.Apart j)
    (seen : Option (List (Value × Value)) × Option Value × List Value) :
    Stable i (glimpse j · = seen) (glimpse j · = seen) where
  ensure s hs := by
    unfold ensureIndex
    split
    · exact hs
    · rw [glimpse, h.get?_put]
      exact hs
  relax _ hs := hs
  documents s ds hs := by
    rw [glimpse, h.get?_put]
    exact hs
  mapping s m hs := by
    rw [glimpse, putMapping, h.get?_put]
    exact hs
  erase s hs := by
    rw [glimpse, h.get?_erase, h.get?_erase]
    exact hs

end DocSearch.Store
