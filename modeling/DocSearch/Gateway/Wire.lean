import DocSearch.Action.Basic

/-!
# The wire

What the cluster will answer: for each operation the answers that are still to come, in order, and a
standard answer after those. The wire also counts the clients that were constructed.
-/

namespace DocSearch

inductive Reply where
  | value (v : Value)
  | failure (e : Error)

structure Wire where
  /-- The answers to come, each with the operation that it answers. -/
  replies : List (Operation × Reply)
  /-- How many clients were constructed; their numbers lie below it. -/
  opened : Nat

namespace Wire

def quiet : Wire := ⟨[], 0⟩

/-- The next answer to an operation and the answers that are left. -/
def take (op : Operation) :
    List (Operation × Reply) → Option Reply × List (Operation × Reply)
  | [] => (none, [])
  | r :: rs =>
    if r.1 = op then (some r.2, rs)
    else
      let (answer, left) := take op rs
      (answer, r :: left)

/-- What an operation answers when nothing else is to come. -/
def standardReply : Operation → Value
  | .bulk => .tuple [.int 0, .list []]
  | _ => .dict []

/-- Calls a client and waits for the answer. -/
def ask (client : Nat) (op : Operation) (arguments : List (String × Value)) :
    Action Wire Value := do
  Action.emit (.called ⟨client, op, arguments⟩)
  let (answer, left) := take op (← get).replies
  modify fun w => { w with replies := left }
  match answer with
  | none => return standardReply op
  | some (.value v) => return v
  | some (.failure e) => throw e

theorem events_ask (client : Nat) (op : Operation) (arguments : List (String × Value)) (w : Wire) :
    ((ask client op arguments).run w).events = [.called ⟨client, op, arguments⟩] := by
  simp only [ask, Action.run_bind, Action.run_emit, Action.run_get, Action.run_modify]
  cases h : (take op w.replies).1 with
  | none => rfl
  | some r => cases r <;> rfl

end Wire

end DocSearch
