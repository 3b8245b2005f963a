import P2Panda.Store.Orderer

/-!
# Causal orderer

An item is "ready" when all its dependencies are, and "pending" until then; it is checked again when
one of its dependencies becomes ready.
-/

namespace P2Panda.Stream

open P2Panda.Library P2Panda.Store

namespace CausalOrderer

variable {ID D : Type} [LinearOrder ID] [DecidableEq D]

def next (s : OrdererStore ID D) : OrdererStore ID D × Option ID := s.takeNextReady

/-- The loop body of `processPending`; `recurse` is the recursive call. -/
def processDependent (recurse : OrdererStore ID D → ID → Option (OrdererStore ID D))
    (s : OrdererStore ID D) (dependent : ID × List ID) : Option (OrdererStore ID D) :=
  if s.ready dependent.2 then recurse (s.markReady dependent.1).1 dependent.1 else some s

/-- Recursively check if pending items now have their dependencies met. Dependents are visited in
the order of a hash set. No result when the recursion goes deeper than `fuel`. -/
def processPending (order : ID → HashOrder (ID × List ID)) :
    Nat → OrdererStore ID D → ID → Option (OrdererStore ID D)
  | 0, _, _ => none
  | fuel + 1, s, key =>
    match s.getNextPending key with
    | none => some s
    | some dependents => do
      let s ← ((order key).iter dependents).foldlM
        (processDependent (processPending order fuel)) s
      return (s.removePending key).1

/-- Process a new "ready" or "pending" item. The recursion enters each pending item at most once, so
the rows are enough fuel. -/
def process (digest : ID → List ID → D) (order : ID → HashOrder (ID × List ID))
    (s : OrdererStore ID D) (key : ID) (dependencies : List ID) :
    Option (OrdererStore ID D × Bool) :=
  if !s.ready dependencies then
    some ((s.markPending digest key dependencies).1, false)
  else do
    let s := (s.markReady key).1
    let s ← processPending order (s.pendingRows.rows.length + 1) s key
    return (s, true)

def drain : Nat → OrdererStore ID D → List ID × OrdererStore ID D
  | 0, s => ([], s)
  | n + 1, s =>
    match next s with
    | (s, none) => ([], s)
    | (s, some key) =>
      let rest := drain n s
      (key :: rest.1, rest.2)

end CausalOrderer

end P2Panda.Stream
