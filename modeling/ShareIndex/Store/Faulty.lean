import ShareIndex.Store.Request

/-!
# ShareIndex.Store.Faulty

A store with injected faults, over any other store.

* `Faulty`          — the inner store, the operations that fail, and a limit on batches.
* `Faulty.perform`  — a failing operation has no effect; a batch over the limit is cut off and then fails.
-/

namespace ShareIndex
namespace Store

structure Faulty (S : Type) where
  inner : S
  failing : List Operation
  applyLimit : Option Nat

namespace Faulty

variable {S : Type}

def ofStore (inner : S) : Faulty S := ⟨inner, [], none⟩

def fail (f : Faulty S) (operation : Operation) : Faulty S :=
  { f with failing := operation :: f.failing.filter (· ≠ operation) }

def failApplyAfter (f : Faulty S) (commands : Nat) : Faulty S := { f with applyLimit := some commands }

/-- The limit on batches counts as a failure of `apply`. -/
def recover (f : Faulty S) (operation : Operation) : Faulty S :=
  { f with
    failing := f.failing.filter (· ≠ operation)
    applyLimit := if operation = .apply then none else f.applyLimit }

/-- What is left of a batch, if the limit cuts it off. -/
def cut? (limit : Option Nat) (commands : List Command) : Option (Nat × List Command) :=
  match limit with
  | none => none
  | some n => if n < commands.length then some (n, commands.take n) else none

variable [KeyValueStore S]

def pass (f : Faulty S) (r : Request) : Outcome (Faulty S) r.Answer :=
  let (answer, inner) := KeyValueStore.perform f.inner r
  (answer, { f with inner })

def applyCut (f : Faulty S) (commands : List Command) : Outcome (Faulty S) Unit :=
  match cut? f.applyLimit commands with
  | none => f.pass (.apply commands)
  | some (n, head) =>
    match f.pass (.apply head) with
    | (.ok (), f') => (.error (.injectedAfter n), f')
    | (.error e, f') => (.error e, f')

def perform (f : Faulty S) (r : Request) : Outcome (Faulty S) r.Answer :=
  if r.operation ∈ f.failing then (.error (.injected r.operation), f)
  else
    match r with
    | .apply commands => f.applyCut commands
    | r => f.pass r

instance : KeyValueStore (Faulty S) := ⟨perform, fun f => KeyValueStore.extent f.inner⟩

end Faulty
end Store
end ShareIndex
