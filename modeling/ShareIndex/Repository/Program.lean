import ShareIndex.Repository.Error
import ShareIndex.Repository.Key

/-!
# ShareIndex.Repository.Program

Calls on the repository as data: each is a sequence of single steps, and a step is one request to the store
or one access to the holder, the variable in which a process keeps the active generation. Between two steps
of one call any steps of other calls may happen.

* `Effect`      — one step; `Effect.Answer` is the type of what it gives back.
* `Program`     — a call: done, or a step and how to go on with its answer.
* `Shared`      — what the steps act on: the store and a holder.
* `Program.run` — runs a call with nothing in between.
* `Action`      — a call that may fail.
-/

namespace ShareIndex
namespace Repository

open Store (Request KeyValueStore)

inductive Effect where
  | store (r : Request)
  | readHolder
  | writeHolder (active : Option Generation)

@[reducible] def Effect.Answer : Effect → Type
  | store r => Except Store.Error r.Answer
  | readHolder => Option Generation
  | writeHolder _ => Unit

inductive Program (α : Type) where
  | done (result : α)
  | perform (effect : Effect) (next : effect.Answer → Program α)

namespace Program

variable {α β γ : Type}

def bind : Program α → (α → Program β) → Program β
  | done a, f => f a
  | perform effect next, f => perform effect fun answer => (next answer).bind f

instance : Monad Program where
  pure := done
  bind := bind

theorem bind_done (p : Program α) : p.bind done = p := by
  induction p with
  | done a => rfl
  | perform effect next ih => simp only [bind, ih]

theorem bind_assoc (p : Program α) (f : α → Program β) (h : β → Program γ) :
    (p.bind f).bind h = p.bind fun a => (f a).bind h := by
  induction p with
  | done a => rfl
  | perform effect next ih => simp only [bind, ih]

instance : LawfulMonad Program := LawfulMonad.mk' Program bind_done (fun _ _ => rfl) bind_assoc

end Program

/-- A store together with the holder of one process. -/
structure Shared (S : Type) where
  store : S
  holder : Option Generation

def Effect.run {S : Type} [KeyValueStore S] (s : Shared S) : (effect : Effect) → effect.Answer × Shared S
  | store r =>
    let (answer, after) := KeyValueStore.perform s.store r
    (answer, { s with store := after })
  | readHolder => (s.holder, s)
  | writeHolder active => ((), { s with holder := active })

namespace Program

variable {α β : Type} {S : Type} [KeyValueStore S]

def run : Program α → Shared S → α × Shared S
  | done a, s => (a, s)
  | perform effect next, s =>
    let (answer, s') := effect.run s
    (next answer).run s'

theorem run_bind (p : Program α) (f : α → Program β) (s : Shared S) :
    (p.bind f).run s = (f (p.run s).1).run (p.run s).2 := by
  induction p generalizing s with
  | done a => rfl
  | perform effect next ih => simp only [bind, run, ih]

end Program

abbrev Action := ExceptT Error Program

/-- Sends one request; `raise` says what a failure of the store means for the call. -/
def request (raise : Store.Error → Error) (r : Request) : Action r.Answer :=
  Program.perform (.store r) fun answer => .done (answer.mapError raise)

def readHolder : Action (Option Generation) := Program.perform .readHolder fun active => .done (.ok active)

def writeHolder (active : Option Generation) : Action Unit :=
  Program.perform (.writeHolder active) fun _ => .done (.ok ())

/-- Runs a call with nothing in between. -/
def Action.perform {α S : Type} [KeyValueStore S] (action : Action α) (s : Shared S) :
    Except Error α × Shared S :=
  Program.run (ExceptT.run action) s

end Repository
end ShareIndex
