/-!
# ShareIndex.Index.Pool

A fixed number of workers share a list of inputs. A worker takes the first input that is left, works on it,
and hands its result, if there is one, to a queue that holds no more results than there are workers; one
collector empties the queue.

* `Work`            — what working on an input comes to.
* `State`, `Label`  — the pool, and who makes the next step.
* `step?`           — the step of a label, if it is enabled.
* `run`             — all steps of one schedule: the collector first, then the first worker that can go on.
* `parallelMap`     — the results of that schedule.
-/

namespace ShareIndex
namespace Index
namespace Pool

inductive Outcome (β : Type) where
  | result (value : β)
  | nothing
  /-- The work broke off; this costs its own input only. -/
  | crash

structure Work (β : Type) where
  outcome : Outcome β
  /-- Whether the call is cancelled meanwhile. -/
  cancels : Bool

inductive Worker (α β : Type) where
  | idle
  | busy (input : α)
  | sending (value : β)
  | stopped

structure State (α β : Type) where
  waiting : List α
  workers : List (Worker α β)
  queue : List β
  collected : List β
  cancelled : Bool

inductive Label where
  | collector
  | worker (number : Nat)
  deriving DecidableEq, Repr

variable {α β : Type}

/-- There is always a worker. -/
def start (inputs : List α) (workers : Nat) (cancelled : Bool) : State α β :=
  ⟨inputs, List.replicate (max workers 1) .idle, [], [], cancelled⟩

namespace State

def setWorker (s : State α β) (number : Nat) (w : Worker α β) : State α β :=
  { s with workers := s.workers.set number w }

/-- A worker that is free takes the next input, or stops when there is none or the call is cancelled. -/
def take (s : State α β) (number : Nat) : State α β :=
  if s.cancelled then s.setWorker number .stopped
  else
    match s.waiting with
    | [] => s.setWorker number .stopped
    | input :: rest => { s.setWorker number (.busy input) with waiting := rest }

def finish (s : State α β) (number : Nat) (w : Work β) : State α β :=
  let next := match w.outcome with
    | .result value => .sending value
    | .nothing | .crash => .idle
  { s.setWorker number next with cancelled := s.cancelled || w.cancels }

/-- A full queue makes the worker wait. -/
def send? (s : State α β) (number : Nat) (value : β) : Option (State α β) :=
  if s.queue.length < s.workers.length then
    some { s.setWorker number .idle with queue := s.queue ++ [value] }
  else none

def collect? (s : State α β) : Option (State α β) :=
  match s.queue with
  | [] => none
  | value :: rest => some { s with queue := rest, collected := s.collected ++ [value] }

end State

def step? (work : α → Work β) (s : State α β) : Label → Option (State α β)
  | .collector => s.collect?
  | .worker number =>
    match s.workers[number]? with
    | none => none
    | some .idle => some (s.take number)
    | some (.busy input) => some (s.finish number (work input))
    | some (.sending value) => s.send? number value
    | some .stopped => none

/-- A call can be cancelled from outside at any time. -/
def cancel (s : State α β) : State α β := { s with cancelled := true }

/-- All workers have stopped and all results are collected. -/
def Finished (s : State α β) : Prop := (∀ w ∈ s.workers, w = .stopped) ∧ s.queue = []

def labels (workers : Nat) : List Label := .collector :: (List.range workers).map .worker

/-- The step of the first enabled label. -/
def first? (work : α → Work β) (s : State α β) : Option (State α β) :=
  (labels s.workers.length).findSome? (step? work s)

def runSteps (work : α → Work β) : Nat → State α β → State α β
  | 0, s => s
  | steps + 1, s =>
    match first? work s with
    | none => s
    | some s => runSteps work steps s

/-- Each input takes at most four steps, and each worker one more. -/
def maxSteps (s : State α β) : Nat := 4 * s.waiting.length + s.workers.length

def run (work : α → Work β) (s : State α β) : State α β := runSteps work (maxSteps s) s

def parallelMap (work : α → Work β) (inputs : List α) (workers : Nat) (cancelled : Bool) : List β :=
  (run work (start inputs workers cancelled)).collected

end Pool
end Index
end ShareIndex
