import ShareIndex.Index.Pool
import Mathlib.Algebra.BigOperators.Group.Multiset.Basic
import Mathlib.Algebra.GroupWithZero.Nat
import Mathlib.Algebra.Order.BigOperators.Group.List
import Mathlib.Data.List.Perm.Basic
import Mathlib.Logic.Relation

/-!
# ShareIndex.Proofs.Index.Pool

Workers that share a list of inputs, in any order of steps, and with a cancellation at any time.

* `Move`          — what a step of the collector or of a worker can be.
* `Step`          — such a step, or a cancellation; `Reachable` is any number of steps.
* `State.results` — the results that are still to be made, on their way, or collected; no step changes them.
* `collected_perm` — a pool that has ended without being cancelled has collected the results of all inputs.
* `State.weight`  — each step of the collector or of a worker makes it smaller.
* `finished_run`  — so the schedule that is run comes to its end, and it is one of those schedules.
-/

namespace ShareIndex
namespace Index
namespace Pool

variable {α β : Type} {work : α → Work β} {s s' : State α β}

def Outcome.value? : Outcome β → Option β
  | .result value => some value
  | .nothing | .crash => none

/-- The result of an input, if it has one. -/
def resultOf (work : α → Work β) (input : α) : Option β := (work input).outcome.value?

/-! ### Steps -/

inductive Move (work : α → Work β) (s : State α β) : State α β → Prop where
  | collect {value : β} {rest : List β} : s.queue = value :: rest →
    Move work s { s with queue := rest, collected := s.collected ++ [value] }
  | stop {number : Nat} : s.workers[number]? = some .idle → s.waiting = [] ∨ s.cancelled = true →
    Move work s (s.setWorker number .stopped)
  | take {number : Nat} {input : α} {rest : List α} : s.workers[number]? = some .idle → s.waiting = input :: rest →
    s.cancelled = false → Move work s { s.setWorker number (.busy input) with waiting := rest }
  | finish {number : Nat} {input : α} : s.workers[number]? = some (.busy input) →
    Move work s (s.finish number (work input))
  | send {number : Nat} {value : β} : s.workers[number]? = some (.sending value) →
    s.queue.length < s.workers.length → Move work s { s.setWorker number .idle with queue := s.queue ++ [value] }

theorem move_of_step? {label : Label} (h : step? work s label = some s') : Move work s s' := by
  cases label with
  | collector =>
    simp only [step?, State.collect?] at h
    cases hq : s.queue with
    | nil => rw [hq] at h; cases h
    | cons value rest =>
      rw [hq] at h
      obtain rfl := Option.some.inj h
      exact .collect hq
  | worker number =>
    simp only [step?] at h
    cases hw : s.workers[number]? with
    | none => rw [hw] at h; cases h
    | some w =>
      rw [hw] at h
      cases w with
      | idle =>
        obtain rfl := Option.some.inj h
        unfold State.take
        by_cases hc : s.cancelled = true
        · rw [if_pos hc]
          exact .stop hw (.inr hc)
        · rw [if_neg hc]
          cases hi : s.waiting with
          | nil => exact .stop hw (.inl hi)
          | cons input rest => exact .take hw hi (Bool.eq_false_iff.mpr hc)
      | busy input =>
        obtain rfl := Option.some.inj h
        exact .finish hw
      | sending value =>
        simp only [State.send?] at h
        split at h
        · rename_i hlt
          obtain rfl := Option.some.inj h
          exact .send hw hlt
        · cases h
      | stopped => cases h

inductive Step (work : α → Work β) (s : State α β) : State α β → Prop where
  | next {s' : State α β} (label : Label) : step? work s label = some s' → Step work s s'
  | cancel : Step work s (Pool.cancel s)

def Reachable (work : α → Work β) (inputs : List α) (workers : Nat) (cancelled : Bool) : State α β → Prop :=
  Relation.ReflTransGen (Step work) (start inputs workers cancelled)

theorem perm_set {γ : Type} {l : List γ} {n : Nat} {old : γ} (h : l[n]? = some old) (w : γ) :
    ∃ rest, l.Perm (old :: rest) ∧ (l.set n w).Perm (w :: rest) := by
  obtain ⟨hn, rfl⟩ := List.getElem?_eq_some_iff.mp h
  exact ⟨l.eraseIdx n, (List.getElem_cons_eraseIdx_perm hn).symm, List.set_perm_cons_eraseIdx hn w⟩

/-! ### Results -/

/-- The result that a worker will hand over. -/
def Worker.carries (work : α → Work β) : Worker α β → Option β
  | .busy input => resultOf work input
  | .sending value => some value
  | .idle | .stopped => none

def State.results (work : α → Work β) (s : State α β) : Multiset β :=
  ↑(s.waiting.filterMap (resultOf work)) + ↑(s.workers.filterMap (Worker.carries work)) + ↑s.queue + ↑s.collected

theorem coe_filterMap_cons {γ δ : Type} (f : γ → Option δ) (a : γ) (l : List γ) :
    (↑((a :: l).filterMap f) : Multiset δ) = ↑(f a).toList + ↑(l.filterMap f) := by
  rw [List.filterMap_cons, Multiset.coe_add]
  cases f a <;> rfl

/-- What the elements of a list stand for, after one of them has been replaced. -/
theorem coe_filterMap_set {γ δ : Type} (f : γ → Option δ) {l : List γ} {n : Nat} {old : γ} (h : l[n]? = some old)
    (w : γ) :
    (↑((l.set n w).filterMap f) + ↑(f old).toList : Multiset δ) = ↑(l.filterMap f) + ↑(f w).toList := by
  obtain ⟨rest, hold, hnew⟩ := perm_set h w
  rw [Multiset.coe_eq_coe.mpr (hnew.filterMap _), Multiset.coe_eq_coe.mpr (hold.filterMap _), coe_filterMap_cons,
    coe_filterMap_cons]
  ac_rfl

/-- The worker that has finished carries the result of its input, if there is one. -/
theorem carries_finish (work : α → Work β) (s : State α β) (number : Nat) (input : α) :
    ∃ w, (s.finish number (work input)).workers = s.workers.set number w ∧ w.carries work = resultOf work input := by
  refine ⟨_, rfl, ?_⟩
  rw [resultOf]
  cases (work input).outcome <;> rfl

/-- Results are handed on; none is made twice or lost. -/
theorem Move.results (h : Move work s s') : s'.results work = s.results work := by
  cases h with
  | @collect value rest hq =>
    have hsplit : (↑(value :: rest) : Multiset β) = ↑[value] + ↑rest := rfl
    simp only [State.results, hq, hsplit, ← Multiset.coe_add]
    ac_rfl
  | stop hw =>
    have hset := coe_filterMap_set (Worker.carries work) hw .stopped
    simp only [Worker.carries, Option.toList_none, Multiset.coe_nil, add_zero] at hset
    simp only [State.results, State.setWorker, hset]
  | @take number input rest hw hi =>
    have hset := coe_filterMap_set (Worker.carries work) hw (.busy input)
    simp only [Worker.carries, Option.toList_none, Multiset.coe_nil, add_zero] at hset
    simp only [State.results, State.setWorker, hset, hi, coe_filterMap_cons]
    ac_rfl
  | @finish number input hw =>
    obtain ⟨w, hworkers, hcarries⟩ := carries_finish work s number input
    have hset := coe_filterMap_set (Worker.carries work) hw w
    rw [hcarries] at hset
    have hsame := add_right_cancel hset
    simp only [State.results, hworkers, hsame]
    rfl
  | @send number value hw hlt =>
    have hset := coe_filterMap_set (Worker.carries work) hw .idle
    simp only [Worker.carries, Option.toList_none, Multiset.coe_nil, add_zero, Option.toList_some] at hset
    simp only [State.results, State.setWorker, ← hset, ← Multiset.coe_add]
    ac_rfl

theorem Step.results (h : Step work s s') : s'.results work = s.results work := by
  cases h with
  | next label h => exact (move_of_step? h).results
  | cancel => rfl

/-! ### Ends -/

/-- The number of workers never changes, and one that has stopped had no reason to go on. -/
structure Honest (workers : Nat) (s : State α β) : Prop where
  length : s.workers.length = workers
  stopped : .stopped ∈ s.workers → s.waiting = [] ∨ s.cancelled = true

theorem Move.honest {workers : Nat} (h : Move work s s') (hs : Honest workers s) : Honest workers s' := by
  have hset : ∀ {number : Nat} {w : Worker α β}, w ≠ .stopped → .stopped ∈ s.workers.set number w →
      s.waiting = [] ∨ s.cancelled = true := by
    intro number w hne hm
    rcases List.mem_or_eq_of_mem_set hm with hm | hm
    · exact hs.stopped hm
    · exact absurd hm.symm hne
  cases h with
  | collect => exact ⟨hs.length, hs.stopped⟩
  | stop hw hreason => exact ⟨(List.length_set ..).trans hs.length, fun _ => hreason⟩
  | take hw hi hc =>
    refine ⟨(List.length_set ..).trans hs.length, fun hm => ?_⟩
    rcases hset (by simp) hm with hnil | hcancelled
    · rw [hi] at hnil
      cases hnil
    · exact .inr hcancelled
  | @finish number input hw =>
    have hne : (match (work input).outcome with
        | .result value => Worker.sending value
        | .nothing | .crash => .idle : Worker α β) ≠ .stopped := by
      cases (work input).outcome <;> simp
    refine ⟨(List.length_set ..).trans hs.length, fun hm => ?_⟩
    rcases hset hne hm with hnil | hcancelled
    · exact .inl hnil
    · exact .inr (by simp [State.finish, hcancelled])
  | send hw hlt => exact ⟨(List.length_set ..).trans hs.length, fun hm => hset (by simp) hm⟩

theorem honest_start (inputs : List α) (workers : Nat) (cancelled : Bool) :
    Honest (max workers 1) (start inputs workers cancelled : State α β) := by
  refine ⟨List.length_replicate, fun hm => ?_⟩
  cases List.eq_of_mem_replicate hm

theorem Step.honest {workers : Nat} (h : Step work s s') (hs : Honest workers s) : Honest workers s' := by
  cases h with
  | next label h => exact (move_of_step? h).honest hs
  | cancel => exact ⟨hs.length, fun _ => .inr rfl⟩

section Reachable

variable {inputs : List α} {workers : Nat} {cancelled : Bool}

/-- Workers that are idle stand for nothing. -/
theorem filterMap_workers_start {γ : Type} {f : Worker α β → Option γ} (h : f .idle = none) :
    (start inputs workers cancelled).workers.filterMap f = [] := by
  rw [List.filterMap_eq_nil_iff]
  intro w hw
  rw [List.eq_of_mem_replicate hw, h]

theorem results_of_reachable (h : Reachable work inputs workers cancelled s) :
    s.results work = ↑(inputs.filterMap (resultOf work)) := by
  induction h with
  | refl =>
    rw [State.results, filterMap_workers_start rfl]
    simp only [start, Multiset.coe_nil, add_zero]
  | tail _ hs ih => exact hs.results.trans ih

theorem honest_of_reachable (h : Reachable work inputs workers cancelled s) : Honest (max workers 1) s := by
  induction h with
  | refl => exact honest_start inputs workers cancelled
  | tail _ hs ih => exact hs.honest ih

/-- A pool that has ended without being cancelled has left no input. -/
theorem waiting_of_finished (h : Reachable work inputs workers cancelled s) (hf : Finished s)
    (hc : s.cancelled = false) : s.waiting = [] := by
  have hs := honest_of_reachable h
  cases hw : s.workers with
  | nil =>
    have hlength := hs.length
    rw [hw, List.length_nil] at hlength
    omega
  | cons w rest =>
    obtain rfl := hf.1 w (hw ▸ List.mem_cons_self)
    rcases hs.stopped (hw ▸ List.mem_cons_self) with hnil | hcancelled
    · exact hnil
    · rw [hc] at hcancelled
      cases hcancelled

/-- Workers that have stopped stand for nothing. -/
theorem Finished.filterMap_workers {γ : Type} {f : Worker α β → Option γ} (hf : Finished s) (h : f .stopped = none) :
    s.workers.filterMap f = [] := by
  rw [List.filterMap_eq_nil_iff]
  intro w hw
  rw [hf.1 w hw, h]

/-- A pool that has ended without being cancelled has collected the results of all inputs, in some order. -/
theorem collected_perm (h : Reachable work inputs workers cancelled s) (hf : Finished s) (hc : s.cancelled = false) :
    s.collected.Perm (inputs.filterMap (resultOf work)) := by
  have hresults := results_of_reachable h
  rw [State.results, waiting_of_finished h hf hc, hf.filterMap_workers rfl, hf.2, List.filterMap_nil,
    Multiset.coe_nil, zero_add, zero_add, zero_add] at hresults
  exact Multiset.coe_eq_coe.mp hresults

end Reachable

/-! ### The schedule that is run -/

def Worker.weight : Worker α β → Nat
  | .idle => 1
  | .busy _ => 4
  | .sending _ => 3
  | .stopped => 0

def State.weight (s : State α β) : Nat :=
  4 * s.waiting.length + (s.workers.map Worker.weight).sum + s.queue.length

theorem weight_set {workers : List (Worker α β)} {number : Nat} {old : Worker α β} (h : workers[number]? = some old)
    (w : Worker α β) :
    ((workers.set number w).map Worker.weight).sum + old.weight = (workers.map Worker.weight).sum + w.weight := by
  obtain ⟨rest, hold, hnew⟩ := perm_set h w
  rw [(hnew.map Worker.weight).sum_eq, (hold.map Worker.weight).sum_eq, List.map_cons, List.map_cons, List.sum_cons,
    List.sum_cons]
  omega

theorem weight_finish (work : α → Work β) (s : State α β) (number : Nat) (input : α) :
    ∃ w, (s.finish number (work input)).workers = s.workers.set number w ∧ w.weight ≤ 3 := by
  refine ⟨_, rfl, ?_⟩
  cases (work input).outcome <;> simp [Worker.weight]

theorem Move.weight (h : Move work s s') : s'.weight < s.weight := by
  cases h with
  | @collect value rest hq => simp [State.weight, hq]
  | stop hw =>
    have hset := weight_set hw .stopped
    simp only [Worker.weight, State.weight, State.setWorker] at hset ⊢
    omega
  | @take number input rest hw hi =>
    have hset := weight_set hw (.busy input)
    simp only [Worker.weight, State.weight, State.setWorker, hi, List.length_cons] at hset ⊢
    omega
  | @finish number input hw =>
    obtain ⟨w, hworkers, hle⟩ := weight_finish work s number input
    have hset := weight_set hw w
    have hbusy : (Worker.busy input : Worker α β).weight = 4 := rfl
    have hwaiting : (s.finish number (work input)).waiting = s.waiting := rfl
    have hqueue : (s.finish number (work input)).queue = s.queue := rfl
    simp only [State.weight, hworkers, hwaiting, hqueue]
    omega
  | @send number value hw hlt =>
    have hset := weight_set hw .idle
    simp only [Worker.weight, State.weight, State.setWorker, List.length_append, List.length_singleton] at hset ⊢
    omega

/-- A pool that has not ended has a step to make. -/
theorem finished_of_first? (h : first? work s = none) : Finished s := by
  rw [first?, List.findSome?_eq_none_iff] at h
  have hqueue : s.queue = [] := by
    have hcollect := h .collector (by simp [labels])
    simp only [step?, State.collect?] at hcollect
    cases hq : s.queue with
    | nil => rfl
    | cons value rest => rw [hq] at hcollect; cases hcollect
  refine ⟨fun w hw => ?_, hqueue⟩
  obtain ⟨number, hn, rfl⟩ := List.getElem_of_mem hw
  have hstep := h (.worker number) (by simp [labels, hn])
  simp only [step?, List.getElem?_eq_getElem hn] at hstep
  cases hwork : s.workers[number] with
  | stopped => rfl
  | idle => rw [hwork] at hstep; cases hstep
  | busy input => rw [hwork] at hstep; cases hstep
  | sending value =>
    rw [hwork] at hstep
    simp only [State.send?, hqueue, List.length_nil] at hstep
    rw [if_pos (Nat.lt_of_le_of_lt (Nat.zero_le _) hn)] at hstep
    cases hstep

theorem move_of_first? (h : first? work s = some s') : ∃ label, step? work s label = some s' := by
  rw [first?] at h
  obtain ⟨label, -, hstep⟩ := List.exists_of_findSome?_eq_some h
  exact ⟨label, hstep⟩

theorem weight_of_first? (h : first? work s = some s') : s'.weight < s.weight := by
  obtain ⟨label, hstep⟩ := move_of_first? h
  exact (move_of_step? hstep).weight

theorem finished_runSteps {steps : Nat} (h : s.weight ≤ steps) : Finished (runSteps work steps s) := by
  induction steps generalizing s with
  | zero =>
    rw [runSteps]
    cases hf : first? work s with
    | none => exact finished_of_first? hf
    | some next =>
      have hlt := weight_of_first? hf
      omega
  | succ steps ih =>
    rw [runSteps]
    cases hf : first? work s with
    | none => exact finished_of_first? hf
    | some next =>
      have hlt := weight_of_first? hf
      exact ih (by omega)

theorem steps_runSteps (steps : Nat) (s : State α β) : Relation.ReflTransGen (Step work) s (runSteps work steps s) := by
  induction steps generalizing s with
  | zero => exact .refl
  | succ steps ih =>
    rw [runSteps]
    cases hf : first? work s with
    | none => exact .refl
    | some next =>
      obtain ⟨label, hstep⟩ := move_of_first? hf
      exact .head (.next label hstep) (ih next)

theorem weight_start (inputs : List α) (workers : Nat) (cancelled : Bool) :
    (start inputs workers cancelled : State α β).weight = 4 * inputs.length + max workers 1 := by
  simp [State.weight, start, Worker.weight]

theorem finished_run (work : α → Work β) (inputs : List α) (workers : Nat) (cancelled : Bool) :
    Finished (run work (start inputs workers cancelled)) := by
  refine finished_runSteps ?_
  rw [weight_start, maxSteps, start, List.length_replicate]

theorem reachable_run (work : α → Work β) (inputs : List α) (workers : Nat) (cancelled : Bool) :
    Reachable work inputs workers cancelled (run work (start inputs workers cancelled)) :=
  steps_runSteps ..

theorem Move.cancelled (h : Move work s s') (hw : ∀ input, (work input).cancels = false) :
    s'.cancelled = s.cancelled := by
  cases h with
  | @finish number input => simp [State.finish, hw]
  | _ => rfl

theorem cancelled_runSteps (hw : ∀ input, (work input).cancels = false) (steps : Nat) (s : State α β) :
    (runSteps work steps s).cancelled = s.cancelled := by
  induction steps generalizing s with
  | zero => rfl
  | succ steps ih =>
    rw [runSteps]
    cases hf : first? work s with
    | none => rfl
    | some next =>
      obtain ⟨label, hstep⟩ := move_of_first? hf
      exact (ih next).trans ((move_of_step? hstep).cancelled hw)

/-- Work that does not cancel leaves it to the caller whether the pool is cancelled. -/
theorem cancelled_run (hw : ∀ input, (work input).cancels = false) (inputs : List α) (workers : Nat)
    (cancelled : Bool) :
    (run work (start inputs workers cancelled)).cancelled = cancelled := cancelled_runSteps hw _ _

end Pool
end Index
end ShareIndex
