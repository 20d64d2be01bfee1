import ShareIndex.Proofs.Index.Completeness

/-!
# ShareIndex.Proofs.Index.Schedule

Which worker takes which input, for every order of steps and cancellations.

* `Log`, `Run`       — the inputs that have been taken and worked on, by which workers, and the number of steps.
* `Change`           — what one step does to the inputs.
* `Run.waiting`, `Run.worked`, `Run.results` — any number of steps, from any state.
* `Accounts`, `Ended`, `Drained` — what is known of a pool at any time, in the end, and after it has been cancelled.
* `State.line`       — the results of all inputs in their order; no step of a single worker changes it.
* `Turn`             — what a step does to the inputs of a single worker.
* `Heeds`            — where a single worker stops whose work cancels the call.
* `Sequential`       — what a single worker's pool has collected in the end.
* `schedule_exact`   — every input goes to one worker, the pool never gets stuck, and results are those of the inputs
  that have been worked on.
-/

namespace ShareIndex
namespace Index
namespace Pool

variable {α β : Type} {work : α → Work β} {s s' : State α β} {label : Label}

/-! ### Runs -/

/-- The input that a worker takes in the step of a label. -/
def takes? (s : State α β) : Label → Option (Nat × α)
  | .collector => none
  | .worker number =>
    match s.workers[number]? with
    | some .idle => if s.cancelled then none else s.waiting.head?.map (number, ·)
    | _ => none

/-- The input that a worker works on in the step of a label. -/
def works? (s : State α β) : Label → Option (Nat × α)
  | .collector => none
  | .worker number => (s.workers[number]?.bind Worker.input?).map (number, ·)

/-- The inputs with the workers that have them in hand. -/
def State.inHand (s : State α β) : List (Nat × α) :=
  s.workers.zipIdx.filterMap fun p => p.1.input?.map (p.2, ·)

structure Log (α : Type) where
  taken : List (Nat × α) := []
  worked : List (Nat × α) := []
  steps : Nat := 0
  /-- How often the call has been cancelled from outside. -/
  interrupts : Nat := 0

namespace Log

/-- The inputs that have been taken, first to last. -/
def inputs (log : Log α) : List α := log.taken.map Prod.snd

def attempts (log : Log α) : List α := log.worked.map Prod.snd

def record (log : Log α) (s : State α β) (label : Label) : Log α :=
  { log with
    taken := log.taken ++ (takes? s label).toList
    worked := log.worked ++ (works? s label).toList
    steps := log.steps + 1 }

theorem inputs_record (log : Log α) (s : State α β) (label : Label) :
    (log.record s label).inputs = log.inputs ++ ((takes? s label).map Prod.snd).toList := by
  rw [inputs, record, List.map_append, Option.toList_map]
  rfl

theorem attempts_record (log : Log α) (s : State α β) (label : Label) :
    (log.record s label).attempts = log.attempts ++ ((works? s label).map Prod.snd).toList := by
  rw [attempts, record, List.map_append, Option.toList_map]
  rfl

end Log

/-- Steps and cancellations, in any order. -/
inductive Run (work : α → Work β) (s : State α β) : Log α → State α β → Prop where
  | refl : Run work s {} s
  | next {log : Log α} {s' s'' : State α β} (label : Label) : Run work s log s' → step? work s' label = some s'' →
    Run work s (log.record s' label) s''
  | cancel {log : Log α} {s' : State α β} : Run work s log s' →
    Run work s { log with interrupts := log.interrupts + 1 } (Pool.cancel s')

/-- What a step does to the inputs. -/
inductive Change (work : α → Work β) (s : State α β) (label : Label) (s' : State α β) : Prop where
  | other : takes? s label = none → works? s label = none → s'.waiting = s.waiting → s'.inHand.Perm s.inHand →
    s'.cancelled = s.cancelled → Change work s label s'
  | take {number : Nat} {input : α} : takes? s label = some (number, input) → works? s label = none →
    s.cancelled = false → s.waiting = input :: s'.waiting → s'.inHand.Perm ((number, input) :: s.inHand) →
    s'.cancelled = s.cancelled → Change work s label s'
  | work {number : Nat} {input : α} : takes? s label = none → works? s label = some (number, input) →
    s'.waiting = s.waiting → s.inHand.Perm ((number, input) :: s'.inHand) →
    s'.cancelled = (s.cancelled || (work input).cancels) → Change work s label s'

theorem inHand_le (s : State α β) : s.inHand.length ≤ s.workers.length :=
  (List.length_filterMap_le ..).trans_eq List.length_zipIdx

theorem zipIdx_set {γ : Type} (l : List γ) (n : Nat) (a : γ) : (l.set n a).zipIdx = l.zipIdx.set n (a, n) := by
  refine List.ext_getElem? fun i => ?_
  rw [List.getElem?_zipIdx, List.getElem?_set, List.getElem?_set, List.length_zipIdx, List.getElem?_zipIdx]
  by_cases hi : n = i
  · subst hi
    rw [if_pos rfl, if_pos rfl]
    split <;> simp
  · rw [if_neg hi, if_neg hi]

theorem inHand_setWorker {number : Nat} {old : Worker α β} (h : s.workers[number]? = some old) (w : Worker α β) :
    ((s.setWorker number w).inHand ++ (old.input?.map (number, ·)).toList).Perm
      (s.inHand ++ (w.input?.map (number, ·)).toList) := by
  have hold : s.workers.zipIdx[number]? = some (old, number) := by
    rw [List.getElem?_zipIdx, h, Option.map_some, Nat.zero_add]
  have hset := coe_filterMap_set (fun p : Worker α β × Nat => p.1.input?.map (p.2, ·)) hold (w, number)
  rw [← zipIdx_set] at hset
  exact Multiset.coe_eq_coe.mp hset

theorem change_of_step? (h : step? work s label = some s') : Change work s label s' := by
  cases label with
  | collector =>
    simp only [step?, State.collect?] at h
    split at h
    · cases h
    · obtain rfl := Option.some.inj h
      exact .other rfl rfl rfl (.refl _) rfl
  | worker number =>
    simp only [step?] at h
    cases hw : s.workers[number]? with
    | none => rw [hw] at h; cases h
    | some w =>
      rw [hw] at h
      have hset := inHand_setWorker hw
      have hworks : works? s (.worker number) = w.input?.map (number, ·) := by rw [works?, hw, Option.bind_some]
      cases w with
      | idle =>
        obtain rfl := Option.some.inj h
        simp only [Worker.input?, Option.map_none, Option.toList_none, List.append_nil] at hset
        have htakes : takes? s (.worker number) = if s.cancelled then none else s.waiting.head?.map (number, ·) := by
          rw [takes?, hw]
        unfold State.take
        by_cases hc : s.cancelled = true
        · rw [if_pos hc] at htakes ⊢
          exact .other htakes hworks rfl (by simpa using hset .stopped) rfl
        · rw [if_neg hc] at htakes ⊢
          cases hi : s.waiting with
          | nil =>
            rw [hi] at htakes
            exact .other htakes hworks rfl (by simpa using hset .stopped) rfl
          | cons input rest =>
            rw [hi] at htakes
            refine .take htakes hworks (Bool.eq_false_iff.mpr hc) hi ?_ rfl
            exact (hset (.busy input)).trans (List.perm_append_singleton _ _)
      | busy input =>
        obtain rfl := Option.some.inj h
        have htakes : takes? s (.worker number) = none := by rw [takes?, hw]
        obtain ⟨next, hinHand, hnext⟩ : ∃ next : Worker α β,
            (s.finish number (work input)).inHand = (s.setWorker number next).inHand ∧ next.input? = none := by
          refine ⟨_, rfl, ?_⟩
          cases (work input).outcome <;> rfl
        refine .work htakes hworks rfl ?_ rfl
        rw [hinHand]
        have hset := hset next
        rw [hnext, Option.map_none, Option.toList_none, List.append_nil] at hset
        exact hset.symm.trans (List.perm_append_singleton _ _)
      | sending value =>
        have htakes : takes? s (.worker number) = none := by rw [takes?, hw]
        simp only [State.send?] at h
        split at h
        · obtain rfl := Option.some.inj h
          have hidle : (s.setWorker number .idle).inHand.Perm s.inHand := by simpa [Worker.input?] using hset .idle
          exact .other htakes hworks rfl hidle rfl
        · cases h
      | stopped => cases h

namespace Run

variable {log : Log α}

/-- Inputs are taken from the front. -/
theorem waiting (h : Run work s log s') : log.inputs ++ s'.waiting = s.waiting := by
  induction h with
  | refl => rfl
  | cancel _ ih => exact ih
  | next label _ hs ih =>
    rw [Log.inputs_record]
    cases change_of_step? hs with
    | other htakes _ hwaiting =>
      rw [htakes, hwaiting, Option.map_none, Option.toList_none, List.append_nil]
      exact ih
    | work htakes _ hwaiting =>
      rw [htakes, hwaiting, Option.map_none, Option.toList_none, List.append_nil]
      exact ih
    | take htakes _ _ hwaiting =>
      rw [hwaiting] at ih
      rw [htakes, List.append_assoc]
      exact ih

/-- What a worker has taken, it works on once. -/
theorem worked (h : Run work s log s') : (s.inHand ++ log.taken).Perm (log.worked ++ s'.inHand) := by
  induction h with
  | refl => rw [List.append_nil]; exact .refl _
  | cancel _ ih => exact ih
  | @next log s' s'' label _ hs ih =>
    show (s.inHand ++ (log.taken ++ _)).Perm ((log.worked ++ _) ++ s''.inHand)
    rw [← List.append_assoc]
    cases change_of_step? hs with
    | other htakes hworks _ hinHand =>
      rw [htakes, hworks, Option.toList_none, List.append_nil, List.append_nil]
      exact ih.trans (hinHand.symm.append_left _)
    | take htakes hworks _ _ hinHand =>
      rw [htakes, hworks, Option.toList_none, List.append_nil]
      refine (ih.append_right _).trans ?_
      rw [List.append_assoc]
      exact ((List.perm_append_singleton _ _).trans hinHand.symm).append_left _
    | work htakes hworks _ hinHand =>
      rw [htakes, hworks, Option.toList_none, List.append_nil, List.append_assoc]
      exact ih.trans (hinHand.append_left _)

theorem trace (h : Run work s log s') : Trace work s log.attempts log.steps s' := by
  induction h with
  | refl => exact .refl
  | cancel _ ih => exact .cancel ih
  | @next log s' s'' label _ hs ih =>
    have hattempt : attempt? s' label = (works? s' label).map Prod.snd := by
      cases label with
      | collector => rfl
      | worker number => rw [attempt?, works?, Option.map_map]; exact (Option.map_id' ..).symm
    rw [Log.attempts_record, ← hattempt]
    exact .next label ih hs

theorem cancelled (h : Run work s log s') (hc : s.cancelled = true) : s'.cancelled = true ∧ log.taken = [] := by
  induction h with
  | refl => exact ⟨hc, rfl⟩
  | cancel _ ih => exact ⟨rfl, ih.2⟩
  | @next log s' s'' label _ hs ih =>
    obtain ⟨hcancelled, htaken⟩ := ih
    have htakes : takes? s' label = none → (log.record s' label).taken = [] := by
      intro htakes
      rw [Log.record, htakes, htaken]
      rfl
    cases change_of_step? hs with
    | other hnone _ _ _ hsame => exact ⟨hsame.trans hcancelled, htakes hnone⟩
    | take _ _ hnot =>
      rw [hcancelled] at hnot
      cases hnot
    | work hnone _ _ _ hsame => exact ⟨by rw [hsame, hcancelled, Bool.true_or], htakes hnone⟩

theorem results (h : Run work s log s') : s'.results work = s.results work := by
  induction h with
  | refl => rfl
  | cancel _ ih => exact ih
  | next label _ hs ih => exact (move_of_step? hs).results.trans ih

theorem runSteps (h : Run work s log s') (steps : Nat) :
    ∃ log', Run work s log' (runSteps work steps s') ∧ log'.interrupts = log.interrupts := by
  induction steps generalizing log s' with
  | zero => exact ⟨log, h, rfl⟩
  | succ steps ih =>
    rw [Pool.runSteps]
    cases hf : first? work s' with
    | none => exact ⟨log, h, rfl⟩
    | some next =>
      obtain ⟨label, hstep⟩ := move_of_first? hf
      obtain ⟨log', h', hi⟩ := ih (.next label h hstep)
      exact ⟨log', h', hi⟩

end Run

/-! ### Accounts -/

/-- The results of the inputs that have been taken: collected, on their way, or still to be handed over. -/
def State.outcomes (work : α → Work β) (s : State α β) : List β :=
  s.collected ++ s.queue ++ s.workers.filterMap (Worker.carries work)

theorem Finished.outcomes (hf : Finished s) : s.outcomes work = s.collected := by
  rw [State.outcomes, hf.filterMap_workers rfl, hf.2, List.append_nil, List.append_nil]

theorem inHand_eq_nil (h : ∀ w ∈ s.workers, w.input? = none) : s.inHand = [] := by
  rw [State.inHand, List.filterMap_eq_nil_iff]
  intro p hp
  rw [h p.1 (List.fst_mem_of_mem_zipIdx hp), Option.map_none]

theorem Finished.inHand (hf : Finished s) : s.inHand = [] := inHand_eq_nil fun w hw => by rw [hf.1 w hw]; rfl

theorem results_eq (work : α → Work β) (s : State α β) :
    s.results work = ↑(s.outcomes work) + ↑(s.waiting.filterMap (resultOf work)) := by
  simp only [State.results, State.outcomes, ← Multiset.coe_add]
  ac_rfl

/-- What is known of a pool at any time. -/
structure Accounts (work : α → Work β) (inputs : List α) (workers : Nat) (log : Log α) (s : State α β) : Prop where
  /-- The inputs that have been taken are the first ones, in order. -/
  taken : log.inputs ++ s.waiting = inputs
  /-- The worker that has taken an input works on it, once. -/
  once : log.taken.Perm (log.worked ++ s.inHand)
  busy : s.inHand.length ≤ max workers 1
  queued : s.queue.length ≤ max workers 1
  results : (s.outcomes work).Perm (log.inputs.filterMap (resultOf work))

/-- What is known of it in the end. -/
structure Ended (work : α → Work β) (inputs : List α) (log : Log α) (s : State α β) : Prop where
  once : log.worked.Perm log.taken
  collected : s.collected.Perm (log.attempts.filterMap (resultOf work))
  all : s.cancelled = false → log.inputs = inputs

/-- What becomes of a pool that is cancelled in a state. -/
structure Drained (work : α → Work β) (s : State α β) (log : Log α) (s' : State α β) : Prop where
  taken : log.taken = []
  waiting : s'.waiting = s.waiting
  /-- The inputs in hand are still worked on. -/
  once : s.inHand.Perm (log.worked ++ s'.inHand)
  results : (s'.outcomes work).Perm (s.outcomes work)

section Start

variable {inputs : List α} {workers : Nat} {cancelled : Bool} {log : Log α}

theorem Move.length (h : Move work s s') : s'.workers.length = s.workers.length := by
  cases h with
  | collect => rfl
  | stop | take | finish | send => exact List.length_set ..

theorem queue_of_reachable (h : Reachable work inputs workers cancelled s) : s.queue.length ≤ s.workers.length := by
  induction h with
  | refl => exact Nat.zero_le _
  | tail _ hs ih =>
    cases hs with
    | cancel => exact ih
    | next label hs =>
      cases move_of_step? hs with
      | collect hq =>
        rw [hq, List.length_cons] at ih
        exact Nat.le_of_succ_le ih
      | stop | take | finish => exact ih.trans_eq (List.length_set ..).symm
      | send _ hlt =>
        rw [List.length_append]
        exact hlt.trans_eq (List.length_set ..).symm

theorem inHand_start : (start inputs workers cancelled : State α β).inHand = [] :=
  inHand_eq_nil fun w hw => by rw [List.eq_of_mem_replicate hw]; rfl

theorem Run.accounts (h : Run work (start inputs workers cancelled) log s) : Accounts work inputs workers log s := by
  have hreach : Reachable work inputs workers cancelled s := h.trace.reaches
  have hlength := (honest_of_reachable hreach).length
  have htaken : log.inputs ++ s.waiting = inputs := h.waiting
  have hworked := h.worked
  have hresults := results_of_reachable hreach
  rw [inHand_start, List.nil_append] at hworked
  rw [results_eq, ← htaken, List.filterMap_append, ← Multiset.coe_add] at hresults
  exact {
    taken := htaken
    once := hworked
    busy := (inHand_le s).trans_eq hlength
    queued := (queue_of_reachable hreach).trans_eq hlength
    results := Multiset.coe_eq_coe.mp (add_right_cancel hresults) }

theorem Run.ended (h : Run work (start inputs workers cancelled) log s) (hf : Finished s) : Ended work inputs log s := by
  have haccounts := h.accounts
  have honce := haccounts.once
  have hresults := haccounts.results
  rw [hf.inHand, List.append_nil] at honce
  rw [hf.outcomes] at hresults
  refine ⟨honce.symm, hresults.trans ((honce.map Prod.snd).filterMap _), fun hc => ?_⟩
  have htaken := haccounts.taken
  rwa [waiting_of_finished h.trace.reaches hf hc, List.append_nil] at htaken

end Start

theorem Run.drained {log : Log α} (h : Run work s log s') (hc : s.cancelled = true) : Drained work s log s' := by
  have htaken := (h.cancelled hc).2
  have hwaiting := h.waiting
  have hworked := h.worked
  have hresults := h.results
  rw [Log.inputs, htaken, List.map_nil, List.nil_append] at hwaiting
  rw [htaken, List.append_nil] at hworked
  rw [results_eq, results_eq, hwaiting] at hresults
  exact ⟨htaken, hwaiting, hworked, Multiset.coe_eq_coe.mp (add_right_cancel hresults)⟩

/-! ### A single worker -/

section Single

/-- The results of all inputs, one behind the other. -/
def State.line (work : α → Work β) (s : State α β) : List β :=
  s.outcomes work ++ s.waiting.filterMap (resultOf work)

theorem filterMap_cons_toList {γ δ : Type} (f : γ → Option δ) (a : γ) (l : List γ) :
    (a :: l).filterMap f = (f a).toList ++ l.filterMap f := by
  rw [List.filterMap_cons]
  cases f a <;> rfl

theorem line_of_single {w : Worker α β} (h : s.workers = [w]) :
    s.line work =
      s.collected ++ s.queue ++ (w.carries work).toList ++ s.waiting.filterMap (resultOf work) := by
  rw [State.line, State.outcomes, h, filterMap_cons_toList, List.filterMap_nil, List.append_nil]

/-- A single worker does not change their order. -/
theorem Move.line (h : Move work s s') (hone : s.workers.length = 1) : s'.line work = s.line work := by
  obtain ⟨w, hw⟩ := List.length_eq_one_iff.mp hone
  have hnumber : ∀ {number : Nat} {w' : Worker α β}, s.workers[number]? = some w' → number = 0 ∧ w = w' := by
    intro number w' h
    rw [hw] at h
    cases number with
    | zero => exact ⟨rfl, Option.some.inj h⟩
    | succ number => cases h
  have hset : ∀ w', s.workers.set 0 w' = [w'] := fun w' => by rw [hw]; rfl
  rw [line_of_single hw]
  cases h with
  | collect hq =>
    refine Eq.trans (line_of_single hw) ?_
    simp [hq]
  | stop h =>
    obtain ⟨rfl, rfl⟩ := hnumber h
    rw [line_of_single (hset _)]
    rfl
  | take h hi =>
    obtain ⟨rfl, rfl⟩ := hnumber h
    rw [line_of_single (hset _), hi, filterMap_cons_toList]
    simp [Worker.carries, State.setWorker]
  | @finish _ input h =>
    obtain ⟨rfl, rfl⟩ := hnumber h
    obtain ⟨next, hnext, hcarries⟩ := carries_finish work s 0 input
    rw [line_of_single (hnext.trans (hset _)), hcarries]
    rfl
  | send h =>
    obtain ⟨rfl, rfl⟩ := hnumber h
    rw [line_of_single (hset _)]
    simp [Worker.carries, State.setWorker]

variable {log : Log α}

theorem Run.length (h : Run work s log s') : s'.workers.length = s.workers.length := by
  induction h with
  | refl => rfl
  | cancel _ ih => exact ih
  | next label _ hs ih => exact (move_of_step? hs).length.trans ih

theorem Run.line (h : Run work s log s') (hone : s.workers.length = 1) : s'.line work = s.line work := by
  induction h with
  | refl => rfl
  | cancel _ ih => exact ih
  | next label h hs ih => exact ((move_of_step? hs).line (h.length.trans hone)).trans ih

theorem singleton_of_perm {γ : Type} {l l' : List γ} {a : γ} (h : l.Perm (a :: l')) (hle : l.length ≤ 1) :
    l = [a] ∧ l' = [] := by
  have hnil : l' = [] := by
    have hlength := h.length_eq
    rw [List.length_cons] at hlength
    exact List.length_eq_zero_iff.mp (by omega)
  subst hnil
  exact ⟨List.perm_singleton.mp h, rfl⟩

/-- What a step does to the inputs of a single worker, which has one in hand at most. -/
inductive Turn (work : α → Work β) (s : State α β) (label : Label) (s' : State α β) : Prop where
  | other : takes? s label = none → works? s label = none → s'.inHand = s.inHand → s'.cancelled = s.cancelled →
    Turn work s label s'
  | take {p : Nat × α} : takes? s label = some p → works? s label = none → s.inHand = [] → s'.inHand = [p] →
    s.cancelled = false → s'.cancelled = false → Turn work s label s'
  | work {p : Nat × α} : takes? s label = none → works? s label = some p → s.inHand = [p] → s'.inHand = [] →
    s'.cancelled = (s.cancelled || (work p.2).cancels) → Turn work s label s'

theorem turn_of_step? (h : step? work s label = some s') (hone : s.workers.length = 1) : Turn work s label s' := by
  have hle : s.inHand.length ≤ 1 := hone ▸ inHand_le s
  have hle' : s'.inHand.length ≤ 1 := (inHand_le s').trans_eq ((move_of_step? h).length.trans hone)
  cases change_of_step? h with
  | other htakes hworks _ hinHand hc =>
    refine .other htakes hworks ?_ hc
    cases hs : s.inHand with
    | nil => exact List.perm_nil.mp (hs ▸ hinHand)
    | cons p rest =>
      obtain ⟨hsingle, rfl⟩ := singleton_of_perm (hs ▸ hinHand) hle'
      exact hsingle
  | take htakes hworks hopen _ hinHand hc =>
    obtain ⟨hsingle, hnil⟩ := singleton_of_perm hinHand hle'
    exact .take htakes hworks hnil hsingle hopen (hc.trans hopen)
  | work htakes hworks _ hinHand hc =>
    obtain ⟨hsingle, hnil⟩ := singleton_of_perm hinHand hle
    exact .work htakes hworks hsingle hnil hc

/-- A single worker works on its inputs in the order in which it has taken them. -/
theorem Run.worked_of_single (h : Run work s log s') (hone : s.workers.length = 1) :
    s.inHand ++ log.taken = log.worked ++ s'.inHand := by
  induction h with
  | refl => rw [List.append_nil]; rfl
  | cancel _ ih => exact ih
  | @next log s' s'' label h hs ih =>
    show s.inHand ++ (log.taken ++ _) = (log.worked ++ _) ++ s''.inHand
    rw [← List.append_assoc, ih]
    cases turn_of_step? hs (h.length.trans hone) with
    | other htakes hworks hinHand =>
      rw [htakes, hworks, hinHand]
      simp
    | take htakes hworks hbefore hafter =>
      rw [htakes, hworks, hbefore, hafter]
      simp
    | work htakes hworks hbefore hafter =>
      rw [htakes, hworks, hbefore, hafter]
      simp

/-- The elements up to and including the first that has a property. -/
def through (p : α → Bool) : List α → List α
  | [] => []
  | a :: rest => if p a then [a] else a :: through p rest

/-- The inputs that have been worked on are the ones up to the first whose work cancels the call. -/
structure Heeds (work : α → Work β) (log : Log α) (s : State α β) : Prop where
  inHand : s.cancelled = true → s.inHand = []
  attempts : ∀ rest, through (fun input => (work input).cancels) (log.attempts ++ rest) =
    log.attempts ++ if s.cancelled then [] else through (fun input => (work input).cancels) rest

theorem Run.heeds (h : Run work s log s') (hone : s.workers.length = 1) (hc : s.cancelled = false)
    (hi : log.interrupts = 0) : Heeds work log s' := by
  induction h with
  | refl =>
    refine ⟨fun h => ?_, fun rest => ?_⟩
    · rw [hc] at h
      cases h
    · rw [hc]
      rfl
  | cancel _ _ => cases hi
  | @next log s' s'' label h hs ih =>
    obtain ⟨hinHand, hattempts⟩ := ih hi
    cases turn_of_step? hs (h.length.trans hone) with
    | other _ hworks hsame hcancelled =>
      refine ⟨fun h => hsame.trans (hinHand (hcancelled ▸ h)), fun rest => ?_⟩
      rw [Log.attempts_record, hworks, hcancelled]
      simpa using hattempts rest
    | take _ hworks _ _ hopen hcancelled =>
      refine ⟨fun h => ?_, fun rest => ?_⟩
      · rw [hcancelled] at h
        cases h
      · rw [Log.attempts_record, hworks, hcancelled, ← hopen]
        simpa using hattempts rest
    | @work p _ hworks hbefore hafter hcancelled =>
      -- an input in hand means that no earlier work has cancelled the call
      have hopen : s'.cancelled = false := by
        by_contra hne
        rw [Bool.not_eq_false] at hne
        rw [hinHand hne] at hbefore
        cases hbefore
      refine ⟨fun _ => hafter, fun rest => ?_⟩
      have hrest := hattempts (p.2 :: rest)
      rw [hopen, through] at hrest
      rw [Log.attempts_record, hworks, hcancelled, hopen, Bool.false_or, Option.map_some, Option.toList_some,
        List.append_assoc, List.singleton_append, hrest]
      cases (work p.2).cancels <;> simp

/-- What a pool with a single worker has collected in the end. -/
structure Sequential (work : α → Work β) (inputs : List α) (workers : Nat) (cancelled : Bool) : Prop where
  uncancelled : ∀ log s, Run work (start inputs workers cancelled) log s → Finished s → s.cancelled = false →
    s.collected = inputs.filterMap (resultOf work)
  beforehand : cancelled = true → ∀ log s, Run work (start inputs workers cancelled) log s → Finished s →
    log.taken = [] ∧ s.collected = []
  /-- From outside or by the work, the call is cancelled in the step from `s` to `s'`: what counts are the inputs that
  have been taken before, and the one in hand is the last of them. -/
  during : ∀ log s s' later last, Run work (start inputs workers cancelled) log s → s.cancelled = false →
    Step work s s' → s'.cancelled = true → Run work s' later last → Finished last →
    later.taken = [] ∧ last.collected = log.inputs.filterMap (resultOf work) ∧
      ∀ p ∈ s.inHand, log.taken = log.worked ++ [p]
  byWork : cancelled = false → ∀ log s, Run work (start inputs workers cancelled) log s → log.interrupts = 0 →
    Finished s → s.collected = (through (fun input => (work input).cancels) inputs).filterMap (resultOf work)

theorem Finished.line (hf : Finished s) : s.line work = s.collected ++ s.waiting.filterMap (resultOf work) := by
  rw [State.line, hf.outcomes]

theorem Step.length (h : Step work s s') : s'.workers.length = s.workers.length := by
  cases h with
  | next label hs => exact (move_of_step? hs).length
  | cancel => rfl

theorem Step.line (h : Step work s s') (hone : s.workers.length = 1) : s'.line work = s.line work := by
  cases h with
  | next label hs => exact (move_of_step? hs).line hone
  | cancel => rfl

/-- No input is taken in the step in which the call is cancelled. -/
theorem Step.waiting (h : Step work s s') (hopen : s.cancelled = false) (hc : s'.cancelled = true) :
    s'.waiting = s.waiting := by
  cases h with
  | cancel => rfl
  | next label hs =>
    cases change_of_step? hs with
    | other _ _ hwaiting => exact hwaiting
    | work _ _ hwaiting => exact hwaiting
    | take _ _ _ _ _ hsame =>
      rw [hsame, hopen] at hc
      cases hc

section Start

variable {inputs : List α} {workers : Nat} {cancelled : Bool} (hone : workers ≤ 1)

include hone

theorem length_start : (start inputs workers cancelled : State α β).workers.length = 1 :=
  List.length_replicate.trans (Nat.max_eq_right hone)

theorem line_of_start (h : Run work (start inputs workers cancelled) log s) :
    s.line work = inputs.filterMap (resultOf work) := by
  rw [h.line (length_start hone), State.line, State.outcomes, filterMap_workers_start rfl]
  rfl

theorem taken_of_start (h : Run work (start inputs workers cancelled) log s) : log.taken = log.worked ++ s.inHand := by
  have hworked := h.worked_of_single (length_start hone)
  rwa [inHand_start, List.nil_append] at hworked

theorem collected_of_taken (h : Run work (start inputs workers cancelled) log s) {last : State α β}
    (hf : Finished last) (hline : last.line work = s.line work) (hwaiting : last.waiting = s.waiting) :
    last.collected = log.inputs.filterMap (resultOf work) := by
  rw [line_of_start hone h, hf.line, hwaiting, ← h.accounts.taken, List.filterMap_append] at hline
  exact List.append_cancel_right hline

theorem sequential : Sequential work inputs workers cancelled where
  uncancelled := by
    intro log s h hf hc
    rw [collected_of_taken hone h hf rfl rfl, (h.ended hf).all hc]
  beforehand := by
    rintro rfl log s h hf
    obtain ⟨-, htaken⟩ := h.cancelled rfl
    rw [collected_of_taken hone h hf rfl rfl, Log.inputs, htaken]
    exact ⟨rfl, rfl⟩
  during := by
    intro log s s' later last h hopen hs hc hlater hf
    have hdrained := hlater.drained hc
    have hlength : s.workers.length = 1 := h.length.trans (length_start hone)
    refine ⟨hdrained.taken, ?_, fun p hp => ?_⟩
    · have hline := (hlater.line (hs.length.trans hlength)).trans (hs.line hlength)
      exact collected_of_taken hone h hf hline (hdrained.waiting.trans (hs.waiting hopen hc))
    · have hle := hlength ▸ inHand_le s
      obtain ⟨q, hq⟩ := List.length_eq_one_iff.mp (Nat.le_antisymm hle (List.length_pos_of_mem hp))
      rw [hq, List.mem_singleton] at hp
      rw [taken_of_start hone h, hq, hp]
  byWork := by
    rintro rfl log s h hi hf
    have htaken := taken_of_start hone h
    rw [hf.inHand, List.append_nil] at htaken
    have hthrough := (h.heeds (length_start hone) rfl hi).attempts s.waiting
    have hinputs : log.attempts ++ s.waiting = inputs := by
      rw [Log.attempts, ← htaken]
      exact h.accounts.taken
    have hrest : (if s.cancelled then [] else through (fun input => (work input).cancels) s.waiting) = [] := by
      split
      · rfl
      · rename_i hc
        rw [waiting_of_finished h.trace.reaches hf (Bool.eq_false_iff.mpr hc)]
        rfl
    rw [hinputs, hrest, List.append_nil] at hthrough
    rw [collected_of_taken hone h hf rfl rfl, hthrough, Log.inputs, Log.attempts, htaken]

end Start

end Single

/-- For every order of steps, and cancellations at any time: inputs are taken in order, each is worked on once by the
worker that has taken it, and what is collected in the end are the results of these. The pool can always go on until
it has ended, which takes no more than so many steps. A pool that is cancelled takes no more inputs and hands over
the results of those in hand; one with a single worker keeps their order. What is run is one of these schedules. -/
theorem schedule_exact (work : α → Work β) (inputs : List α) (workers : Nat) (cancelled : Bool) :
    (∀ log s, Run work (start inputs workers cancelled) log s →
      Accounts work inputs workers log s ∧
      (Finished s → Ended work inputs log s) ∧
      log.steps ≤ 4 * inputs.length + max workers 1 ∧
      (Finished s ∨ ∃ label next, step? work s label = some next) ∧
      (s.cancelled = true → ∀ later s', Run work s later s' → Drained work s later s')) ∧
    (workers ≤ 1 → Sequential work inputs workers cancelled) ∧
    ∃ log s, Run work (start inputs workers cancelled) log s ∧ log.interrupts = 0 ∧ Finished s ∧
      s.collected = parallelMap work inputs workers cancelled := by
  refine ⟨fun log s h => ⟨h.accounts, h.ended, h.trace.steps_le, finished_or_enabled work s, ?_⟩, sequential, ?_⟩
  · intro hc later s' hlater
    exact hlater.drained hc
  · obtain ⟨log, h, hi⟩ := Run.refl.runSteps (maxSteps (start inputs workers cancelled))
    exact ⟨log, _, h, hi, finished_run work inputs workers cancelled, rfl⟩

/-- Work that breaks off for `2`, and cancels the call for `3`. -/
def breaking (input : Nat) : Work Nat :=
  if input = 2 then ⟨.crash, false⟩ else ⟨.result (10 * input), input == 3⟩

/-- A single worker, and two workers that are cancelled before they start. -/
theorem schedule_exact_breaking :
    (∃ log s, Run breaking (start [1, 2, 3, 4] 0 false) log s ∧ Finished s ∧ s.collected = [10, 30] ∧ log.steps ≤ 17) ∧
      ∃ log s, Run breaking (start [1, 2, 3, 4] 2 true) log s ∧ Finished s ∧ s.waiting = [1, 2, 3, 4] := by
  constructor
  · obtain ⟨hall, hsingle, log, s, h, hi, hf, -⟩ := schedule_exact breaking [1, 2, 3, 4] 0 false
    obtain ⟨-, -, hsteps, -⟩ := hall log s h
    exact ⟨log, s, h, hf, (hsingle (by decide)).byWork rfl log s h hi hf, hsteps⟩
  · obtain ⟨hall, -, log, s, h, -, hf, -⟩ := schedule_exact breaking [1, 2, 3, 4] 2 true
    obtain ⟨-, -, -, -, hcancelled⟩ := hall _ _ .refl
    exact ⟨log, s, h, hf, (hcancelled rfl log s h).waiting⟩

end Pool
end Index
end ShareIndex
