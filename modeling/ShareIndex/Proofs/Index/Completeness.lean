import ShareIndex.Proofs.Index.Cycle

/-!
# ShareIndex.Proofs.Index.Completeness

A scan finds all downloads or none, for every converter, in whatever order the workers take their steps and
whenever it is cancelled.

* `Pool.Trace`    — steps of a pool, with the inputs that were worked on in them.
* `Trace.pending` — an input is waiting, in work, or has been worked on.
* `Trace.steps_le` — no pool takes more steps than `maxSteps`.
* `ScanRuns`      — what a scan with any converter may come to, with the folders that were converted for it.
* `Complete`      — the downloads of all candidates, each of which was converted once.
* `scan_complete` — a scan that does not fail is complete, and nothing else is published.
-/

namespace ShareIndex
namespace Index

open Repository
open Share (Download Summary)
open Store (Backend KeyValueStore)

namespace Pool

variable {α β : Type} {work : α → Work β} {s s' : State α β} {label : Label}

/-! ### Attempts -/

def Worker.input? : Worker α β → Option α
  | .busy input => some input
  | .idle | .sending _ | .stopped => none

/-- The input that the step of a label works on. -/
def attempt? (s : State α β) : Label → Option α
  | .collector => none
  | .worker number => s.workers[number]?.bind Worker.input?

/-- The inputs that are still to be worked on. -/
def State.pending (s : State α β) : Multiset α := ↑s.waiting + ↑(s.workers.filterMap Worker.input?)

theorem pending_setWorker {number : Nat} {old : Worker α β} (h : s.workers[number]? = some old) (w : Worker α β) :
    (s.setWorker number w).pending + ↑old.input?.toList = s.pending + ↑w.input?.toList := by
  have hset := coe_filterMap_set Worker.input? h w
  simp only [State.pending, State.setWorker, add_assoc, hset]

theorem pending_setWorker_of_none {number : Nat} {old : Worker α β} (h : s.workers[number]? = some old)
    (hold : old.input? = none) (w : Worker α β) : (s.setWorker number w).pending = s.pending + ↑w.input?.toList := by
  have hset := pending_setWorker h w
  rwa [hold, Option.toList_none, Multiset.coe_nil, add_zero] at hset

theorem pending_take {number : Nat} (h : s.workers[number]? = some .idle) : (s.take number).pending = s.pending := by
  have hset := pending_setWorker_of_none h rfl
  unfold State.take
  split
  · exact (hset .stopped).trans (add_zero _)
  · split
    · exact (hset .stopped).trans (add_zero _)
    · -- the input leaves the list and comes to the worker
      rename_i input rest hi
      have hbusy := hset (.busy input)
      have hcons : (↑(input :: rest) : Multiset α) = ↑[input] + ↑rest := rfl
      simp only [State.pending, State.setWorker, Worker.input?, Option.toList_some, hi, hcons] at hbusy ⊢
      refine add_left_cancel (a := (↑[input] : Multiset α)) ?_
      rw [← add_assoc, hbusy]
      ac_rfl

theorem pending_finish {number : Nat} {input : α} (h : s.workers[number]? = some (.busy input)) (w : Work β) :
    ↑[input] + (s.finish number w).pending = s.pending := by
  obtain ⟨next, hs, hn⟩ : ∃ next : Worker α β, (s.finish number w).pending = (s.setWorker number next).pending ∧
      next.input? = none := by
    refine ⟨_, rfl, ?_⟩
    cases w.outcome <;> rfl
  have hset := pending_setWorker h next
  rw [hn, Option.toList_none, Multiset.coe_nil, add_zero] at hset
  rw [hs, add_comm]
  exact hset

theorem pending_step (h : step? work s label = some s') : ↑(attempt? s label).toList + s'.pending = s.pending := by
  cases label with
  | collector =>
    simp only [step?, State.collect?] at h
    split at h
    · cases h
    · obtain rfl := Option.some.inj h
      exact zero_add _
  | worker number =>
    simp only [step?] at h
    cases hw : s.workers[number]? with
    | none => rw [hw] at h; cases h
    | some w =>
      rw [hw] at h
      rw [attempt?, hw, Option.bind_some]
      cases w with
      | idle =>
        obtain rfl := Option.some.inj h
        exact (zero_add _).trans (pending_take hw)
      | busy input =>
        obtain rfl := Option.some.inj h
        exact pending_finish hw _
      | sending value =>
        simp only [State.send?] at h
        split at h
        · obtain rfl := Option.some.inj h
          exact (zero_add _).trans ((pending_setWorker_of_none hw rfl .idle).trans (add_zero _))
        · cases h
      | stopped => cases h

/-! ### Traces -/

/-- Any number of steps and cancellations: the inputs that were worked on, and how many steps the collector and the
workers have taken. -/
inductive Trace (work : α → Work β) (s : State α β) : List α → Nat → State α β → Prop where
  | refl : Trace work s [] 0 s
  | next {attempts : List α} {steps : Nat} {s' s'' : State α β} (label : Label) : Trace work s attempts steps s' →
    step? work s' label = some s'' → Trace work s (attempts ++ (attempt? s' label).toList) (steps + 1) s''
  | cancel {attempts : List α} {steps : Nat} {s' : State α β} : Trace work s attempts steps s' →
    Trace work s attempts steps (Pool.cancel s')

namespace Trace

variable {attempts : List α} {steps : Nat}

theorem reaches (h : Trace work s attempts steps s') : Relation.ReflTransGen (Step work) s s' := by
  induction h with
  | refl => exact .refl
  | next label _ hs ih => exact ih.tail (.next label hs)
  | cancel _ ih => exact ih.tail .cancel

theorem of_reaches (h : Relation.ReflTransGen (Step work) s s') : ∃ attempts steps, Trace work s attempts steps s' := by
  induction h with
  | refl => exact ⟨[], 0, .refl⟩
  | tail _ hs ih =>
    obtain ⟨attempts, steps, h⟩ := ih
    cases hs with
    | next label hs => exact ⟨_, _, .next label h hs⟩
    | cancel => exact ⟨_, _, .cancel h⟩

/-- No input is worked on twice, and none is lost. -/
theorem pending (h : Trace work s attempts steps s') : ↑attempts + s'.pending = s.pending := by
  induction h with
  | refl => exact zero_add _
  | next label _ hs ih => rw [← Multiset.coe_add, add_assoc, pending_step hs, ih]
  | cancel _ ih => exact ih

theorem steps_add_weight_le (h : Trace work s attempts steps s') : steps + s'.weight ≤ s.weight := by
  induction h with
  | refl => rw [Nat.zero_add]
  | next label _ hs ih =>
    have hlt := (move_of_step? hs).weight
    omega
  | cancel _ ih => exact ih

end Trace

section Start

variable {inputs attempts : List α} {workers steps : Nat} {cancelled : Bool}

theorem pending_start : (start inputs workers cancelled : State α β).pending = ↑inputs := by
  rw [State.pending, filterMap_workers_start rfl]
  simp only [start, Multiset.coe_nil, add_zero]

/-- Every schedule comes to an end. -/
theorem Trace.steps_le (h : Trace work (start inputs workers cancelled) attempts steps s) :
    steps ≤ 4 * inputs.length + max workers 1 := by
  have hle := h.steps_add_weight_le
  rw [weight_start] at hle
  omega

/-- No input is worked on twice. -/
theorem Trace.subperm (h : Trace work (start inputs workers cancelled) attempts steps s) : attempts.Subperm inputs := by
  have hpending := h.pending
  rw [pending_start] at hpending
  rw [← Multiset.coe_le, ← hpending]
  exact Multiset.le_add_right _ _

/-- A pool that has ended without being cancelled has worked on every input once. -/
theorem Trace.perm (h : Trace work (start inputs workers cancelled) attempts steps s) (hf : Finished s)
    (hc : s.cancelled = false) : attempts.Perm inputs := by
  have hpending := h.pending
  rw [pending_start, State.pending, waiting_of_finished h.reaches hf hc, hf.filterMap_workers rfl, Multiset.coe_nil,
    add_zero, add_zero] at hpending
  exact Multiset.coe_eq_coe.mp hpending

end Start

/-- A pool that has not ended can go on. -/
theorem finished_or_enabled (work : α → Work β) (s : State α β) : Finished s ∨ ∃ label s', step? work s label = some s' := by
  cases hf : first? work s with
  | none => exact .inl (finished_of_first? hf)
  | some next =>
    obtain ⟨label, h⟩ := move_of_first? hf
    exact .inr ⟨label, next, h⟩

end Pool

/-! ### Scans -/

section Scans

variable {work : FilePath → Pool.Work Download} {files : FileTree} {root : FilePath} {workers : Nat}
  {folders attempts : List FilePath} {batch : List Download}

/-- What a scan may come to whose converter does this work, and the folders that are converted for it. The work may
come to anything, for each folder. -/
inductive ScanRuns (work : FilePath → Pool.Work Download) (files : FileTree) (root : FilePath) (workers : Nat) :
    List FilePath → Except ScanError (List Download) → Prop where
  | unreadable {e : ScanError} : candidates files root = .error e → ScanRuns work files root workers [] (.error e)
  | cancelled {folders attempts : List FilePath} {early : Bool} {steps : Nat} {pool : Pool.State FilePath Download} :
    candidates files root = .ok folders → Pool.Trace work (Pool.start folders workers early) attempts steps pool →
    Pool.Finished pool → pool.cancelled = true → ScanRuns work files root workers attempts (.error .cancelled)
  | found {folders attempts : List FilePath} {early : Bool} {steps : Nat} {pool : Pool.State FilePath Download} :
    candidates files root = .ok folders → Pool.Trace work (Pool.start folders workers early) attempts steps pool →
    Pool.Finished pool → pool.cancelled = false → ScanRuns work files root workers attempts (.ok pool.collected)

theorem Scanner.Scans.runs {sc : Scanner} {result : Except ScanError (List Download)} (h : sc.Scans files result) :
    ∃ attempts, ScanRuns (sc.work files) files sc.root sc.workers attempts result := by
  cases h with
  | unreadable he => exact ⟨[], .unreadable he⟩
  | cancelled hf hr hfinished hcancelled =>
    obtain ⟨attempts, steps, ht⟩ := Pool.Trace.of_reaches hr
    exact ⟨attempts, .cancelled hf ht hfinished hcancelled⟩
  | found hf hr hfinished hcancelled =>
    obtain ⟨attempts, steps, ht⟩ := Pool.Trace.of_reaches hr
    exact ⟨attempts, .found hf ht hfinished hcancelled⟩

/-- Each of the folders was converted once, and nothing is missing but what could not be converted. -/
structure Complete (work : FilePath → Pool.Work Download) (folders attempts : List FilePath) (batch : List Download) :
    Prop where
  nodup : folders.Nodup
  attempts : attempts.Perm folders
  downloads : batch.Perm (folders.filterMap (Pool.resultOf work))

theorem ScanRuns.complete (h : ScanRuns work files root workers attempts (.ok batch)) :
    ∃ folders, candidates files root = .ok folders ∧ Complete work folders attempts batch := by
  cases h with
  | @found folders _ early steps pool hf ht hfinished hcancelled =>
    refine ⟨folders, hf, ?_⟩
    exact {
      nodup := candidates_nodup hf
      attempts := ht.perm hfinished hcancelled
      downloads := Pool.collected_perm ht.reaches hfinished hcancelled }

/-- How the result of a scan is related to the folders that were converted for it. -/
def ScanOutcome (work : FilePath → Pool.Work Download) (files : FileTree) (root : FilePath)
    (attempts : List FilePath) : Except ScanError (List Download) → Prop
  | .error (.unreadable path) => path = root ∧ attempts = [] ∧ ∃ e, files.list root = .error e
  | .error .cancelled => ∃ folders, candidates files root = .ok folders ∧ folders.Nodup ∧ attempts.Subperm folders
  | .ok batch => ∃ folders, candidates files root = .ok folders ∧ Complete work folders attempts batch

theorem ScanRuns.outcome {result : Except ScanError (List Download)}
    (h : ScanRuns work files root workers attempts result) : ScanOutcome work files root attempts result := by
  cases h with
  | unreadable he =>
    rw [candidates] at he
    split at he
    · rename_i e hl
      obtain rfl := Except.error.inj he
      exact ⟨rfl, rfl, e, hl⟩
    · cases he
  | cancelled hf ht => exact ⟨_, hf, candidates_nodup hf, ht.subperm⟩
  | found hf ht hfinished hcancelled => exact (ScanRuns.found hf ht hfinished hcancelled).complete

end Scans

/-! ### Publications -/

/-- The step sends no batch of commands but the one that writes this batch. -/
def SendsOnly (batch : List Download) : Effect → Prop
  | .store (.apply cmds) => ∃ g, cmds = commands g batch
  | _ => True

section SendsOnly

variable {pages : Nat} {batch : List Download}

theorem sendsOnly_of_ne_apply {r : Store.Request} (h : r.operation ≠ .apply) : SendsOnly batch (.store r) := by
  cases r with
  | apply => exact absurd rfl h
  | get | set | delete | scan | getField | getFields | getAll | scanFields | deleteFields | increment => trivial

theorem publish_sendsOnly (pages : Nat) (batch : List Download) : (publish pages batch).run.Every (SendsOnly batch) := by
  have hread : storedGeneration.run.Every (SendsOnly batch) :=
    Program.every_action (Program.every_request trivial) fun _ => trivial
  have hprepare : ∀ g, (prepare pages batch g).run.Every (SendsOnly batch) := by
    intro g
    refine Program.every_strict prepare_strict fun r e e' h => ?_
    cases h with
    | reading | scanning | deleting | swapping => trivial
    | writing => exact ⟨g, rfl⟩
  rw [publish_eq]
  refine Program.every_action ?_ fun g => ⟨trivial, fun _ => trivial⟩
  exact Program.every_action hread fun active => Program.every_action (hprepare _) fun _ => trivial

theorem prune_sendsOnly (pages : Nat) (batch : List Download) : (prune pages batch).run.Every (SendsOnly batch) := by
  refine Program.every_strict pruneAfter_strict fun r e e' h => ?_
  cases h <;> trivial

theorem info_sendsOnly (batch : List Download) : info.run.Every (SendsOnly batch) := by
  obtain ⟨next, hcall, hreads⟩ := Reader.reads .info
  rw [show info.run = _ from hcall]
  refine ⟨trivial, fun active => (hreads active).mono fun effect he => ?_⟩
  cases effect with
  | store r =>
    obtain ⟨key, hr, -⟩ := he
    refine sendsOnly_of_ne_apply fun hop => ?_
    cases r <;> cases hr <;> cases hop
  | readHolder | writeHolder => trivial

theorem publishBatch_sendsOnly (pages : Nat) (batch : List Download) :
    (publishBatch pages batch).run.Every (SendsOnly batch) := by
  have hattempt : ∀ {α : Type} {raise : Repository.Error → Error} {x : Repository.Action α},
      x.run.Every (SendsOnly batch) → (attempt raise x).run.Every (SendsOnly batch) := by
    intro α raise x hx
    exact Program.every_bind hx fun result => trivial
  have hignore : ∀ {α : Type} {x : Repository.Action α}, x.run.Every (SendsOnly batch) →
      (ignoreFailure x).run.Every (SendsOnly batch) := by
    intro α x hx
    exact Program.every_bind (Program.every_bind hx fun result => trivial) fun result => trivial
  refine Program.every_action (hattempt (publish_sendsOnly pages batch)) fun g => ?_
  exact Program.every_action (hignore (prune_sendsOnly pages batch)) fun _ => hattempt (info_sendsOnly batch)

end SendsOnly

/-- For every converter, every number of workers, every order of their steps and every time of cancellation: a scan
that does not fail has converted every candidate once and found all downloads. What a cycle sends to the store comes
after such a scan, and is written for exactly these downloads. No scan goes on forever. -/
theorem scan_complete (work : FilePath → Pool.Work Download) (files : FileTree) (root : FilePath) (workers : Nat) :
    (∀ attempts result, ScanRuns work files root workers attempts result →
      ScanOutcome work files root attempts result ∧
      ∀ {S : Type} [KeyValueStore S] (pages : Nat) (s s' : Shared S) (events : List Event)
        (rest : Program (Except Error (List Summary))),
        Reaches (cycle pages result).run s events rest s' → events ≠ [] →
        ∃ batch folders, result = .ok batch ∧ candidates files root = .ok folders ∧
          Complete work folders attempts batch ∧ ∀ e ∈ events, SendsOnly batch (.store e.1)) ∧
    ∀ folders early attempts steps pool, Pool.Trace work (Pool.start folders workers early) attempts steps pool →
      steps ≤ 4 * folders.length + max workers 1 ∧
      (Pool.Finished pool ∨ ∃ label next, Pool.step? work pool label = some next) := by
  refine ⟨fun attempts result h => ⟨h.outcome, ?_⟩, fun folders early attempts steps pool h => ?_⟩
  · intro S _ pages s s' events rest hr hevents
    match result, h, hr with
    | .error .cancelled, _, hr => exact absurd (reaches_done hr).1 hevents
    | .error (.unreadable path), _, hr => exact absurd (reaches_done hr).1 hevents
    | .ok [], _, hr => exact absurd (reaches_done hr).1 hevents
    | .ok (download :: others), h, hr =>
      obtain ⟨folders, hf, hcomplete⟩ := h.complete
      exact ⟨_, folders, rfl, hf, hcomplete, (publishBatch_sendsOnly _ _).events hr⟩
  · exact ⟨h.steps_le, Pool.finished_or_enabled work pool⟩

/-- Work that breaks off for the first folder, and makes a download of any other. -/
def crashing (folder : FilePath) : Pool.Work Download :=
  if folder = ⟨"/srv/share/a"⟩ then ⟨.crash, false⟩ else ⟨.result (.ofPath folder "" "" []), false⟩

/-- Two workers; a single request of the publication is made. -/
theorem scan_complete_crash : ∃ attempts batch, ScanRuns crashing twoFolders ⟨"/srv/share"⟩ 2 attempts (.ok batch) ∧
    attempts.Perm [⟨"/srv/share/a"⟩, ⟨"/srv/share/b"⟩] ∧ batch = [.ofPath ⟨"/srv/share/b"⟩ "" "" []] ∧
    ∃ events rest s', Reaches (cycle 1 (.ok batch)).run (⟨.memory .empty, none⟩ : Shared Backend) events rest s' ∧
      events ≠ [] ∧ ∀ e ∈ events, SendsOnly batch (.store e.1) := by
  have hcancels : ∀ folder, (crashing folder).cancels = false := by
    intro folder
    unfold crashing
    split <;> rfl
  obtain ⟨attempts, steps, htrace⟩ := Pool.Trace.of_reaches
    (Pool.reachable_run crashing [⟨"/srv/share/a"⟩, ⟨"/srv/share/b"⟩] 2 false)
  have hcandidates : candidates twoFolders ⟨"/srv/share"⟩ = _ := candidates_host
  have hfound := ScanRuns.found hcandidates htrace (Pool.finished_run ..) (Pool.cancelled_run hcancels ..)
  obtain ⟨hscan, -⟩ := scan_complete crashing twoFolders ⟨"/srv/share"⟩ 2
  obtain ⟨⟨folders, hf, hcomplete⟩, hpublish⟩ := hscan _ _ hfound
  obtain rfl := Except.ok.inj (candidates_host.symm.trans hf)
  have hbatch := List.perm_singleton.mp hcomplete.downloads
  refine ⟨attempts, _, hfound, hcomplete.attempts, hbatch, ?_⟩
  generalize (Pool.run crashing (Pool.start [⟨"/srv/share/a"⟩, ⟨"/srv/share/b"⟩] 2 false)).collected = batch
    at hbatch hpublish
  subst hbatch
  obtain ⟨events, rest, s', hreaches, hevents⟩ : ∃ events rest s',
      Reaches (cycle 1 (.ok [.ofPath ⟨"/srv/share/b"⟩ "" "" []])).run (⟨.memory .empty, none⟩ : Shared Backend) events
        rest s' ∧ events ≠ [] := ⟨_, _, _, .single (.request (.served (.get Key.active))), List.cons_ne_nil _ _⟩
  obtain ⟨_, _, hok, -, -, hsends⟩ := hpublish 1 _ _ _ _ hreaches hevents
  obtain rfl := Except.ok.inj hok
  exact ⟨events, rest, s', hreaches, hevents, hsends⟩

end Index
end ShareIndex
