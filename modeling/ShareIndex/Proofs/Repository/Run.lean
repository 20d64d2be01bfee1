import ShareIndex.Repository.Program
import ShareIndex.Store.Faulty

/-!
# ShareIndex.Proofs.Repository.Run

Calls on a store that may fail at any request, step by step.

* `Reply`         — what a store may answer to one request: it serves or refuses it, or cuts a batch off.
* `Program.Step`  — one step of a call, with the requests that were sent in it.
* `Reaches`       — any number of steps; `Runs` are those that lead to the end.
* `Program.events` — the requests of a call on a store that answers as it does.
* `runs_run`, `runs_wrapped` — calls on a store are runs, and so are calls on a store that wraps it; `runs_faulty` is
  the case of the wrapper that injects faults.
* `runs_bind`, `runs_request` — a run of a composed call is composed of runs.
* `Action.Succeeds` — whether a call succeeds on a store without faults.
* `Strict`        — calls that only send requests and end with the first one that fails.
* `Program.Every` — calls all of whose steps, whatever the answers are, satisfy a condition.
-/

namespace ShareIndex
namespace Repository

open Store (Request KeyValueStore Faulty)

/-- A request that was sent, and the answer to it. -/
abbrev Event := (r : Request) × Except Store.Error r.Answer

def Event.Succeeded (e : Event) : Prop := ∃ a, e.2 = .ok a

section Steps

variable {S : Type} [KeyValueStore S] {α β ε : Type}

/-- A request that is refused has no effect. A batch may also fail after some of its commands have been served. -/
inductive Reply (s : S) : (r : Request) → Except Store.Error r.Answer → S → Prop where
  | served (r : Request) : Reply s r (KeyValueStore.perform s r).1 (KeyValueStore.perform s r).2
  | refused (r : Request) (e : Store.Error) : Reply s r (.error e) s
  | cut (commands : List Store.Command) (n : Nat) (e : Store.Error) :
    Reply s (.apply commands) (.error e) (KeyValueStore.perform s (.apply (commands.take n))).2

inductive Program.Step : Program α → Shared S → List Event → Program α → Shared S → Prop where
  | request {s : Shared S} {r : Request} {next : Except Store.Error r.Answer → Program α}
      {answer : Except Store.Error r.Answer} {store : S} : Reply s.store r answer store →
      Step (.perform (.store r) next) s [⟨r, answer⟩] (next answer) { s with store }
  | readHolder {s : Shared S} {next : Option Generation → Program α} :
      Step (.perform .readHolder next) s [] (next s.holder) s
  | writeHolder {s : Shared S} {active : Option Generation} {next : Unit → Program α} :
      Step (.perform (.writeHolder active) next) s [] (next ()) { s with holder := active }

/-- Some steps of a call, with the requests that were sent in them. -/
inductive Reaches : Program α → Shared S → List Event → Program α → Shared S → Prop where
  | refl (p : Program α) (s : Shared S) : Reaches p s [] p s
  | step {p p' q : Program α} {s s' s'' : Shared S} {events later : List Event} :
      p.Step s events p' s' → Reaches p' s' later q s'' → Reaches p s (events ++ later) q s''

abbrev Runs (p : Program α) (s : Shared S) (events : List Event) (a : α) (s' : Shared S) : Prop :=
  Reaches p s events (.done a) s'

theorem Reaches.trans {p q r : Program α} {s s' s'' : Shared S} {events later : List Event}
    (h1 : Reaches p s events q s') (h2 : Reaches q s' later r s'') : Reaches p s (events ++ later) r s'' := by
  induction h1 with
  | refl => exact h2
  | step hs _ ih => rw [List.append_assoc]; exact .step hs (ih h2)

theorem Reaches.single {p q : Program α} {s s' : Shared S} {events : List Event} (h : p.Step s events q s') :
    Reaches p s events q s' := List.append_nil events ▸ .step h (.refl q s')

/-- What has ended takes no further step. -/
theorem reaches_done {a : α} {q : Program α} {s s' : Shared S} {events : List Event}
    (h : Reaches (.done a) s events q s') : events = [] ∧ q = .done a ∧ s' = s := by
  cases h with
  | refl => exact ⟨rfl, rfl, rfl⟩
  | step hs => cases hs

theorem runs_done {a b : α} {s s' : Shared S} {events : List Event} (h : Runs (.done a) s events b s') :
    events = [] ∧ b = a ∧ s' = s := by
  obtain ⟨he, hb, hs⟩ := reaches_done h
  exact ⟨he, Program.done.inj hb, hs⟩

/-- The requests that a call sends, with the answers to them. -/
def Program.events : Program α → Shared S → List Event
  | .done _, _ => []
  | .perform (.store r) next, s =>
    ⟨r, (KeyValueStore.perform s.store r).1⟩ ::
      (next (KeyValueStore.perform s.store r).1).events { s with store := (KeyValueStore.perform s.store r).2 }
  | .perform .readHolder next, s => (next s.holder).events s
  | .perform (.writeHolder active) next, s => (next ()).events { s with holder := active }

/-- A call on a store without faults is a run. -/
theorem runs_run (p : Program α) (s : Shared S) : Runs p s (p.events s) (p.run s).1 (p.run s).2 := by
  induction p generalizing s with
  | done a => exact .refl _ _
  | perform effect next ih =>
    cases effect with
    | store r => exact .step (.request (.served r)) (ih _ { s with store := (KeyValueStore.perform s.store r).2 })
    | readHolder => exact .step .readHolder (ih s.holder s)
    | writeHolder active => exact .step .writeHolder (ih () { s with holder := active })

/-- What the wrapper that injects faults answers and does is a reply of the store inside. -/
theorem reply_of_faulty (f : Faulty S) (r : Request) :
    Reply f.inner r (f.perform r).1 (f.perform r).2.inner := by
  unfold Faulty.perform
  split
  · exact .refused r _
  · cases r with
    | apply commands =>
      cases hc : Faulty.cut? f.applyLimit commands with
      | none =>
        simp only [Faulty.applyCut, hc]
        exact .served _
      | some head =>
        have hh : head.2 = commands.take head.1 := by
          unfold Faulty.cut? at hc
          split at hc
          · cases hc
          · split at hc <;> cases hc
            rfl
        obtain ⟨n, kept⟩ := head
        obtain rfl : kept = commands.take n := hh
        simp only [Faulty.applyCut, hc, Faulty.pass]
        cases (KeyValueStore.perform f.inner (.apply (commands.take n))).1 with
        | ok u => exact .cut commands n _
        | error e => exact .cut commands n e
    | get | set | delete | scan | getField | getFields | getAll | scanFields | deleteFields | increment =>
      exact .served _

/-- A store of its own whose answers and changes are replies of the store inside. -/
def Wraps {W : Type} [KeyValueStore W] (inner : W → S) : Prop :=
  ∀ w r, Reply (inner w) r (KeyValueStore.perform w r).1 (inner (KeyValueStore.perform w r).2)

theorem wraps_faulty : Wraps (Faulty.inner : Faulty S → S) := reply_of_faulty

/-- A call on a store that wraps another one is a run on the store inside. -/
theorem runs_wrapped {W : Type} [KeyValueStore W] {inner : W → S} (h : Wraps inner) (p : Program α) (s : Shared W) :
    Runs p ⟨inner s.store, s.holder⟩ (p.events s) (p.run s).1 ⟨inner (p.run s).2.store, (p.run s).2.holder⟩ := by
  induction p generalizing s with
  | done a => exact .refl _ _
  | perform effect next ih =>
    cases effect with
    | store r =>
      exact .step (.request (h s.store r)) (ih _ { s with store := (KeyValueStore.perform s.store r).2 })
    | readHolder => exact .step .readHolder (ih s.holder s)
    | writeHolder active => exact .step .writeHolder (ih () { s with holder := active })

/-- A call on the wrapper that injects faults is a run on the store inside. -/
theorem runs_faulty (p : Program α) (f : Faulty S) (holder : Option Generation) :
    Runs p ⟨f.inner, holder⟩ (p.events ⟨f, holder⟩) (p.run ⟨f, holder⟩).1
      ⟨(p.run ⟨f, holder⟩).2.store.inner, (p.run ⟨f, holder⟩).2.holder⟩ := runs_wrapped wraps_faulty p ⟨f, holder⟩

/-! ### Composition -/

theorem Reaches.bind {p q : Program α} {s s' : Shared S} {events : List Event} (h : Reaches p s events q s')
    (f : α → Program β) : Reaches (p.bind f) s events (q.bind f) s' := by
  induction h with
  | refl => exact .refl _ _
  | step hs _ ih =>
    cases hs with
    | request hr => exact .step (.request hr) ih
    | readHolder => exact .step .readHolder ih
    | writeHolder => exact .step .writeHolder ih

theorem reaches_bind {p : Program α} {f : α → Program β} {s s' : Shared S} {events : List Event} {q : Program β}
    (h : Reaches (p.bind f) s events q s') :
    (∃ p', q = p'.bind f ∧ Reaches p s events p' s') ∨
      ∃ a s1 before after, events = before ++ after ∧ Runs p s before a s1 ∧ Reaches (f a) s1 after q s' := by
  generalize hq : p.bind f = r at h
  induction h generalizing p with
  | refl => exact .inl ⟨p, hq.symm, .refl p _⟩
  | @step r r1 q s s1 s' events later hs h ih =>
    cases p with
    | done a =>
      subst hq
      exact .inr ⟨a, s, [], events ++ later, rfl, .refl _ s, .step hs h⟩
    | perform effect next =>
      -- the step is a step of the first part, too
      obtain ⟨p1, hp, rfl⟩ : ∃ p1, (Program.perform effect next).Step s events p1 s1 ∧ p1.bind f = r1 := by
        subst hq
        cases hs with
        | request hr => exact ⟨_, .request hr, rfl⟩
        | readHolder => exact ⟨_, .readHolder, rfl⟩
        | writeHolder => exact ⟨_, .writeHolder, rfl⟩
      rcases ih rfl with ⟨p', rfl, hp'⟩ | ⟨a, s2, before, after, rfl, h1, h2⟩
      · exact .inl ⟨p', rfl, .step hp hp'⟩
      · exact .inr ⟨a, s2, events ++ before, after, (List.append_assoc _ _ _).symm, .step hp h1, h2⟩

theorem runs_bind {p : Program α} {f : α → Program β} {s s' : Shared S} {events : List Event} {b : β}
    (h : Runs (p.bind f) s events b s') :
    ∃ a s1 before after, events = before ++ after ∧ Runs p s before a s1 ∧ Runs (f a) s1 after b s' := by
  rcases reaches_bind h with ⟨p', hp, h1⟩ | h
  · cases p' with
    | done a =>
      have hp : Program.done b = f a := hp
      exact ⟨a, s', events, [], (List.append_nil _).symm, h1, by rw [← hp]; exact .refl _ s'⟩
    | perform effect next => cases hp
  · exact h

/-- A composed call fails with its first part, or goes on with what the first part has answered. -/
theorem runs_action {x : ExceptT ε Program α} {f : α → ExceptT ε Program β} {s s' : Shared S}
    {events : List Event} {result : Except ε β} (h : Runs (x >>= f).run s events result s') :
    (∃ e, result = .error e ∧ Runs x.run s events (.error e) s') ∨
      ∃ a s1 before after, events = before ++ after ∧ Runs x.run s before (.ok a) s1 ∧
        Runs (f a).run s1 after result s' := by
  have h : Runs (Program.bind x.run (ExceptT.bindCont f)) s events result s' := h
  obtain ⟨r, s1, before, after, rfl, h1, h2⟩ := runs_bind h
  cases r with
  | error e =>
    obtain ⟨rfl, rfl, rfl⟩ := runs_done h2
    exact .inl ⟨e, rfl, by rwa [List.append_nil]⟩
  | ok a => exact .inr ⟨a, s1, before, after, rfl, h1, h2⟩

/-- A composed call that succeeds does so in all its parts. -/
theorem runs_action_ok {x : ExceptT ε Program α} {f : α → ExceptT ε Program β} {s s' : Shared S}
    {events : List Event} {b : β} (h : Runs (x >>= f).run s events (.ok b) s') :
    ∃ a s1 before after, events = before ++ after ∧ Runs x.run s before (.ok a) s1 ∧
      Runs (f a).run s1 after (.ok b) s' := by
  rcases runs_action h with ⟨e, he, -⟩ | h
  · cases he
  · exact h

theorem runs_pure {a : α} {s s' : Shared S} {events : List Event} {result : Except ε α}
    (h : Runs (pure a : ExceptT ε Program α).run s events result s') : events = [] ∧ result = .ok a ∧ s' = s :=
  runs_done h

theorem runs_request {raise : Store.Error → Error} {r : Request} {s s' : Shared S} {events : List Event}
    {result : Except Error r.Answer} (h : Runs (request raise r).run s events result s') :
    ∃ answer store, Reply s.store r answer store ∧ events = [⟨r, answer⟩] ∧ result = answer.mapError raise ∧
      s' = { s with store } := by
  cases h with
  | step hs h =>
    cases hs with
    | request hr =>
      obtain ⟨rfl, rfl, rfl⟩ := runs_done h
      exact ⟨_, _, hr, rfl, rfl, rfl⟩

theorem runs_request_ok {raise : Store.Error → Error} {r : Request} {s s' : Shared S} {events : List Event}
    {a : r.Answer} (h : Runs (request raise r).run s events (.ok a) s') :
    ∃ store, Reply s.store r (.ok a) store ∧ s' = { s with store } := by
  obtain ⟨answer, store, hr, -, ha, rfl⟩ := runs_request h
  cases answer with
  | error e => cases ha
  | ok _ => cases ha; exact ⟨store, hr, rfl⟩

theorem runs_readHolder {s s' : Shared S} {events : List Event} {result : Except Error (Option Generation)}
    (h : Runs readHolder.run s events result s') : events = [] ∧ result = .ok s.holder ∧ s' = s := by
  cases h with
  | step hs h =>
    cases hs with
    | readHolder =>
      obtain ⟨rfl, rfl, rfl⟩ := runs_done h
      exact ⟨rfl, rfl, rfl⟩

theorem runs_writeHolder {active : Option Generation} {s s' : Shared S} {events : List Event}
    {result : Except Error Unit} (h : Runs (writeHolder active).run s events result s') :
    events = [] ∧ result = .ok () ∧ s' = { s with holder := active } := by
  cases h with
  | step hs h =>
    cases hs with
    | writeHolder =>
      obtain ⟨rfl, rfl, rfl⟩ := runs_done h
      exact ⟨rfl, rfl, rfl⟩

/-- Only a request that is served gets an answer that is no error. -/
theorem Reply.of_ok {s s' : S} {r : Request} {a : r.Answer} (h : Reply s r (.ok a) s') :
    KeyValueStore.perform s r = (.ok a, s') := by
  generalize ha : (Except.ok a : Except Store.Error r.Answer) = answer at h
  cases h with
  | served r => rfl
  | refused => cases ha
  | cut => cases ha

/-- A request that fails without effect when it is served has no effect when it fails. -/
theorem Reply.of_error {s s' : S} {r : Request} {e : Store.Error} (h : Reply s r (.error e) s')
    (hr : r.operation ≠ .apply)
    (hs : ∀ e, (KeyValueStore.perform s r).1 = .error e → (KeyValueStore.perform s r).2 = s) : s' = s := by
  generalize ha : (Except.error e : Except Store.Error r.Answer) = answer at h
  cases h with
  | served => exact hs e ha.symm
  | refused => rfl
  | cut => exact absurd rfl hr

/-! ### Calls on a store without faults -/

theorem runs_perform {x : Action α} {s s' : Shared S} {result : Except Error α} (h : x.perform s = (result, s')) :
    ∃ events, Runs x.run s events result s' := by
  have hr := runs_run x.run s
  rw [show x.run.run s = (result, s') from h] at hr
  exact ⟨_, hr⟩

/-- The call succeeds if nothing happens in between. -/
def Action.Succeeds (x : Action α) (s : Shared S) : Prop := ∃ a s', x.perform s = (.ok a, s')

theorem perform_bind {x : Action α} {f : α → Action β} {s s' : Shared S} {a : α} (h : x.perform s = (.ok a, s')) :
    (x >>= f).perform s = (f a).perform s' := by
  have h : x.run.run s = (.ok a, s') := h
  show (Program.bind x.run (ExceptT.bindCont f)).run s = (f a).perform s'
  rw [Program.run_bind, h]
  rfl

theorem perform_bind_error {x : Action α} {f : α → Action β} {s s' : Shared S} {e : Error}
    (h : x.perform s = (.error e, s')) : (x >>= f).perform s = (.error e, s') := by
  have h : x.run.run s = (.error e, s') := h
  show (Program.bind x.run (ExceptT.bindCont f)).run s = (.error e, s')
  rw [Program.run_bind, h]
  rfl

/-- Composed calls whose parts do the same do the same. -/
theorem run_action_congr {x y : ExceptT ε Program α} {f h : α → ExceptT ε Program β} {s : Shared S}
    (hx : x.run.run s = y.run.run s) (hf : ∀ a s', x.run.run s = (.ok a, s') → (f a).run.run s' = (h a).run.run s') :
    (x >>= f).run.run s = (y >>= h).run.run s := by
  show (Program.bind x.run (ExceptT.bindCont f)).run s = (Program.bind y.run (ExceptT.bindCont h)).run s
  rw [Program.run_bind, Program.run_bind, ← hx]
  obtain ⟨result, s', hr⟩ : ∃ result s', x.run.run s = (result, s') := ⟨_, _, rfl⟩
  rw [hr]
  cases result with
  | error e => rfl
  | ok a => exact hf a s' hr

theorem succeeds_pure (a : α) (s : Shared S) : (pure a : Action α).Succeeds s := ⟨a, s, rfl⟩

theorem succeeds_bind {x : Action α} {f : α → Action β} {s : Shared S} (hx : x.Succeeds s)
    (hf : ∀ a s', x.perform s = (.ok a, s') → (f a).Succeeds s') : (x >>= f).Succeeds s := by
  obtain ⟨a, s', h⟩ := hx
  obtain ⟨b, s'', hb⟩ := hf a s' h
  exact ⟨b, s'', (perform_bind h).trans hb⟩

theorem succeeds_request {raise : Store.Error → Error} {r : Request} {s : Shared S} {a : r.Answer}
    (h : (KeyValueStore.perform s.store r).1 = .ok a) : (request raise r).Succeeds s := by
  refine ⟨a, { s with store := (KeyValueStore.perform s.store r).2 }, Prod.ext ?_ rfl⟩
  show (KeyValueStore.perform s.store r).1.mapError raise = .ok a
  rw [h]
  rfl

end Steps

/-! ### Calls that stop at the first failure -/

/-- The call only sends requests. It ends with the first one that fails, and `cause` relates the request and its
failure to how the call ends. -/
def Strict {α : Type} (cause : Request → Store.Error → Error → Prop) : Program (Except Error α) → Prop
  | .done (.ok _) => True
  | .done (.error _) => False
  | .perform (.store r) next =>
    (∀ e, ∃ e', next (.error e) = .done (.error e') ∧ cause r e e') ∧ ∀ a, Strict cause (next (.ok a))
  | .perform .readHolder _ => False
  | .perform (.writeHolder _) _ => False

section Strict

variable {S : Type} [KeyValueStore S] {α β : Type} {cause : Request → Store.Error → Error → Prop}

theorem strict_pure (a : α) : Strict cause (pure a : Action α).run := trivial

theorem strict_request {raise : Store.Error → Error} {r : Request} (h : ∀ e, cause r e (raise e)) :
    Strict cause (request raise r).run := ⟨fun e => ⟨raise e, rfl, h e⟩, fun _ => trivial⟩

theorem strict_bind {x : Action α} {f : α → Action β} (hx : Strict cause x.run) (hf : ∀ a, Strict cause (f a).run) :
    Strict cause (x >>= f).run := by
  show Strict cause (Program.bind x.run (ExceptT.bindCont f))
  generalize x.run = p at hx
  induction p with
  | done r =>
    cases r with
    | ok a => exact hf a
    | error e => exact hx.elim
  | perform effect next ih =>
    cases effect with
    | store r =>
      refine ⟨fun e => ?_, fun a => ih _ (hx.2 a)⟩
      obtain ⟨e', he, hc⟩ := hx.1 e
      exact ⟨e', congrArg (Program.bind · (ExceptT.bindCont f)) he, hc⟩
    | readHolder => exact hx.elim
    | writeHolder => exact hx.elim

theorem Strict.mono {cause' : Request → Store.Error → Error → Prop} {p : Program (Except Error α)}
    (hp : Strict cause p) (h : ∀ r e e', cause r e e' → cause' r e e') : Strict cause' p := by
  induction p with
  | done r => cases r <;> exact hp
  | perform effect next ih =>
    cases effect with
    | store r =>
      refine ⟨fun e => ?_, fun a => ih _ (hp.2 a)⟩
      obtain ⟨e', he, hc⟩ := hp.1 e
      exact ⟨e', he, h _ _ _ hc⟩
    | readHolder => exact hp
    | writeHolder => exact hp

/-- A strict call succeeds when all its requests do, and fails as its last request does. -/
theorem Strict.runs {p : Program (Except Error α)} (hp : Strict cause p) {s s' : Shared S} {events : List Event}
    {result : Except Error α} (h : Runs p s events result s') :
    match result with
    | .ok _ => ∀ e ∈ events, e.Succeeded
    | .error e => ∃ served r failure, events = served ++ [⟨r, .error failure⟩] ∧ (∀ e ∈ served, e.Succeeded) ∧
        cause r failure e := by
  induction p generalizing s events with
  | done r =>
    obtain ⟨rfl, rfl, rfl⟩ := runs_done h
    cases result with
    | ok a => simp
    | error e => exact hp.elim
  | perform effect next ih =>
    cases h with
    | step hs h =>
      cases hs with
      | readHolder => exact hp.elim
      | writeHolder => exact hp.elim
      | @request _ r _ answer _ hr =>
        cases answer with
        | error e =>
          obtain ⟨e', he, hc⟩ := hp.1 e
          rw [he] at h
          obtain ⟨rfl, rfl, rfl⟩ := runs_done h
          exact ⟨[], r, e, rfl, by simp, hc⟩
        | ok a =>
          have hi := ih _ (hp.2 a) h
          have ha : Event.Succeeded ⟨r, .ok a⟩ := ⟨a, rfl⟩
          cases result with
          | ok b => exact List.forall_mem_cons.mpr ⟨ha, hi⟩
          | error e =>
            obtain ⟨served, r', failure, rfl, hs, hc⟩ := hi
            exact ⟨⟨r, .ok a⟩ :: served, r', failure, rfl, List.forall_mem_cons.mpr ⟨ha, hs⟩, hc⟩

/-- Each request of a strict call has a cause. -/
theorem Strict.events {p q : Program (Except Error α)} (hp : Strict cause p) {s s' : Shared S} {events : List Event}
    (h : Reaches p s events q s') : ∀ e ∈ events, ∃ failure error, cause e.1 failure error := by
  induction h with
  | refl => simp
  | @step p p1 q s s1 s' events later hs h ih =>
    cases hs with
    | readHolder => exact hp.elim
    | writeHolder => exact hp.elim
    | @request _ r next answer store hr =>
      obtain ⟨error, -, hc⟩ := hp.1 .database
      refine List.forall_mem_cons.mpr ⟨⟨_, error, hc⟩, ?_⟩
      cases answer with
      | ok a => exact ih (hp.2 a)
      | error e =>
        obtain ⟨e', he, -⟩ := hp.1 e
        rw [he] at h
        cases h with
        | refl => simp
        | step hs => cases hs

/-- A strict call has no effect on the holder, wherever it has come to. -/
theorem Strict.holder {p q : Program (Except Error α)} (hp : Strict cause p) {s s' : Shared S} {events : List Event}
    (h : Reaches p s events q s') : s'.holder = s.holder := by
  induction h with
  | refl => rfl
  | step hs h ih =>
    cases hs with
    | readHolder => exact hp.elim
    | writeHolder => exact hp.elim
    | @request _ r next answer store hr =>
      cases answer with
      | ok a => exact ih (hp.2 a)
      | error e =>
        obtain ⟨e', he, -⟩ := hp.1 e
        rw [he] at h
        cases h with
        | refl => rfl
        | step hs => cases hs

/-- Wherever a strict call has come to without having succeeded, it may end there with a failure. -/
theorem Strict.stop {p q : Program (Except Error α)} (hp : Strict cause p) {s s' : Shared S} {events : List Event}
    (h : Reaches p s events q s') :
    (∃ a, q = .done (.ok a)) ∨ ∃ later e, Runs p s (events ++ later) (.error e) s' := by
  induction h with
  | refl q s =>
    cases q with
    | done r =>
      cases r with
      | ok a => exact .inl ⟨a, rfl⟩
      | error e => exact hp.elim
    | perform effect next =>
      cases effect with
      | store r =>
        obtain ⟨e, he, -⟩ := hp.1 .database
        refine .inr ⟨[⟨r, .error .database⟩], e, ?_⟩
        exact .single (he ▸ .request (.refused r .database))
      | readHolder => exact hp.elim
      | writeHolder => exact hp.elim
  | @step p p1 q s s1 s' events later hs h ih =>
    cases hs with
    | readHolder => exact hp.elim
    | writeHolder => exact hp.elim
    | @request _ r next answer store hr =>
      cases answer with
      | error e =>
        obtain ⟨e', he, -⟩ := hp.1 e
        rw [he] at h
        cases h with
        | refl => exact .inr ⟨[], e', .step (.request hr) (he ▸ .refl _ _)⟩
        | step hs => cases hs
      | ok a =>
        rcases ih (hp.2 a) with h | ⟨more, e, h⟩
        · exact .inl h
        · exact .inr ⟨more, e, by rw [List.append_assoc]; exact .step (.request hr) h⟩

end Strict

/-! ### Conditions on all steps -/

/-- Every step that the call may take, whatever it is answered, satisfies the condition. -/
def Program.Every {α : Type} (P : Effect → Prop) : Program α → Prop
  | .done _ => True
  | .perform effect next => P effect ∧ ∀ answer, (next answer).Every P

namespace Program

variable {α β : Type} {P Q : Effect → Prop}

theorem Every.mono {p : Program α} (hp : p.Every P) (h : ∀ effect, P effect → Q effect) : p.Every Q := by
  induction p with
  | done a => trivial
  | perform effect next ih => exact ⟨h effect hp.1, fun answer => ih answer (hp.2 answer)⟩

theorem every_bind {p : Program α} {f : α → Program β} (hp : p.Every P) (hf : ∀ a, (f a).Every P) :
    (p.bind f).Every P := by
  induction p with
  | done a => exact hf a
  | perform effect next ih => exact ⟨hp.1, fun answer => ih answer (hp.2 answer)⟩

theorem every_action {ε : Type} {x : ExceptT ε Program α} {f : α → ExceptT ε Program β} (hx : x.run.Every P)
    (hf : ∀ a, (f a).run.Every P) : (x >>= f).run.Every P :=
  every_bind hx fun
    | .ok a => hf a
    | .error _ => trivial

theorem every_request {raise : Store.Error → Error} {r : Request} (h : P (.store r)) :
    (request raise r).run.Every P := ⟨h, fun _ => trivial⟩

/-- What all requests of a strict call have in common. -/
theorem every_strict {cause : Request → Store.Error → Error → Prop} {p : Program (Except Error α)}
    (hp : Strict cause p) (h : ∀ r e e', cause r e e' → P (.store r)) : p.Every P := by
  induction p with
  | done a => trivial
  | perform effect next ih =>
    cases effect with
    | store r =>
      obtain ⟨e', -, hc⟩ := hp.1 .database
      refine ⟨h _ _ _ hc, fun answer => ?_⟩
      cases answer with
      | ok a => exact ih _ (hp.2 a)
      | error e =>
        obtain ⟨e', he, -⟩ := hp.1 e
        rw [he]
        trivial
    | readHolder => exact hp.elim
    | writeHolder => exact hp.elim

theorem Every.events {S : Type} [KeyValueStore S] {p q : Program α} (hp : p.Every P) {s s' : Shared S}
    {events : List Event} (h : Reaches p s events q s') : ∀ e ∈ events, P (.store e.1) := by
  induction h with
  | refl => simp
  | step hs _ ih =>
    cases hs with
    | request => exact List.forall_mem_cons.mpr ⟨hp.1, ih (hp.2 _)⟩
    | readHolder => exact ih (hp.2 _)
    | writeHolder => exact ih (hp.2 _)

end Program
end Repository
end ShareIndex
