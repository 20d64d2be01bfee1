import ShareIndex.Repository.Counters
import ShareIndex.Proofs.Repository.Publish
import ShareIndex.Proofs.Repository.Readers
import Mathlib.Logic.Relation

/-!
# ShareIndex.Proofs.Repository.Isolation

One publication, whose requests may fail, and any number of readers with the same holder, in any order of steps.

* `Reader`           — a call that only reads; `Reader.reads` says that it reads the holder first, and then nothing
  but keys of that generation and the counters.
* `publish_reaches`  — what a publication has left alone at each of its points.
* `System`           — the publication and the readers; `System.Step` is a step of one of them.
* `System.Invariant` — each reader is where it would be if it ran before the publication or after it.
* `reader_isolated`  — so it answers as if it did.
* `System.turn`      — a step of one of them, if the store serves every request.
-/

namespace ShareIndex
namespace Repository

open Store (Backend Request KeyValueStore)
open Share (Download Summary DownloadCounters)

/-! ### Readers -/

inductive Reader where
  | info
  | page (download : String)
  | fileUrl (file : String)
  | counters (download : String)
  | allCounters

namespace Reader

@[reducible] def Result : Reader → Type
  | info => Except Error (List Summary)
  | page _ => Except Error String
  | fileUrl _ => Except Error String
  | counters _ => Except Error (OrderedMap String Int)
  | allCounters => List DownloadCounters × Option Error

def call : (r : Reader) → Program r.Result
  | info => Repository.info.run
  | page download => (Repository.page download).run
  | fileUrl file => (Repository.fileUrl file).run
  | counters download => (Repository.counters download).run
  | allCounters => Repository.allCounters

end Reader

/-- The step reads one key, of the active generation or that of the counters. -/
def ReadsOnly (active : Option Generation) : Effect → Prop
  | .store r => ∃ key, r.reads? = some key ∧ (key = Key.counters ∨ ∃ g, active = some g ∧ Key.Scoped g key)
  | .readHolder => False
  | .writeHolder _ => False

section Reads

variable {g : Generation} {raise : Store.Error → Error} {r : Request} {key : String}

theorem every_read (hr : r.reads? = some key) (hk : Key.Scoped g key) :
    (request raise r).run.Every (ReadsOnly (some g)) :=
  Program.every_request ⟨key, hr, .inr ⟨g, rfl, hk⟩⟩

theorem every_readCounters (hr : r.reads? = some Key.counters) {active : Option Generation} :
    (request raise r).run.Every (ReadsOnly active) := Program.every_request ⟨_, hr, .inl rfl⟩

theorem summaries_every (g : Generation) (l : List (String × String)) :
    (summaries g l).run.Every (ReadsOnly (some g)) := by
  induction l with
  | nil => trivial
  | cons e rest ih =>
    exact Program.every_action (every_read rfl (Key.scoped_downloadFiles g e.1)) fun files =>
      Program.every_action ih fun _ => trivial

theorem countersOf_every (g : Generation) (id path : String) :
    (countersOf g id path).run.Every (ReadsOnly (some g)) := by
  refine Program.every_action (every_read rfl (Key.scoped_downloadFiles g id)) fun files =>
    Program.every_action ?_ fun _ => trivial
  unfold counterValues
  split
  · trivial
  · exact every_readCounters rfl

theorem countersOfEach_every (g : Generation) (l : List (String × String)) :
    (countersOfEach g l).Every (ReadsOnly (some g)) := by
  induction l with
  | nil => trivial
  | cons e rest ih =>
    refine Program.every_bind (countersOf_every g e.1 e.2) fun result => ?_
    cases result with
    | error e => trivial
    | ok first =>
      refine Program.every_bind ih fun others => ?_
      trivial

/-- A reader reads the holder, and then keys of that generation and the counters. -/
theorem Reader.reads (r : Reader) : ∃ next, r.call = .perform .readHolder next ∧
    ∀ active, (next active).Every (ReadsOnly active) := by
  cases r with
  | info =>
    refine ⟨_, rfl, fun active => ?_⟩
    cases active with
    | none => trivial
    | some g =>
      refine Program.every_action (every_read rfl (Key.scoped_downloads g)) fun downloads => ?_
      dsimp only
      split
      · trivial
      · exact Program.every_action (summaries_every g _) fun _ => trivial
  | page download =>
    refine ⟨_, rfl, fun active => ?_⟩
    cases active with
    | none => trivial
    | some g =>
      refine Program.every_action (every_read rfl (Key.scoped_pages g)) fun page => ?_
      cases page <;> trivial
  | fileUrl file =>
    refine ⟨_, rfl, fun active => ?_⟩
    cases active with
    | none => trivial
    | some g =>
      refine Program.every_action (every_read rfl (Key.scoped_files g)) fun url => ?_
      cases url <;> trivial
  | counters download =>
    refine ⟨_, rfl, fun active => ?_⟩
    cases active with
    | none => trivial
    | some g =>
      exact Program.every_action (every_read rfl (Key.scoped_downloadFiles g download)) fun files =>
        Program.every_action (every_readCounters rfl) fun _ => trivial
  | allCounters =>
    refine ⟨_, rfl, fun active => ?_⟩
    cases active with
    | none => trivial
    | some g =>
      show (Program.bind (request .store (.getAll (Key.downloads g))).run _).Every _
      refine Program.every_bind (every_read rfl (Key.scoped_downloads g)) fun downloads => ?_
      cases downloads with
      | error e => trivial
      | ok downloads => exact countersOfEach_every g _

end Reads

theorem ReadsOnly.run_snd {active : Option Generation} {effect : Effect} (h : ReadsOnly active effect)
    (s : Shared Backend) : (effect.run s).2 = s := by
  cases effect with
  | store r =>
    obtain ⟨key, hr, -⟩ := h
    exact congrArg (fun store => { s with store }) (s.store.perform_read hr)
  | readHolder => exact h.elim
  | writeHolder => exact h.elim

theorem ReadsOnly.run_perform {α : Type} {active : Option Generation} {effect : Effect}
    (h : ReadsOnly active effect) (next : effect.Answer → Program α) (s : Shared Backend) :
    (Program.perform effect next).run s = (next (effect.run s).1).run s := by
  show (next (effect.run s).1).run (effect.run s).2 = _
  rw [h.run_snd]

/-- Nothing is changed by reading. -/
theorem Reader.run_snd (r : Reader) (s : Shared Backend) : (r.call.run s).2 = s := by
  have hreads : ∀ {α : Type} {active : Option Generation} {p : Program α}, p.Every (ReadsOnly active) →
      (p.run s).2 = s := by
    intro α active p hp
    induction p with
    | done a => rfl
    | perform effect next ih =>
      rw [hp.1.run_perform]
      exact ih _ (hp.2 _)
  obtain ⟨next, hcall, hnext⟩ := r.reads
  rw [hcall]
  show ((next s.holder).run s).2 = s
  exact hreads (hnext s.holder)

/-! ### The publication -/

section Publication

variable {pages : Nat} {batch : List Download} {s s' : Shared Backend} {events : List Event}

theorem stage_strict : Strict (fun _ _ _ => True) (stage pages batch).run :=
  strict_bind (strict_bind (strict_request fun _ => trivial) fun _ => strict_pure _) fun _ =>
    strict_bind (prepare_strict.mono fun _ _ _ _ => trivial) fun _ => strict_pure _

/-- At every point of a publication the holder is as it was, unless the publication has ended with success. -/
theorem publish_reaches {p : Program (Except Error Generation)}
    (h : Reaches (publish pages batch).run s events p s') :
    (∀ key, key ≠ Key.active → ¬ Key.Scoped (Generation.standby s.store.pointer) key →
      s'.store.contents key = s.store.contents key) ∧
    (s'.holder = s.holder ∨ ∃ g, p = .done (.ok g)) := by
  rw [publish_eq] at h
  rcases reaches_bind (f := ExceptT.bindCont _) h with ⟨q, rfl, hq⟩ | ⟨result, s1, before, later, rfl, h1, h2⟩
  · rcases stage_strict.stop hq with ⟨g, rfl⟩ | ⟨more, e, hq⟩
    · obtain ⟨hh, hk, -⟩ := stage_frame hq
      exact ⟨hk, .inl hh⟩
    · obtain ⟨hh, hk, -⟩ := stage_frame hq
      exact ⟨hk, .inl hh⟩
  · obtain ⟨hh, hk, -⟩ := stage_frame h1
    cases result with
    | error e =>
      cases h2 with
      | refl => exact ⟨hk, .inl hh⟩
      | step hs => cases hs
    | ok g =>
      cases h2 with
      | refl => exact ⟨hk, .inl hh⟩
      | step hs h2 =>
        cases hs with
        | writeHolder =>
          cases h2 with
          | refl => exact ⟨hk, .inr ⟨g, rfl⟩⟩
          | step hs => cases hs

/-- Nothing that a reader of the old generation reads has changed. -/
theorem ReadsOnly.run_fst {p : Program (Except Error Generation)} {effect : Effect} (he : ReadsOnly s.holder effect)
    (hh : s.holder = s.store.pointer) (h : Reaches (publish pages batch).run s events p s') :
    (effect.run s').1 = (effect.run s).1 := by
  cases effect with
  | store r =>
    obtain ⟨key, hr, hk⟩ := he
    refine Backend.answer_congr hr (reaches_access h) ((publish_reaches h).1 key ?_ ?_)
    · rcases hk with rfl | ⟨g, -, hk⟩
      · exact Key.active_ne_counters.symm
      · exact fun ha => Key.not_scoped_active g (ha ▸ hk)
    · rcases hk with rfl | ⟨g, hg, hk⟩
      · exact Key.not_scoped_counters _
      · intro hs
        rw [← hh, hg] at hs
        exact Generation.other_ne g (Key.scoped_unique hs hk)
  | readHolder => exact he.elim
  | writeHolder => exact he.elim

end Publication

/-! ### All of them -/

/-- A publication and readers, each at some point, with the store and the holder that they share. -/
structure System {ι : Type} (kind : ι → Reader) where
  shared : Shared Backend
  publisher : Program (Except Error Generation)
  readers : (i : ι) → Program (kind i).Result

namespace System

variable {ι : Type} [DecidableEq ι] {kind : ι → Reader}

def start (kind : ι → Reader) (pages : Nat) (batch : List Download) (s : Shared Backend) : System kind :=
  ⟨s, (publish pages batch).run, fun i => (kind i).call⟩

/-- A request of the publication may fail. -/
inductive Step : System kind → System kind → Prop where
  | publish {sys : System kind} {events : List Event} {p : Program (Except Error Generation)} {s : Shared Backend} :
    sys.publisher.Step sys.shared events p s → Step sys { sys with publisher := p, shared := s }
  | read {sys : System kind} (i : ι) {effect : Effect} {next : effect.Answer → Program (kind i).Result} :
    sys.readers i = .perform effect next →
    Step sys { sys with
      readers := Function.update sys.readers i (next (effect.run sys.shared).1)
      shared := (effect.run sys.shared).2 }

/-- Where a reader is that began, or will begin, in a state from which it gives the same result as it does alone. -/
inductive Phase (s : Shared Backend) (sys : System kind) (i : ι) : Prop where
  | waiting : sys.readers i = (kind i).call → Phase s sys i
  | before : (sys.readers i).Every (ReadsOnly s.holder) →
    ((sys.readers i).run s).1 = ((kind i).call.run s).1 → Phase s sys i
  | after {g : Generation} : sys.publisher = .done (.ok g) →
    (sys.readers i).Every (ReadsOnly sys.shared.holder) →
    ((sys.readers i).run sys.shared).1 = ((kind i).call.run sys.shared).1 → Phase s sys i

structure Invariant (s : Shared Backend) (pages : Nat) (batch : List Download) (sys : System kind) : Prop where
  publisher : ∃ events, Reaches (publish pages batch).run s events sys.publisher sys.shared
  readers : ∀ i, Phase s sys i

variable {s : Shared Backend} {pages : Nat} {batch : List Download} {sys sys' : System kind}

omit [DecidableEq ι] in
theorem Phase.congr {i : ι} (h : Phase s sys i) (hr : sys'.readers i = sys.readers i)
    (hp : sys'.publisher = sys.publisher) (hs : sys'.shared = sys.shared) : Phase s sys' i := by
  cases h with
  | waiting hw => exact .waiting (hr.trans hw)
  | before hevery hrun => exact .before (by rwa [hr]) (by rwa [hr])
  | after hdone hevery hrun => exact .after (hp.trans hdone) (by rwa [hr, hs]) (by rwa [hr, hs])

omit [DecidableEq ι] in
theorem invariant_start (kind : ι → Reader) (s : Shared Backend) (pages : Nat) (batch : List Download) :
    Invariant s pages batch (start kind pages batch s) := ⟨⟨[], .refl _ _⟩, fun _ => .waiting rfl⟩

/-- The reader that takes a step goes on in its phase, or enters one with the holder that it reads. -/
theorem Phase.read (hh : s.holder = s.store.pointer) {i : ι} (h : Phase s sys i) {effect : Effect}
    {next : effect.Answer → Program (kind i).Result} (hr : sys.readers i = .perform effect next)
    (hp : ∃ events, Reaches (publish pages batch).run s events sys.publisher sys.shared) :
    (effect.run sys.shared).2 = sys.shared ∧
      Phase s { sys with readers := Function.update sys.readers i (next (effect.run sys.shared).1) } i := by
  obtain ⟨events, hp⟩ := hp
  cases h with
  | waiting hw =>
    obtain ⟨first, hc, hevery⟩ := (kind i).reads
    rw [hw, hc] at hr
    cases hr
    refine ⟨rfl, ?_⟩
    rcases (publish_reaches hp).2 with hold | ⟨g, hdone⟩
    · refine .before ?_ ?_
      · simp only [Function.update_self]
        exact hold ▸ hevery sys.shared.holder
      · simp only [Function.update_self, hc]
        show ((first sys.shared.holder).run s).1 = _
        rw [hold]
        rfl
    · refine .after hdone ?_ ?_
      · simp only [Function.update_self]
        exact hevery sys.shared.holder
      · simp only [Function.update_self, hc]
        rfl
  | before hevery hrun =>
    rw [hr] at hevery hrun
    refine ⟨hevery.1.run_snd _, .before ?_ ?_⟩
    · simp only [Function.update_self]
      exact hevery.2 _
    · simp only [Function.update_self]
      rw [hevery.1.run_fst hh hp, ← hrun, hevery.1.run_perform]
  | after hdone hevery hrun =>
    rw [hr] at hevery hrun
    refine ⟨hevery.1.run_snd _, .after hdone ?_ ?_⟩
    · simp only [Function.update_self]
      exact hevery.2 _
    · simp only [Function.update_self]
      rw [← hrun, hevery.1.run_perform]

theorem Invariant.step (hh : s.holder = s.store.pointer) (h : Invariant s pages batch sys) (hs : Step sys sys') :
    Invariant s pages batch sys' := by
  cases hs with
  | @publish events p s' hp =>
    obtain ⟨before, hb⟩ := h.publisher
    refine ⟨⟨_, hb.trans (.single hp)⟩, fun i => ?_⟩
    cases h.readers i with
    | waiting hw => exact .waiting hw
    | before hevery hrun => exact .before hevery hrun
    | after hdone =>
      rw [hdone] at hp
      cases hp
  | @read i effect next hr =>
    obtain ⟨hshared, hi⟩ := (h.readers i).read hh hr h.publisher
    rw [hshared]
    refine ⟨h.publisher, fun j => ?_⟩
    by_cases hj : j = i
    · subst hj
      exact hi
    · have hsame : Function.update sys.readers i (next (effect.run sys.shared).1) j = sys.readers j :=
        Function.update_of_ne hj _ _
      exact (h.readers j).congr hsame rfl rfl

theorem invariant_of_reachable (hh : s.holder = s.store.pointer)
    (h : Relation.ReflTransGen Step (start kind pages batch s) sys) : Invariant s pages batch sys := by
  induction h with
  | refl => exact invariant_start kind s pages batch
  | tail _ hs ih => exact ih.step hh hs

/-- A reader that has ended has answered as if it had run alone, either before the publication or after it. -/
theorem reader_isolated (hh : s.holder = s.store.pointer)
    (h : Relation.ReflTransGen Step (start kind pages batch s) sys) {i : ι} {result : (kind i).Result}
    (hi : sys.readers i = .done result) :
    result = ((kind i).call.run s).1 ∨
      ∃ events g, Runs (publish pages batch).run s events (.ok g) sys.shared ∧ sys.publisher = .done (.ok g) ∧
        result = ((kind i).call.run sys.shared).1 := by
  have hinv := invariant_of_reachable hh h
  cases hinv.readers i with
  | waiting hw =>
    obtain ⟨next, hc, -⟩ := (kind i).reads
    rw [hi, hc] at hw
    cases hw
  | before _ hrun =>
    rw [hi] at hrun
    exact .inl hrun
  | @after g hdone _ hrun =>
    rw [hi] at hrun
    obtain ⟨events, hp⟩ := hinv.publisher
    rw [hdone] at hp
    exact .inr ⟨events, g, hp, hdone, hrun⟩

/-! ### Schedules -/

/-- The publication, or one of the readers, takes a step whose request is served. What has ended takes none. -/
def turn (sys : System kind) : Option ι → System kind
  | none => match sys.publisher with
    | .done _ => sys
    | .perform effect next =>
      { sys with publisher := next (effect.run sys.shared).1, shared := (effect.run sys.shared).2 }
  | some i => match sys.readers i with
    | .done _ => sys
    | .perform effect next =>
      { sys with
        readers := Function.update sys.readers i (next (effect.run sys.shared).1)
        shared := (effect.run sys.shared).2 }

theorem reachable_turn (sys : System kind) (who : Option ι) : Relation.ReflTransGen Step sys (sys.turn who) := by
  cases who with
  | none =>
    rw [turn]
    split
    · exact .refl
    · rename_i effect next hp
      refine .single (@Step.publish ι _ kind sys ((Program.perform effect .done).events sys.shared) _ _ ?_)
      rw [hp]
      cases effect with
      | store r => exact .request (.served r)
      | readHolder => exact .readHolder
      | writeHolder => exact .writeHolder
  | some i =>
    rw [turn]
    split
    · exact .refl
    · rename_i effect next hp
      exact .single (.read i hp)

theorem reachable_turns (sys : System kind) (turns : List (Option ι)) :
    Relation.ReflTransGen Step sys (turns.foldl turn sys) := by
  induction turns generalizing sys with
  | nil => exact .refl
  | cons who rest ih => exact (reachable_turn sys who).trans (ih _)

/-! ### Three readers -/

def threeReaders : Fin 3 → Reader
  | 0 => .allCounters
  | 1 => .counters "d"
  | 2 => .info

/-- The first reader takes its steps before the publication, in the middle of the clearing, when the batch has been
written and when the publication has ended. The second one starts when the pointer has moved and the holder has not,
and the third one at the end. -/
def interleaving : List (Option (Fin 3)) :=
  let publication := List.replicate 5 none
  some 0 :: publication ++ some 0 :: publication ++ none :: some 0 :: none :: some 1 :: none ::
    [some 0, some 1, some 1, some 2, some 2, some 2, some 2]

def listedBefore : List DownloadCounters :=
  [⟨"d", "share/d", [⟨"f", "f", "/share/d/f", 0⟩, ⟨"g", "g", "/share/d/g", 3⟩]⟩]

def summedAfter : List Summary := sortByPath [⟨"d", ⟨"share/d"⟩, 1⟩, ⟨"e", ⟨"share/e"⟩, 0⟩]

/-- The first two readers find the old batch, although the pointer has moved when they end; the third finds the new. -/
theorem reader_isolated_interleaved : ∃ sys : System threeReaders,
    Relation.ReflTransGen Step (start threeReaders 20 restocking stocked) sys ∧
      sys.readers 0 = .done (listedBefore, none) ∧ sys.readers 1 = .done (.ok (.ofList [("f", 0), ("g", 3)])) ∧
      sys.readers 2 = .done (.ok summedAfter) ∧ sys.publisher = .done (.ok .b) ∧
      ∀ i (result : (threeReaders i).Result), sys.readers i = .done result →
        result = ((threeReaders i).call.run stocked).1 ∨
          ∃ events g, Runs (publish 20 restocking).run stocked events (.ok g) sys.shared ∧
            sys.publisher = .done (.ok g) ∧ result = ((threeReaders i).call.run sys.shared).1 := by
  have h := reachable_turns (start threeReaders 20 restocking stocked) interleaving
  exact ⟨_, h, rfl, rfl, rfl, rfl, fun i result hi => reader_isolated rfl h hi⟩

end System
end Repository
end ShareIndex
