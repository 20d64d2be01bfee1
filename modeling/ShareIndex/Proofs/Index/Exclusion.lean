import ShareIndex.Proofs.Index.Cycle
import ShareIndex.Proofs.Index.Stepwise
import Mathlib.Logic.Function.Basic
import Mathlib.Logic.Relation

/-!
# ShareIndex.Proofs.Index.Exclusion

Any number of calls of one indexer at a time. Their steps come in any order, each call may end in any way and at any
step, and others may write to the files and to the store in between.

* `Indexing`         — the calls, and what they act on.
* `Indexing.Move`    — a step of one call: it begins, goes on, or ends, by itself or not.
* `Indexing.Owned`   — the slot is taken exactly when a call has it, and then a single one does.
* `Owned.move`       — the step; `invariant_of_steps` is the run.
* `moves_of_waiting` — a call that is not disturbed does what the indexer does when nothing else happens.
* `single_flight`    — at most one call has the slot, and all others are refused without any effect.
-/

namespace ShareIndex
namespace Index

open Repository (Shared)
open Store (KeyValueStore)

/-- How a call can end; an error is returned, too. -/
inductive Ending where
  | returned (result : Result)
  | panicked
  | dropped

inductive Phase (S : Type) where
  | waiting
  /-- The call has the slot. -/
  | running (rest : Body (Scene S) Result)
  | ended (ending : Ending)

/-- The calls by their names, and what they act on. -/
structure Indexing (ι S : Type) where
  world : World S
  sinks : ι → Sink
  phases : ι → Phase S

namespace Indexing

section States

variable {ι S : Type}

def HasSlot (sys : Indexing ι S) (i : ι) : Prop := ∃ rest, sys.phases i = .running rest

/-- The slot is taken exactly when a call has it, and then a single one does. -/
def Owned (sys : Indexing ι S) : Prop :=
  (sys.world.slot = .free ∧ ∀ j, ¬ sys.HasSlot j) ∨ (sys.world.slot = .taken ∧ ∃ i, ∀ j, sys.HasSlot j ↔ j = i)

/-- A call that has not begun has written nothing. -/
def Untouched (calls : ι → Call) (sys : Indexing ι S) : Prop :=
  ∀ j, sys.phases j = .waiting → sys.sinks j = (calls j).sink

variable {sys sys' : Indexing ι S} {i j : ι}

theorem not_hasSlot_of_waiting (h : sys.phases i = .waiting) : ¬ sys.HasSlot i := by
  rintro ⟨rest, hr⟩
  rw [h] at hr
  cases hr

/-- A step after which the same calls have the slot as before. -/
theorem Owned.congr (h : sys.Owned) (hslot : sys'.world.slot = sys.world.slot)
    (hsame : ∀ j, sys'.HasSlot j ↔ sys.HasSlot j) : sys'.Owned := by
  rcases h with ⟨hs, hnone⟩ | ⟨hs, i, hi⟩
  · exact .inl ⟨hslot.trans hs, fun j hj => hnone j ((hsame j).mp hj)⟩
  · exact .inr ⟨hslot.trans hs, i, fun j => (hsame j).trans (hi j)⟩

theorem Owned.single (h : sys.Owned) (hi : sys.HasSlot i) (hj : sys.HasSlot j) : i = j := by
  rcases h with ⟨-, hnone⟩ | ⟨-, owner, howner⟩
  · exact absurd hi (hnone i)
  · exact ((howner i).mp hi).trans ((howner j).mp hj).symm

theorem Owned.isTaken_iff (h : sys.Owned) : sys.world.slot.isTaken = true ↔ ∃ i, sys.HasSlot i := by
  rcases h with ⟨hs, hnone⟩ | ⟨hs, owner, howner⟩ <;> rw [hs]
  · exact ⟨nofun, fun ⟨i, hi⟩ => absurd hi (hnone i)⟩
  · exact ⟨fun _ => ⟨owner, (howner owner).mpr rfl⟩, fun _ => rfl⟩

theorem Owned.isTaken_eq_false (h : sys.Owned) (hnone : ∀ j, ¬ sys.HasSlot j) : sys.world.slot.isTaken = false := by
  refine Bool.eq_false_iff.mpr fun htaken => ?_
  obtain ⟨i, hi⟩ := h.isTaken_iff.mp htaken
  exact hnone i hi

/-! ### Phases and scenes -/

variable [DecidableEq ι]

def setPhase (sys : Indexing ι S) (i : ι) (phase : Phase S) : Indexing ι S :=
  { sys with phases := Function.update sys.phases i phase }

def scene (sys : Indexing ι S) (i : ι) : Scene S := ⟨sys.world.files, sys.world.shared, sys.sinks i⟩

def withScene (sys : Indexing ι S) (i : ι) (x : Scene S) : Indexing ι S :=
  { sys with
    world := { sys.world with files := x.files, shared := x.shared }
    sinks := Function.update sys.sinks i x.sink }

/-- A call has made something of its scene and goes on. -/
def resume (sys : Indexing ι S) (i : ι) (x : Scene S) (rest : Body (Scene S) Result) : Indexing ι S :=
  (sys.withScene i x).setPhase i (.running rest)

/-- A call that has the slot gives it back when it ends. -/
def leave (sys : Indexing ι S) (i : ι) (ending : Ending) : Indexing ι S :=
  { sys with world := { sys.world with slot := sys.world.slot.release } }.setPhase i (.ended ending)

theorem hasSlot_setPhase (sys : Indexing ι S) (i j : ι) (phase : Phase S) :
    (sys.setPhase i phase).HasSlot j ↔ if j = i then ∃ rest, phase = .running rest else sys.HasSlot j := by
  unfold HasSlot setPhase
  dsimp only
  by_cases hj : j = i
  · subst hj
    rw [Function.update_self, if_pos rfl]
  · rw [Function.update_of_ne hj, if_neg hj]

theorem hasSlot_setPhase_ended (h : sys.phases i = .waiting) (ending : Ending) (j : ι) :
    (sys.setPhase i (.ended ending)).HasSlot j ↔ sys.HasSlot j := by
  rw [hasSlot_setPhase]
  split
  · rename_i hj
    subst hj
    exact ⟨nofun, fun hr => absurd hr (not_hasSlot_of_waiting h)⟩
  · rfl

theorem Owned.leave (h : sys.Owned) (hi : sys.HasSlot i) (ending : Ending) :
    (sys.leave i ending).world.slot = .free ∧ ∀ j, ¬ (sys.leave i ending).HasSlot j := by
  refine ⟨rfl, fun j => ?_⟩
  rw [Indexing.leave, hasSlot_setPhase]
  split
  · exact nofun
  · rename_i hj
    intro hhas
    exact hj (h.single hhas hi)

theorem waiting_of_setPhase {j : ι} {phase : Phase S} (h : (sys.setPhase i phase).phases j = .waiting)
    (hp : phase ≠ .waiting) : j ≠ i ∧ sys.phases j = .waiting := by
  unfold setPhase at h
  dsimp only at h
  by_cases hj : j = i
  · subst hj
    rw [Function.update_self] at h
    exact absurd h hp
  · rw [Function.update_of_ne hj] at h
    exact ⟨hj, h⟩

theorem withScene_scene (sys : Indexing ι S) (i : ι) : sys.withScene i (sys.scene i) = sys := by
  unfold withScene scene
  rw [Function.update_eq_self]

theorem scene_resume (sys : Indexing ι S) (i : ι) (x : Scene S) (rest : Body (Scene S) Result) :
    (sys.resume i x rest).scene i = x := by
  unfold resume withScene setPhase scene
  dsimp only
  rw [Function.update_self]

theorem leave_resume (sys : Indexing ι S) (i : ι) (x y : Scene S) (rest : Body (Scene S) Result) (ending : Ending) :
    ((sys.resume i x rest).withScene i y).leave i ending = (sys.withScene i y).leave i ending := by
  unfold resume withScene leave setPhase
  dsimp only
  rw [Function.update_idem, Function.update_idem]

end States

variable {ι S : Type} [DecidableEq ι] [KeyValueStore S]

/-! ### Steps -/

/-- Nothing has begun. -/
def start (calls : ι → Call) (files : FileTree) (shared : Shared S) : Indexing ι S where
  world := ⟨files, shared, .free⟩
  sinks i := (calls i).sink
  phases _ := .waiting

/-- A call asks for the slot, in one atomic step. Without it the call ends at once. -/
def begin (calls : ι → Call) (pages : Nat) (i : ι) (sys : Indexing ι S) : Indexing ι S :=
  match sys.world.slot.acquire with
  | (false, _) => sys.setPhase i (.ended (.returned (.error .alreadyRunning)))
  | (true, slot) => { sys with world := { sys.world with slot } }.setPhase i (.running ((calls i).body pages))

inductive Move (calls : ι → Call) (i : ι) (sys : Indexing ι S) : Indexing ι S → Prop where
  /-- How many pages an index cycle reads at most is not fixed. -/
  | begin (pages : Nat) : sys.phases i = .waiting → Move calls i sys (sys.begin calls pages i)
  | work {change : Scene S → Scene S} {next : Scene S → Body (Scene S) Result} :
    sys.phases i = .running (.step change next) →
    Move calls i sys (sys.resume i (change (sys.scene i)) (next (sys.scene i)))
  | finish {result : Result} :
    sys.phases i = .running (.done result) → Move calls i sys (sys.leave i (.returned result))
  | panic : sys.HasSlot i → Move calls i sys (sys.leave i .panicked)
  /-- What a dump has left in the files is removed before that, if at all, as if from outside. -/
  | drop : sys.HasSlot i → Move calls i sys (sys.leave i .dropped)
  /-- A call may be dropped before it has asked for the slot. -/
  | dropWaiting : sys.phases i = .waiting → Move calls i sys (sys.setPhase i (.ended .dropped))

/-- A step of a call, or of something else that writes to the files, to the store or to the holder. -/
inductive Step (calls : ι → Call) (sys : Indexing ι S) : Indexing ι S → Prop where
  | move {sys' : Indexing ι S} (i : ι) : Move calls i sys sys' → Step calls sys sys'
  | outside (files : FileTree) (shared : Shared S) :
    Step calls sys { sys with world := { sys.world with files, shared } }

section Steps

variable {calls : ι → Call} {sys sys' : Indexing ι S} {i j : ι}

/-- What a call does that asks for the slot. -/
theorem begin_cases (calls : ι → Call) (pages : Nat) (i : ι) (sys : Indexing ι S) :
    (sys.world.slot = .taken ∧
      sys.begin calls pages i = sys.setPhase i (.ended (.returned (.error .alreadyRunning)))) ∨
    (sys.world.slot = .free ∧
      sys.begin calls pages i =
        { sys with world := { sys.world with slot := .taken } }.setPhase i (.running ((calls i).body pages))) := by
  unfold begin
  cases sys.world.slot with
  | taken => exact .inl ⟨rfl, rfl⟩
  | free => exact .inr ⟨rfl, rfl⟩

theorem Owned.move (h : sys.Owned) (hm : Move calls i sys sys') : sys'.Owned := by
  cases hm with
  | begin pages hw =>
    rcases begin_cases calls pages i sys with ⟨-, hb⟩ | ⟨hfree, hb⟩ <;> rw [hb]
    · exact h.congr rfl (hasSlot_setPhase_ended hw _)
    -- the slot was free, so the call that takes it is the only one
    · refine .inr ⟨rfl, i, fun j => ?_⟩
      have hnone : ¬ sys.HasSlot j := by
        rcases h with ⟨-, hnone⟩ | ⟨htaken, -⟩
        · exact hnone j
        · rw [hfree] at htaken
          cases htaken
      rw [hasSlot_setPhase]
      split
      · rename_i hj
        exact iff_of_true ⟨_, rfl⟩ hj
      · rename_i hj
        exact iff_of_false hnone hj
  | work hr =>
    refine h.congr rfl fun j => ?_
    rw [resume, hasSlot_setPhase]
    split
    · rename_i hj
      subst hj
      exact iff_of_true ⟨_, rfl⟩ ⟨_, hr⟩
    · rfl
  | finish hr => exact .inl (h.leave ⟨_, hr⟩ _)
  | panic hi => exact .inl (h.leave hi _)
  | drop hi => exact .inl (h.leave hi _)
  | dropWaiting hw => exact h.congr rfl (hasSlot_setPhase_ended hw _)

theorem Owned.step (h : sys.Owned) (hs : Step calls sys sys') : sys'.Owned := by
  cases hs with
  | move i hm => exact h.move hm
  | outside files shared => exact h.congr rfl fun _ => Iff.rfl

theorem Untouched.move (h : Untouched calls sys) (hm : Move calls i sys sys') : Untouched calls sys' := by
  intro j hj
  cases hm with
  | begin pages =>
    rcases begin_cases calls pages i sys with ⟨-, hb⟩ | ⟨-, hb⟩ <;> rw [hb] at hj ⊢
    · exact h j (waiting_of_setPhase hj (by nofun)).2
    · exact h j (waiting_of_setPhase hj (by nofun)).2
  | work =>
    obtain ⟨hne, hw⟩ := waiting_of_setPhase hj (by nofun)
    exact (Function.update_of_ne hne _ _).trans (h j hw)
  | finish | panic | drop | dropWaiting => exact h j (waiting_of_setPhase hj (by nofun)).2

/-- What a call does that finds the slot taken. -/
theorem begin_of_isTaken (pages : Nat) (h : sys.world.slot.isTaken = true) :
    sys.begin calls pages i = sys.setPhase i (.ended (.returned (.error .alreadyRunning))) := by
  rcases begin_cases calls pages i sys with ⟨-, hb⟩ | ⟨hfree, -⟩
  · exact hb
  · rw [hfree] at h
    cases h

theorem hasSlot_begin (pages : Nat) (h : sys.world.slot.isTaken = false) : (sys.begin calls pages i).HasSlot i := by
  rcases begin_cases calls pages i sys with ⟨htaken, -⟩ | ⟨-, hb⟩
  · rw [htaken] at h
    cases h
  · rw [hb, hasSlot_setPhase, if_pos rfl]
    exact ⟨_, rfl⟩

theorem not_move_of_ended {ending : Ending} (h : sys.phases i = .ended ending) : ¬ Move calls i sys sys' := by
  intro hm
  cases hm with
  | begin pages hw | dropWaiting hw =>
    rw [h] at hw
    cases hw
  | work hr | finish hr =>
    rw [h] at hr
    cases hr
  | panic hi | drop hi =>
    obtain ⟨rest, hr⟩ := hi
    rw [h] at hr
    cases hr

/-- A step of a call leaves the phases of the others as they are. -/
theorem Move.phases_of_ne (hm : Move calls i sys sys') (hj : j ≠ i) : sys'.phases j = sys.phases j := by
  cases hm with
  | begin pages =>
    rcases begin_cases calls pages i sys with ⟨-, hb⟩ | ⟨-, hb⟩ <;> rw [hb]
    · exact Function.update_of_ne hj _ _
    · exact Function.update_of_ne hj _ _
  | work | finish | panic | drop | dropWaiting => exact Function.update_of_ne hj _ _

theorem Step.hasSlot (hs : Step calls sys sys') (hi : sys.HasSlot i) (hother : ¬ Move calls i sys sys') :
    sys'.HasSlot i := by
  cases hs with
  | outside files shared => exact hi
  | move j hm =>
    have hne : i ≠ j := by
      rintro rfl
      exact hother hm
    obtain ⟨rest, hr⟩ := hi
    exact ⟨rest, (hm.phases_of_ne hne).trans hr⟩

/-- A call that has the slot keeps it until it ends. -/
theorem Owned.released (h : sys.Owned) (hi : sys.HasSlot i) (hm : Move calls i sys sys') (hlost : ¬ sys'.HasSlot i) :
    (∃ ending, sys'.phases i = .ended ending) ∧ sys'.world.slot.isTaken = false ∧ ∀ j, ¬ sys'.HasSlot j := by
  cases hm with
  | begin pages hw | dropWaiting hw => exact absurd hi (not_hasSlot_of_waiting hw)
  | work => exact absurd ⟨_, Function.update_self i _ _⟩ hlost
  | finish | panic | drop => exact ⟨⟨_, Function.update_self i _ _⟩, rfl, (h.leave hi _).2⟩

end Steps

/-! ### Calls that nothing disturbs -/

section Undisturbed

variable {calls : ι → Call} {sys sys' : Indexing ι S} {i : ι}

/-- The steps of a single call, one after the other. -/
abbrev Moves (calls : ι → Call) (i : ι) : Indexing ι S → Indexing ι S → Prop := Relation.ReflTransGen (Move calls i)

/-- A call that goes on without anything in between takes all its steps, and gives the slot back. -/
theorem moves_of_running (body : Body (Scene S) Result) (sys : Indexing ι S) (hr : sys.phases i = .running body) :
    Moves calls i sys
      ((sys.withScene i (body.run (sys.scene i)).2).leave i (.returned (body.run (sys.scene i)).1)) := by
  induction body generalizing sys with
  | done result =>
    rw [Body.run, withScene_scene]
    exact .single (.finish hr)
  | step change next ih =>
    have hrest := ih (sys.scene i) (sys.resume i (change (sys.scene i)) (next (sys.scene i)))
      (Function.update_self i _ _)
    -- what the step has made of the scene is overwritten at the end
    rw [scene_resume, leave_resume] at hrest
    exact .head (.work hr) hrest

/-- A call has been performed, and nothing else has happened. -/
structure Performed (calls : ι → Call) (i : ι) (sys sys' : Indexing ι S) : Prop where
  world : sys'.world = ((calls i).perform sys.world).2
  phases : sys'.phases = Function.update sys.phases i (.ended (.returned ((calls i).perform sys.world).1))
  sinks : ∀ j, j ≠ i → sys'.sinks j = sys.sinks j
  received : ∀ cancelled room, calls i = .dump cancelled room →
    (sys'.sinks i).received = (dumpStream cancelled room sys.world).1.2

theorem performed_of_taken (htaken : sys.world.slot = .taken) (hsink : sys.sinks i = (calls i).sink) :
    Performed calls i sys (sys.setPhase i (.ended (.returned (.error .alreadyRunning)))) := by
  have hperform := (calls i).perform_taken htaken
  constructor
  case world =>
    rw [hperform]
    rfl
  case phases =>
    rw [hperform]
    rfl
  case sinks => exact fun _ _ => rfl
  case received =>
    intro cancelled room hcall
    rw [dumpStream, World.alone, htaken]
    exact congrArg Sink.received (hsink.trans (congrArg Call.sink hcall))

theorem performed_of_free {rest : Body (Scene S) Result} (hfree : sys.world.slot = .free)
    (hscene : sys.scene i = ⟨sys.world.files, sys.world.shared, (calls i).sink⟩) :
    Performed calls i sys
      (({ sys with world := { sys.world with slot := .taken } }.setPhase i (.running rest)).withScene i
        (((calls i).body sys.world.pages).run (sys.scene i)).2 |>.leave i
          (.returned (((calls i).body sys.world.pages).run (sys.scene i)).1)) := by
  have hperform := (calls i).run_body hfree
  rw [hscene]
  constructor
  case world =>
    rw [hperform]
    rfl
  case phases =>
    rw [hperform]
    exact Function.update_idem _ _ _
  case sinks => exact fun j hj => Function.update_of_ne hj _ _
  case received =>
    intro cancelled room hcall
    rw [← Call.run_body_received hfree]
    refine (congrArg Sink.received (Function.update_self i _ _)).trans ?_
    rw [hcall]
    rfl

/-- A call that is not disturbed does what the indexer does when nothing else happens. -/
theorem moves_of_waiting (hw : sys.phases i = .waiting) (hsink : sys.sinks i = (calls i).sink) :
    ∃ sys', Moves calls i sys sys' ∧ Performed calls i sys sys' := by
  have hbegin : Move calls i sys (sys.begin calls sys.world.pages i) := .begin _ hw
  rcases begin_cases calls sys.world.pages i sys with ⟨htaken, hb⟩ | ⟨hfree, hb⟩ <;> rw [hb] at hbegin
  · exact ⟨_, .single hbegin, performed_of_taken htaken hsink⟩
  · have hscene : sys.scene i = ⟨sys.world.files, sys.world.shared, (calls i).sink⟩ :=
      congrArg (Scene.mk sys.world.files sys.world.shared) hsink
    exact ⟨_, .head hbegin (moves_of_running _ _ (Function.update_self i _ _)), performed_of_free hfree hscene⟩

end Undisturbed

/-! ### Runs -/

section Runs

variable {calls : ι → Call} {files : FileTree} {shared : Shared S} {sys : Indexing ι S}

abbrev Steps (calls : ι → Call) : Indexing ι S → Indexing ι S → Prop := Relation.ReflTransGen (Step calls)

theorem invariant_of_steps (h : Steps calls (start calls files shared) sys) : sys.Owned ∧ Untouched calls sys := by
  induction h with
  | refl => exact ⟨.inl ⟨rfl, fun j => not_hasSlot_of_waiting rfl⟩, fun _ _ => rfl⟩
  | tail _ hs ih =>
    refine ⟨ih.1.step hs, ?_⟩
    cases hs with
    | move i hm => exact ih.2.move hm
    | outside files shared => exact ih.2

/-- What the slot is good for, at one moment. -/
structure Exclusive (calls : ι → Call) (sys : Indexing ι S) : Prop where
  single : ∀ i j, sys.HasSlot i → sys.HasSlot j → i = j
  isTaken_iff : sys.world.slot.isTaken = true ↔ ∃ i, sys.HasSlot i
  /-- A call that finds the slot taken fails, and that is all that happens. -/
  refuses : ∀ i, sys.phases i = .waiting → sys.world.slot.isTaken = true → ∀ pages,
    sys.begin calls pages i = sys.setPhase i (.ended (.returned (.error .alreadyRunning)))
  /-- A call that has failed or ended otherwise does nothing more. -/
  rests : ∀ i ending, sys.phases i = .ended ending → ∀ sys', ¬ Move calls i sys sys'
  /-- No other call, and nothing from outside, takes the slot from the call that has it. -/
  keeps : ∀ i, sys.HasSlot i → ∀ sys', Step calls sys sys' → ¬ Move calls i sys sys' →
    sys'.HasSlot i ∧ sys'.world.slot.isTaken = true
  /-- However a call ends, from then on no call has the slot. -/
  releases : ∀ i, sys.HasSlot i → ∀ sys', Move calls i sys sys' → ¬ sys'.HasSlot i →
    (∃ ending, sys'.phases i = .ended ending) ∧ sys'.world.slot.isTaken = false ∧ ∀ j, ¬ sys'.HasSlot j
  /-- The next call that asks for the slot gets it then. -/
  acquires : ∀ i, (∀ j, ¬ sys.HasSlot j) → sys.phases i = .waiting → ∀ pages,
    (sys.begin calls pages i).HasSlot i ∧ (sys.begin calls pages i).world.slot.isTaken = true
  /-- A call that nothing disturbs does what the indexer does alone. -/
  performs : ∀ i, sys.phases i = .waiting → ∃ sys', Moves calls i sys sys' ∧ Performed calls i sys sys'

/-- At every moment of every run the slot is good for that. -/
theorem single_flight (h : Steps calls (start calls files shared) sys) : Exclusive calls sys := by
  obtain ⟨howned, huntouched⟩ := invariant_of_steps h
  constructor
  case single => exact fun i j hi hj => howned.single hi hj
  case isTaken_iff => exact howned.isTaken_iff
  case refuses => exact fun i _ htaken pages => begin_of_isTaken pages htaken
  case rests => exact fun i ending he sys' => not_move_of_ended he
  case keeps =>
    intro i hi sys' hs hother
    have hi' := hs.hasSlot hi hother
    exact ⟨hi', (howned.step hs).isTaken_iff.mpr ⟨i, hi'⟩⟩
  case releases => exact fun i hi sys' hm hlost => howned.released hi hm hlost
  case acquires =>
    intro i hnone hw pages
    have hi : (sys.begin calls pages i).HasSlot i := hasSlot_begin pages (howned.isTaken_eq_false hnone)
    exact ⟨hi, (howned.move (.begin pages hw)).isTaken_iff.mpr ⟨i, hi⟩⟩
  case performs => exact fun i hw => moves_of_waiting hw (huntouched i hw)

end Runs

/-! ### Three calls -/

/-- A call of each kind. -/
def eachKind : Fin 3 → Call
  | 0 => .index plain false
  | 1 => .dump (fun _ => false) none
  | 2 => .dumpToFile .reliable (fun _ => false) ⟨"dump.json"⟩

/-- The first call is dropped after the second has been refused, then the third gets the slot. -/
theorem single_flight_eachKind :
    ∃ sys : Indexing (Fin 3) Store.Backend,
      Steps eachKind (start eachKind twoFolders ⟨.memory .empty, none⟩) sys ∧
      sys.phases 0 = .ended .dropped ∧ sys.phases 1 = .ended (.returned (.error .alreadyRunning)) ∧ sys.HasSlot 2 ∧
      Exclusive eachKind sys := by
  let beginning : Indexing (Fin 3) Store.Backend := start eachKind twoFolders ⟨.memory .empty, none⟩
  let indexing := beginning.begin eachKind 1 0
  let refused := indexing.begin eachKind 1 1
  let dropped := refused.leave 0 .dropped
  have hsteps : Steps eachKind beginning (dropped.begin eachKind 1 2) :=
    Relation.ReflTransGen.refl
      |>.tail (.move 0 (.begin 1 rfl) : Step eachKind beginning indexing)
      |>.tail (.move 1 (.begin 1 rfl) : Step eachKind indexing refused)
      |>.tail (.move 0 (.drop ⟨_, rfl⟩) : Step eachKind refused dropped)
      |>.tail (.move 2 (.begin 1 rfl))
  exact ⟨_, hsteps, rfl, rfl, ⟨_, rfl⟩, single_flight hsteps⟩

end Indexing
end Index
end ShareIndex
