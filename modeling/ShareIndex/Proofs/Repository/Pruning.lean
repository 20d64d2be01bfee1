import ShareIndex.Proofs.Repository.Prune

/-!
# ShareIndex.Proofs.Repository.Pruning

One prune, whose requests may fail, and any number of increments between them.

* `Pruning`       — a prune at some point, with the store that it shares with the increments.
* `Pruning.Steps` — the moments in which something has happened, in their order.
* `Tally`         — how a counter has come about: from what it was at first and all its increments, or from those
  after the only moment in which it has been removed.
* `Pruning.Invariant` — the tallies, together with how far the prune has come.
* `counts_kept`   — what each counter is at every point.
-/

namespace ShareIndex
namespace Repository

open Store (Backend Fillable)
open Store.Backend (follows)
open Share (Download)

inductive Moment where
  /-- A step of the prune, with the request that it sends. -/
  | pruned (events : List Event)
  | incremented (file : String) (result : Except Error Int)

namespace Moment

def removes (file : String) : Moment → Bool
  | pruned events => events.any (·.removes file)
  | incremented _ _ => false

/-- An increment that fails does not count. -/
def counts (file : String) : Moment → Bool
  | incremented other (.ok _) => file == other
  | _ => false

end Moment

/-- How many increments of a file there have been. -/
def counted (file : String) (moments : List Moment) : Int := moments.countP (·.counts file)

theorem counted_append (file : String) (moments : List Moment) (m : Moment) :
    counted file (moments ++ [m]) = counted file moments + if m.counts file then 1 else 0 :=
  countP_concat (Moment.counts file) moments m

structure Pruning where
  shared : Shared Backend
  pruner : Program (Except Error Nat)

namespace Pruning

def start (pages : Nat) (batch : List Download) (s : Shared Backend) : Pruning := ⟨s, (prune pages batch).run⟩

/-- A request of the prune is one step, and so is an increment. Both may fail. -/
inductive Step : Pruning → Moment → Pruning → Prop where
  | prune {sys : Pruning} {events : List Event} {p : Program (Except Error Nat)} {s : Shared Backend} :
    sys.pruner.Step sys.shared events p s → Step sys (.pruned events) ⟨s, p⟩
  | increment {sys : Pruning} {events : List Event} {result : Except Error Int} {s : Shared Backend} (file : String) :
    Runs (increment file).run sys.shared events result s →
    Step sys (.incremented file result) { sys with shared := s }

inductive Steps : Pruning → List Moment → Pruning → Prop where
  | refl (sys : Pruning) : Steps sys [] sys
  | tail {sys sys' sys'' : Pruning} {moments : List Moment} {m : Moment} :
    Steps sys moments sys' → Step sys' m sys'' → Steps sys (moments ++ [m]) sys''

end Pruning

/-- A counter that has been removed belongs to a file that is not to be kept, and the prune is beyond it. -/
inductive Tally (keep : List String) (s store : Backend) (moments : List Moment) (floor : Option String)
    (file : String) : Prop where
  | kept : (∀ m ∈ moments, m.removes file = false) →
    counterAt store file = (counterAt s file).map (· + counted file moments) → Tally keep s store moments floor file
  | removed {before after : List Moment} {m : Moment} : moments = before ++ m :: after → m.removes file = true →
    (∀ x ∈ before ++ after, x.removes file = false) → counterAt store file = some (counted file after) →
    file ∉ keep → follows floor file = false → Tally keep s store moments floor file

namespace Tally

variable {keep : List String} {s store store' : Backend} {moments : List Moment} {floor top : Option String}
  {file : String} {m : Moment}

/-- A moment that does not remove the counter adds to it what it counts. -/
theorem add (h : Tally keep s store moments floor file) (hm : m.removes file = false)
    (hc : counterAt store' file = (counterAt store file).map (· + if m.counts file then 1 else 0))
    (hf : ∀ file, follows top file = true → follows floor file = true) :
    Tally keep s store' (moments ++ [m]) top file := by
  cases h with
  | kept hk hn =>
    refine .kept (List.forall_mem_append.mpr ⟨hk, List.forall_mem_singleton.mpr hm⟩) ?_
    rw [hc, hn, counted_append, Option.map_map]
    exact congrArg (Option.map · _) (funext fun n => Int.add_assoc _ _ _)
  | @removed before after r hmoments hr hothers hn hkeep hfloor =>
    have hsplit : moments ++ [m] = before ++ r :: (after ++ [m]) := by simp [hmoments]
    have hall : ∀ x ∈ before ++ (after ++ [m]), x.removes file = false := by
      rw [← List.append_assoc]
      exact List.forall_mem_append.mpr ⟨hothers, List.forall_mem_singleton.mpr hm⟩
    refine .removed hsplit hr hall ?_ hkeep ?_
    · rw [hc, hn, counted_append]
      rfl
    · cases htop : follows top file with
      | false => rfl
      | true =>
        rw [hf file htop] at hfloor
        cases hfloor

/-- The counter is removed, for the first time since the prune is not beyond it. -/
theorem remove (h : Tally keep s store moments floor file) (hm : m.removes file = true)
    (hc : counterAt store' file = some 0) (hkeep : file ∉ keep) (hfloor : follows floor file = true)
    (htop : follows top file = false) : Tally keep s store' (moments ++ [m]) top file := by
  cases h with
  | kept hk _ =>
    have hsplit : moments ++ [m] = moments ++ m :: [] := rfl
    exact .removed hsplit hm (by simpa using hk) hc hkeep htop
  | removed _ _ _ _ _ hf =>
    rw [hfloor] at hf
    cases hf

end Tally

namespace Pruning

/-- What is left of the prune goes on from some floor, and each counter has its tally. -/
def Invariant (keep : List String) (s : Backend) (moments : List Moment) (sys : Pruning) : Prop :=
  ∃ floor, Sweeps keep floor sys.pruner ∧ ∀ file, Tally keep s sys.shared.store moments floor file

section Invariance

variable {pages : Nat} {batch : List Download} {s : Shared Backend} {keep : List String} {store : Backend}
  {moments : List Moment} {m : Moment} {sys sys' : Pruning}

theorem invariant_start (pages : Nat) (batch : List Download) (s : Shared Backend) :
    Invariant (fileIds batch) s.store [] (start pages batch s) := by
  refine ⟨none, pruneAfter_sweeps (fileIds batch) pages none, fun file => .kept (by simp) ?_⟩
  show counterAt s.store file = (counterAt s.store file).map (· + 0)
  cases counterAt s.store file <;> simp

theorem Invariant.step (h : Invariant keep store moments sys) (hs : Step sys m sys') :
    Invariant keep store (moments ++ [m]) sys' := by
  obtain ⟨floor, hp, htally⟩ := h
  cases hs with
  | prune hs =>
    obtain ⟨-, e, top, rfl, hp', hswept⟩ := hp.step hs
    refine ⟨top, hp', fun file => ?_⟩
    have hany : Moment.removes file (.pruned [e]) = e.removes file := by simp [Moment.removes]
    cases he : e.removes file with
    | false =>
      refine (htally file).add (hany.trans he) ?_ hswept.rises
      rw [counterAt_congr (hswept.kept file he)]
      cases counterAt sys.shared.store file <;> simp [Moment.counts]
    | true =>
      obtain ⟨hkeep, hfloor, htop, hnone⟩ := hswept.removed file he
      exact (htally file).remove (hany.trans he) (counterAt_of_none hnone) hkeep hfloor htop
  | @increment events result s' other hr =>
    refine ⟨floor, hp, fun file => (htally file).add rfl ?_ fun _ hf => hf⟩
    obtain ⟨-, ⟨n, rfl, hi⟩ | ⟨⟨e, rfl⟩, hstore⟩⟩ := increment_runs hr
    · rw [hi.counts file]
      simp [Moment.counts]
    · show counterAt s'.store file = _
      rw [hstore]
      cases counterAt sys.shared.store file <;> simp [Moment.counts]

theorem invariant_of_steps (h : Steps (start pages batch s) moments sys) :
    Invariant (fileIds batch) s.store moments sys := by
  induction h with
  | refl => exact invariant_start pages batch s
  | tail _ hs ih => exact ih.step hs

/-- The counters stay a hash, if that is what they are. -/
theorem fillable_of_steps (h : Steps (start pages batch s) moments sys)
    (hf : Fillable (s.store.value? Key.counters)) : Fillable (sys.shared.store.value? Key.counters) := by
  induction h with
  | refl => exact hf
  | tail hsteps hs ih =>
    obtain ⟨floor, hp, -⟩ := invariant_of_steps hsteps
    cases hs with
    | prune hs =>
      obtain ⟨-, e, top, -, -, hswept⟩ := hp.step hs
      exact hswept.fillable ih
    | increment file hr =>
      obtain ⟨-, ⟨n, -, hi⟩ | ⟨-, hstore⟩⟩ := increment_runs hr
      · exact hi.fillable
      · exact hstore ▸ ih

theorem access_of_steps (h : Steps (start pages batch s) moments sys) :
    sys.shared.store.access = s.store.access := by
  induction h with
  | refl => rfl
  | tail _ hs ih =>
    refine Eq.trans ?_ ih
    cases hs with
    | prune hs => exact reaches_access (.single hs)
    | increment file hr => exact reaches_access hr

end Invariance

variable {pages : Nat} {batch : List Download} {s : Shared Backend} {moments : List Moment} {sys : Pruning}

/-- While a prune runs, or after it has ended in any way, the counter of a file of the batch is what it was at first
and all its increments. A counter outside the batch is that, too, or it has been removed once and its increments since
then are all that it is. An increment fails only if the sum is out of range or the store may not be written to. -/
theorem counts_kept (hc : Countable s.store) (h : Steps (start pages batch s) moments sys) (file : String) :
    (file ∈ fileIds batch → (∀ m ∈ moments, m.removes file = false) ∧
      counterAt sys.shared.store file = (counterAt s.store file).map (· + counted file moments)) ∧
    (file ∉ fileIds batch →
      ((∀ m ∈ moments, m.removes file = false) ∧
        counterAt sys.shared.store file = (counterAt s.store file).map (· + counted file moments)) ∨
      ∃ before m after, moments = before ++ m :: after ∧ m.removes file = true ∧
        (∀ x ∈ before ++ after, x.removes file = false) ∧
        counterAt sys.shared.store file = some (counted file after)) ∧
    ∃ n, counterAt sys.shared.store file = some n ∧ (s.store.access = .writing → Decimal.InRange (n + 1) →
      ∃ s', (increment file).perform sys.shared = (.ok (n + 1), s')) := by
  obtain ⟨floor, -, htally⟩ := invariant_of_steps h
  have hsome : ∃ n, counterAt sys.shared.store file = some n := by
    obtain ⟨n, hn⟩ := Option.isSome_iff_exists.mp (hc.integer file)
    cases htally file with
    | kept _ hk => exact ⟨n + counted file moments, by rw [hk, hn]; rfl⟩
    | removed _ _ _ hr _ _ => exact ⟨_, hr⟩
  refine ⟨fun hmem => ?_, fun _ => ?_, ?_⟩
  · cases htally file with
    | kept hk hn => exact ⟨hk, hn⟩
    | removed _ _ _ _ hkeep _ => exact absurd hmem hkeep
  · cases htally file with
    | kept hk hn => exact .inl ⟨hk, hn⟩
    | removed hsplit hm hothers hn _ _ => exact .inr ⟨_, _, _, hsplit, hm, hothers, hn⟩
  · obtain ⟨n, hn⟩ := hsome
    refine ⟨n, hn, fun ha hr => ?_⟩
    exact increment_perform ((access_of_steps h).trans ha) (fillable_of_steps h hc.fillable) hn hr

/-- Two files have counters, one of which is in the batch. -/
def busy : Shared Backend := ⟨.memory ⟨.ofList [(Key.counters, .hash (.ofList [("a", "3"), ("b", "5")]))]⟩, none⟩

/-- The batch has one file, `a`. -/
def offering : List Download :=
  [⟨"d", "D", none, true, ⟨"d"⟩, "page", "", [⟨"a", "a", none, ⟨"d/a"⟩, "/d/a", 1, "text/plain"⟩]⟩]

theorem counterText_busy (file : String) :
    counterText busy.store file = if file = "a" then some "3" else if file = "b" then some "5" else none := rfl

theorem countable_busy : Countable busy.store := by
  refine ⟨trivial, fun file => ?_⟩
  rw [counterAt, counterText_busy]
  split
  · rfl
  · split <;> rfl

/-- The other file is fetched when the prune has found its counter, and again when the counter is gone. -/
theorem counts_kept_interleaved : ∃ moments sys, Steps (start 9 offering busy) moments sys ∧
    counterAt sys.shared.store "a" = some 4 ∧
    ∃ before m after, moments = before ++ m :: after ∧ m.removes "b" = true ∧
      counterAt sys.shared.store "b" = some (counted "b" after) := by
  obtain ⟨moments, sys, h, hone, hremoved⟩ : ∃ moments sys, Steps (start 9 offering busy) moments sys ∧
      counted "a" moments = 1 ∧ moments.any (·.removes "b") = true := by
    refine ⟨_, _, .tail (.tail (.tail (.tail (.tail (.refl _) (.prune (.request (.served _))))
      (.increment "b" (runs_run _ _))) (.prune (.request (.served _))))
      (.increment "b" (runs_run _ _))) (.increment "a" (runs_run _ _)), ?_, ?_⟩
    · rfl
    · rfl
  obtain ⟨ha, -, -⟩ := counts_kept countable_busy h "a"
  obtain ⟨-, hother, -⟩ := counts_kept countable_busy h "b"
  refine ⟨moments, sys, h, ?_, ?_⟩
  · rw [(ha (by decide)).2, hone]
    rfl
  · rcases hother (by decide) with ⟨hnever, -⟩ | ⟨before, m, after, hsplit, hm, -, hn⟩
    · obtain ⟨m, hm, hr⟩ := List.any_eq_true.mp hremoved
      rw [hnever m hm] at hr
      cases hr
    · exact ⟨before, m, after, hsplit, hm, hn⟩

end Pruning
end Repository
end ShareIndex
