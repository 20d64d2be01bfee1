import ShareIndex.Repository.Counters
import ShareIndex.Proofs.Text.Decimal
import ShareIndex.Proofs.Store.Fields
import ShareIndex.Proofs.Repository.Reply

/-!
# ShareIndex.Proofs.Repository.Counting

Counters, and what an increment does to them.

* `counterText`  — the text that is stored for a file; `counterAt` is the integer that it stands for.
* `Countable`    — every counter is an integer.
* `increment_runs`    — an increment that is answered adds one to one counter, and one that fails changes nothing.
* `increment_perform` — it is answered on a store that can be written to, unless the counter is at its maximum.
-/

namespace ShareIndex
namespace Repository

open Store (Backend Request Fillable hashOf summed)

def counterText (s : Backend) (file : String) : Option String := (hashOf (s.value? Key.counters)).get? file

def counterAt (s : Backend) (file : String) : Option Int := counterOf? (counterText s file)

structure Countable (s : Backend) : Prop where
  fillable : Fillable (s.value? Key.counters)
  integer : ∀ file, (counterAt s file).isSome

theorem counterAt_congr {s s' : Backend} {file : String} (h : counterText s' file = counterText s file) :
    counterAt s' file = counterAt s file := congrArg counterOf? h

/-- A counter that is missing counts as zero. -/
theorem counterAt_of_none {s : Backend} {file : String} (h : counterText s file = none) :
    counterAt s file = some 0 := by
  rw [counterAt, h]
  rfl

theorem inRange_counterAt {s : Backend} {file : String} {n : Int} (h : counterAt s file = some n) :
    Decimal.InRange n := by
  rw [counterAt] at h
  cases ht : counterText s file with
  | none =>
    rw [ht] at h
    cases h
    decide
  | some text =>
    rw [ht] at h
    exact Decimal.inRange_of_parseWord h

theorem counters_congr {s s' : Backend} (h : s'.contents Key.counters = s.contents Key.counters) (file : String) :
    counterText s' file = counterText s file := by
  rw [counterText, counterText, Backend.value?, Backend.value?, h]

theorem currentValue_eq (v : Option String) :
    Store.currentValue v = match counterOf? v with
      | some n => .ok n
      | none => .error .notInteger := by
  cases v with
  | none => rfl
  | some text =>
    show (match Decimal.parseWord text with | some n => _ | none => _) = _
    cases h : Decimal.parseWord text <;> simp [counterOf?, h]

theorem summed_eq_ok {s : Backend} {file : String} {n : Int} :
    summed (s.value? Key.counters) file 1 = .ok n ↔
      ∃ m, counterAt s file = some m ∧ n = m + 1 ∧ Decimal.InRange n := by
  have hcurrent := currentValue_eq (counterText s file)
  have hone : (1 : Int64).toInt = 1 := rfl
  rw [summed, show (hashOf (s.value? Key.counters)).get? file = counterText s file from rfl, hcurrent, counterAt]
  cases counterOf? (counterText s file) with
  | none => simp [Except.bind]
  | some m =>
    simp only [Except.bind, Store.addWithin, hone, Option.some.injEq, exists_eq_left']
    by_cases hr : Decimal.InRange (m + 1)
    · rw [if_pos hr]
      constructor
      · intro h
        obtain rfl : m + 1 = n := Except.ok.inj h
        exact ⟨rfl, hr⟩
      · rintro ⟨rfl, -⟩
        rfl
    · rw [if_neg hr]
      constructor
      · intro h
        cases h
      · rintro ⟨rfl, h⟩
        exact absurd h hr

/-- The integer that is stored is the one that is read. -/
theorem counterOf?_renderWord {n : Int} (h : Decimal.InRange n) : counterOf? (some (Decimal.renderWord n)) = some n :=
  Decimal.parseWord_renderWord h

theorem countP_concat {α : Type} (p : α → Bool) (l : List α) (a : α) :
    ((l ++ [a]).countP p : Int) = l.countP p + if p a then 1 else 0 := by
  rw [List.countP_append, List.countP_singleton]
  split <;> simp

section Increments

variable {s s' : Shared Backend} {events : List Event} {file : String}

/-- Of all counters, and of all that is stored, one counter is one higher. -/
structure Incremented (file : String) (n : Int) (s s' : Backend) : Prop where
  before : ∃ m, counterAt s file = some m ∧ n = m + 1
  after : counterAt s' file = some n
  others : ∀ other, other ≠ file → counterText s' other = counterText s other
  fillable : Fillable (s'.value? Key.counters)

theorem Reply.incremented {s s' : Backend} {n : Int} (h : Reply s (.increment Key.counters file 1) (.ok n) s') :
    Incremented file n s s' := by
  rcases s.perform_increment Key.counters file 1 with ⟨e, he, -⟩ | ⟨m, s1, he, -, hsum, hv⟩
  · exact absurd (he.symm.trans h.of_ok) (by simp)
  have hsame := he.symm.trans h.of_ok
  obtain rfl : m = n := Except.ok.inj (congrArg (·.1) hsame)
  obtain rfl : s1 = s' := congrArg (·.2) hsame
  obtain ⟨m', hm, hn, hrange⟩ := summed_eq_ok.mp hsum
  have htext : ∀ other, counterText s1 other =
      if other = file then some (Decimal.renderWord m) else counterText s other := fun other => by
    rw [counterText, hv]
    exact OrderedMap.get?_insert _ _ _ _
  exact {
    before := ⟨m', hm, hn⟩
    after := by rw [counterAt, htext, if_pos rfl, counterOf?_renderWord hrange]
    others := fun other hne => (htext other).trans (if_neg hne)
    fillable := by rw [hv]; trivial }

theorem increment_runs {result : Except Error Int} (h : Runs (increment file).run s events result s') :
    s'.holder = s.holder ∧
      ((∃ n, result = .ok n ∧ Incremented file n s.store s'.store) ∨ (∃ e, result = .error e) ∧ s'.store = s.store) := by
  obtain ⟨answer, store, hr, -, rfl, rfl⟩ := runs_request h
  refine ⟨rfl, ?_⟩
  cases answer with
  | error e => exact .inr ⟨⟨_, rfl⟩, hr.unchanged nofun⟩
  | ok n => exact .inl ⟨n, rfl, hr.incremented⟩

/-- Every other file keeps its counter. -/
theorem Incremented.counts {n : Int} {s s' : Backend} (h : Incremented file n s s') (other : String) :
    counterAt s' other = (counterAt s other).map fun m => m + if other = file then 1 else 0 := by
  by_cases ho : other = file
  · subst ho
    obtain ⟨m, hm, rfl⟩ := h.before
    simp [h.after, hm]
  · rw [counterAt_congr (h.others other ho)]
    simp [ho]

theorem increment_perform {n : Int} (ha : s.store.access = .writing) (hf : Fillable (s.store.value? Key.counters))
    (hn : counterAt s.store file = some n) (hr : Decimal.InRange (n + 1)) :
    ∃ s', (increment file).perform s = (.ok (n + 1), s') := by
  have hsum := summed_eq_ok.mpr ⟨n, hn, rfl, hr⟩
  rcases s.store.perform_increment Key.counters file 1 with ⟨e, -, hne⟩ | ⟨m, s1, he, -, hm, -⟩
  · obtain ⟨e', he'⟩ := hne ha hf
    rw [hsum] at he'
    cases he'
  · obtain rfl : n + 1 = m := Except.ok.inj (hsum.symm.trans hm)
    refine ⟨{ s with store := s1 }, ?_⟩
    show (((s.store.perform (.increment Key.counters file 1)).1.mapError Error.store),
      ({ s with store := (s.store.perform (.increment Key.counters file 1)).2 } : Shared Backend)) = _
    rw [he]
    rfl

end Increments
end Repository
end ShareIndex
