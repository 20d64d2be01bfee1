import ShareIndex.CommandLine.Launch
import ShareIndex.Proofs.Index.Anchor
import ShareIndex.Proofs.Index.Delivery

/-!
# ShareIndex.Proofs.CommandLine.Job

What each job does to a database whose counters are anchored.

* `Offers`       — a file is one of the active generation.
* `Does`         — what a job answers, and what it does to the store.
* `Ready`        — a session at its start.
* `countHit_perform` — a file is counted exactly if it is offered and its counter can be raised.
* `perform_does` — every job does what it should, and leaves the counters anchored.
-/

namespace ShareIndex
namespace CommandLine

open Index (Anchored Scanner World alone_free dumpText dumpToFile_settles dump_unlimited index_anchored textBytes)
open Repository
open Store (Backend KeyValueStore Tables hashOf)

/-! ### What jobs do -/

/-- The file is one of the active generation, where it has this url. -/
def Offers (s : Backend) (file url : String) : Prop :=
  ∃ g, s.pointer = some g ∧ (hashOf (s.value? (Key.files g))).get? file = some url

/-- What a job answers, and what it does to the store. -/
def Does (before after : Backend) (result : Except Error (List UInt8)) : Job → Prop
  | .index => ∀ e, result = .error e → after = before
  | .dump _ | .page _ | .counters _ => after = before
  | .hit file => ∃ n, counterAt before file = some n ∧
      ((∃ output, result = .ok output) ↔ (∃ url, Offers before file url) ∧ n < Decimal.maximum) ∧
      match result with
      | .ok output => (∃ url, Offers before file url ∧ output = bytes (row url (Decimal.renderWord (n + 1)))) ∧
          Incremented file (n + 1) before after ∧ ∀ key, key ≠ Key.counters → after.contents key = before.contents key
      | .error _ => after = before

/-! ### Actions -/

section Actions

variable {α β : Type} {s s' : Shared Backend}

theorem perform_map (f : α → β) (x : Action α) (s : Shared Backend) :
    (f <$> x).perform s = ((x.perform s).1.map f, (x.perform s).2) := by
  cases h : (x.perform s).1 with
  | error e => exact perform_bind_error (Prod.ext h rfl)
  | ok a => exact perform_bind (Prod.ext h rfl)

/-- A store in a database stays in it. -/
theorem run_database (p : Program α) {t : Tables} (h : s.store = .database (.ofTables t)) :
    ∃ t', (p.run s).2.store = .database (.ofTables t') := by
  have hr := runs_run p s
  have haccess := reaches_access hr
  have hkind : ∃ d, (p.run s).2.store = .database d := by
    clear hr haccess
    have hd : ∃ d, s.store = .database d := ⟨_, h⟩
    clear h
    induction p generalizing s with
    | done a => exact hd
    | perform effect next ih =>
      cases effect with
      | store r =>
        obtain ⟨d, hd⟩ := hd
        refine ih _ ?_
        show ∃ d, (s.store.perform r).2 = .database d
        rw [hd]
        exact ⟨_, rfl⟩
      | readHolder | writeHolder => exact ih _ hd
  obtain ⟨⟨tables, access⟩, hd⟩ := hkind
  rw [hd, h] at haccess
  obtain rfl : access = .writing := haccess
  exact ⟨tables, hd⟩

theorem index_database {w : World Backend} (hslot : w.slot = .free) {t : Tables}
    (h : w.shared.store = .database (.ofTables t)) (sc : Scanner) (cancelled : Bool) :
    ∃ t', (sc.index cancelled w).2.shared.store = .database (.ofTables t') := by
  rw [Scanner.index, alone_free hslot]
  exact run_database _ h

/-- On a store that can be written to, an increment fails only at the maximum, and changes nothing then. -/
theorem increment_cases {file : String} {n : Int} (ha : s.store.access = .writing) (h : Countable s.store)
    (hn : counterAt s.store file = some n) :
    (n < Decimal.maximum ∧ ∃ s', (increment file).perform s = (.ok (n + 1), s') ∧
      Incremented file (n + 1) s.store s'.store ∧ ∀ key, key ≠ Key.counters → s'.store.contents key = s.store.contents key) ∨
    (n = Decimal.maximum ∧ ∃ e, (increment file).perform s = (.error e, s)) := by
  obtain ⟨hmin, hmax⟩ := inRange_counterAt hn
  rcases hp : (increment file).perform s with ⟨result, s'⟩
  obtain ⟨events, hr⟩ := runs_perform hp
  obtain ⟨hholder, ⟨m, rfl, hi⟩ | ⟨⟨e, rfl⟩, hstore⟩⟩ := increment_runs hr
  · obtain ⟨m', hm, rfl⟩ := hi.before
    obtain rfl := Option.some.inj (hn.symm.trans hm)
    have hrange := inRange_counterAt hi.after
    exact .inl ⟨by have := hrange.2; omega, s', rfl, hi, (reaches_countersOnly (increment_every file) hr).2⟩
  · refine .inr ⟨?_, e, by rw [show s' = s by cases s; cases s'; cases hstore; cases hholder; rfl]⟩
    by_contra hne
    obtain ⟨s1, h1⟩ := increment_perform ha h.fillable hn ⟨by omega, by omega⟩
    rw [h1] at hp
    cases hp

/-- A file is counted exactly if it is offered and its counter can be raised. -/
theorem countHit_perform (ha : s.store.access = .writing) (hh : s.holder = s.store.pointer) (h : Anchored s.store)
    (file : String) : ∃ n, counterAt s.store file = some n ∧
      ((∃ url s', Offers s.store file url ∧ n < Decimal.maximum ∧
        (countHit file).perform s = (.ok (bytes (row url (Decimal.renderWord (n + 1)))), s') ∧
        Incremented file (n + 1) s.store s'.store ∧
        ∀ key, key ≠ Key.counters → s'.store.contents key = s.store.contents key) ∨
      ¬ ((∃ url, Offers s.store file url) ∧ n < Decimal.maximum) ∧ ∃ e, (countHit file).perform s = (.error e, s)) := by
  obtain ⟨n, hn⟩ := Option.isSome_iff_exists.mp (h.countable.integer file)
  refine ⟨n, hn, ?_⟩
  cases hg : s.store.pointer with
  | none =>
    refine .inr ⟨?_, .fileNotFound file, ?_⟩
    · rintro ⟨⟨url, g, hactive, -⟩, -⟩
      rw [hg] at hactive
      cases hactive
    · refine perform_bind_error ?_
      rw [fileUrl, perform_bind (perform_readHolder s), hh, hg]
      rfl
  | some g =>
    obtain ⟨batch, hb, -⟩ := h.active g hg
    have hurl := fileUrl_perform (hh.trans hg) (by rw [ha]; decide) hb.files.fillable file
    cases hf : (hashOf (s.store.value? (Key.files g))).get? file with
    | none =>
      rw [hf] at hurl
      refine .inr ⟨?_, .fileNotFound file, perform_bind_error hurl⟩
      rintro ⟨⟨url, active, hactive, hoffered⟩, -⟩
      obtain rfl := Option.some.inj (hg.symm.trans hactive)
      rw [hf] at hoffered
      cases hoffered
    | some url =>
      rw [hf] at hurl
      rcases increment_cases ha h.countable hn with ⟨hlt, s', hincrement, hi, hothers⟩ | ⟨hmax, e, hincrement⟩
      · refine .inl ⟨url, s', ⟨g, hg, hf⟩, hlt, ?_, hi, hothers⟩
        exact (perform_bind hurl).trans (perform_bind hincrement)
      · refine .inr ⟨?_, e, (perform_bind hurl).trans (perform_bind_error hincrement)⟩
        rintro ⟨-, hlt⟩
        omega

end Actions

/-! ### Jobs -/

/-- The path of the file that a job dumps into. -/
def Session.target? (s : Session) : Job → Option FilePath
  | .dump none => some s.settings.dumpFile
  | .dump (some path) => if isStandardOutput path then none else some path
  | .index | .page _ | .counters _ | .hit _ => none

/-- The job may put a file in the place of what is there. -/
def Session.Replaces (s : Session) (job : Job) (place : Place) : Prop :=
  ∃ path found, s.target? job = some path ∧ s.world.files.find path false = .ok found ∧ found.place = place

/-- A session at its start: no call runs, and the holder has followed the pointer of a database. -/
structure Ready (t : Tables) (s : Session) : Prop where
  store : s.world.shared.store = .database (.ofTables t)
  holder : s.world.shared.holder = s.world.shared.store.pointer
  slot : s.world.slot = .free

/-- What is left of a session when a job has ended. A job that changes the tables changes no files. -/
structure Performed (s : Session) (job : Job) (t t' : Tables) (result : Except Error (List UInt8)) (s' : Session) :
    Prop where
  settings : s'.settings = s.settings
  store : s'.world.shared.store = .database (.ofTables t')
  anchored : Anchored (.database (.ofTables t'))
  does : Does (.database (.ofTables t)) (.database (.ofTables t')) result job
  files : s'.world.files = s.world.files ∨ t' = t ∧ s'.world.files.rights = s.world.files.rights ∧ ∀ place,
    s'.world.files.entry? place = s.world.files.entry? place ∨
      s.Replaces job place ∧ ∃ content, s'.world.files.entry? place = some (.file content)

section Jobs

variable {s : Session} {t : Tables}

theorem Ready.writable (h : Ready t s) : s.world.shared.store.access = .writing := by
  rw [h.store]
  rfl

theorem performed_unchanged (h : Ready t s) (ha : Anchored (.database (.ofTables t))) {job : Job}
    {result : Except Error (List UInt8)} (hd : Does (.database (.ofTables t)) (.database (.ofTables t)) result job) :
    Performed s job t t result s :=
  ⟨rfl, h.store, ha, hd, .inl rfl⟩

theorem perform_index (h : Ready t s) (ha : Anchored (.database (.ofTables t))) :
    ∃ t', Performed s .index t t' (s.perform .index).1 (s.perform .index).2 := by
  have hunchanged : ∀ e, Performed s .index t t (.error e) s := fun e => performed_unchanged h ha fun _ _ => rfl
  show ∃ t', Performed s .index t t' (s.withScanner _).1 (s.withScanner _).2
  unfold Session.withScanner
  cases hsc : scannerOf s.settings with
  | error e => exact ⟨t, hunchanged e⟩
  | ok scanner =>
    dsimp only
    unfold Session.index Session.call
    have hanchored : Anchored s.world.shared.store := h.store ▸ ha
    have hvisible : ∀ key, Key.Visible s.world.shared.store key := by
      rw [h.store]
      exact fun _ => trivial
    rcases index_anchored h.slot h.writable hvisible hanchored scanner false with
      ⟨e, hindex⟩ | ⟨infos, shared, hindex, hafter⟩
    · rw [hindex]
      exact ⟨t, hunchanged _⟩
    · obtain ⟨t', ht⟩ := index_database h.slot h.store scanner false
      rw [hindex] at ht ⊢
      exact ⟨t', rfl, ht, ht ▸ hafter, fun e he => (by cases he), .inl rfl⟩

theorem lookup_reader {α : Type} (x : Action α) (hx : ∀ s : Shared Backend, (x.perform s).2 = s)
    (f : α → List UInt8) : (s.lookup (f <$> x)).2 = s := by
  have hmap := perform_map f x s.world.shared
  rw [hx] at hmap
  unfold Session.lookup Session.call
  dsimp only
  rw [hmap]

theorem perform_hit (h : Ready t s) (ha : Anchored (.database (.ofTables t))) (file : String) :
    ∃ t', Performed s (.hit file) t t' (s.perform (.hit file)).1 (s.perform (.hit file)).2 := by
  have hanchored : Anchored s.world.shared.store := h.store ▸ ha
  show ∃ t', Performed s (.hit file) t t' (s.lookup (countHit file)).1 (s.lookup (countHit file)).2
  unfold Session.lookup Session.call
  dsimp only
  obtain ⟨n, hn, ⟨url, shared, hoffers, hlt, hperform, hi, hothers⟩ | ⟨hnot, e, hperform⟩⟩ :=
    countHit_perform h.writable h.holder hanchored file
  · obtain ⟨t', ht⟩ := run_database (countHit file).run h.store
    rw [show (countHit file).run.run s.world.shared = _ from hperform] at ht
    rw [hperform]
    obtain ⟨g, hg, hurl⟩ := hoffers
    have hafter := hanchored.increment hi hothers hg hurl
    rw [h.store] at hn hi hothers hg hurl
    rw [show shared.store = _ from ht] at hi hothers hafter
    refine ⟨t', rfl, ht, hafter, ⟨n, hn, ?_, ⟨url, ⟨g, hg, hurl⟩, rfl⟩, hi, hothers⟩, .inl rfl⟩
    exact ⟨fun _ => ⟨⟨url, g, hg, hurl⟩, hlt⟩, fun _ => ⟨_, rfl⟩⟩
  · rw [hperform]
    rw [h.store] at hn hnot
    refine ⟨t, performed_unchanged h ha ⟨n, hn, ⟨?_, fun hyes => absurd hyes hnot⟩, rfl⟩⟩
    rintro ⟨output, ho⟩
    cases ho

theorem perform_dump (h : Ready t s) (ha : Anchored (.database (.ofTables t))) (output : Option FilePath) :
    Performed s (.dump output) t t (s.perform (.dump output)).1 (s.perform (.dump output)).2 := by
  have hlegible : Legible s.world.shared := by
    refine Anchored.legible (h.store ▸ ha) ?_ h.holder
    rw [h.writable]
    decide
  have hrun := allCounters_run hlegible
  have hfile : ∀ path, s.target? (.dump output) = some path →
      Performed s (.dump output) t t ((s.dumpToPath path).map (·.map fun _ => ([] : List UInt8)) id).1
        ((s.dumpToPath path).map (·.map fun _ => ([] : List UInt8)) id).2 := by
    intro path hpath
    obtain ⟨result, after, hdump, hafter, hsettled⟩ := @dumpToFile_settles _ _ id s.world _
      (fun _ r => .served r) h.slot (congrArg (·.1) hrun) .reliable (fun _ => false) path
    have hdump : Index.dumpToPath false path s.world = (result, after) := hdump
    unfold Session.dumpToPath Session.call
    dsimp only
    rw [hdump]
    have hstore := (show after.shared.store = s.world.shared.store from hafter.store).trans h.store
    cases result with
    | error e => exact ⟨rfl, hstore, ha, rfl, .inl hsettled⟩
    | ok u =>
      obtain ⟨hrights, target, hfind, hentry, hothers⟩ := hsettled
      refine ⟨rfl, hstore, ha, rfl, .inr ⟨rfl, hrights, fun place => ?_⟩⟩
      by_cases hp : place = target.place
      · exact .inr ⟨⟨path, target, hpath, hfind, hp.symm⟩, _, hp ▸ hentry⟩
      · exact .inl (hothers place hp)
  show Performed s (.dump output) t t (s.withScanner _).1 (s.withScanner _).2
  unfold Session.withScanner
  split
  · exact performed_unchanged h ha rfl
  · unfold Session.dump
    cases output with
    | none => exact hfile _ rfl
    | some path =>
      dsimp only
      split
      · unfold Session.dumpText Session.call
        dsimp only
        rw [dump_unlimited h.slot hrun]
        exact performed_unchanged h ha rfl
      · exact hfile path (if_neg ‹_›)

/-- Every job does what it should, and leaves the counters anchored. -/
theorem perform_does (h : Ready t s) (ha : Anchored (.database (.ofTables t))) (job : Job) :
    ∃ t', Performed s job t t' (s.perform job).1 (s.perform job).2 := by
  cases job with
  | index => exact perform_index h ha
  | dump output => exact ⟨t, perform_dump h ha output⟩
  | page download =>
    have hsame := lookup_reader (s := s) (Repository.page download) (Reader.page download).run_snd pageLine
    show ∃ t', Performed s _ t t' _ (s.lookup (pageLine <$> Repository.page download)).2
    rw [hsame]
    exact ⟨t, performed_unchanged h ha rfl⟩
  | counters download =>
    have hsame := lookup_reader (s := s) (Repository.counters download) (Reader.counters download).run_snd counterRows
    show ∃ t', Performed s _ t t' _ (s.lookup (counterRows <$> Repository.counters download)).2
    rw [hsame]
    exact ⟨t, performed_unchanged h ha rfl⟩
  | hit file => exact perform_hit h ha file

end Jobs
end CommandLine
end ShareIndex
