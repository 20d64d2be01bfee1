import ShareIndex.Proofs.Index.Cycle
import ShareIndex.Proofs.Repository.Sparing

/-!
# ShareIndex.Proofs.Index.Retention

Cycles one after the other, over a work folder that changes between them, and increments at any time.

* `Course`          — an indexer at some point, with the store that it shares with the increments.
* `Present`         — a file is in a folder of the work folder.
* `Offered`         — a file that is present is also in the download that its folder is converted to.
* `Offered.fileIds` — what a scan has found has the id of such a file.
* `Course.Invariant` — what is left of a cycle spares the counter, which is what it was at first and its increments.
* `counter_retained` — so a file that is offered in every cycle keeps its counter.
* `counter_lost`    — it is not enough that the file is present.
-/

namespace ShareIndex
namespace Index

open Folder (Converter)
open Repository
open Share (Download Summary stableId)
open Store (Backend Fillable KeyValueStore)

/-! ### Files -/

def pathOf (sc : Scanner) (folder name : String) : FilePath := (sc.root.entry folder).entry name

/-- The file `name` is in the folder `folder` of the work folder, and is not skipped. -/
structure Present (sc : Scanner) (files : FileTree) (folder name : String) : Prop where
  inRoot : ∃ entries, files.list sc.root = .ok entries ∧ (folder, Entry.folder) ∈ entries
  listed : ∃ entries, files.list (sc.root.entry folder) = .ok entries ∧ name ∈ entries.map (·.1)
  isFile : ∃ size, Converter.size? files (pathOf sc folder name) = some size
  notSkipped : name ∉ sc.converter.skipped

/-- The folder can be converted; neither the folder nor the file has too many before it. -/
structure Offered (sc : Scanner) (files : FileTree) (folder name : String) : Prop
    extends Present sc files folder name where
  converts : ∃ d, sc.converter.convert files (sc.root.entry folder) = .ok d
  folders : ∀ entries, files.list sc.root = .ok entries →
    (subfolders sc.root entries).countP (fun p =>
      decide (p ≠ sc.root.entry folder) && p.atMost (sc.root.entry folder)) < maxCandidates
  names : ∀ entries, files.list (sc.root.entry folder) = .ok entries →
    (entries.map (·.1)).countP (fun n => sc.converter.offers files (sc.root.entry folder) n && decide (n < name)) <
      Folder.maxFiles

section Offers

variable {sc : Scanner} {files : FileTree} {folder name : String} {folders : List FilePath}

theorem Present.offers (h : Present sc files folder name) :
    sc.converter.offers files (sc.root.entry folder) name = true := by
  obtain ⟨size, hsize⟩ := h.isFile
  have hskip : sc.converter.skipped.contains name = false := by simpa using h.notSkipped
  have hsize : Converter.size? files ((sc.root.entry folder).entry name) = some size := hsize
  rw [Converter.offers, hskip, hsize]
  rfl

/-- Its folder is a candidate, and the download of that folder has the file. -/
theorem Offered.mem_fileIds (h : Offered sc files folder name) (hf : candidates files sc.root = .ok folders) :
    stableId (pathOf sc folder name) ∈ fileIds (sc.converted files folders) := by
  obtain ⟨entries, hl, hfolder⟩ := h.inRoot
  have hsub : sc.root.entry folder ∈ subfolders sc.root entries :=
    List.mem_map.mpr ⟨_, List.mem_filter.mpr ⟨hfolder, rfl⟩, rfl⟩
  have hcandidate := mem_candidates hf hl hsub (h.folders entries hl)
  obtain ⟨d, hd⟩ := h.converts
  obtain ⟨-, -, names, hn, hpaths, hids⟩ := Converter.convert_ok hd
  obtain ⟨names', hn', hlisted⟩ := h.listed
  obtain rfl : names = names' := Except.ok.inj (hn.symm.trans hn')
  have hname := Converter.mem_offeredNames hlisted h.offers (h.names names hn)
  have hpath : pathOf sc folder name ∈ d.files.map (·.sourcePath) := by
    rw [hpaths]
    exact List.mem_map_of_mem hname
  obtain ⟨f, hfile, hsource⟩ := List.mem_map.mp hpath
  refine List.mem_flatMap.mpr ⟨d, Scanner.mem_converted.mpr ⟨_, hcandidate, hd⟩, List.mem_map.mpr ⟨f, hfile, ?_⟩⟩
  rw [hids f hfile, hsource]

/-- What is done after a scan spares the counter of a file that is offered. -/
theorem cycle_spares {scanned : Except ScanError (List Download)} (h : Offered sc files folder name)
    (hs : sc.Scans files scanned) (pages : Nat) :
    Spares (stableId (pathOf sc folder name)) (cycle pages scanned).run := by
  match scanned, hs with
  | .error .cancelled, _ => trivial
  | .error (.unreadable root), _ => trivial
  | .ok [], _ => trivial
  | .ok (download :: rest), hs =>
    obtain ⟨folders, hf, hperm⟩ := hs.found_converted
    have hm := (hperm.flatMap_right fun d => d.files.map (·.id)).mem_iff.mpr (h.mem_fileIds hf)
    show Spares _ (publishBatch pages (download :: rest)).run
    refine spares_action (spares_bind (publish_spares _ pages _) fun _ => trivial) fun _ => ?_
    refine spares_action ?_ fun _ => spares_bind (info_spares _) fun _ => trivial
    exact spares_bind (spares_bind (prune_spares hm pages) fun _ => trivial) fun _ => trivial

end Offers

/-! ### Courses -/

inductive Happening where
  /-- A cycle has scanned the files. -/
  | began (files : FileTree)
  /-- A step of the cycle, with the request that it sends. -/
  | stepped (events : List Event)
  | incremented (file : String) (result : Except Repository.Error Int)

namespace Happening

def removes (file : String) : Happening → Bool
  | stepped events => events.any (·.removes file)
  | began _ | incremented _ _ => false

/-- An increment that fails does not count. -/
def counts (file : String) : Happening → Bool
  | incremented other (.ok _) => file == other
  | _ => false

end Happening

def increments (file : String) (happenings : List Happening) : Int := happenings.countP (·.counts file)

theorem increments_append (file : String) (happenings : List Happening) (m : Happening) :
    increments file (happenings ++ [m]) = increments file happenings + if m.counts file then 1 else 0 :=
  countP_concat (Happening.counts file) happenings m

structure Course where
  shared : Shared Backend
  cycle : Program (Except Error (List Summary))

namespace Course

/-- A cycle begins when the one before it has ended. Requests may fail. -/
inductive Step (sc : Scanner) : Course → Happening → Course → Prop where
  | begin {c : Course} {files : FileTree} {result : Except Error (List Summary)} {pages : Nat}
      {scanned : Except ScanError (List Download)} : c.cycle = .done result → sc.Scans files scanned →
    KeyValueStore.extent c.shared.store < pages →
    Step sc c (.began files) { c with cycle := (Index.cycle pages scanned).run }
  | step {c : Course} {events : List Event} {p : Program (Except Error (List Summary))} {s : Shared Backend} :
    c.cycle.Step c.shared events p s → Step sc c (.stepped events) ⟨s, p⟩
  | increment {c : Course} {events : List Event} {result : Except Repository.Error Int} {s : Shared Backend}
      (file : String) : Runs (increment file).run c.shared events result s →
    Step sc c (.incremented file result) { c with shared := s }

inductive Steps (sc : Scanner) : Course → List Happening → Course → Prop where
  | refl (c : Course) : Steps sc c [] c
  | tail {c c' c'' : Course} {happenings : List Happening} {m : Happening} :
    Steps sc c happenings c' → Step sc c' m c'' → Steps sc c (happenings ++ [m]) c''

/-- The counter is what it was at first and its increments, and what is left of the cycle spares it. -/
structure Invariant (file : String) (n : Int) (happenings : List Happening) (c : Course) : Prop where
  spares : Spares file c.cycle
  unremoved : ∀ m ∈ happenings, m.removes file = false
  counter : counterAt c.shared.store file = some (n + increments file happenings)
  fillable : Fillable (c.shared.store.value? Key.counters)

section Invariance

variable {sc : Scanner} {folder name : String} {n : Int} {happenings : List Happening} {m : Happening} {c c' : Course}

theorem Invariant.step (h : Invariant (stableId (pathOf sc folder name)) n happenings c)
    (ho : ∀ files, m = .began files → Offered sc files folder name) (hs : Step sc c m c') :
    Invariant (stableId (pathOf sc folder name)) n (happenings ++ [m]) c' := by
  have hunremoved : m.removes (stableId (pathOf sc folder name)) = false →
      ∀ x ∈ happenings ++ [m], x.removes (stableId (pathOf sc folder name)) = false :=
    fun hm => List.forall_mem_append.mpr ⟨h.unremoved, List.forall_mem_singleton.mpr hm⟩
  cases hs with
  | begin hdone hscans hpages =>
    refine ⟨cycle_spares (ho _ rfl) hscans _, hunremoved rfl, ?_, h.fillable⟩
    rw [increments_append]
    simpa [Happening.counts] using h.counter
  | step hstep =>
    obtain ⟨hspares, hevents, htext, hfillable⟩ := h.spares.step hstep
    refine ⟨hspares, hunremoved (by simpa [Happening.removes] using hevents), ?_, hfillable h.fillable⟩
    rw [counterAt_congr htext, increments_append]
    simpa [Happening.counts] using h.counter
  | @increment events result s other hr =>
    obtain ⟨-, ⟨v, rfl, hi⟩ | ⟨⟨e, rfl⟩, hstore⟩⟩ := increment_runs hr
    · refine ⟨h.spares, hunremoved rfl, ?_, hi.fillable⟩
      rw [increments_append, hi.counts, h.counter]
      simp [Happening.counts, Int.add_assoc]
    · refine ⟨h.spares, hunremoved rfl, ?_, hstore ▸ h.fillable⟩
      rw [increments_append, hstore]
      simpa [Happening.counts] using h.counter

theorem invariant_of_steps {result : Except Error (List Summary)} (hdone : c.cycle = .done result)
    (hf : Fillable (c.shared.store.value? Key.counters))
    (hn : counterAt c.shared.store (stableId (pathOf sc folder name)) = some n) (h : Steps sc c happenings c')
    (ho : ∀ files, .began files ∈ happenings → Offered sc files folder name) :
    Invariant (stableId (pathOf sc folder name)) n happenings c' := by
  induction h with
  | refl =>
    refine ⟨?_, by simp, ?_, hf⟩
    · rw [hdone]
      trivial
    · rw [hn]
      simp [increments]
  | tail hsteps hs ih =>
    refine (ih fun files hm => ho files (List.mem_append_left _ hm)).step (fun files he => ?_) hs
    exact ho files (List.mem_append_right _ (List.mem_singleton.mpr he.symm))

theorem access_of_steps (h : Steps sc c happenings c') : c'.shared.store.access = c.shared.store.access := by
  induction h with
  | refl => rfl
  | tail _ hs ih =>
    refine Eq.trans ?_ ih
    cases hs with
    | begin => rfl
    | step hs => exact reaches_access (.single hs)
    | increment file hr => exact reaches_access hr

end Invariance
end Course

open Course

/-- At every point the counter of a file that all cycles offer is what it was at first and its increments; it is never
removed. An increment succeeds on a store that can be written to unless the sum is out of range. -/
theorem counter_retained {sc : Scanner} {folder name : String} {n : Int} {happenings : List Happening} {c c' : Course}
    {result : Except Error (List Summary)} (hdone : c.cycle = .done result)
    (hf : Fillable (c.shared.store.value? Key.counters))
    (hn : counterAt c.shared.store (stableId (pathOf sc folder name)) = some n) (h : Steps sc c happenings c')
    (ho : ∀ files, .began files ∈ happenings → Offered sc files folder name) :
    (∀ m ∈ happenings, m.removes (stableId (pathOf sc folder name)) = false) ∧
    counterAt c'.shared.store (stableId (pathOf sc folder name)) =
      some (n + increments (stableId (pathOf sc folder name)) happenings) ∧
    (c.shared.store.access = .writing →
      Decimal.InRange (n + increments (stableId (pathOf sc folder name)) happenings + 1) →
      ∃ s', (increment (stableId (pathOf sc folder name))).perform c'.shared =
        (.ok (n + increments (stableId (pathOf sc folder name)) happenings + 1), s')) := by
  have hi := invariant_of_steps hdone hf hn h ho
  refine ⟨hi.unremoved, hi.counter, fun ha hr => ?_⟩
  exact increment_perform ((access_of_steps h).trans ha) hi.fillable hi.counter hr

/-! ### Two folders -/

namespace Course

variable {sc : Scanner} {file : String}

theorem Steps.trans {c c' c'' : Course} {happenings later : List Happening} (h1 : Steps sc c happenings c')
    (h2 : Steps sc c' later c'') : Steps sc c (happenings ++ later) c'' := by
  induction h2 with
  | refl => rwa [List.append_nil]
  | tail _ hs ih =>
    rw [← List.append_assoc]
    exact .tail ih hs

theorem steps_of_reaches (sc : Scanner) {p q : Program (Except Error (List Summary))} {s s' : Shared Backend}
    {events : List Event} (h : Reaches p s events q s') : ∃ happenings, Steps sc ⟨s, p⟩ happenings ⟨s', q⟩ ∧
      ∀ m ∈ happenings, ∃ l, m = .stepped l ∧ ∀ e ∈ l, e ∈ events := by
  induction h with
  | refl => exact ⟨[], .refl _, by simp⟩
  | @step p p1 q s s1 s' events later hs _ ih =>
    obtain ⟨happenings, hsteps, hall⟩ := ih
    refine ⟨[.stepped events] ++ happenings, (Steps.tail (.refl _) (.step hs)).trans hsteps, ?_⟩
    refine List.forall_mem_cons.mpr ⟨⟨events, rfl, fun e he => List.mem_append_left _ he⟩, fun m hm => ?_⟩
    obtain ⟨l, rfl, hl⟩ := hall m hm
    exact ⟨l, rfl, fun e he => List.mem_append_right _ (hl e he)⟩

theorem increments_stepped {happenings : List Happening} (h : ∀ m ∈ happenings, ∃ l, m = .stepped l) :
    increments file happenings = 0 := by
  rw [increments, List.countP_eq_zero.mpr fun m hm => ?_]
  · rfl
  · obtain ⟨l, rfl⟩ := h m hm
    simp [Happening.counts]

end Course

/-- Nothing is stored, and no cycle runs. -/
def idle : Course := ⟨⟨.memory .empty, none⟩, .done (.error .noDownloads)⟩

/-- After the first increment nothing but the counters is stored, so that a publication finds nothing in its way. -/
theorem first_increment (file : String) : ∃ (events : List Event) (s : Shared Backend),
    Runs (increment file).run idle.shared events (.ok 1) s ∧
    s.store.access = .writing ∧ Fillable (s.store.value? Key.counters) ∧
    (∀ fields, s.store.value? Key.active ≠ some (.hash fields)) ∧
    ∀ key, Key.Scoped (Generation.standby s.store.pointer) key → s.store.value? key ≠ none →
      Key.Visible s.store key := by
  have hperform : ∃ s, (increment file).perform idle.shared = (.ok (0 + 1), s) :=
    increment_perform rfl trivial rfl (by decide)
  obtain ⟨s, hi⟩ := hperform
  obtain ⟨events, hr⟩ := runs_perform hi
  have hvalue : ∀ key, key ≠ Key.counters → s.store.value? key = none := fun key hk =>
    congrArg Store.Contents.value? ((reaches_countersOnly (increment_every file) hr).2 key hk)
  have hfillable : Fillable (s.store.value? Key.counters) := by
    obtain ⟨-, ⟨n, -, hn⟩ | ⟨⟨e, he⟩, -⟩⟩ := increment_runs hr
    · exact hn.fillable
    · cases he
  refine ⟨events, s, hr, access_perform hi, hfillable, fun fields h => ?_, fun key hk hne => ?_⟩
  · rw [hvalue _ Key.active_ne_counters] at h
    cases h
  · exact absurd (hvalue key fun h => Key.not_scoped_counters _ (h ▸ hk)) hne

/-- A file is fetched, and then the work folder is published; all requests succeed. -/
structure Fetched (file : String) (happenings : List Happening) (c : Course) : Prop where
  steps : Steps plain idle happenings c
  increments : increments file happenings = 1
  began : ∀ files, .began files ∈ happenings ↔ files = twoFolders
  succeeded : ∀ events, .stepped events ∈ happenings → ∀ e ∈ events, e.Succeeded
  ended : ∃ infos, c.cycle = .done (.ok infos)
  pruned : ∀ other, other ≠ stableId ⟨"/srv/share/b/b.txt"⟩ → counterText c.shared.store other = none

theorem fetched_twoFolders (file : String) : ∃ happenings c, Fetched file happenings c := by
  obtain ⟨events1, s1, hr1, haccess, hfillable, hpointer, hvisible⟩ := first_increment file
  obtain ⟨d, hd, hconverted⟩ := converted_host
  obtain ⟨batch, hscans, hbatch⟩ := plain.found_of_candidates candidates_host
  rw [hconverted] at hbatch
  obtain rfl := List.perm_singleton.mp hbatch
  obtain ⟨events, infos, s2, hr2, hsucceeded, hpruned⟩ := @publishBatch_succeeds
    (KeyValueStore.extent s1.store + 1) [d] s1 (by simp) haccess hpointer hfillable hvisible
    (Nat.lt_succ_self _)
  obtain ⟨happenings, hsteps, hall⟩ := steps_of_reaches plain hr2
  have hstart : Steps plain idle
      [.incremented file (.ok 1), .began twoFolders] ⟨s1, (publishBatch (KeyValueStore.extent s1.store + 1) [d]).run⟩ :=
    .tail (.tail (.refl _) (.increment file hr1)) (.begin rfl hscans (Nat.lt_succ_self _))
  have hstepped : ∀ m ∈ happenings, ∃ l, m = .stepped l := fun m hm => (hall m hm).imp fun l h => h.1
  refine ⟨_, _, {
    steps := hstart.trans hsteps
    increments := ?_
    began := fun files => ?_
    succeeded := fun l hl e he => ?_
    ended := ⟨infos, rfl⟩
    pruned := fun other hne => hpruned other ?_ }⟩
  · have hlater := @increments_stepped file happenings hstepped
    rw [increments] at hlater ⊢
    simpa [Happening.counts] using hlater
  · constructor
    · intro hm
      simp only [List.cons_append, List.nil_append, List.mem_cons, reduceCtorEq, Happening.began.injEq, false_or] at hm
      rcases hm with rfl | hm
      · rfl
      · obtain ⟨l, hl⟩ := hstepped _ hm
        cases hl
    · rintro rfl
      simp
  · simp only [List.cons_append, List.nil_append, List.mem_cons, reduceCtorEq, false_or] at hl
    obtain ⟨l', hl', hin⟩ := hall _ hl
    obtain rfl := Happening.stepped.inj hl'
    exact hsucceeded e (hin e he)
  · rw [fileIds_b hd, List.mem_singleton]
    exact hne

theorem offered_b : Offered plain twoFolders "b" "b.txt" where
  inRoot := ⟨_, list_share, by decide⟩
  listed := ⟨_, list_b, by decide⟩
  isFile := by
    refine ⟨0, ?_⟩
    rw [Converter.size?, FileTree.stat, show twoFolders.place (pathOf plain "b" "b.txt") = _ from
      place_host ["srv", "share", "b", "b.txt"] (by decide)]
    rfl
  notSkipped := by decide
  converts := convert_b
  folders entries hl := by
    obtain rfl := Except.ok.inj (list_share.symm.trans hl)
    decide
  names entries hl := by
    obtain rfl := Except.ok.inj (list_b.symm.trans hl)
    exact Nat.lt_of_le_of_lt List.countP_le_length (by decide)

theorem present_a : Present plain twoFolders "a" "a.txt" where
  inRoot := ⟨_, list_share, by decide⟩
  listed := ⟨_, list_a, by decide⟩
  isFile := by
    refine ⟨0, ?_⟩
    rw [Converter.size?, FileTree.stat, show twoFolders.place (pathOf plain "a" "a.txt") = _ from
      place_host ["srv", "share", "a", "a.txt"] (by decide)]
    rfl
  notSkipped := by decide

/-- The file is fetched once, before the cycle. -/
theorem counter_retained_fetched : ∃ happenings c,
    Steps plain idle happenings c ∧ .began twoFolders ∈ happenings ∧
      (∃ infos, c.cycle = .done (.ok infos)) ∧
      counterAt c.shared.store (stableId (pathOf plain "b" "b.txt")) = some 1 := by
  obtain ⟨happenings, c, h⟩ := fetched_twoFolders (stableId (pathOf plain "b" "b.txt"))
  refine ⟨happenings, c, h.steps, (h.began twoFolders).mpr rfl, h.ended, ?_⟩
  have hoffered : ∀ files, .began files ∈ happenings → Offered plain files "b" "b.txt" := by
    intro files hm
    rw [(h.began files).mp hm]
    exact offered_b
  obtain ⟨-, hcounter, -⟩ := counter_retained (c := idle) (n := 0) rfl trivial rfl h.steps hoffered
  rw [hcounter, h.increments]
  rfl

/-- The file is there in the only cycle, no request fails, and yet the counter is gone: the description of the folder
cannot be read. -/
theorem counter_lost : ∃ happenings c,
    Steps plain idle happenings c ∧
      (∀ files, .began files ∈ happenings → Present plain files "a" "a.txt") ∧
      (∀ events, .stepped events ∈ happenings → ∀ e ∈ events, e.Succeeded) ∧
      increments (stableId (pathOf plain "a" "a.txt")) happenings = 1 ∧
      counterAt c.shared.store (stableId (pathOf plain "a" "a.txt")) = some 0 := by
  obtain ⟨happenings, c, h⟩ := fetched_twoFolders (stableId (pathOf plain "a" "a.txt"))
  refine ⟨happenings, c, h.steps, fun files hm => ?_, h.succeeded, h.increments, counterAt_of_none (h.pruned _ ?_)⟩
  · rw [(h.began files).mp hm]
    exact present_a
  · have hfile : Involved twoFolders ⟨"/srv/share"⟩ (pathOf plain "a" "a.txt") :=
      ⟨_, candidates_host, .inr ⟨⟨"/srv/share/a"⟩, by decide, _, list_a, _, List.mem_cons_self, rfl⟩⟩
    have hother : Involved twoFolders ⟨"/srv/share"⟩ ⟨"/srv/share/b/b.txt"⟩ :=
      ⟨_, candidates_host, .inr ⟨⟨"/srv/share/b"⟩, by decide, _, list_b, _, List.mem_cons_self, by decide⟩⟩
    intro he
    exact absurd (distinctIds_host _ _ hfile hother he) (by decide)

end Index
end ShareIndex
