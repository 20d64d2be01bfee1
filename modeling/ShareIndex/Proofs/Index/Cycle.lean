import ShareIndex.Index.Cycle
import ShareIndex.Proofs.FileTree
import ShareIndex.Proofs.Index.Scan
import ShareIndex.Proofs.Repository.Exact
import ShareIndex.Proofs.Repository.History
import ShareIndex.Proofs.Repository.Prune

/-!
# ShareIndex.Proofs.Index.Cycle

One cycle of an indexer, from the scan to the summaries, on a store that may fail at any request.

* `Indexes`        — what a cycle may come to; `index_indexes`: the calls of an indexer that is idle are cycles.
* `Untouched`      — what a cycle leaves behind that could not publish.
* `Published`      — what a cycle leaves behind that has published the downloads it has converted.
* `Reported`       — the summaries of these downloads.
* `cycle_outcome`  — which of them holds, by how the cycle has ended.
-/

namespace ShareIndex
namespace Index

open Folder (Converter)
open Repository
open Share (Download Summary stableId)
open Store (Backend Faulty KeyValueStore)

/-! ### Composition -/

section Composition

variable {S : Type} [KeyValueStore S] {α : Type} {s s' : Shared S} {events : List Event}

theorem runs_attempt {raise : Repository.Error → Error} {x : Repository.Action α} {result : Except Error α}
    (h : Runs (attempt raise x).run s events result s') :
    ∃ answer, Runs x.run s events answer s' ∧ result = answer.mapError raise := by
  have h : Runs (Program.bind x.run fun answer => .done (answer.mapError raise)) s events result s' := h
  obtain ⟨answer, s1, before, after, rfl, h1, h2⟩ := runs_bind h
  obtain ⟨rfl, rfl, rfl⟩ := runs_done h2
  exact ⟨answer, by rwa [List.append_nil], rfl⟩

theorem runs_ignoreFailure {x : Repository.Action α} {result : Except Error Unit}
    (h : Runs (ignoreFailure x).run s events result s') :
    result = .ok () ∧ ∃ answer, Runs x.run s events answer s' := by
  have h : Runs (Program.bind (Program.bind x.run fun _ => .done ()) fun u => .done (.ok u)) s events result s' := h
  obtain ⟨u, s1, before, after, rfl, h1, h2⟩ := runs_bind h
  obtain ⟨rfl, rfl, rfl⟩ := runs_done h2
  obtain ⟨answer, s2, before', after', rfl, h3, h4⟩ := runs_bind h1
  obtain ⟨rfl, -, rfl⟩ := runs_done h4
  exact ⟨rfl, answer, by simpa using h3⟩

/-- The publication fails, or it is followed by the prune, however that ends, and by the summaries. -/
theorem publishBatch_cases {pages : Nat} {batch : List Download} {result : Except Error (List Summary)}
    (h : Runs (publishBatch pages batch).run s events result s') :
    (∃ e, result = .error (.publish e) ∧ Runs (publish pages batch).run s events (.error e) s') ∨
      ∃ g s1 s2 published pruned told outcome answer, events = published ++ (pruned ++ told) ∧
        Runs (publish pages batch).run s published (.ok g) s1 ∧ Runs (prune pages batch).run s1 pruned outcome s2 ∧
        Runs info.run s2 told answer s' ∧ result = answer.mapError .info := by
  rcases runs_action h with ⟨e, rfl, h1⟩ | ⟨g, s1, published, later, rfl, h1, h⟩
  · obtain ⟨answer, hp, he⟩ := runs_attempt h1
    cases answer with
    | ok g => cases he
    | error e =>
      cases he
      exact .inl ⟨e, rfl, hp⟩
  obtain ⟨answer, hp, he⟩ := runs_attempt h1
  cases answer with
  | error e => cases he
  | ok g' =>
    rcases runs_action h with ⟨e, -, h2⟩ | ⟨u, s2, pruned, told, rfl, h2, h⟩
    · obtain ⟨hok, -⟩ := runs_ignoreFailure h2
      cases hok
    · obtain ⟨-, outcome, hprune⟩ := runs_ignoreFailure h2
      obtain ⟨answer, hinfo, rfl⟩ := runs_attempt h
      exact .inr ⟨g', s1, s2, published, pruned, told, outcome, answer, rfl, hp, hprune, hinfo, rfl⟩

end Composition

/-! ### Cycles -/

/-- A cycle scans a work folder and goes on with what it has found; the pages are as many as the store can have. -/
def Indexes (sc : Scanner) (files : FileTree) (s : Shared Backend) (events : List Event)
    (result : Except Error (List Summary)) (s' : Shared Backend) : Prop :=
  ∃ scanned pages, sc.Scans files scanned ∧ KeyValueStore.extent s.store < pages ∧
    Runs (cycle pages scanned).run s events result s'

/-- An indexer that is idle, on a store that refuses some operations. -/
def World.refusing (files : FileTree) (s : Shared Backend) (failing : List Store.Operation) (applyLimit : Option Nat) :
    World (Faulty Backend) := ⟨files, ⟨⟨s.store, failing, applyLimit⟩, s.holder⟩, .free⟩

/-- What is inside the wrapper that refuses operations. -/
def World.within (w : World (Faulty Backend)) : Shared Backend := ⟨w.shared.store.inner, w.shared.holder⟩

/-- The requests that a call of an indexer that is idle sends, with the answers to them. -/
def Scanner.events (sc : Scanner) (cancelled : Bool) (w : World (Faulty Backend)) : List Event :=
  (cycle w.pages (sc.scan w.files cancelled)).run.events w.shared

/-- A call of an indexer that is idle is a cycle. -/
theorem index_indexes (sc : Scanner) (cancelled : Bool) (w : World (Faulty Backend)) (hw : w.slot = .free) :
    Indexes sc w.files w.within (sc.events cancelled w) (sc.index cancelled w).1 (sc.index cancelled w).2.within ∧
      (sc.index cancelled w).2.slot = .free := by
  obtain ⟨files, shared, slot⟩ := w
  obtain rfl : slot = .free := hw
  have h := runs_faulty (cycle (World.pages ⟨files, shared, .taken⟩) (sc.scan files cancelled)).run shared.store
    shared.holder
  exact ⟨⟨_, _, sc.scan_scans files cancelled, Nat.lt_succ_self _, h⟩, rfl⟩

/-- The paths of the candidates, and those of what is in them. -/
def Involved (files : FileTree) (root path : FilePath) : Prop :=
  ∃ folders, candidates files root = .ok folders ∧
    (path ∈ folders ∨ ∃ folder ∈ folders, ∃ entries, files.list folder = .ok entries ∧
      ∃ e ∈ entries, path = folder.entry e.1)

/-- Different paths have different ids. -/
def DistinctIds (files : FileTree) (root : FilePath) : Prop :=
  ∀ p q, Involved files root p → Involved files root q → stableId p = stableId q → p = q

/-! ### Outcomes -/

/-- Nothing that is active has changed. -/
structure Untouched (s s' : Shared Backend) : Prop where
  holder : s'.holder = s.holder
  pointer : s'.store.contents Key.active = s.store.contents Key.active
  active : ∀ key, Key.Scoped (Generation.standby s.store.pointer).other key →
    s'.store.contents key = s.store.contents key
  counters : s'.store.contents Key.counters = s.store.contents Key.counters

/-- The former standby generation is active, and is exactly what the batch describes. Counters of files outside the
batch are gone, unless a request of the prune has failed. -/
structure Published (s s' : Shared Backend) (events : List Event) (batch : List Download) : Prop where
  holder : s'.holder = some (Generation.standby s.store.pointer)
  pointer : s'.store.pointer = some (Generation.standby s.store.pointer)
  holds : Holds s'.store (Generation.standby s.store.pointer) batch
  kept : ∀ file ∈ fileIds batch, counterText s'.store file = counterText s.store file
  others : ∀ file, counterText s'.store file = counterText s.store file ∨ counterText s'.store file = none
  pruned : (∀ file, file ∉ fileIds batch → counterText s'.store file = none) ∨
    ∃ r cause e, ⟨r, .error cause⟩ ∈ events ∧ PruneFails r cause e

def summaryOf (d : Download) : Summary := ⟨d.id, d.sourcePath, d.files.length⟩

/-- The summaries of the downloads, ordered by path. -/
structure Reported (downloads : List Download) (infos : List Summary) : Prop where
  perm : infos.Perm (downloads.map summaryOf)
  ordered : infos.Pairwise fun x y => x.sourcePath.atMost y.sourcePath = true

/-- What a cycle leaves behind, by how it has ended. -/
def Outcome (sc : Scanner) (files : FileTree) (s s' : Shared Backend) (events : List Event) :
    Except Error (List Summary) → Prop
  | .error (.scan _) | .error (.cancelled _) | .error .noDownloads => s' = s
  | .error (.publish _) => Untouched s s'
  | .error (.info e) => ∃ folders batch, candidates files sc.root = .ok folders ∧
      batch.Perm (sc.converted files folders) ∧ Published s s' events batch ∧
      ∃ key cause, ⟨.getAll key, .error cause⟩ ∈ events ∧ e = .store cause
  | .ok infos => ∃ folders batch, candidates files sc.root = .ok folders ∧
      batch.Perm (sc.converted files folders) ∧ Published s s' events batch ∧
      Reported (sc.converted files folders) infos ∧
      ((∀ entries, files.list sc.root = .ok entries → ∀ e ∈ entries, FilePath.FileName e.1) →
        infos = (sc.converted files folders).map summaryOf)
  | .error .alreadyRunning | .error (.dump _) => False

/-! ### Summaries -/

section Summaries

variable {batch : List Download} {infos : List Summary}

theorem lastWhere?_of_nodup {α β : Type} [DecidableEq β] {f : α → β} {l : List α} (hl : (l.map f).Nodup) {a : α}
    (ha : a ∈ l) : lastWhere? (fun x => f x = f a) l = some a := by
  cases h : lastWhere? (fun x => f x = f a) l with
  | none =>
    have := lastWhere?_eq_none.mp h a ha
    simp at this
  | some b =>
    obtain ⟨hb, hf⟩ := mem_of_lastWhere? h
    exact congrArg some (List.inj_on_of_nodup_map hl hb ha (of_decide_eq_true hf))

theorem filesOf_of_nodup (hids : (batch.map (·.id)).Nodup) {d : Download} (hd : d ∈ batch) :
    filesOf d.id batch = d.files := by
  have hothers : ∀ l : List Download, (∀ x ∈ l, x.id ≠ d.id) →
      (l.flatMap fun x => if x.id = d.id then x.files else []) = [] := by
    intro l hl
    rw [List.flatMap_eq_nil_iff]
    exact fun x hx => if_neg (hl x hx)
  obtain ⟨front, back, rfl⟩ := List.append_of_mem hd
  rw [List.map_append, List.map_cons, List.nodup_append] at hids
  obtain ⟨-, hback, hfront⟩ := hids
  have hf := hothers front fun x hx => hfront x.id (List.mem_map_of_mem hx) d.id List.mem_cons_self
  have hb := hothers back fun x hx he => (List.nodup_cons.mp hback).1 (he ▸ List.mem_map_of_mem hx)
  rw [filesOf, List.flatMap_append, List.flatMap_cons, hf, hb, if_pos rfl, List.nil_append, List.append_nil]

theorem reported_of_lists (hids : (batch.map (·.id)).Nodup) (hfiles : ∀ d ∈ batch, (d.files.map (·.id)).Nodup)
    (h : Lists batch infos) : Reported batch infos := by
  have hirrefl : ∀ x y : Summary, (x.sourcePath.precedes y.sourcePath = true ∨
      (x.sourcePath.components = y.sourcePath.components ∧ x.id < y.id)) → x ≠ y := by
    rintro x y hxy rfl
    rcases hxy with hlt | ⟨-, hlt⟩
    · rw [FilePath.precedes, FilePath.precedesList_irrefl] at hlt
      cases hlt
    · exact String.lt_irrefl _ hlt
  have hnodup : infos.Nodup := h.ordered.imp fun {x y} => hirrefl x y
  have hsummaries : (batch.map summaryOf).Nodup := by
    refine List.Nodup.of_map (·.id) ?_
    rwa [List.map_map]
  refine ⟨(List.perm_ext_iff_of_nodup hnodup hsummaries).mpr fun x => ?_, h.ordered.imp fun {x y} hxy => ?_⟩
  · rw [h.mem, List.mem_map]
    constructor
    · rintro ⟨d, hd, hpath, hcount⟩
      obtain ⟨hm, hid⟩ := mem_of_lastWhere? hd
      have hid : d.id = x.id := of_decide_eq_true hid
      refine ⟨d, hm, ?_⟩
      rw [← hid, filesOf_of_nodup hids hm, (hfiles d hm).dedup, List.length_map] at hcount
      rw [summaryOf, hid, ← hpath, ← hcount]
    · rintro ⟨d, hm, rfl⟩
      refine ⟨d, lastWhere?_of_nodup hids hm, rfl, ?_⟩
      rw [show (summaryOf d).id = d.id from rfl, filesOf_of_nodup hids hm, (hfiles d hm).dedup, List.length_map]
      rfl
  · exact FilePath.atMost_iff.mpr (hxy.imp_right (·.1))

/-- Summaries of downloads that stand in the order of their paths stand in the same order. -/
theorem Reported.eq_map (h : Reported batch infos)
    (hpaths : (batch.map (·.sourcePath)).Pairwise fun p q => p.precedes q = true) : infos = batch.map summaryOf := by
  have hne : ∀ p q : FilePath, p.precedes q = true → p.components ≠ q.components := by
    intro p q hpq he
    rw [FilePath.precedes, he, FilePath.precedesList_irrefl] at hpq
    cases hpq
  have hbatch : (batch.map summaryOf).Pairwise fun x y => x.sourcePath.precedes y.sourcePath = true := by
    rw [List.pairwise_map] at hpaths ⊢
    exact hpaths
  have hdistinct : infos.Pairwise fun x y => x.sourcePath.components ≠ y.sourcePath.components :=
    (hbatch.imp fun {x y} => hne _ _).perm h.perm.symm fun {x y} hxy => hxy.symm
  have hinfos : infos.Pairwise fun x y => x.sourcePath.precedes y.sourcePath = true :=
    (h.ordered.and hdistinct).imp fun {x y} hxy => (FilePath.atMost_iff.mp hxy.1).resolve_right hxy.2
  refine h.perm.eq_of_pairwise (fun x y _ _ hxy hyx => ?_) hinfos hbatch
  exact absurd rfl (hne _ _ (FilePath.precedesList_trans hxy hyx))

end Summaries

/-! ### Identities -/

section Identities

variable {sc : Scanner} {files : FileTree} {folders : List FilePath}

theorem ids_nodup (hid : DistinctIds files sc.root) (hf : candidates files sc.root = .ok folders) :
    ((sc.converted files folders).map (·.id)).Nodup := by
  have hpaths := (candidates_nodup hf).sublist (sc.converted_paths files folders)
  have hids : (sc.converted files folders).map (·.id) =
      ((sc.converted files folders).map (·.sourcePath)).map stableId := by
    rw [List.map_map]
    refine List.map_congr_left fun d hd => ?_
    obtain ⟨folder, -, hc⟩ := Scanner.mem_converted.mp hd
    obtain ⟨hid, rfl, -⟩ := Converter.convert_ok hc
    exact hid
  rw [hids]
  refine hpaths.map_on fun p hp q hq => hid p q ?_ ?_
  · exact ⟨folders, hf, .inl ((sc.converted_paths files folders).subset hp)⟩
  · exact ⟨folders, hf, .inl ((sc.converted_paths files folders).subset hq)⟩

theorem fileIds_nodup (hid : DistinctIds files sc.root) (hf : candidates files sc.root = .ok folders) :
    ∀ d ∈ sc.converted files folders, (d.files.map (·.id)).Nodup := by
  intro d hd
  obtain ⟨folder, hm, hc⟩ := Scanner.mem_converted.mp hd
  obtain ⟨-, -, entries, hl, hpaths, hids⟩ := Converter.convert_ok hc
  have hnames : (sc.converter.offeredNames files folder entries).Nodup := by
    have hsorted := (List.mergeSort_perm (entries.map (·.1)) fun a b => decide (¬ b < a)).nodup_iff.mpr
      (FileTree.names_nodup hl)
    exact hsorted.sublist ((List.take_sublist _ _).trans List.filter_sublist)
  have hinvolved : ∀ f ∈ d.files, Involved files sc.root f.sourcePath := by
    intro f hfile
    exact ⟨folders, hf, .inr ⟨folder, hm, Converter.entry_of_mem_files hc hfile⟩⟩
  have hnodup : (d.files.map (·.sourcePath)).Nodup := by
    rw [hpaths]
    exact hnames.map fun a b => folder.entry_injective
  refine (List.Nodup.of_map _ hnodup).map_on fun f hfile f' hfile' he => ?_
  rw [hids f hfile, hids f' hfile'] at he
  exact List.inj_on_of_nodup_map hnodup hfile hfile' (hid _ _ (hinvolved f hfile) (hinvolved f' hfile') he)

end Identities

/-! ### Phases -/

section Phases

variable {pages : Nat} {batch : List Download} {s s1 s2 : Shared Backend} {events published pruned : List Event}

theorem untouched_of_publish {e : Repository.Error} (h : Runs (publish pages batch).run s events (.error e) s1) :
    Untouched s s1 := by
  obtain ⟨hholder, hpointer⟩ := (publish_leaves h).2
  exact ⟨hholder, hpointer, fun key hk => publish_leaves_other h (Generation.other_ne _) hk, publish_leaves_counters h⟩

/-- The prune comes after the publication, and leaves alone what that has written. -/
theorem published_of_prune {g : Generation} {outcome : Except Repository.Error Nat}
    (hv : ∀ key, Key.Scoped (Generation.standby s.store.pointer) key → s.store.value? key ≠ none →
      Key.Visible s.store key)
    (hn : KeyValueStore.extent s.store < pages) (hp : Runs (publish pages batch).run s published (.ok g) s1)
    (hr : Runs (prune pages batch).run s1 pruned outcome s2) (hevents : ∀ e ∈ pruned, e ∈ events) :
    Published s s2 events batch := by
  obtain ⟨rfl, hholder, hpointer⟩ := (publish_leaves hp).2
  obtain ⟨hsame, hothers⟩ := reaches_countersOnly (prune_every pages batch) hr
  have hcounters := publish_leaves_counters hp
  have htext := counters_congr hcounters
  obtain ⟨hkept, hremoved, -⟩ := prune_runs hr
  have hholds : Holds s1.store (Generation.standby s.store.pointer) batch := by
    rcases publish_runs hp with ⟨e, he, -⟩ | ⟨g, s', hg, hs, rfl⟩
    · cases he
    · obtain rfl := Except.ok.inj hg
      have hstaged : Holds s'.store (Generation.standby s.store.pointer) batch := stage_holds hv hn hs
      exact hstaged
  refine {
    holder := hsame.trans hholder
    pointer := (Store.Backend.pointer_congr (hothers _ Key.active_ne_counters)).trans hpointer
    holds := hholds.congr fun key hk => ?_
    kept := fun file hm => (hkept file hm).trans (htext file)
    others := fun file => (hremoved file).imp_left fun h => h.trans (htext file)
    pruned := ?_ }
  · have hne : key ≠ Key.counters := fun h => Key.not_scoped_counters _ (h ▸ hk)
    exact congrArg Store.Contents.value? (hothers key hne)
  · cases outcome with
    | ok n =>
      refine .inl (prune_all ?_ hr)
      have hsize := s.store.fields_le_extent Key.counters
      rw [Store.Backend.value?, hcounters]
      exact Nat.lt_of_le_of_lt hsize hn
    | error e =>
      obtain ⟨served, r, cause, rfl, -, hcause⟩ := pruneAfter_strict.runs hr
      exact .inr ⟨r, cause, e, hevents _ (by simp), hcause⟩

end Phases

/-- On a store that can be written to, all steps after the scan succeed. -/
theorem publishBatch_phases {pages : Nat} {batch : List Download} {s : Shared Backend} (hne : batch ≠ [])
    (ha : s.store.access = .writing) (hp : ∀ fields, s.store.value? Key.active ≠ some (.hash fields))
    (hf : Store.Fillable (s.store.value? Key.counters))
    (hv : ∀ key, Key.Scoped (Generation.standby s.store.pointer) key → s.store.value? key ≠ none →
      Key.Visible s.store key)
    (hn : KeyValueStore.extent s.store < pages) :
    ∃ g s1 n s2 infos, (publish pages batch).perform s = (.ok g, s1) ∧ (prune pages batch).perform s1 = (.ok n, s2) ∧
      info.perform s2 = (.ok infos, s2) ∧ Published s s2 [] batch ∧ Store.Fillable (s2.store.value? Key.counters) ∧
      ∀ file, file ∉ fileIds batch → counterText s2.store file = none := by
  obtain ⟨g, s1, h1⟩ := @publish_succeeds pages batch s ha hp hv hn
  obtain ⟨published, hr1⟩ := runs_perform h1
  have ha1 : s1.store.access = .writing := (access_perform h1).trans ha
  have hcounters := publish_leaves_counters hr1
  have hf1 : Store.Fillable (s1.store.value? Key.counters) := by
    rw [Store.Backend.value?, hcounters]
    exact hf
  obtain ⟨n, s2, h2⟩ := @pruneAfter_succeeds (fileIds batch) pages none s1 ha1 hf1
  obtain ⟨pruned, hr2⟩ := runs_perform h2
  have hr2 : Runs (prune pages batch).run s1 pruned (.ok n) s2 := hr2
  have hall : ∀ file, file ∉ fileIds batch → counterText s2.store file = none := by
    refine prune_all ?_ hr2
    rw [Store.Backend.value?, hcounters]
    exact Nat.lt_of_le_of_lt (s.store.fields_le_extent Key.counters) hn
  have hpublished := published_of_prune hv hn hr1 hr2 fun _ he => he
  have ha2 : s2.store.access ≠ .closed := by
    rw [access_perform h2, ha1]
    decide
  obtain ⟨result, h3, hlists⟩ := info_holds hpublished.holder ha2 hpublished.holds
  cases result with
  | error e => exact absurd hlists.2 hne
  | ok infos =>
    exact ⟨g, s1, n, s2, infos, h1, h2, h3, { hpublished with pruned := .inl hall }, (prune_runs hr2).2.2 hf1, hall⟩

/-- All requests of these steps succeed, too. -/
theorem publishBatch_succeeds {pages : Nat} {batch : List Download} {s : Shared Backend} (hne : batch ≠ [])
    (ha : s.store.access = .writing) (hp : ∀ fields, s.store.value? Key.active ≠ some (.hash fields))
    (hf : Store.Fillable (s.store.value? Key.counters))
    (hv : ∀ key, Key.Scoped (Generation.standby s.store.pointer) key → s.store.value? key ≠ none →
      Key.Visible s.store key)
    (hn : KeyValueStore.extent s.store < pages) :
    ∃ events infos s', Runs (publishBatch pages batch).run s events (.ok infos) s' ∧ (∀ e ∈ events, e.Succeeded) ∧
      ∀ file, file ∉ fileIds batch → counterText s'.store file = none := by
  obtain ⟨g, s1, n, s2, infos, h1, h2, h3, -, -, hall⟩ := publishBatch_phases hne ha hp hf hv hn
  obtain ⟨published, hr1⟩ := runs_perform h1
  obtain ⟨pruned, hr2⟩ := runs_perform h2
  obtain ⟨told, hr3⟩ := runs_perform h3
  have hpublish : Runs (attempt .publish (publish pages batch)).run s published (.ok g) s1 := hr1.bind _
  have hprune : Runs (ignoreFailure (prune pages batch)).run s1 pruned (.ok ()) s2 := (hr2.bind _).bind _
  have hinfo : Runs (attempt .info info).run s2 told (.ok infos) s2 := hr3.bind _
  refine ⟨published ++ (pruned ++ told), infos, s2, (hpublish.bind _).trans ((hprune.bind _).trans hinfo), ?_, hall⟩
  refine List.forall_mem_append.mpr ⟨publish_all_succeeded hr1, List.forall_mem_append.mpr ⟨?_, ?_⟩⟩
  · exact pruneAfter_strict.runs hr2
  · obtain ⟨-, ⟨-, htold⟩ | ⟨key, cause, -, he⟩⟩ := info_gathers hr3
    · exact htold
    · cases he

theorem outcome_of_indexes {sc : Scanner} {files : FileTree} {s s' : Shared Backend} {events : List Event}
    {result : Except Error (List Summary)}
    (hv : ∀ key, Key.Scoped (Generation.standby s.store.pointer) key → s.store.value? key ≠ none →
      Key.Visible s.store key)
    (hid : DistinctIds files sc.root) (h : Indexes sc files s events result s') :
    Outcome sc files s s' events result := by
  obtain ⟨scanned, pages, hscans, hn, h⟩ := h
  match scanned, h with
  | .error .cancelled, h =>
    obtain ⟨-, rfl, rfl⟩ := runs_done h
    rfl
  | .error (.unreadable root), h =>
    obtain ⟨-, rfl, rfl⟩ := runs_done h
    rfl
  | .ok [], h =>
    obtain ⟨-, rfl, rfl⟩ := runs_done h
    rfl
  | .ok (download :: rest), h =>
    obtain ⟨folders, hf, hperm⟩ := hscans.found_converted
    have h : Runs (publishBatch pages (download :: rest)).run s events result s' := h
    have hne : download :: rest ≠ [] := List.cons_ne_nil _ _
    generalize download :: rest = batch at hperm h hne
    rcases publishBatch_cases h with ⟨e, rfl, hp⟩ |
      ⟨g, s1, s2, published, pruned, told, outcome, answer, rfl, hp, hr, hi, rfl⟩
    · exact untouched_of_publish hp
    have hpublished : Published s s2 (published ++ (pruned ++ told)) batch :=
      published_of_prune hv hn hp hr fun e he => by simp [he]
    have haccess : s2.store.access ≠ .closed := by
      rw [reaches_access hr]
      exact publish_opened hp
    obtain ⟨infos, hinfo, hlists⟩ := info_holds hpublished.holder haccess hpublished.holds
    obtain ⟨rfl, hanswer⟩ := info_gathers hi
    rcases hanswer with ⟨hsame, -⟩ | ⟨key, cause, hm, rfl⟩
    · obtain rfl : infos = answer := congrArg (·.1) (hinfo.symm.trans hsame)
      cases infos with
      | error e => exact absurd hlists.2 hne
      | ok infos =>
        have hids := (hperm.map (·.id)).nodup_iff.mpr (ids_nodup hid hf)
        have hlisted := reported_of_lists hids (fun d hd => fileIds_nodup hid hf d (hperm.mem_iff.mp hd)) hlists.2
        have hreported : Reported (sc.converted files folders) infos :=
          ⟨hlisted.perm.trans (hperm.map summaryOf), hlisted.ordered⟩
        refine ⟨folders, batch, hf, hperm, hpublished, hreported, fun hnames => hreported.eq_map ?_⟩
        exact (candidates_precede hf hnames).sublist (sc.converted_paths files folders)
    · exact ⟨folders, batch, hf, hperm, hpublished, key, cause, by simp [hm], rfl⟩

/-- If all keys of the standby generation can be found by scans, and different paths have different ids: every cycle has
one of these outcomes, and so has every call of an indexer that is idle, whichever operations the store refuses. -/
theorem cycle_outcome {sc : Scanner} {files : FileTree} {s : Shared Backend}
    (hv : ∀ key, Key.Scoped (Generation.standby s.store.pointer) key → s.store.value? key ≠ none →
      Key.Visible s.store key)
    (hid : DistinctIds files sc.root) :
    (∀ events result s', Indexes sc files s events result s' → Outcome sc files s s' events result) ∧
    ∀ cancelled failing applyLimit, Outcome sc files s
      (sc.index cancelled (.refusing files s failing applyLimit)).2.within
      (sc.events cancelled (.refusing files s failing applyLimit))
      (sc.index cancelled (.refusing files s failing applyLimit)).1 :=
  ⟨fun _ _ _ => outcome_of_indexes hv hid, fun cancelled failing applyLimit =>
    outcome_of_indexes hv hid (index_indexes sc cancelled (.refusing files s failing applyLimit) rfl).1⟩

/-! ### Two folders -/

/-- A work folder with two folders, the first of which cannot be converted: its description is itself a folder.
Elsewhere there are a database and a file with settings. -/
def host (db settings : Entry) : FileTree where
  nodes := [(["srv"], .folder), (["srv", "share"], .folder), (["srv", "share", "a"], .folder),
    (["srv", "share", "a", "a.txt"], .file []), (["srv", "share", "a", "description.md"], .folder),
    (["srv", "share", "b"], .folder), (["srv", "share", "b", "b.txt"], .file []),
    (["srv", "share", "b", "template.html"], .file []),
    (["var"], .folder), (["var", "lib"], .folder), (["var", "lib", "s.db"], db),
    (["etc"], .folder), (["etc", "fetchtrack.json"], settings)]
  nodup := by
    show [["srv"], ["srv", "share"], ["srv", "share", "a"], ["srv", "share", "a", "a.txt"],
      ["srv", "share", "a", "description.md"], ["srv", "share", "b"], ["srv", "share", "b", "b.txt"],
      ["srv", "share", "b", "template.html"], ["var"], ["var", "lib"], ["var", "lib", "s.db"], ["etc"],
      ["etc", "fetchtrack.json"]].Nodup
    decide
  here := ["srv"]

abbrev twoFolders : FileTree := host (.file []) (.file [])

def plain : Scanner := ⟨⟨"/srv/share"⟩, 1, ⟨⟨"/srv/share"⟩, "share", Folder.ownNames, ""⟩, ⟨0, none⟩⟩

section Host

variable {db settings : Entry}

/-- The paths from the root lead to their places. -/
theorem place_host : ∀ place ∈ [["srv", "share"], ["srv", "share", "a"], ["srv", "share", "b"],
    ["srv", "share", "a", "a.txt"], ["srv", "share", "a", "description.md"], ["srv", "share", "b", "b.txt"],
    ["srv", "share", "b", "template.html"]], (host db settings).place (.ofPlace place) = .ok place := by
  intro place hm
  simp only [List.mem_cons, List.not_mem_nil, or_false] at hm
  rcases hm with rfl | rfl | rfl | rfl | rfl | rfl | rfl <;>
    exact FileTree.place_of_steps 5 (by decide) (by decide) rfl

theorem list_share : (host db settings).list ⟨"/srv/share"⟩ = .ok [("a", .folder), ("b", .folder)] :=
  FileTree.list_eq_ok.mpr ⟨_, place_host ["srv", "share"] (by decide), rfl, rfl, rfl⟩

theorem candidates_host :
    candidates (host db settings) ⟨"/srv/share"⟩ = .ok [⟨"/srv/share/a"⟩, ⟨"/srv/share/b"⟩] := by
  have hsorted : sortPaths [⟨"/srv/share/a"⟩, ⟨"/srv/share/b"⟩] = [⟨"/srv/share/a"⟩, ⟨"/srv/share/b"⟩] :=
    List.mergeSort_of_pairwise (by decide)
  rw [candidates, list_share]
  exact congrArg (fun l => Except.ok (l.take maxCandidates)) hsorted

theorem list_a :
    (host db settings).list ⟨"/srv/share/a"⟩ = .ok [("a.txt", .file []), ("description.md", .folder)] :=
  FileTree.list_eq_ok.mpr ⟨_, place_host ["srv", "share", "a"] (by decide), rfl, rfl, rfl⟩

theorem list_b :
    (host db settings).list ⟨"/srv/share/b"⟩ = .ok [("b.txt", .file []), ("template.html", .file [])] :=
  FileTree.list_eq_ok.mpr ⟨_, place_host ["srv", "share", "b"] (by decide), rfl, rfl, rfl⟩

theorem offeredNames_b : plain.converter.offeredNames (host db settings) ⟨"/srv/share/b"⟩
    [("b.txt", .file []), ("template.html", .file [])] = ["b.txt"] := by
  have hsort : Converter.sortNames ["b.txt", "template.html"] = ["b.txt", "template.html"] :=
    List.mergeSort_of_pairwise (by decide)
  have hfile : plain.converter.offers (host db settings) ⟨"/srv/share/b"⟩ "b.txt" = true := by
    have hplace : (host db settings).place (FilePath.entry ⟨"/srv/share/b"⟩ "b.txt") =
        .ok ["srv", "share", "b", "b.txt"] := place_host ["srv", "share", "b", "b.txt"] (by decide)
    rw [Converter.offers, Converter.size?, FileTree.stat, hplace]
    rfl
  have htemplate : plain.converter.offers (host db settings) ⟨"/srv/share/b"⟩ "template.html" = false := by
    rw [Converter.offers, show plain.converter.skipped.contains "template.html" = true by decide]
    rfl
  simp [Converter.offeredNames, hsort, hfile, htemplate, Folder.maxFiles]

theorem convert_b : ∃ d, plain.converter.convert (host db settings) ⟨"/srv/share/b"⟩ = .ok d := by
  have hfree : (host db settings).place (FilePath.entry ⟨"/srv/share/b"⟩ Folder.descriptionName) = .error .notFound :=
    FileTree.place_of_free 5 ["srv", "share", "b", "description.md"] (by decide) (by decide) rfl
  have htemplate : Converter.ownText (host db settings) ⟨"/srv/share/b"⟩ Folder.templateName = .ok (some "") :=
    Converter.ownText_of_file (place_host ["srv", "share", "b", "template.html"] (by decide)) rfl rfl (by decide)
  refine @Converter.convert_succeeds plain.converter (host db settings) ⟨"/srv/share/b"⟩ [.normal "b"] _ .empty
    (some "") (by decide) list_b ?_ ?_ htemplate ?_
  · rw [offeredNames_b]
    simp
  · rw [Converter.description, Converter.ownText_of_absent hfree]
    rfl
  · exact fun p => rfl

theorem fileIds_b {d : Download} (h : plain.converter.convert (host db settings) ⟨"/srv/share/b"⟩ = .ok d) :
    fileIds [d] = [stableId ⟨"/srv/share/b/b.txt"⟩] := by
  obtain ⟨-, -, entries, hl, hpaths, hids⟩ := Converter.convert_ok h
  obtain rfl := Except.ok.inj (list_b.symm.trans hl)
  rw [offeredNames_b] at hpaths
  have hfiles : d.files.map (·.id) = (d.files.map (·.sourcePath)).map stableId := by
    rw [List.map_map]
    exact List.map_congr_left hids
  rw [fileIds, List.flatMap_singleton, hfiles, hpaths]
  rfl

theorem convert_a (d : Download) : plain.converter.convert (host db settings) ⟨"/srv/share/a"⟩ ≠ .ok d := by
  have hplace : (host db settings).place (FilePath.entry ⟨"/srv/share/a"⟩ Folder.descriptionName) =
      .ok ["srv", "share", "a", "description.md"] :=
    place_host ["srv", "share", "a", "description.md"] (by decide)
  refine Converter.convert_unreadable ?_
  delta Converter.ownText
  rw [FileTree.readText, FileTree.read, hplace]
  rfl

theorem converted_host : ∃ d, plain.converter.convert (host db settings) ⟨"/srv/share/b"⟩ = .ok d ∧
    plain.converted (host db settings) [⟨"/srv/share/a"⟩, ⟨"/srv/share/b"⟩] = [d] := by
  obtain ⟨d, hd⟩ := convert_b
  refine ⟨d, hd, ?_⟩
  cases ha : plain.converter.convert (host db settings) ⟨"/srv/share/a"⟩ with
  | ok d' => exact absurd ha (convert_a d')
  | error e => simp [Scanner.converted, ha, hd, Except.toOption]

theorem involved_host {path : FilePath} (h : Involved (host db settings) ⟨"/srv/share"⟩ path) :
    path.text ∈ ["/srv/share/a", "/srv/share/a/a.txt", "/srv/share/a/description.md", "/srv/share/b",
      "/srv/share/b/b.txt", "/srv/share/b/template.html"] := by
  obtain ⟨folders, hf, hpath⟩ := h
  obtain rfl := Except.ok.inj (candidates_host.symm.trans hf)
  rcases hpath with hm | ⟨folder, hm, entries, hl, e, he, rfl⟩
  · revert path
    decide
  · simp only [List.mem_cons, List.not_mem_nil, or_false] at hm
    rcases hm with rfl | rfl
    · obtain rfl := Except.ok.inj (list_a.symm.trans hl)
      revert e
      decide
    · obtain rfl := Except.ok.inj (list_b.symm.trans hl)
      revert e
      decide

theorem distinctIds_host : DistinctIds (host db settings) ⟨"/srv/share"⟩ := by
  have hids : (["/srv/share/a", "/srv/share/a/a.txt", "/srv/share/a/description.md", "/srv/share/b",
      "/srv/share/b/b.txt", "/srv/share/b/template.html"].map fun text => stableId ⟨text⟩).Nodup := by decide +kernel
  intro p q hp hq he
  have htext := List.inj_on_of_nodup_map hids (involved_host hp) (involved_host hq) he
  exact congrArg FilePath.mk htext

end Host

theorem keys_stocked : stocked.store.keys = ["av", "dfm:A:d", "dfm:B:x", "dm:A", "dm:B", "fm:A", "fs", "pc:A"] := by
  decide

theorem visible_stocked {key : String} (hne : stocked.store.value? key ≠ none) : Key.Visible stocked.store key := by
  have hmem := Backend.mem_keys.mpr hne
  rw [keys_stocked] at hmem
  have hall : ∀ key ∈ ["av", "dfm:A:d", "dfm:B:x", "dm:A", "dm:B", "fm:A", "fs", "pc:A"],
      Key.Visible stocked.store key := by decide
  exact hall key hmem

/-- Another batch is active at first. The cycle replaces it, and leaves it alone if the new one cannot be written. -/
theorem cycle_outcome_twoFolders :
    (∃ events infos s', Indexes plain twoFolders stocked events (.ok infos) s' ∧ s'.holder = some .b ∧
      infos.map (·.sourcePath) = [⟨"/srv/share/b"⟩]) ∧
    (plain.index false (.refusing twoFolders stocked [.apply] none)).1 =
      .error (.publish (.write .b (.injected .apply))) ∧
    Untouched stocked (plain.index false (.refusing twoFolders stocked [.apply] none)).2.within := by
  obtain ⟨d, hd, hconverted⟩ := converted_host
  obtain ⟨hcycle, hcall⟩ := @cycle_outcome plain twoFolders stocked (fun key _ => visible_stocked) distinctIds_host
  obtain ⟨batch, hscan, hbatch⟩ := plain.scan_of_candidates candidates_host rfl
  rw [hconverted] at hbatch
  obtain rfl := List.perm_singleton.mp hbatch
  constructor
  · obtain ⟨events, infos, s', hruns, -⟩ := @publishBatch_succeeds 20 [d] stocked (by simp) rfl
      (fun fields h => nomatch h) trivial (fun key _ => visible_stocked) (by decide)
    have hindexes : Indexes plain twoFolders stocked events (.ok infos) s' :=
      ⟨.ok [d], 20, hscan ▸ plain.scan_scans twoFolders false, by decide, hruns⟩
    obtain ⟨folders, batch, hf, -, hpublished, -, hinfos⟩ := hcycle _ _ _ hindexes
    obtain rfl := Except.ok.inj (candidates_host.symm.trans hf)
    refine ⟨events, infos, s', hindexes, hpublished.holder, ?_⟩
    obtain ⟨-, hpath, -⟩ := Converter.convert_ok hd
    rw [hinfos fun entries hl => ?_, hconverted]
    · exact congrArg (fun path => [path]) hpath
    · obtain rfl := Except.ok.inj (list_share.symm.trans hl)
      decide
  · have hfailed : (plain.index false (.refusing twoFolders stocked [.apply] none)).1 =
        .error (.publish (.write .b (.injected .apply))) := by
      show ((cycle _ (plain.scan twoFolders false)).run.run
        (⟨⟨stocked.store, [.apply], none⟩, stocked.holder⟩ : Shared (Faulty Backend))).1 = _
      rw [hscan]
      rfl
    have huntouched := hcall false [.apply] none
    rw [hfailed] at huntouched
    exact ⟨hfailed, huntouched⟩

end Index
end ShareIndex
