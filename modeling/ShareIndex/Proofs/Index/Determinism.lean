import ShareIndex.Index.Dump
import ShareIndex.Proofs.Index.Completeness
import ShareIndex.Proofs.Repository.Reorder

/-!
# ShareIndex.Proofs.Index.Determinism

What a cycle leaves behind does not depend on how many workers there are, or on the order in which they finish.

* `World.indexed`      — a call of an indexer, from the result of its scan on.
* `indexed_perm`       — the order of the downloads does not matter to it.
* `unshared_converted` — the downloads of a work folder share no id if different paths have different ids.
* `index_deterministic` — so the answer, the whole store and every dump are the same for all schedules.
-/

namespace ShareIndex
namespace Index

open Folder (Converter)
open Repository
open Share (Download Summary stableId)
open Store (Backend KeyValueStore)

/-! ### Calls -/

section Calls

variable {batch batch' : List Download} {s : Shared Backend}

theorem publishBatch_perm {pages : Nat} (hu : Unshared batch) (hp : batch.Perm batch')
    (hn : KeyValueStore.extent s.store < pages) :
    (publishBatch pages batch).run.run s = (publishBatch pages batch').run.run s := by
  have hpublish : (attempt .publish (publish pages batch)).run.run s =
      (attempt .publish (publish pages batch')).run.run s := by
    have hsame : (publish pages batch).run.run s = (publish pages batch').run.run s := publish_perform_perm hu hp hn
    show (Program.bind (publish pages batch).run _).run s = (Program.bind (publish pages batch').run _).run s
    rw [Program.run_bind, Program.run_bind, hsame]
  unfold publishBatch
  refine run_action_congr hpublish fun g s1 _ => ?_
  rw [prune_perm pages hp]

namespace World

variable {w : World Backend}

/-- What a call of an indexer comes to whose scan has come to this result. -/
def indexed (w : World Backend) (scanned : Except ScanError (List Download)) :
    Except Error (List Summary) × World Backend :=
  w.alone (.error .alreadyRunning) fun w => w.perform (cycle w.pages scanned)

theorem index_eq_indexed (sc : Scanner) (cancelled : Bool) (w : World Backend) :
    sc.index cancelled w = w.indexed (sc.scan w.files cancelled) := by
  obtain ⟨files, shared, slot⟩ := w
  unfold Scanner.index indexed alone
  dsimp only

theorem indexed_perm (hu : Unshared batch) (hp : batch.Perm batch') : w.indexed (.ok batch) = w.indexed (.ok batch') := by
  have hsame : ∀ w : World Backend, w.perform (cycle w.pages (.ok batch)) = w.perform (cycle w.pages (.ok batch')) := by
    intro w
    cases batch with
    | nil => rw [List.nil_perm.mp hp]
    | cons d rest =>
      cases batch' with
      | nil => cases List.perm_nil.mp hp
      | cons d' rest' =>
        have hrun : (cycle w.pages (.ok (d :: rest))).run.run w.shared =
            (cycle w.pages (.ok (d' :: rest'))).run.run w.shared :=
          publishBatch_perm hu hp (Nat.lt_succ_self (KeyValueStore.extent w.shared.store))
        unfold perform
        rw [hrun]
  unfold indexed
  rw [funext hsame]

end World
end Calls

/-! ### Ids -/

section Ids

variable {files : FileTree} {root : FilePath} {folders : List FilePath}

/-- Entries of different candidates have different paths. -/
theorem entry_ne_of_precedes (hnames : files.Proper) {p q : FilePath} (hpq : p.precedes q = true)
    {entries entries' : List (String × Entry)} (hp : files.list p = .ok entries) (hq : files.list q = .ok entries')
    {e e' : String × Entry} (he : e ∈ entries) (he' : e' ∈ entries') : p.entry e.1 ≠ q.entry e'.1 := by
  intro hsame
  have hcomponents := congrArg FilePath.components hsame
  rw [FilePath.components_entry p (hnames.fileName hp e he), FilePath.components_entry q (hnames.fileName hq e' he')]
    at hcomponents
  have hfolders : p.components = q.components := (List.append_inj' hcomponents rfl).1
  rw [FilePath.precedes, hfolders, FilePath.precedesList_irrefl] at hpq
  cases hpq

theorem unshared_converted {sc : Scanner} (hnames : files.Proper) (hid : DistinctIds files sc.root)
    (hf : candidates files sc.root = .ok folders) : Unshared (sc.converted files folders) := by
  have hprecede := candidates_precede hf fun entries hl => hnames.fileName hl
  constructor
  · intro d hd
    obtain ⟨folder, -, hc⟩ := Scanner.mem_converted.mp hd
    obtain ⟨hid, rfl, -⟩ := Converter.convert_ok hc
    exact hid
  · rw [Scanner.converted, List.pairwise_filterMap]
    refine List.Pairwise.imp_of_mem (fun {p q} hp hq hpq d hd d' hd' => ?_) hprecede
    have hd : sc.converter.convert files p = .ok d := Scanner.toOption_eq_some.mp hd
    have hd' : sc.converter.convert files q = .ok d' := Scanner.toOption_eq_some.mp hd'
    obtain ⟨hd1, -, -, -, -, hids⟩ := Converter.convert_ok hd
    obtain ⟨hd1', -, -, -, -, hids'⟩ := Converter.convert_ok hd'
    constructor
    · rw [hd1, hd1']
      intro hsame
      have hpath := hid p q ⟨folders, hf, .inl hp⟩ ⟨folders, hf, .inl hq⟩ hsame
      rw [hpath, FilePath.precedes, FilePath.precedesList_irrefl] at hpq
      cases hpq
    · intro file hfile file' hfile'
      obtain ⟨entries, hl, e, he, hpath⟩ := Converter.entry_of_mem_files hd hfile
      obtain ⟨entries', hl', e', he', hpath'⟩ := Converter.entry_of_mem_files hd' hfile'
      rw [hids file hfile, hids' file' hfile', hpath, hpath']
      intro hsame
      refine entry_ne_of_precedes hnames hpq hl hl' he he' (hid _ _ ?_ ?_ hsame)
      · exact ⟨folders, hf, .inr ⟨p, hp, entries, hl, e, he, rfl⟩⟩
      · exact ⟨folders, hf, .inr ⟨q, hq, entries', hl', e', he', rfl⟩⟩

end Ids

/-! ### Schedules -/

/-- Any two scans that nobody cancels lead to the same answer, the same world and the same dumps. -/
def Deterministic (work : FilePath → Pool.Work Download) (w : World Backend) (root : FilePath) : Prop :=
  ∀ workers workers' attempts attempts' scanned scanned',
    ScanRuns work w.files root workers attempts scanned → ScanRuns work w.files root workers' attempts' scanned' →
    scanned ≠ .error .cancelled → scanned' ≠ .error .cancelled →
    w.indexed scanned = w.indexed scanned' ∧
      ∀ cancelled room, dump cancelled room (w.indexed scanned).2 = dump cancelled room (w.indexed scanned').2

/-- A scan that nobody cancels fails only if the work folder cannot be read. -/
theorem ScanRuns.uncancelled {work : FilePath → Pool.Work Download} {files : FileTree} {root : FilePath} {workers : Nat}
    {attempts : List FilePath} {result : Except ScanError (List Download)}
    (h : ScanRuns work files root workers attempts result) (hc : result ≠ .error .cancelled) :
    (∃ e, candidates files root = .error e ∧ result = .error e) ∨
      ∃ folders batch, candidates files root = .ok folders ∧ result = .ok batch ∧
        batch.Perm (folders.filterMap (Pool.resultOf work)) := by
  cases h with
  | unreadable he => exact .inl ⟨_, he, rfl⟩
  | cancelled => exact absurd rfl hc
  | found hf ht hfinished hcancelled =>
    exact .inr ⟨_, _, hf, rfl, Pool.collected_perm ht.reaches hfinished hcancelled⟩

theorem deterministic_of_unshared {work : FilePath → Pool.Work Download} {w : World Backend} {root : FilePath}
    (hu : ∀ folders, candidates w.files root = .ok folders → Unshared (folders.filterMap (Pool.resultOf work))) :
    Deterministic work w root := by
  intro workers workers' attempts attempts' scanned scanned' h h' hc hc'
  have hsame : w.indexed scanned = w.indexed scanned' := by
    rcases h.uncancelled hc with ⟨e, he, rfl⟩ | ⟨folders, batch, hf, rfl, hp⟩
    · rcases h'.uncancelled hc' with ⟨e', he', rfl⟩ | ⟨folders', batch', hf', -, -⟩
      · rw [Except.error.inj (he.symm.trans he')]
      · cases he.symm.trans hf'
    · rcases h'.uncancelled hc' with ⟨e', he', -⟩ | ⟨folders', batch', hf', rfl, hp'⟩
      · cases hf.symm.trans he'
      · obtain rfl := Except.ok.inj (hf.symm.trans hf')
        exact World.indexed_perm ((hu folders hf).perm hp.symm) (hp.trans hp'.symm)
  exact ⟨hsame, fun cancelled room => by rw [hsame]⟩

/-- Whichever converter makes the downloads, an index does not depend on the schedule as long as no id is shared between
downloads. The converter of folders makes such downloads if different paths have different ids; its indexers then agree
however many workers they have. -/
theorem index_deterministic (w : World Backend) (root : FilePath) :
    (∀ work : FilePath → Pool.Work Download,
      (∀ folders, candidates w.files root = .ok folders → Unshared (folders.filterMap (Pool.resultOf work))) →
      Deterministic work w root) ∧
    ∀ sc : Scanner, sc.root = root → w.files.Proper → DistinctIds w.files root →
      Deterministic (sc.work w.files) w root ∧
      ∀ workers pace, sc.scan w.files false ≠ .error .cancelled →
        Scanner.scan { sc with workers, pace } w.files false ≠ .error .cancelled →
        sc.index false w = Scanner.index { sc with workers, pace } false w := by
  refine ⟨fun work hu => deterministic_of_unshared hu, ?_⟩
  rintro sc rfl hnames hid
  have hdeterministic : Deterministic (sc.work w.files) w sc.root := by
    refine deterministic_of_unshared fun folders hf => ?_
    rw [Scanner.resultOf_work]
    exact unshared_converted hnames hid hf
  refine ⟨hdeterministic, fun workers pace hc hc' => ?_⟩
  obtain ⟨attempts, h⟩ := (sc.scan_scans w.files false).runs
  obtain ⟨attempts', h'⟩ := (Scanner.scan_scans { sc with workers, pace } w.files false).runs
  rw [World.index_eq_indexed, World.index_eq_indexed]
  exact (hdeterministic _ _ _ _ _ _ h h' hc hc').1

/-! ### Two orders -/

/-- Work that makes a download of any folder, with one file. -/
def offering (folder : FilePath) : Pool.Work Download :=
  ⟨.result (.ofPath folder "" "" [.ofPath (folder.entry "f") "f" 0 ""]), false⟩

theorem unshared_offering : Unshared ([⟨"/srv/share/a"⟩, ⟨"/srv/share/b"⟩].filterMap (Pool.resultOf offering)) := by
  have hfolders : stableId ⟨"/srv/share/a"⟩ ≠ stableId ⟨"/srv/share/b"⟩ := by decide +kernel
  have hfiles : stableId (FilePath.entry ⟨"/srv/share/a"⟩ "f") ≠ stableId (FilePath.entry ⟨"/srv/share/b"⟩ "f") := by
    decide +kernel
  constructor
  · intro d hd
    obtain ⟨folder, -, he⟩ := List.mem_filterMap.mp hd
    obtain rfl := Option.some.inj he
    rfl
  · refine List.pairwise_pair.mpr ⟨hfolders, fun file hf file' hf' => ?_⟩
    obtain rfl := List.mem_singleton.mp hf
    obtain rfl := List.mem_singleton.mp hf'
    exact hfiles

def emptyWorld : World Backend := ⟨twoFolders, ⟨.memory .empty, none⟩, .free⟩

/-- A pool that has come to an end has scanned the folders. -/
theorem scanned {workers : Nat} {attempts : List FilePath} {steps : Nat} {pool : Pool.State FilePath Download}
    (h : Pool.Trace offering (Pool.start [⟨"/srv/share/a"⟩, ⟨"/srv/share/b"⟩] workers false) attempts steps pool)
    (hstopped : pool.workers = List.replicate workers .stopped) (hqueue : pool.queue = [])
    (hcancelled : pool.cancelled = false) :
    ScanRuns offering twoFolders ⟨"/srv/share"⟩ workers attempts (.ok pool.collected) :=
  .found candidates_host h ⟨fun _ hw => List.eq_of_mem_replicate (hstopped ▸ hw), hqueue⟩ hcancelled

/-- A single worker takes a folder, finishes it and sends the download, which is collected, and so the next folder. -/
theorem scanned_inOrder : ∃ attempts batch, ScanRuns offering twoFolders ⟨"/srv/share"⟩ 1 attempts (.ok batch) ∧
    batch.map (·.sourcePath) = [⟨"/srv/share/a"⟩, ⟨"/srv/share/b"⟩] := by
  let start : Pool.State FilePath Download := Pool.start [⟨"/srv/share/a"⟩, ⟨"/srv/share/b"⟩] 1 false
  have hstart : Pool.Trace offering start [] 0 start := .refl
  have hfirst := (((hstart.next (.worker 0) rfl).next (.worker 0) rfl).next (.worker 0) rfl).next .collector rfl
  have hsecond := (((hfirst.next (.worker 0) rfl).next (.worker 0) rfl).next (.worker 0) rfl).next .collector rfl
  exact ⟨_, _, scanned (hsecond.next (.worker 0) rfl) rfl rfl rfl, rfl⟩

/-- Two workers have both taken a folder before the second one finishes. -/
theorem scanned_reversed : ∃ attempts batch, ScanRuns offering twoFolders ⟨"/srv/share"⟩ 2 attempts (.ok batch) ∧
    batch.map (·.sourcePath) = [⟨"/srv/share/b"⟩, ⟨"/srv/share/a"⟩] := by
  let start : Pool.State FilePath Download := Pool.start [⟨"/srv/share/a"⟩, ⟨"/srv/share/b"⟩] 2 false
  have hstart : Pool.Trace offering start [] 0 start := .refl
  have htaken := (hstart.next (.worker 0) rfl).next (.worker 1) rfl
  have hsecond := ((htaken.next (.worker 1) rfl).next (.worker 1) rfl).next .collector rfl
  have hfirst := ((hsecond.next (.worker 0) rfl).next (.worker 0) rfl).next .collector rfl
  exact ⟨_, _, scanned ((hfirst.next (.worker 0) rfl).next (.worker 1) rfl) rfl rfl rfl, rfl⟩

/-- A single worker finishes the folders in their order, and two workers may finish them the other way round. -/
theorem index_deterministic_reversed : ∃ attempts attempts' batch batch',
    ScanRuns offering twoFolders ⟨"/srv/share"⟩ 1 attempts (.ok batch) ∧
    ScanRuns offering twoFolders ⟨"/srv/share"⟩ 2 attempts' (.ok batch') ∧ batch ≠ batch' ∧
    emptyWorld.indexed (.ok batch) = emptyWorld.indexed (.ok batch') ∧
    plain.index false emptyWorld = Scanner.index { plain with workers := 2, pace := ⟨0, none⟩ } false emptyWorld := by
  obtain ⟨attempts, batch, hfound, hpaths⟩ := scanned_inOrder
  obtain ⟨attempts', batch', hfound', hpaths'⟩ := scanned_reversed
  obtain ⟨hconverters, hfolders⟩ := index_deterministic emptyWorld ⟨"/srv/share"⟩
  have hunshared : ∀ folders, candidates twoFolders ⟨"/srv/share"⟩ = .ok folders →
      Unshared (folders.filterMap (Pool.resultOf offering)) := by
    intro folders hf
    obtain rfl := Except.ok.inj (candidates_host.symm.trans hf)
    exact unshared_offering
  obtain ⟨hsame, -⟩ := hconverters offering hunshared _ _ _ _ _ _ hfound hfound' (by simp) (by simp)
  have hscan : ∀ workers, Scanner.scan { plain with workers, pace := ⟨0, none⟩ } twoFolders false ≠
      .error .cancelled := by
    intro workers
    rw [Scanner.scan, show candidates twoFolders plain.root = _ from candidates_host]
    rintro ⟨⟩
  obtain ⟨-, hworkers⟩ := hfolders plain rfl (by unfold FileTree.Proper; decide) distinctIds_host
  have hindex := hworkers 2 ⟨0, none⟩ (hscan 1) (hscan 2)
  refine ⟨attempts, attempts', batch, batch', hfound, hfound', fun hbatch => ?_, hsame, hindex⟩
  have hpath := congrArg (List.map (·.sourcePath)) hbatch
  rw [hpaths, hpaths'] at hpath
  revert hpath
  decide

end Index
end ShareIndex
