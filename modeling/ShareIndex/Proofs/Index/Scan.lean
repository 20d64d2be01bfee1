import ShareIndex.Index.Scan
import ShareIndex.Proofs.Folder.Conversion
import ShareIndex.Proofs.Index.Pool

/-!
# ShareIndex.Proofs.Index.Scan

What a scan finds, in whatever order the workers take their steps and whenever it is cancelled.

* `candidates_sorted`, `candidates_precede` — the candidates stand in the order of their paths, which is that of their
  names.
* `mem_candidates` — a folder is a candidate unless there are too many before it.
* `converted`      — the downloads of the candidates that can be converted, in their order.
* `Scans`          — what a scan may come to; `scan_scans` says that this is what a scan comes to.
* `Scans.found`    — a scan that is not cancelled finds these downloads, in some order.
-/

namespace ShareIndex
namespace Index

open Share (Download stableId)

variable {files : FileTree} {root : FilePath} {entries : List (String × Entry)} {folders : List FilePath}

/-! ### Candidates -/

def subfolders (root : FilePath) (entries : List (String × Entry)) : List FilePath :=
  (entries.filter fun e => isFolder e.2).map fun e => root.entry e.1

theorem candidates_ok (h : candidates files root = .ok folders) :
    ∃ entries, files.list root = .ok entries ∧ folders = (sortPaths (subfolders root entries)).take maxCandidates := by
  rw [candidates] at h
  split at h
  · cases h
  · rename_i entries hl
    exact ⟨entries, hl, (Except.ok.inj h).symm⟩

theorem sortPaths_sorted (paths : List FilePath) : (sortPaths paths).Pairwise fun p q => p.atMost q = true := by
  have htrans : ∀ p q r : FilePath, p.atMost q = true → q.atMost r = true → p.atMost r = true :=
    fun _ _ _ => FilePath.atMost_trans
  exact List.pairwise_mergeSort htrans FilePath.atMost_total paths

theorem subfolders_nodup (hl : files.list root = .ok entries) : (subfolders root entries).Nodup := by
  have hnames : ((entries.filter fun e => isFolder e.2).map (·.1)).Nodup :=
    (FileTree.names_nodup hl).sublist (List.filter_sublist.map _)
  have hpaths := hnames.map fun a b => root.entry_injective
  rwa [List.map_map] at hpaths

theorem candidates_sorted (h : candidates files root = .ok folders) :
    folders.Pairwise fun p q => p.atMost q = true := by
  obtain ⟨entries, -, rfl⟩ := candidates_ok h
  exact (sortPaths_sorted _).sublist (List.take_sublist _ _)

theorem candidates_nodup (h : candidates files root = .ok folders) : folders.Nodup := by
  obtain ⟨entries, hl, rfl⟩ := candidates_ok h
  have hnodup := (List.mergeSort_perm (subfolders root entries) FilePath.atMost).nodup_iff.mpr (subfolders_nodup hl)
  exact hnodup.sublist (List.take_sublist _ _)

/-- The candidates stand in the order of their names, which are different. -/
theorem candidates_precede (h : candidates files root = .ok folders)
    (hnames : ∀ entries, files.list root = .ok entries → ∀ e ∈ entries, FilePath.FileName e.1) :
    folders.Pairwise fun p q => p.precedes q = true := by
  have hboth := (candidates_sorted h).and (candidates_nodup h)
  obtain ⟨entries, hl, rfl⟩ := candidates_ok h
  have hentry : ∀ p ∈ (sortPaths (subfolders root entries)).take maxCandidates,
      ∃ name, FilePath.FileName name ∧ p = root.entry name := by
    intro p hp
    obtain ⟨e, he, rfl⟩ := List.mem_map.mp (List.mem_mergeSort.mp (List.mem_of_mem_take hp))
    exact ⟨e.1, hnames entries hl e (List.mem_filter.mp he).1, rfl⟩
  refine List.Pairwise.imp_of_mem (fun {p q} hp hq hpq => ?_) hboth
  obtain ⟨a, ha, rfl⟩ := hentry p hp
  obtain ⟨b, hb, rfl⟩ := hentry q hq
  rcases FilePath.atMost_iff.mp hpq.1 with hlt | heq
  · exact hlt
  · rw [FilePath.components_entry root ha, FilePath.components_entry root hb] at heq
    have hname := Component.normal.inj (List.cons.inj (List.append_cancel_left heq)).1
    exact absurd (congrArg root.entry hname) hpq.2

theorem mem_candidates {path : FilePath} (h : candidates files root = .ok folders)
    (hl : files.list root = .ok entries) (hm : path ∈ subfolders root entries)
    (hn : (subfolders root entries).countP (fun p => decide (p ≠ path) && p.atMost path) < maxCandidates) :
    path ∈ folders := by
  obtain ⟨entries', hl', rfl⟩ := candidates_ok h
  obtain rfl : entries = entries' := Except.ok.inj (hl.symm.trans hl')
  refine mem_take_of_countP (sortPaths_sorted _) (List.mem_mergeSort.mpr hm) ?_
  rwa [sortPaths, (List.mergeSort_perm (subfolders root entries) _).countP_eq]

/-! ### Downloads -/

namespace Scanner

variable {sc : Scanner}

def converted (sc : Scanner) (files : FileTree) (folders : List FilePath) : List Download :=
  folders.filterMap fun folder => (sc.converter.convert files folder).toOption

theorem toOption_eq_some {ε α : Type} {x : Except ε α} {a : α} : x.toOption = some a ↔ x = .ok a := by
  cases x <;> simp [Except.toOption]

theorem mem_converted {d : Download} :
    d ∈ sc.converted files folders ↔ ∃ folder ∈ folders, sc.converter.convert files folder = .ok d := by
  simp only [converted, List.mem_filterMap, toOption_eq_some]

/-- The downloads stand in the order of their folders. -/
theorem converted_paths (sc : Scanner) (files : FileTree) (folders : List FilePath) :
    ((sc.converted files folders).map (·.sourcePath)).Sublist folders := by
  induction folders with
  | nil => exact .slnil
  | cons folder rest ih =>
    rw [converted, List.filterMap_cons]
    cases hc : sc.converter.convert files folder with
    | error e => exact ih.cons folder
    | ok d =>
      obtain ⟨-, rfl, -⟩ := Folder.Converter.convert_ok hc
      exact ih.cons_cons d.sourcePath

/-- What a scan may come to. It fails if it has been cancelled at any time before all workers have stopped. -/
inductive Scans (sc : Scanner) (files : FileTree) : Except ScanError (List Download) → Prop where
  | unreadable {e : ScanError} : candidates files sc.root = .error e → Scans sc files (.error e)
  | cancelled {folders : List FilePath} {early : Bool} {pool : Pool.State FilePath Download} :
    candidates files sc.root = .ok folders → Pool.Reachable (sc.work files) folders sc.workers early pool →
    Pool.Finished pool → pool.cancelled = true → Scans sc files (.error .cancelled)
  | found {folders : List FilePath} {early : Bool} {pool : Pool.State FilePath Download} :
    candidates files sc.root = .ok folders → Pool.Reachable (sc.work files) folders sc.workers early pool →
    Pool.Finished pool → pool.cancelled = false → Scans sc files (.ok pool.collected)

theorem cancels_work (sc : Scanner) (files : FileTree) (folder : FilePath) :
    (sc.work files folder).cancels = false := by
  rw [work]
  split <;> rfl

theorem scan_scans (sc : Scanner) (files : FileTree) (cancelled : Bool) : Scans sc files (sc.scan files cancelled) := by
  rw [scan]
  split
  · rename_i e he
    exact .unreadable he
  · rename_i folders hf
    have hwork := sc.cancels_work files
    generalize (cancelled || sc.pace.runsOut (max sc.workers 1) folders.length) = early
    have hreachable := Pool.reachable_run (sc.work files) folders sc.workers early
    have hfinished := Pool.finished_run (sc.work files) folders sc.workers early
    have hcancelled := Pool.cancelled_run hwork folders sc.workers early
    cases early with
    | true => exact .cancelled hf hreachable hfinished hcancelled
    | false => exact .found hf hreachable hfinished hcancelled

theorem resultOf_work (sc : Scanner) (files : FileTree) :
    Pool.resultOf (sc.work files) = fun folder => (sc.converter.convert files folder).toOption := by
  funext folder
  rw [Pool.resultOf, work]
  cases sc.converter.convert files folder <;> rfl

theorem Scans.found_converted {batch : List Download} (h : Scans sc files (.ok batch)) :
    ∃ folders, candidates files sc.root = .ok folders ∧ batch.Perm (sc.converted files folders) := by
  cases h with
  | found hf hr hfinished hcancelled =>
    refine ⟨_, hf, ?_⟩
    rw [converted, ← resultOf_work]
    exact Pool.collected_perm hr hfinished hcancelled

/-- A scan that has enough time finds the downloads. -/
theorem scan_of_candidates (hf : candidates files sc.root = .ok folders)
    (hp : sc.pace.runsOut (max sc.workers 1) folders.length = false) :
    ∃ batch, sc.scan files false = .ok batch ∧ batch.Perm (sc.converted files folders) := by
  have hscans := sc.scan_scans files false
  have hscan : sc.scan files false = .ok (Pool.parallelMap (sc.work files) folders sc.workers false) := by
    rw [scan, hf]
    simp [hp]
  rw [hscan] at hscans ⊢
  obtain ⟨folders', hf', hperm⟩ := hscans.found_converted
  obtain rfl : folders = folders' := Except.ok.inj (hf.symm.trans hf')
  exact ⟨_, rfl, hperm⟩

/-- A scan that nobody cancels finds something to go on with. -/
theorem found_of_candidates (sc : Scanner) (hf : candidates files sc.root = .ok folders) :
    ∃ batch, Scans sc files (.ok batch) ∧ batch.Perm (sc.converted files folders) := by
  have hwork := sc.cancels_work files
  have hscans := Scans.found hf (Pool.reachable_run (sc.work files) folders sc.workers false)
    (Pool.finished_run (sc.work files) folders sc.workers false) (Pool.cancelled_run hwork folders sc.workers false)
  obtain ⟨folders', hf', hperm⟩ := hscans.found_converted
  obtain rfl : folders = folders' := Except.ok.inj (hf.symm.trans hf')
  exact ⟨_, hscans, hperm⟩

end Scanner
end Index
end ShareIndex
