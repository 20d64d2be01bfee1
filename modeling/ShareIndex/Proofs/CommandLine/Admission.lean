import ShareIndex.CommandLine.Session
import ShareIndex.Proofs.Index.Cycle

/-!
# ShareIndex.Proofs.CommandLine.Admission

Which candidates the path check of the converter admits, for every way to write the path of the work folder.

* `relativeTo?_entry`  — below its folder, only its name remains of the path of an entry.
* `Converter.Refuses`  — a folder cannot be converted because of its path; `refuses_iff` says that only the path counts.
* `refuses_entry_iff`  — the path of an entry of the work folder is refused exactly if the path of the work folder has
  a `..` in it.
* `candidates_admitted` — so are the candidates, if the path of the work folder ends in a name.
* `candidates_refused`  — the settings accept paths for which there is no converter, or one that refuses candidates.
-/

namespace ShareIndex

namespace FilePath

theorem relativeTo?_entry (p : FilePath) {name : String} (h : FileName name) :
    (p.entry name).relativeTo? p = some [.normal name] := by
  rw [relativeTo?, components_entry p h, afterStart?_eq_some]

theorem parent_mem_entry (p : FilePath) {name : String} (h : FileName name) :
    .parent ∈ (p.entry name).components ↔ .parent ∈ p.components := by
  rw [components_entry p h]
  simp

end FilePath

namespace Folder.Converter

open FilePath (FileName)

variable {c : Converter} {tree : FileTree} {folder : FilePath}

/-- The folder cannot be converted because of its path. -/
def Refuses (c : Converter) (tree : FileTree) (folder : FilePath) : Prop :=
  ∃ path, c.convert tree folder = .error (.invalidPath path)

theorem error_of_bind {ε α β : Type} {x : Except ε α} {f : α → Except ε β} {e : ε} (h : x >>= f = .error e) :
    x = .error e ∨ ∃ a, x = .ok a ∧ f a = .error e := by
  cases x with
  | error e' =>
    obtain rfl : e' = e := Except.error.inj h
    exact .inl rfl
  | ok a => exact .inr ⟨a, rfl, h⟩

theorem files_error {relative : List Component} {e : Error} (h : c.files tree folder relative = .error e) :
    e = .unreadable := by
  rw [Converter.files] at h
  split at h
  · exact (Except.error.inj h).symm
  · cases h

theorem ownText_error {name : String} {e : Error} (h : ownText tree folder name = .error e) : e = .unreadable := by
  delta ownText at h
  split at h
  · cases h
  · cases h
  · exact (Except.error.inj h).symm

theorem description_error {e : Error} (h : Converter.description tree folder = .error e) :
    e = .unreadable ∨ e = .description := by
  rw [Converter.description] at h
  rcases error_of_bind h with h | ⟨text, -, h⟩
  · exact .inl (ownText_error h)
  · split at h
    · cases h
    · split at h
      · exact .inr (Except.error.inj h).symm
      · cases h

/-- What is in the folder does not matter for the path check, and no other check refuses a path. -/
theorem refuses_iff : c.Refuses tree folder ↔ ∃ e, c.below folder = .error e := by
  constructor
  · rintro ⟨path, h⟩
    rw [convert] at h
    rcases error_of_bind h with h | ⟨relative, -, h⟩
    · exact ⟨_, h⟩
    exfalso
    rcases error_of_bind h with h | ⟨files, -, h⟩
    · cases files_error h
    dsimp only at h
    split at h
    · cases h
    rcases error_of_bind h with h | ⟨d, -, h⟩
    · rcases description_error h with h | h <;> cases h
    rcases error_of_bind h with h | ⟨template, -, h⟩
    · cases ownText_error h
    split at h <;> cases h
  · rintro ⟨e, h⟩
    have hpath : e = .invalidPath folder := by
      rw [below] at h
      split at h
      · exact (Except.error.inj h).symm
      · split at h
        · exact (Except.error.inj h).symm
        · cases h
    subst hpath
    refine ⟨folder, ?_⟩
    rw [convert, h]
    rfl

/-- An entry of the work folder is below it, however the path of the work folder is written; but a `..` is never
admitted. -/
theorem refuses_entry_iff {name : String} (h : FileName name) :
    c.Refuses tree (c.workFolder.entry name) ↔ .parent ∈ c.workFolder.components := by
  rw [refuses_iff, below, FilePath.relativeTo?_entry _ h, ← FilePath.parent_mem_entry _ h, ← List.contains_iff_mem]
  split
  · rename_i hparent
    exact ⟨fun _ => hparent, fun _ => ⟨_, rfl⟩⟩
  · rename_i hparent
    exact ⟨fun ⟨_, he⟩ => (by cases he), fun hm => absurd hm hparent⟩

end Folder.Converter

namespace CommandLine

open Config (Settings)
open FilePath (FileName)
open Folder (Converter)
open Index (candidates isFolder maxCandidates sortPaths subfolders twoFolders)

theorem scannerOf_ok {s : Settings} {share : String} (h : s.workFolder.name? = some share) :
    ∃ scanner, scannerOf s = .ok scanner ∧ scanner.root = s.workFolder ∧ scanner.converter.workFolder = s.workFolder := by
  rw [scannerOf, Converter.make, h]
  exact ⟨_, rfl, rfl, rfl⟩

/-- If the path of the work folder ends in a name, there is a converter. It refuses the path of an entry of the work
folder exactly if that of the work folder has a `..` in it, and in a work folder that can be read, all candidates are
such entries. No other way to write the path matters, and nothing that happens to the files after the scan. -/
theorem candidates_admitted (s : Settings) {share : String} (hshare : s.workFolder.name? = some share) :
    ∃ scanner, scannerOf s = .ok scanner ∧
      (∀ name, FileName name → ∀ later,
        scanner.converter.Refuses later (s.workFolder.entry name) ↔ .parent ∈ s.workFolder.components) ∧
      ∀ files entries, files.list s.workFolder = .ok entries → (∀ e ∈ entries, FileName e.1) →
        ∃ folders, candidates files scanner.root = .ok folders ∧ ∀ folder ∈ folders, ∀ later,
          scanner.converter.Refuses later folder ↔ .parent ∈ s.workFolder.components := by
  obtain ⟨scanner, hscanner, hroot, hwork⟩ := scannerOf_ok hshare
  have hentry : ∀ name, FileName name → ∀ later,
      scanner.converter.Refuses later (s.workFolder.entry name) ↔ .parent ∈ s.workFolder.components := by
    intro name hname later
    rw [← hwork]
    exact Converter.refuses_entry_iff hname
  refine ⟨scanner, hscanner, hentry, fun files entries hl hnames => ?_⟩
  refine ⟨(sortPaths (subfolders s.workFolder entries)).take maxCandidates, ?_, fun folder hfolder later => ?_⟩
  · rw [hroot, candidates, hl]
    rfl
  · obtain ⟨e, he, rfl⟩ := List.mem_map.mp (List.mem_mergeSort.mp (List.mem_of_mem_take hfolder))
    exact hentry e.1 (hnames e (List.mem_filter.mp he).1) later

/-! ### Ways to write a path -/

/-- The default settings, for another work folder. -/
def sharing (path : String) : Settings := { Settings.default with workFolder := ⟨path⟩ }

/-- Different paths that lead to the same folder. -/
theorem list_sharing : ∀ path ∈ ["./share//", "/srv/./share//", "share/../share"],
    twoFolders.list (sharing path).workFolder = .ok [("a", .folder), ("b", .folder)] := by
  intro path hp
  have hplace : twoFolders.place ⟨path⟩ = .ok ["srv", "share"] := by
    refine FileTree.place_of_steps 6 ?_ ?_ ?_ <;> revert path <;> decide +kernel
  exact FileTree.list_eq_ok.mpr ⟨_, hplace, rfl, rfl, rfl⟩

theorem list_top : twoFolders.list Settings.default.workFolder = .ok [("share", .folder)] := by
  have hplace : twoFolders.place ⟨"."⟩ = .ok ["srv"] :=
    FileTree.place_of_steps 1 (by decide) (by decide) (by decide +kernel)
  exact FileTree.list_eq_ok.mpr ⟨_, hplace, rfl, rfl, rfl⟩

/-- The work folder at a path has candidates, and the converter refuses none of them. -/
def AdmitsAll (files : FileTree) (path : String) : Prop :=
  ∃ scanner folders, scannerOf (sharing path) = .ok scanner ∧ candidates files scanner.root = .ok folders ∧
    folders ≠ [] ∧ ∀ folder ∈ folders, ¬ scanner.converter.Refuses files folder

theorem candidates_ne_nil {files : FileTree} {root : FilePath} {folders : List FilePath}
    (hl : files.list root = .ok [("a", .folder), ("b", .folder)]) (h : candidates files root = .ok folders) :
    folders ≠ [] := by
  rw [candidates, hl] at h
  obtain rfl := Except.ok.inj h
  intro hnil
  have hlength := congrArg List.length hnil
  simp only [List.length_take, sortPaths, List.length_mergeSort, List.length_map] at hlength
  exact absurd hlength (by decide)

/-- Paths with a `.` and too many separators, from where the program runs and from the root. -/
theorem candidates_admitted_separators :
    (sharing "./share//").workFolder.name? = some "share" ∧ AdmitsAll twoFolders "./share//" ∧
      (sharing "/srv/./share//").workFolder.name? = some "share" ∧ AdmitsAll twoFolders "/srv/./share//" := by
  have hname : ∀ path ∈ ["./share//", "/srv/./share//"], (sharing path).workFolder.name? = some "share" := by decide
  have hparent : ∀ path ∈ ["./share//", "/srv/./share//"], .parent ∉ (sharing path).workFolder.components := by decide
  have hall : ∀ path ∈ ["./share//", "/srv/./share//"], AdmitsAll twoFolders path := by
    intro path hp
    have hl := list_sharing path (by revert path; decide)
    obtain ⟨scanner, hscanner, hentry, hfiles⟩ := candidates_admitted (sharing path) (hname path hp)
    obtain ⟨folders, hfolders, hrefuses⟩ := hfiles twoFolders _ hl (by decide)
    obtain ⟨scanner', hscanner', hroot, -⟩ := scannerOf_ok (hname path hp)
    obtain rfl : scanner = scanner' := Except.ok.inj (hscanner.symm.trans hscanner')
    refine ⟨scanner, folders, hscanner, hfolders, candidates_ne_nil hl (hroot ▸ hfolders), fun folder hf => ?_⟩
    rw [hrefuses folder hf twoFolders]
    exact hparent path hp
  exact ⟨hname _ (by simp), hall _ (by simp), hname _ (by simp), hall _ (by simp)⟩

/-- The default settings are accepted, but have no converter: the path of the work folder is a `.`. A path with a `..`
is accepted and has one, which refuses a candidate. -/
theorem candidates_refused :
    (Settings.default.validate = .ok Settings.default ∧
      (∃ entries, twoFolders.list Settings.default.workFolder = .ok entries) ∧
      scannerOf Settings.default = .error (.conversion (.invalidPath ⟨"."⟩))) ∧
    (sharing "share/../share").validate = .ok (sharing "share/../share") ∧
      ∃ scanner folders, scannerOf (sharing "share/../share") = .ok scanner ∧
        candidates twoFolders scanner.root = .ok folders ∧
        ∃ folder ∈ folders, scanner.converter.Refuses twoFolders folder := by
  refine ⟨⟨by decide, ⟨_, list_top⟩, by decide⟩, by decide, ?_⟩
  have hname : (sharing "share/../share").workFolder.name? = some "share" := by decide
  obtain ⟨scanner, hscanner, hroot, hwork⟩ := scannerOf_ok hname
  have hfolders : candidates twoFolders scanner.root =
      .ok ((sortPaths (subfolders scanner.root [("a", .folder), ("b", .folder)])).take maxCandidates) := by
    rw [hroot, candidates, list_sharing "share/../share" (by decide)]
    rfl
  refine ⟨scanner, _, hscanner, hfolders, scanner.root.entry "b", ?_, ?_⟩
  · have hlength : (sortPaths (subfolders scanner.root [("a", .folder), ("b", .folder)])).length ≤ maxCandidates := by
      rw [sortPaths, List.length_mergeSort]
      exact (by decide : 2 ≤ maxCandidates)
    rw [List.take_of_length_le hlength]
    exact List.mem_mergeSort.mpr (by simp [subfolders, isFolder])
  · rw [hroot, ← hwork, Converter.refuses_entry_iff (by decide), hwork]
    decide

end CommandLine
end ShareIndex
