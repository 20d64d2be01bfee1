import ShareIndex.Proofs.FileTree.Alike

/-!
# ShareIndex.Proofs.Folder.Offering

Which entries of a folder are offered, and on what this depends.

* `Firsts`      — the names with a property that come first by their bytes; there is only one such list.
* `entrySize?`  — the size of an entry that is a regular file, or of the one that a link leads to.
* `firsts_offeredNames` — the names of a download are the first of those that are not skipped and have a size.
* `Describes`   — what a file of a download says about its entry.
* `convert_same` — trees that only differ in the order of their entries have the same downloads.
* `convert_alike` — trees that differ in the contents of some files have downloads of the same files; sizes differ only
  for those contents.
-/

namespace ShareIndex

namespace Text

/-- The names with a property that come first by their bytes, all of them unless they are more than `most`. -/
def Firsts (most : Nat) (P : String → Prop) (names : List String) : Prop :=
  ∃ all : List String, all.Pairwise (fun a b => bytes a < bytes b) ∧ (∀ name, name ∈ all ↔ P name) ∧
    names = all.take most

theorem eq_of_ascending {names names' : List String} (h : names.Pairwise fun a b => bytes a < bytes b)
    (h' : names'.Pairwise fun a b => bytes a < bytes b) (hm : ∀ name, name ∈ names ↔ name ∈ names') :
    names = names' := by
  have hne : ∀ {a b : String}, bytes a < bytes b → a ≠ b := by
    rintro a b hlt rfl
    exact List.lt_irrefl _ hlt
  have hperm : names.Perm names' := (List.perm_ext_iff_of_nodup (h.imp hne) (h'.imp hne)).mpr hm
  exact hperm.eq_of_pairwise (fun a b _ _ hab hba => absurd hba (List.lt_asymm hab)) h h'

theorem Firsts.unique {most : Nat} {P : String → Prop} {names names' : List String} (h : Firsts most P names)
    (h' : Firsts most P names') : names = names' := by
  obtain ⟨all, hall, hmem, rfl⟩ := h
  obtain ⟨all', hall', hmem', rfl⟩ := h'
  rw [eq_of_ascending hall hall' fun name => (hmem name).trans (hmem' name).symm]

end Text

namespace Folder
namespace Converter

open FileTree (Reachable Alike)
open Share (Download SharedFile stableId)

variable {c : Converter} {tree tree' : FileTree} {folder path : FilePath} {relative : List Component} {name : String}
  {entries : List (String × Entry)} {entry : Entry} {size : Nat}

/-! ### Entries -/

/-- The size of an entry that is a regular file, or of the one that a link leads to. -/
def entrySize? (tree : FileTree) (folder : FilePath) (name : String) : Entry → Option Nat
  | .link _ => size? tree (folder.entry name)
  | entry => entry.size?

theorem entrySize?_of_not_link (hlink : ∀ target, entry ≠ .link target) :
    entrySize? tree folder name entry = entry.size? := by
  cases entry with
  | link target => exact absurd rfl (hlink target)
  | file | folder | database | special => rfl

theorem size?_of_stat (h : tree.stat path = .ok entry) : size? tree path = entry.size? := by
  rw [size?, h]
  cases entry <;> rfl

theorem size?_eq_some (h : size? tree path = some size) :
    ∃ entry, tree.stat path = .ok entry ∧ entry.size? = some size := by
  cases hs : tree.stat path with
  | error e =>
    rw [size?, hs] at h
    cases h
  | ok entry => exact ⟨entry, rfl, by rw [← h, size?_of_stat hs]⟩

/-- What the path of an entry leads to has the size of the entry, unless the path is too long to lead anywhere, or the
folder may not be entered. -/
theorem size?_entry (ht : tree.Named) (hl : tree.list folder = .ok entries) (he : (name, entry) ∈ entries) :
    size? tree (folder.entry name) = some size ↔
      Reachable tree folder name ∧ entrySize? tree folder name entry = some size := by
  obtain ⟨place, hplace, hfolder, rfl⟩ := FileTree.children_of_list hl
  obtain ⟨hn, he⟩ := ht.mem_children_iff.mp he
  have hreachable : size? tree (folder.entry name) = some size → Reachable tree folder name := by
    intro hs
    obtain ⟨other, hstat, -⟩ := size?_eq_some hs
    exact FileTree.reachable_of_stat hfolder hplace hn hstat
  by_cases hlink : ∃ target, entry = .link target
  · obtain ⟨target, rfl⟩ := hlink
    exact ⟨fun hs => ⟨hreachable hs, hs⟩, And.right⟩
  · rw [not_exists] at hlink
    have hsame : Reachable tree folder name → size? tree (folder.entry name) = entrySize? tree folder name entry := by
      intro hr
      rw [entrySize?_of_not_link hlink, size?_of_stat (FileTree.stat_entry hfolder hplace hn hr he hlink)]
    exact ⟨fun hs => ⟨hreachable hs, hsame (hreachable hs) ▸ hs⟩, fun ⟨hr, hs⟩ => (hsame hr).trans hs⟩

/-! ### Files -/

/-- A name of an entry that is a regular file, or leads to one, and is not skipped. -/
def Offered (tree : FileTree) (folder : FilePath) (entries : List (String × Entry)) (skipped : List String)
    (name : String) : Prop :=
  name ∉ skipped ∧ Reachable tree folder name ∧
    ∃ entry, (name, entry) ∈ entries ∧ (entrySize? tree folder name entry).isSome

theorem offers_iff (ht : tree.Named) (hl : tree.list folder = .ok entries) :
    name ∈ entries.map (·.1) ∧ c.offers tree folder name = true ↔ Offered tree folder entries c.skipped name := by
  rw [offers, Bool.and_eq_true, Bool.not_eq_true', ← Bool.not_eq_true, List.contains_iff_mem, Option.isSome_iff_exists]
  constructor
  · rintro ⟨hm, hskip, size, hs⟩
    obtain ⟨⟨name, entry⟩, he, rfl⟩ := List.mem_map.mp hm
    obtain ⟨hr, hsize⟩ := (size?_entry ht hl he).mp hs
    exact ⟨hskip, hr, entry, he, by rw [hsize]; rfl⟩
  · rintro ⟨hskip, hr, entry, he, hs⟩
    obtain ⟨size, hsize⟩ := Option.isSome_iff_exists.mp hs
    exact ⟨List.mem_map_of_mem he, hskip, size, (size?_entry ht hl he).mpr ⟨hr, hsize⟩⟩

theorem firsts_offeredNames (c : Converter) (ht : tree.Named) (hl : tree.list folder = .ok entries) :
    Text.Firsts maxFiles (Offered tree folder entries c.skipped) (c.offeredNames tree folder entries) := by
  refine ⟨_, (sortNames_ascending (FileTree.names_nodup hl)).sublist List.filter_sublist, fun name => ?_, rfl⟩
  rw [List.mem_filter, sortNames, List.mem_mergeSort]
  exact offers_iff ht hl

/-- What a file of a download says about its entry. -/
structure Describes (tree : FileTree) (folder : FilePath) (entries : List (String × Entry)) (d : Description)
    (n : String) (f : SharedFile) : Prop where
  name : f.name = n
  sourcePath : f.sourcePath = folder.entry n
  id : f.id = stableId (folder.entry n)
  size : ∃ entry, (n, entry) ∈ entries ∧ entrySize? tree folder n entry = some f.size
  description : f.description = d.front.files.get? n

theorem describes_of_file? (ht : tree.Named) (hl : tree.list folder = .ok entries) (hm : name ∈ entries.map (·.1))
    {f : SharedFile} (hf : c.file? tree folder relative name = some f) (d : Description) :
    Describes tree folder entries d name (describe d f) := by
  obtain ⟨⟨name, entry⟩, he, rfl⟩ := List.mem_map.mp hm
  obtain ⟨-, size, hsize, rfl⟩ := file?_eq_some hf
  have hname := FilePath.nameOrEmpty_entry folder (ht.fileName hl _ he)
  exact ⟨hname, rfl, rfl, ⟨entry, he, ((size?_entry ht hl he).mp hsize).2⟩, congrArg d.front.files.get? hname⟩

/-- The files of a download are those of the offered names. -/
theorem files_of_convert (ht : tree.Named) {d : Download} (h : c.convert tree folder = .ok d) :
    ∃ entries description names, tree.list folder = .ok entries ∧
      Converter.description tree folder = .ok description ∧
      Text.Firsts maxFiles (Offered tree folder entries c.skipped) names ∧
      List.Forall₂ (Describes tree folder entries description) names d.files := by
  obtain ⟨relative, files, description, template, page, -, hfiles, hdescription, -, -, rfl⟩ := convert_parts h
  obtain ⟨entries, hl, hnames⟩ := files_ok hfiles
  refine ⟨entries, description, _, hl, hdescription, c.firsts_offeredNames ht hl, List.forall₂_map_right_iff.mpr ?_⟩
  have hboth := (List.forall₂_and_left _ _).mpr ⟨fun name => mem_of_offeredNames, hnames⟩
  exact hboth.imp fun name f h => describes_of_file? ht hl h.1 h.2 description

theorem file_of_single (ht : tree.Named) (hl : tree.list folder = .ok entries)
    (hone : c.offeredNames tree folder entries = [name]) {d : Download} (h : c.convert tree folder = .ok d) :
    ∃ f description, d.files = [f] ∧ Describes tree folder entries description name f := by
  obtain ⟨entries', description, names, hl', -, hfirsts, hfiles⟩ := files_of_convert ht h
  obtain rfl : entries = entries' := Except.ok.inj (hl.symm.trans hl')
  rw [hfirsts.unique (c.firsts_offeredNames ht hl), hone] at hfiles
  obtain ⟨f, rest, hf, hrest, hfiles⟩ := List.forall₂_cons_left_iff.mp hfiles
  obtain rfl := List.forall₂_nil_left_iff.mp hrest
  exact ⟨f, description, hfiles, hf⟩

/-! ### Trees that are alike -/

section Alike

variable {changed : Place → Prop}

/-- The same file, but that its size may be another if its path leads to contents that may have changed. -/
structure Resized (tree : FileTree) (changed : Place → Prop) (f f' : SharedFile) : Prop where
  same : f' = { f with size := f'.size }
  size : f'.size = f.size ∨ ∃ place, tree.place f.sourcePath = .ok place ∧ changed place

theorem file?_alike (h : Alike changed tree tree') (c : Converter) (folder : FilePath) (relative : List Component)
    (name : String) :
    Option.Rel (Resized tree changed) (c.file? tree folder relative name) (c.file? tree' folder relative name) := by
  rw [file?, file?]
  split
  · exact .none
  dsimp only
  rcases h.stat (folder.entry name) with hsame | ⟨place, entry, entry', hplace, hc, hs, hs', hsize, hsize'⟩
  · have hsame : size? tree' (folder.entry name) = size? tree (folder.entry name) := by rw [size?, size?, hsame]
    rw [hsame]
    cases size? tree (folder.entry name) with
    | none => exact .none
    | some size => exact .some ⟨rfl, .inl rfl⟩
  · obtain ⟨size, hsize⟩ := Option.isSome_iff_exists.mp hsize
    obtain ⟨size', hsize'⟩ := Option.isSome_iff_exists.mp hsize'
    rw [size?_of_stat hs, size?_of_stat hs', hsize, hsize']
    exact .some ⟨rfl, .inr ⟨place, hplace, hc⟩⟩

theorem files_alike (h : Alike changed tree tree') (ht : tree.Named) (ht' : tree'.Named) {files : List SharedFile}
    (hf : c.files tree folder relative = .ok files) :
    ∃ files', c.files tree' folder relative = .ok files' ∧ List.Forall₂ (Resized tree changed) files files' := by
  rw [Converter.files] at hf
  split at hf
  · cases hf
  rename_i entries hl
  obtain rfl := Except.ok.inj hf
  obtain ⟨entries', hl', hnames, -⟩ := h.list ht ht' hl
  have hsort : sortNames (entries'.map (·.1)) = sortNames (entries.map (·.1)) := by
    refine Text.eq_of_ascending (sortNames_ascending (FileTree.names_nodup hl'))
      (sortNames_ascending (FileTree.names_nodup hl)) fun name => ?_
    rw [sortNames, sortNames, List.mem_mergeSort, List.mem_mergeSort, hnames]
  refine ⟨_, by rw [Converter.files, hl'], List.forall₂_take maxFiles ?_⟩
  rw [hsort]
  refine List.rel_filterMap (R := Eq) ?_ (List.forall₂_refl _)
  rintro name - rfl
  exact file?_alike h c folder relative name

/-- Downloads before and after a change of some contents have the same files. -/
theorem convert_alike (h : Alike changed tree tree') (ht : tree.Named) (ht' : tree'.Named) {d d' : Download}
    (hd : c.convert tree folder = .ok d) (hd' : c.convert tree' folder = .ok d') :
    List.Forall₂ (fun f f' => f' = { f with size := f'.size, description := f'.description } ∧
      (f'.size = f.size ∨ ∃ place, tree.place f.sourcePath = .ok place ∧ changed place)) d.files d'.files := by
  obtain ⟨relative, files, description, -, -, hrelative, hfiles, -, -, -, rfl⟩ := convert_parts hd
  obtain ⟨relative', files', description', -, -, hrelative', hfiles', -, -, -, rfl⟩ := convert_parts hd'
  obtain rfl : relative = relative' := Except.ok.inj (hrelative.symm.trans hrelative')
  obtain ⟨after, hafter, hsame⟩ := files_alike h ht ht' hfiles
  obtain rfl : after = files' := Except.ok.inj (hafter.symm.trans hfiles')
  refine List.forall₂_map_left_iff.mpr (List.forall₂_map_right_iff.mpr (hsame.imp fun f f' hf => ⟨?_, hf.size⟩))
  rw [hf.same]
  rfl

/-- The order in which folders are enumerated does not count. -/
theorem convert_same (h : Alike (fun _ => False) tree tree') (ht : tree.Named) (ht' : tree'.Named) :
    c.convert tree' folder = c.convert tree folder := by
  have hresize : ∀ {f f' : SharedFile}, Resized tree (fun _ => False) f f' → f = f' := by
    intro f f' hf
    have hsize : f'.size = f.size := by
      refine hf.size.resolve_right ?_
      rintro ⟨place, -, hc⟩
      exact hc
    rw [hf.same, hsize]
  have hfiles : ∀ relative, c.files tree' folder relative = c.files tree folder relative := by
    intro relative
    cases hl : tree.list folder with
    | error e => rw [Converter.files, Converter.files, hl, h.list_error hl]
    | ok entries =>
      obtain ⟨files, hf⟩ := @files_of_list c tree folder relative entries hl
      obtain ⟨files', hf', hresized⟩ := files_alike h ht ht' hf
      have hsame : List.Forall₂ (· = ·) files files' := hresized.imp fun f f' => hresize
      rw [List.forall₂_eq_eq_eq] at hsame
      rw [hf, hf', hsame]
  have htext : ∀ name, ownText tree' folder name = ownText tree folder name := fun name => ownText_congr (h.read _)
  simp only [convert, hfiles, description, htext]

end Alike

end Converter
end Folder
end ShareIndex
