import ShareIndex.Folder.Conversion
import ShareIndex.Proofs.FilePath.Entry
import ShareIndex.Proofs.Text.Bytes
import Mathlib.Data.List.Forall2

/-!
# ShareIndex.Proofs.Folder.Conversion

What is in the download of a folder.

* `names_nodup`  — the entries of a folder have different names.
* `Named`        — all entries have names as the system gives them.
* `offeredNames` — the names of the files of a download, in their order.
* `files_ok`     — the files are those of these names, one by one.
* `ownText_of_file`, `ownText_of_absent` — the texts that say something about a folder.
* `convert_parts` — what a download is made of.
* `convert_ok`   — a download has the id and the path of its folder, and a file for each of these names.
* `sortNames_ascending` — names are sorted by their bytes.
* `mem_offeredNames` — a name is one of them unless there are too many before it.
-/

namespace ShareIndex

namespace FileTree

theorem childName?_eq_some {folder place : Place} {name : String} :
    childName? folder place = some name ↔ place = folder ++ [name] := by
  induction folder generalizing place with
  | nil =>
    cases place with
    | nil => simp [childName?]
    | cons first rest => cases rest <;> simp [childName?]
  | cons a folder ih =>
    cases place with
    | nil => simp [childName?]
    | cons b place =>
      rw [childName?]
      by_cases h : a = b
      · simp [h, ih]
      · have h' : b ≠ a := fun he => h he.symm
        simp [h, h']

theorem mem_children {t : FileTree} {place : Place} {name : String} {entry : Entry} :
    (name, entry) ∈ t.children place ↔ (place ++ [name], entry) ∈ t.nodes := by
  rw [children, List.mem_filterMap]
  constructor
  · rintro ⟨⟨path, entry'⟩, hnode, hchild⟩
    obtain ⟨name', hname, he⟩ := Option.map_eq_some_iff.mp hchild
    obtain ⟨rfl, rfl⟩ := Prod.mk.inj he
    exact childName?_eq_some.mp hname ▸ hnode
  · exact fun hnode => ⟨_, hnode, by rw [childName?_eq_some.mpr rfl]; rfl⟩

theorem list_eq_ok {t : FileTree} {path : FilePath} {entries : List (String × Entry)} :
    t.list path = .ok entries ↔ ∃ place, t.place path = .ok place ∧ t.isFolder place = true ∧
      (t.rights place).read = true ∧ t.children place = entries := by
  rw [list]
  cases t.place path with
  | error e => simp
  | ok place => cases hf : t.isFolder place <;> cases hr : (t.rights place).read <;> simp [hf, hr]

theorem children_of_list {t : FileTree} {path : FilePath} {entries : List (String × Entry)}
    (h : t.list path = .ok entries) : ∃ place, t.place path = .ok place ∧ t.isFolder place = true ∧
      entries = t.children place := by
  obtain ⟨place, hplace, hfolder, -, hentries⟩ := list_eq_ok.mp h
  exact ⟨place, hplace, hfolder, hentries.symm⟩

theorem names_nodup {t : FileTree} {path : FilePath} {entries : List (String × Entry)}
    (h : t.list path = .ok entries) : (entries.map (·.1)).Nodup := by
  obtain ⟨place, -, -, rfl⟩ := children_of_list h
  have hnames : (t.children place).map (·.1) = (t.nodes.map (·.1)).filterMap (childName? place) := by
    rw [children, List.map_filterMap, List.filterMap_map]
    refine List.filterMap_congr fun node _ => ?_
    simp [Option.map_map, Function.comp_def]
  rw [hnames]
  refine t.nodup.filterMap fun a b name ha hb => ?_
  rw [childName?_eq_some.mp ha, childName?_eq_some.mp hb]

/-- The entries of all folders have names that entries can have. -/
def Named (t : FileTree) : Prop := ∀ place, ∀ e ∈ t.children place, FilePath.FileName e.1

theorem Named.fileName {t : FileTree} (ht : t.Named) {path : FilePath} {entries : List (String × Entry)}
    (h : t.list path = .ok entries) : ∀ e ∈ entries, FilePath.FileName e.1 := by
  obtain ⟨place, -, -, rfl⟩ := children_of_list h
  exact ht place

/-- All names in the tree are such as entries of folders can have. -/
def Proper (t : FileTree) : Prop := ∀ node ∈ t.nodes, ∀ name ∈ node.1, FilePath.FileName name

theorem Proper.named {t : FileTree} (ht : t.Proper) : t.Named :=
  fun place e he => ht (place ++ [e.1], e.2) (mem_children.mp he) e.1 (by simp)

theorem Proper.fileName {t : FileTree} (ht : t.Proper) {path : FilePath} {entries : List (String × Entry)}
    (h : t.list path = .ok entries) : ∀ e ∈ entries, FilePath.FileName e.1 := ht.named.fileName h

theorem place_of_walk {t : FileTree} {path : FilePath} {segments : List (List Char)} {place : Place}
    (hl : ¬ maxPath < path.text.utf8ByteSize) (hne : path.text ≠ "") (hs : path.segments = segments)
    (hw : t.walk true maxLinks (path.start t.here) segments = .ok (.entry place)) : t.place path = .ok place := by
  rw [FileTree.place, find, if_neg hl, if_neg hne, hs, hw]

theorem read_of_place {t : FileTree} {path : FilePath} {place : Place} {content : List UInt8}
    (hp : t.place path = .ok place) (hr : (t.rights place).read = true)
    (he : t.entry? place = some (.file content)) : t.read path = .ok content := by
  rw [read, hp]
  simp only [hr, he]
  rfl

theorem read_of_error {t : FileTree} {path : FilePath} {e : Failure} (h : t.place path = .error e) :
    t.read path = .error e := by
  rw [read, h]

end FileTree

namespace Folder

open Share (Download SharedFile stableId)

namespace Converter

variable {c : Converter} {tree : FileTree} {folder : FilePath} {relative : List Component} {name : String}

/-- Whether an entry is a file that is not skipped, or leads to one. -/
def offers (c : Converter) (tree : FileTree) (folder : FilePath) (name : String) : Bool :=
  !c.skipped.contains name && (size? tree (folder.entry name)).isSome

def offeredNames (c : Converter) (tree : FileTree) (folder : FilePath) (entries : List (String × Entry)) :
    List String :=
  ((sortNames (entries.map (·.1))).filter (c.offers tree folder)).take maxFiles

theorem mem_of_offeredNames {entries : List (String × Entry)} (h : name ∈ c.offeredNames tree folder entries) :
    name ∈ entries.map (·.1) := List.mem_mergeSort.mp (List.mem_filter.mp (List.mem_of_mem_take h)).1

theorem isSome_file? (c : Converter) (tree : FileTree) (folder : FilePath) (relative : List Component) (name : String) :
    (c.file? tree folder relative name).isSome = c.offers tree folder name := by
  rw [offers, file?]
  cases c.skipped.contains name with
  | true => rfl
  | false => simp

theorem file?_eq_some {f : SharedFile} (h : c.file? tree folder relative name = some f) :
    name ∉ c.skipped ∧ ∃ size, size? tree (folder.entry name) = some size ∧
      f = .ofPath (folder.entry name) (c.url relative name) size (MediaType.ofPath (folder.entry name)) := by
  rw [file?] at h
  split at h
  · cases h
  · rename_i hskip
    obtain ⟨size, hsize, rfl⟩ := Option.map_eq_some_iff.mp h
    exact ⟨fun hm => hskip (List.contains_iff_mem.mpr hm), size, hsize, rfl⟩

theorem forall₂_filterMap {α β : Type} (g : α → Option β) (l : List α) :
    List.Forall₂ (fun a b => g a = some b) (l.filter fun a => (g a).isSome) (l.filterMap g) := by
  induction l with
  | nil => exact .nil
  | cons a l ih =>
    cases hg : g a with
    | none =>
      rw [List.filterMap_cons_none hg, List.filter_cons_of_neg (by simp [hg])]
      exact ih
    | some b =>
      rw [List.filterMap_cons_some hg, List.filter_cons_of_pos (by simp [hg])]
      exact .cons hg ih

/-- The files are those of the offered names. -/
theorem files_ok {files : List SharedFile} (h : c.files tree folder relative = .ok files) :
    ∃ entries, tree.list folder = .ok entries ∧
      List.Forall₂ (fun name f => c.file? tree folder relative name = some f) (c.offeredNames tree folder entries)
        files := by
  rw [Converter.files] at h
  split at h
  · cases h
  · rename_i entries hl
    obtain rfl := Except.ok.inj h
    have hfiles := forall₂_filterMap (c.file? tree folder relative) (sortNames (entries.map (·.1)))
    simp only [isSome_file?] at hfiles
    exact ⟨entries, hl, List.forall₂_take maxFiles hfiles⟩

theorem paths_of_files {names : List String} {files : List SharedFile}
    (h : List.Forall₂ (fun name f => c.file? tree folder relative name = some f) names files) :
    files.map (·.sourcePath) = names.map folder.entry ∧ ∀ f ∈ files, f.id = stableId f.sourcePath := by
  induction h with
  | nil => exact ⟨rfl, fun f hf => nomatch hf⟩
  | cons hf _ ih =>
    obtain ⟨-, size, -, rfl⟩ := file?_eq_some hf
    exact ⟨congrArg (_ :: ·) ih.1, List.forall_mem_cons.mpr ⟨rfl, ih.2⟩⟩

/-- Each file is that of an entry. -/
theorem file?_of_mem {files : List SharedFile} (h : c.files tree folder relative = .ok files) {f : SharedFile}
    (hf : f ∈ files) :
    ∃ entries, tree.list folder = .ok entries ∧ ∃ e ∈ entries, c.file? tree folder relative e.1 = some f := by
  rw [Converter.files] at h
  split at h
  · cases h
  · rename_i entries hl
    obtain rfl := Except.ok.inj h
    obtain ⟨name, hname, hfile⟩ := List.mem_filterMap.mp (List.mem_of_mem_take hf)
    obtain ⟨e, he, rfl⟩ := List.mem_map.mp (List.mem_mergeSort.mp hname)
    exact ⟨entries, hl, e, he, hfile⟩

theorem files_of_list {entries : List (String × Entry)} (hl : tree.list folder = .ok entries) :
    ∃ files, c.files tree folder relative = .ok files := by
  rw [Converter.files, hl]
  exact ⟨_, rfl⟩

/-! ### Texts of a folder -/

theorem ownText_of_file {place : Place} {content : List UInt8} {text : String}
    (hp : tree.place (folder.entry name) = .ok place) (hr : (tree.rights place).read = true)
    (he : tree.entry? place = some (.file content)) (ht : FileTree.decodeText content = .ok text) :
    ownText tree folder name = .ok (some text) := by
  have hread : tree.readText (folder.entry name) = .ok text := by
    rw [FileTree.readText, FileTree.read_of_place hp hr he]
    exact ht
  delta ownText
  rw [hread]

theorem ownText_of_absent (hp : tree.place (folder.entry name) = .error .notFound) :
    ownText tree folder name = .ok none := by
  delta ownText
  rw [FileTree.readText, FileTree.read_of_error hp]
  rfl

theorem ownText_congr {tree' : FileTree} (hr : tree'.read (folder.entry name) = tree.read (folder.entry name)) :
    ownText tree' folder name = ownText tree folder name := by
  delta ownText
  rw [FileTree.readText, FileTree.readText, hr]

/-! ### Downloads -/

theorem ok_of_bind {ε α β : Type} {x : Except ε α} {f : α → Except ε β} {b : β} (h : x >>= f = .ok b) :
    ∃ a, x = .ok a ∧ f a = .ok b := by
  cases x with
  | error e => cases h
  | ok a => exact ⟨a, rfl, h⟩

/-- A download, with all that it is made of. -/
theorem convert_parts {d : Download} (h : c.convert tree folder = .ok d) :
    ∃ relative files description template page,
      c.below folder = .ok relative ∧ c.files tree folder relative = .ok files ∧
      Converter.description tree folder = .ok description ∧ ownText tree folder templateName = .ok template ∧
      renderPage template c.baseUrl
        ⟨stableId folder, titleOf description folder, description.body, files.map (describe description)⟩ = some page ∧
      d = { Download.ofPath folder (titleOf description folder) page (files.map (describe description)) with
        enabled := description.front.enabled, description := description.body } := by
  rw [convert] at h
  obtain ⟨relative, hrelative, h⟩ := ok_of_bind h
  obtain ⟨files, hfiles, h⟩ := ok_of_bind h
  dsimp only at h
  split at h
  · cases h
  obtain ⟨description, hdescription, h⟩ := ok_of_bind h
  obtain ⟨template, htemplate, h⟩ := ok_of_bind h
  split at h
  · cases h
  · rename_i page hpage
    exact ⟨relative, files, description, template, page, hrelative, hfiles, hdescription, htemplate, hpage,
      (Except.ok.inj h).symm⟩

theorem convert_ok {d : Download} (h : c.convert tree folder = .ok d) :
    d.id = stableId folder ∧ d.sourcePath = folder ∧ ∃ entries, tree.list folder = .ok entries ∧
      d.files.map (·.sourcePath) = (c.offeredNames tree folder entries).map folder.entry ∧
      ∀ f ∈ d.files, f.id = stableId f.sourcePath := by
  obtain ⟨relative, files, description, template, page, -, hfiles, -, -, -, rfl⟩ := convert_parts h
  obtain ⟨entries, hl, hnames⟩ := files_ok hfiles
  obtain ⟨hpaths, hids⟩ := paths_of_files hnames
  have hsame : ∀ f, (describe description f).sourcePath = f.sourcePath := fun _ => rfl
  refine ⟨rfl, rfl, entries, hl, ?_, fun f hf => ?_⟩
  · show (files.map (describe description)).map (·.sourcePath) = _
    rw [List.map_map, ← hpaths]
    exact List.map_congr_left fun f _ => hsame f
  · obtain ⟨f', hf', rfl⟩ := List.mem_map.mp hf
    exact hids f' hf'

/-- The files of a download are entries of its folder. -/
theorem entry_of_mem_files {d : Download} (h : c.convert tree folder = .ok d) {f : SharedFile} (hf : f ∈ d.files) :
    ∃ entries, tree.list folder = .ok entries ∧ ∃ e ∈ entries, f.sourcePath = folder.entry e.1 := by
  obtain ⟨-, -, entries, hl, hpaths, -⟩ := convert_ok h
  have hpath : f.sourcePath ∈ d.files.map (·.sourcePath) := List.mem_map_of_mem hf
  rw [hpaths] at hpath
  obtain ⟨name, hn, he⟩ := List.mem_map.mp hpath
  obtain ⟨e, hentry, rfl⟩ := List.mem_map.mp (mem_of_offeredNames hn)
  exact ⟨entries, hl, e, hentry, he.symm⟩

/-- A folder is converted if its path, its files, its description and its template are all in order. -/
theorem convert_succeeds {entries : List (String × Entry)} {description : Description} {template : Option String}
    (hb : c.below folder = .ok relative) (hl : tree.list folder = .ok entries)
    (hn : c.offeredNames tree folder entries ≠ []) (hd : Converter.description tree folder = .ok description)
    (ht : ownText tree folder templateName = .ok template) (hp : ∀ p, (renderPage template c.baseUrl p).isSome) :
    ∃ d, c.convert tree folder = .ok d := by
  obtain ⟨files, hfiles⟩ := @files_of_list c tree folder relative entries hl
  obtain ⟨entries', hl', hnames⟩ := files_ok hfiles
  obtain rfl : entries = entries' := Except.ok.inj (hl.symm.trans hl')
  have hempty : ¬ files.isEmpty = true := by
    intro he
    rw [List.isEmpty_iff.mp he] at hnames
    exact hn (List.forall₂_nil_right_iff.mp hnames)
  obtain ⟨page, hpage⟩ := Option.isSome_iff_exists.mp
    (hp ⟨stableId folder, titleOf description folder, description.body, files.map (describe description)⟩)
  refine ⟨{ Download.ofPath folder (titleOf description folder) page (files.map (describe description)) with
    enabled := description.front.enabled, description := description.body }, ?_⟩
  simp only [convert, hb, hfiles, hd, ht, hpage, bind, Except.bind, if_neg hempty]
  rfl

/-- A text that cannot be read spoils the whole folder. -/
theorem convert_unreadable {d : Download} (ht : ownText tree folder descriptionName = .error .unreadable) :
    c.convert tree folder ≠ .ok d := by
  intro h
  obtain ⟨-, -, description, -, -, -, -, hd, -⟩ := convert_parts h
  rw [Converter.description, ht] at hd
  cases hd

theorem sortNames_sorted (names : List String) :
    (sortNames names).Pairwise fun a b => decide (¬ b < a) = true := by
  refine List.pairwise_mergeSort (fun x y z h1 h2 => ?_) (fun x y => ?_) names
  · simp only [decide_eq_true_eq, String.not_lt] at *
    exact String.le_trans h1 h2
  · simp only [Bool.or_eq_true, decide_eq_true_eq, String.not_lt]
    exact String.le_total x y

/-- Different names stand in the order of their bytes. -/
theorem sortNames_ascending {names : List String} (hn : names.Nodup) :
    (sortNames names).Pairwise fun a b => Text.bytes a < Text.bytes b := by
  have hnodup : (sortNames names).Nodup := (List.mergeSort_perm names _).nodup_iff.mpr hn
  refine ((sortNames_sorted names).and hnodup).imp fun {a b} h => Text.bytes_lt_iff.mpr ?_
  exact (not_lt.mp (of_decide_eq_true h.1)).lt_of_ne h.2

/-- A name is among those of the download, unless there are too many offered ones before it. -/
theorem mem_offeredNames {entries : List (String × Entry)} (hm : name ∈ entries.map (·.1))
    (ho : c.offers tree folder name = true)
    (hn : (entries.map (·.1)).countP (fun n => c.offers tree folder n && decide (n < name)) < maxFiles) :
    name ∈ c.offeredNames tree folder entries := by
  refine mem_take_of_countP ((sortNames_sorted _).sublist List.filter_sublist)
    (List.mem_filter.mpr ⟨List.mem_mergeSort.mpr hm, ho⟩) (Nat.lt_of_le_of_lt ?_ hn)
  rw [List.countP_filter, ← (List.mergeSort_perm (entries.map (·.1)) _).countP_eq]
  refine List.countP_mono_left fun n _ h => ?_
  simp only [Bool.and_eq_true, decide_eq_true_eq] at h ⊢
  obtain ⟨⟨hne, hle⟩, hoffered⟩ := h
  refine ⟨hoffered, ?_⟩
  by_contra hlt
  exact hne (StrictOrder.connected hlt hle)

end Converter
end Folder
end ShareIndex
