import ShareIndex.Proofs.FileTree
import ShareIndex.Proofs.Folder.Conversion
import ShareIndex.Share.Counter

/-!
# ShareIndex.Proofs.Folder.Address

Which folders a converter accepts, and the public paths of their files.

* `below_ok_iff`   — a folder is accepted if its path has no `..` and goes on where that of the work folder ends.
* `Lists`          — a file is one of those that a converter lists in a folder.
* `Lists.addressed` — the public path of such a file has a segment for the share, for each folder on the way down, and
  for the name of the file.
* `segments_url`   — so these names can be read off it again.
* `addresses_exact` — what follows for all files of a converter.
-/

namespace ShareIndex
namespace Folder

open FilePath (FileName)
open Share (Download FileCounter SharedFile)

namespace Converter

variable {c : Converter} {tree tree' : FileTree} {folder folder' : FilePath} {relative : List Component}

/-! ### Folders -/

theorem make_ok {workFolder : FilePath} {share : String} (h : workFolder.name? = some share) (url : String) :
    ∃ made, Converter.make workFolder url = .ok made ∧ made.workFolder = workFolder ∧ made.share = share := by
  rw [make, h]
  exact ⟨_, rfl, rfl, rfl⟩

theorem below_ok_iff : c.below folder = .ok relative ↔
    .parent ∉ folder.components ∧ folder.components = c.workFolder.components ++ relative := by
  rw [below, ← FilePath.afterStart?_eq_some, FilePath.relativeTo?]
  split
  · rename_i hparent
    exact ⟨fun h => (nomatch h), fun h => absurd (List.contains_iff_mem.mp hparent) h.1⟩
  · rename_i hparent
    rw [List.contains_iff_mem] at hparent
    cases FilePath.afterStart? c.workFolder.components folder.components with
    | none => simp
    | some rest => simp [hparent]

theorem below_error {e : Error} (h : c.below folder = .error e) : e = .invalidPath folder := by
  rw [below] at h
  split at h
  · exact (Except.error.inj h).symm
  · split at h
    · exact (Except.error.inj h).symm
    · cases h

/-! ### Public paths -/

theorem joinSegments_cons (sep : Char) (piece : List Char) (rest : List (List Char)) :
    Text.joinSegments sep (piece :: rest) = piece ++ rest.flatMap (sep :: ·) := by
  induction rest generalizing piece with
  | nil => exact (List.append_nil piece).symm
  | cons next rest ih =>
    rw [Text.joinSegments, ih, List.flatMap_cons]
    · rfl
    · simp

theorem intercalate_cons (sep : Char) (piece : List Char) (rest : List (List Char)) :
    [sep].intercalate (piece :: rest) = piece ++ rest.flatMap (sep :: ·) := by
  induction rest generalizing piece with
  | nil => simp
  | cons next rest ih => rw [List.intercalate_cons_cons, ih, List.flatMap_cons]; simp

theorem toList_url (c : Converter) (relative : List Component) (name : String) :
    (c.url relative name).toList =
      Text.joinSegments '/' ([] :: (c.urlNames relative name).map String.toList) := by
  rw [joinSegments_cons, url, String.toList_join, List.flatMap_map, List.flatMap_map, List.nil_append]
  exact List.flatMap_congr fun name _ => String.toList_append

/-- The names are joined by separators, and one stands before them. -/
theorem url_eq (c : Converter) (relative : List Component) (name : String) :
    c.url relative name = "/" ++ "/".intercalate (c.urlNames relative name) := by
  have hslash : "/".toList = ['/'] := rfl
  rw [← String.toList_inj, toList_url, String.toList_append, String.toList_intercalate, hslash, urlNames,
    List.cons_append, List.map_cons, joinSegments_cons, intercalate_cons]
  rfl

/-- The names can be read off the public path. -/
theorem segments_url {names : List String} (hr : relative = names.map .normal) {name : String}
    (h : ∀ n ∈ c.share :: names ++ [name], FileName n) :
    Text.segments '/' (c.url relative name).toList = [] :: (c.share :: names ++ [name]).map String.toList := by
  have hnames : relative.filterMap Component.name? = names := by
    rw [hr, List.filterMap_map]
    exact List.filterMap_some
  rw [toList_url, urlNames, hnames]
  refine Text.segments_joinSegments (List.cons_ne_nil _ _) (List.forall_mem_cons.mpr ⟨by simp, fun piece hp => ?_⟩)
  obtain ⟨n, hn, rfl⟩ := List.mem_map.mp hp
  exact (h n hn).1

/-! ### Files -/

/-- The file is one of those that the converter lists in the folder, whatever is said of it. -/
def Lists (c : Converter) (tree : FileTree) (folder : FilePath) (f : SharedFile) : Prop :=
  ∃ relative files, c.below folder = .ok relative ∧ c.files tree folder relative = .ok files ∧
    ∃ listed ∈ files, f = { listed with description := f.description }

theorem lists_of_convert {d : Download} (h : c.convert tree folder = .ok d) {f : SharedFile} (hf : f ∈ d.files) :
    c.Lists tree folder f := by
  obtain ⟨relative, files, description, template, page, hrelative, hfiles, -, -, -, rfl⟩ := convert_parts h
  obtain ⟨listed, hl, rfl⟩ := List.mem_map.mp hf
  exact ⟨relative, files, hrelative, hfiles, listed, hl, rfl⟩

/-- The path of the folder goes on with these names, and the file has this name and this public path. -/
structure Addressed (c : Converter) (folder : FilePath) (f : SharedFile) (names : List String) : Prop where
  folder : folder.components = c.workFolder.components ++ names.map .normal
  proper : ∀ n ∈ c.share :: names ++ [f.name], FileName n
  url : f.url = "/" ++ "/".intercalate (c.share :: names ++ [f.name])
  segments : Text.segments '/' f.url.toList = [] :: (c.share :: names ++ [f.name]).map String.toList

theorem Lists.addressed {f : SharedFile} (hc : c.workFolder.name? = some c.share) (hnames : tree.Named)
    (h : c.Lists tree folder f) : ∃ names, c.Addressed folder f names := by
  obtain ⟨relative, files, hrelative, hfiles, listed, hl, hf⟩ := h
  obtain ⟨hparent, hfolder⟩ := below_ok_iff.mp hrelative
  obtain ⟨component, hlast, hshare⟩ := Option.bind_eq_some_iff.mp hc
  have hmem : .normal c.share ∈ c.workFolder.components := by
    cases component with
    | normal name => exact Option.some.inj hshare ▸ List.mem_of_getLast? hlast
    | root | current | parent => cases hshare
  obtain ⟨names, rfl, hproper⟩ := FilePath.names_below hparent (List.ne_nil_of_mem hmem) hfolder
  obtain ⟨entries, hentries, e, he, hfile⟩ := file?_of_mem hfiles hl
  obtain ⟨-, size, -, rfl⟩ := file?_eq_some hfile
  have hname := hnames.fileName hentries e he
  have hsame : f.name = e.1 := by
    rw [hf]
    exact FilePath.nameOrEmpty_entry folder hname
  have hurl : f.url = c.url (names.map .normal) e.1 := by rw [hf]; rfl
  have hall : ∀ n ∈ c.share :: names ++ [e.1], FileName n := by
    intro n hn
    simp only [List.cons_append, List.mem_cons, List.mem_append, List.not_mem_nil, or_false] at hn
    rcases hn with rfl | hn | rfl
    · exact FilePath.fileName_of_mem hmem
    · exact hproper n hn
    · exact hname
  refine ⟨names, hfolder, hsame ▸ hall, ?_, ?_⟩
  · rw [hurl, url_eq, urlNames, List.filterMap_map, hsame]
    exact congrArg (fun names => "/" ++ "/".intercalate (c.share :: names ++ [e.1])) List.filterMap_some
  · rw [hurl, segments_url rfl hall, hsame]

section Addressed

variable {f f' : SharedFile} {names names' : List String}

/-- The segments of the public path after the leading separator are names. -/
theorem Addressed.plain (h : c.Addressed folder f names) :
    ∃ segments, Text.segments '/' f.url.toList = [] :: segments ∧ ∀ s ∈ segments, s ≠ [] ∧ s ≠ ['.', '.'] := by
  refine ⟨_, h.segments, fun s hs => ?_⟩
  obtain ⟨n, hn, rfl⟩ := List.mem_map.mp hs
  have hproper := (h.proper n hn).2
  constructor
  · intro (he : n.toList = "".toList)
    rw [String.toList_inj.mp he] at hproper
    exact hproper (by decide)
  · intro (he : n.toList = "..".toList)
    rw [String.toList_inj.mp he] at hproper
    exact hproper (by decide)

/-- A counter that is made from the public path has the name of the file. -/
theorem Addressed.name_ofUrl (h : c.Addressed folder f names) (id : String) (counter : Int) :
    (FileCounter.ofUrl id f.url counter).name = f.name := by
  rw [FileCounter.ofUrl, Text.lastSegment, h.segments, List.map_append, ← List.cons_append, List.map_singleton,
    List.getLastD_concat, String.ofList_toList]

/-- The public path determines the folder and the name. -/
theorem Addressed.unique (h : c.Addressed folder f names) (h' : c.Addressed folder' f' names') (hurl : f.url = f'.url) :
    folder.components = folder'.components ∧ f.name = f'.name := by
  have hsame := h.segments.symm.trans (hurl ▸ h'.segments)
  have hnames : c.share :: names ++ [f.name] = c.share :: names' ++ [f'.name] :=
    (List.map_inj_right fun _ _ he => String.toList_inj.mp he).mp (List.cons.inj hsame).2
  obtain ⟨hfolders, hname⟩ := List.append_inj' hnames rfl
  refine ⟨?_, (List.cons.inj hname).1⟩
  rw [h.folder, h'.folder, (List.cons.inj hfolders).2]

end Addressed

/-- The path check is a comparison of components, without `..`. The public path of a file is the share, what is left of
the path of its folder, and its name; it has no segments but names, no other file of the converter has it, unless folder
and name are the same, and the name of the file can be read off it. -/
theorem addresses_exact {workFolder : FilePath} {share : String} (hshare : workFolder.name? = some share)
    (url : String) (skipped : List String) :
    ∃ made, Converter.make workFolder url = .ok made ∧
      (∀ folder relative, (made.skip skipped).below folder = .ok relative ↔
        .parent ∉ folder.components ∧ folder.components = workFolder.components ++ relative) ∧
      (∀ folder e, (made.skip skipped).below folder = .error e → e = .invalidPath folder) ∧
      (∀ tree folder d, (made.skip skipped).convert tree folder = .ok d →
        ∀ f ∈ d.files, (made.skip skipped).Lists tree folder f) ∧
      ∀ tree, tree.Named → ∀ folder f, (made.skip skipped).Lists tree folder f →
        (∃ names : List String, folder.components = workFolder.components ++ names.map .normal ∧
          f.url = "/" ++ "/".intercalate (share :: names ++ [f.name])) ∧
        (∃ segments, Text.segments '/' f.url.toList = [] :: segments ∧ ∀ s ∈ segments, s ≠ [] ∧ s ≠ ['.', '.']) ∧
        (∀ id counter, (FileCounter.ofUrl id f.url counter).name = f.name) ∧
        ∀ tree', tree'.Named → ∀ folder' f', (made.skip skipped).Lists tree' folder' f' → f.url = f'.url →
          folder.components = folder'.components ∧ f.name = f'.name := by
  obtain ⟨made, hmade, rfl, rfl⟩ := make_ok hshare url
  refine ⟨made, hmade, fun folder relative => below_ok_iff, fun folder e => below_error,
    fun tree folder d h f => lists_of_convert h, fun tree ht folder f h => ?_⟩
  have hshare : (made.skip skipped).workFolder.name? = some (made.skip skipped).share := hshare
  obtain ⟨names, ha⟩ := h.addressed hshare ht
  refine ⟨⟨names, ha.folder, ha.url⟩, ha.plain, ha.name_ofUrl, fun tree' ht' folder' f' h' => ?_⟩
  obtain ⟨names', ha'⟩ := h'.addressed hshare ht'
  exact ha.unique ha'

/-! ### A folder in a folder -/

/-- The download of a folder with one file to offer. -/
theorem single_file {d : Download} {entries : List (String × Entry)} {name : String} (h : c.convert tree folder = .ok d)
    (hl : tree.list folder = .ok entries) (hn : c.offeredNames tree folder entries = [name]) :
    ∃ f ∈ d.files, f.name = (folder.entry name).nameOrEmpty := by
  obtain ⟨relative, files, description, template, page, -, hfiles, -, -, -, rfl⟩ := convert_parts h
  obtain ⟨entries', hl', hnames⟩ := files_ok hfiles
  obtain rfl : entries = entries' := Except.ok.inj (hl.symm.trans hl')
  rw [hn] at hnames
  obtain ⟨f, rest, hf, -, rfl⟩ := List.forall₂_cons_left_iff.mp hnames
  obtain ⟨-, size, -, rfl⟩ := file?_eq_some hf
  exact ⟨_, List.mem_cons_self, rfl⟩

/-- A work folder with a folder that has a file, and one in which another such folder is. -/
def nested : FileTree where
  nodes := [(["srv"], .folder), (["srv", "share"], .folder), (["srv", "share", "a"], .folder),
    (["srv", "share", "a", "b"], .folder), (["srv", "share", "a", "b", "template.html"], .file []),
    (["srv", "share", "a", "b", "x.txt"], .file []), (["srv", "share", "c"], .folder),
    (["srv", "share", "c", "template.html"], .file []), (["srv", "share", "c", "x.txt"], .file [])]
  nodup := by decide

theorem named_nested : nested.Named :=
  FileTree.Proper.named (show ∀ node ∈ nested.nodes, ∀ name ∈ node.1, FileName name by decide)

/-- Paths of these folders, with separators and dots that do not count, and where they lead. -/
def spellings : List (String × Place) :=
  [("//srv/share/./a/b/", ["srv", "share", "a", "b"]), ("/srv/share/a/b", ["srv", "share", "a", "b"]),
    ("/srv/share/c", ["srv", "share", "c"])]

/-- The converter of a path that is written in such a way, too. -/
def spaced : Converter := ⟨⟨"/srv/./share//"⟩, "share", ownNames, ""⟩

section Nested

variable {e : String × Place}

theorem place_nested (he : e ∈ spellings) : nested.place ⟨e.1⟩ = .ok e.2 := by
  refine FileTree.place_of_steps 9 ?_ ?_ ?_ <;> revert e <;> decide +kernel

theorem place_file (he : e ∈ spellings) :
    ∀ name ∈ ["x.txt", templateName], nested.place (FilePath.entry ⟨e.1⟩ name) = .ok (e.2 ++ [name]) := by
  intro name hn
  refine FileTree.place_of_steps 9 ?_ ?_ ?_ <;> revert name <;> revert e <;> decide +kernel

theorem place_description (he : e ∈ spellings) :
    nested.place (FilePath.entry ⟨e.1⟩ descriptionName) = .error .notFound := by
  refine FileTree.place_of_free 9 (e.2 ++ [descriptionName]) ?_ ?_ ?_ <;> revert e <;> decide +kernel

theorem list_nested (he : e ∈ spellings) :
    nested.list ⟨e.1⟩ = .ok [("template.html", .file []), ("x.txt", .file [])] := by
  refine FileTree.list_eq_ok.mpr ⟨_, place_nested he, ?_⟩
  revert e
  decide +kernel

theorem offeredNames_nested (he : e ∈ spellings) :
    spaced.offeredNames nested ⟨e.1⟩ [("template.html", .file []), ("x.txt", .file [])] = ["x.txt"] := by
  have hsort : sortNames ["template.html", "x.txt"] = ["template.html", "x.txt"] :=
    List.mergeSort_of_pairwise (by decide)
  have hentry : nested.entry? (e.2 ++ ["x.txt"]) = some (.file []) := by
    revert e
    decide +kernel
  have hfile : spaced.offers nested ⟨e.1⟩ "x.txt" = true := by
    rw [offers, size?, FileTree.stat, place_file he "x.txt" (by simp)]
    simp only [hentry]
    rfl
  have htemplate : spaced.offers nested ⟨e.1⟩ "template.html" = false := by
    rw [offers, show spaced.skipped.contains "template.html" = true by decide]
    rfl
  simp [offeredNames, hsort, hfile, htemplate, maxFiles]

theorem below_nested (he : e ∈ spellings) : spaced.below ⟨e.1⟩ = .ok ((e.2.drop 2).map .normal) := by
  rw [below_ok_iff]
  revert e
  decide +kernel

/-- All these folders have a download with the file. -/
theorem convert_nested (he : e ∈ spellings) :
    ∃ d, spaced.convert nested ⟨e.1⟩ = .ok d ∧ ∃ f ∈ d.files, f.name = "x.txt" := by
  have hentry : nested.entry? (e.2 ++ [templateName]) = some (.file []) := by
    revert e
    decide +kernel
  have htemplate : ownText nested ⟨e.1⟩ templateName = .ok (some "") :=
    ownText_of_file (place_file he templateName (by simp)) rfl hentry (by decide)
  have hd : ∃ d, spaced.convert nested ⟨e.1⟩ = .ok d := by
    refine @convert_succeeds spaced nested ⟨e.1⟩ _ _ .empty (some "") (below_nested he) (list_nested he) ?_ ?_
      htemplate ?_
    · rw [offeredNames_nested he]
      simp
    · rw [description, ownText_of_absent (place_description he)]
      rfl
    · exact fun p => rfl
  obtain ⟨d, hd⟩ := hd
  obtain ⟨f, hf, hname⟩ := single_file hd (list_nested he) (offeredNames_nested he)
  exact ⟨d, hd, f, hf, hname.trans (FilePath.nameOrEmpty_entry _ (by decide))⟩

end Nested

/-- The file is one of those of the download of the folder at a path. -/
def Gives (text : String) (f : SharedFile) : Prop := ∃ d, spaced.convert nested ⟨text⟩ = .ok d ∧ f ∈ d.files

/-- The same folder, written in two ways, gives its file the same public path; and only that folder does. -/
theorem addresses_exact_separators :
    Converter.make ⟨"/srv/./share//"⟩ "" = .ok spaced ∧
    spaced.below ⟨"//srv/share/./a/b/"⟩ = .ok [.normal "a", .normal "b"] ∧
    spaced.below ⟨"/srv/share/a/../b"⟩ = .error (.invalidPath ⟨"/srv/share/a/../b"⟩) ∧
    ∃ f same other, Gives "//srv/share/./a/b/" f ∧ Gives "/srv/share/a/b" same ∧ Gives "/srv/share/c" other ∧
      f.url = "/share/a/b/x.txt" ∧ same.url = f.url ∧ same.name = f.name ∧ other.url ≠ f.url ∧
      (∃ segments, Text.segments '/' f.url.toList = [] :: segments ∧ ∀ s ∈ segments, s ≠ [] ∧ s ≠ ['.', '.']) ∧
      (FileCounter.ofUrl f.id f.url 3).name = "x.txt" := by
  have hshare : (⟨"/srv/./share//"⟩ : FilePath).name? = some "share" := by decide
  obtain ⟨made, hmade, hbelow, herror, hlists, hfiles⟩ := addresses_exact hshare "" []
  have hspaced : Converter.make ⟨"/srv/./share//"⟩ "" = .ok spaced := by decide
  obtain rfl : spaced = made := Except.ok.inj (hspaced.symm.trans hmade)
  have hskip : spaced.skip [] = spaced := by decide
  rw [hskip] at hbelow herror hlists hfiles
  have hurl : ∀ e ∈ spellings, ∃ f, Gives e.1 f ∧ f.name = "x.txt" ∧ spaced.Lists nested ⟨e.1⟩ f ∧
      f.url = "/" ++ "/".intercalate ("share" :: e.2.drop 2 ++ ["x.txt"]) := by
    intro e he
    obtain ⟨d, hd, f, hf, hname⟩ := convert_nested he
    have hlisted := hlists nested _ d hd f hf
    obtain ⟨⟨names, hfolder, hurl⟩, -⟩ := hfiles nested named_nested _ f hlisted
    have hnames : (e.2.drop 2).map Component.normal = names.map .normal :=
      List.append_cancel_left ((below_ok_iff.mp (below_nested he)).2.symm.trans hfolder)
    obtain rfl : e.2.drop 2 = names := (List.map_inj_right fun _ _ => Component.normal.inj).mp hnames
    exact ⟨f, ⟨d, hd, hf⟩, hname, hlisted, hname ▸ hurl⟩
  obtain ⟨f, hf, hname, hlisted, hfurl⟩ := hurl ("//srv/share/./a/b/", ["srv", "share", "a", "b"]) (by decide)
  obtain ⟨same, hsame, hsamename, -, hsameurl⟩ := hurl ("/srv/share/a/b", ["srv", "share", "a", "b"]) (by decide)
  obtain ⟨other, hother, -, hlisted', -⟩ := hurl ("/srv/share/c", ["srv", "share", "c"]) (by decide)
  obtain ⟨-, hplain, hcounter, hunique⟩ := hfiles nested named_nested _ f hlisted
  refine ⟨hmade, (hbelow _ _).mpr (by decide), ?_, f, same, other, hf, hsame, hother, hfurl.trans (by decide),
    hsameurl.trans hfurl.symm, hsamename.trans hname.symm, fun he => ?_, hplain, (hcounter _ _).trans hname⟩
  · cases hb : spaced.below ⟨"/srv/share/a/../b"⟩ with
    | error e => rw [herror _ _ hb]
    | ok relative => exact absurd ((hbelow _ _).mp hb).1 (by decide)
  · exact absurd (hunique nested named_nested _ other hlisted' he.symm).1 (by decide)

end Converter
end Folder
end ShareIndex
