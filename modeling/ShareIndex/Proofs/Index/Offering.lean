import ShareIndex.Proofs.Folder.Address
import ShareIndex.Proofs.Folder.Offering
import ShareIndex.Proofs.Index.Cycle

/-!
# ShareIndex.Proofs.Index.Offering

What is offered is decided by the entries of the folders, in whatever order they are enumerated.

* `candidates_firsts` — the candidates are the first of the folders by their names.
* `candidates_alike`  — they stay the same when contents change.
* `offering_exact`    — the candidates and the files of their downloads, and what may change with the contents of the
  files that say something about a folder.
* `offering_beyond_entries` — links have the sizes of what they lead to, and there is no way to a file whose path is
  too long.
-/

namespace ShareIndex
namespace Index

open FilePath (FileName)
open FileTree (Alike)
open Folder (Converter ownNames)
open Folder.Converter (Offered Describes)
open Share (Download)

variable {files files' : FileTree} {root : FilePath} {entries : List (String × Entry)}

/-! ### Candidates -/

/-- Sorting the paths of folders is sorting their names. -/
theorem sortPaths_entries (root : FilePath) {names : List String} (hn : ∀ name ∈ names, FileName name) :
    sortPaths (names.map root.entry) = (Converter.sortNames names).map root.entry := by
  refine (List.map_mergeSort fun a ha b hb => ?_).symm
  rw [FilePath.atMost_entry root (hn a ha) (hn b hb)]

def folderNames (entries : List (String × Entry)) : List String :=
  (entries.filter fun e => isFolder e.2).map (·.1)

theorem mem_folderNames {name : String} : name ∈ folderNames entries ↔ (name, .folder) ∈ entries := by
  rw [folderNames, List.mem_map]
  constructor
  · rintro ⟨⟨name, entry⟩, he, rfl⟩
    obtain ⟨he, hf⟩ := List.mem_filter.mp he
    cases entry with
    | folder => exact he
    | file | link | database | special => cases hf
  · exact fun he => ⟨_, List.mem_filter.mpr ⟨he, rfl⟩, rfl⟩

theorem candidates_firsts (ht : files.Named) (hl : files.list root = .ok entries) :
    ∃ names, Text.Firsts maxCandidates (fun name => (name, .folder) ∈ entries) names ∧
      candidates files root = .ok (names.map root.entry) := by
  have hnodup : (folderNames entries).Nodup := (FileTree.names_nodup hl).sublist (List.filter_sublist.map _)
  refine ⟨_, ⟨_, Converter.sortNames_ascending hnodup, fun name => ?_, rfl⟩, ?_⟩
  · rw [Converter.sortNames, List.mem_mergeSort, mem_folderNames]
  · have hpaths : (entries.filter fun e => isFolder e.2).map (fun e => root.entry e.1) =
        (folderNames entries).map root.entry := by
      rw [folderNames, List.map_map]
      rfl
    have hnames : ∀ name ∈ folderNames entries, FileName name :=
      fun name hn => ht.fileName hl _ (mem_folderNames.mp hn)
    rw [candidates, hl, List.map_take, ← sortPaths_entries root hnames, ← hpaths]

/-- Which folders are candidates does not depend on contents, or on the order of the entries. -/
theorem candidates_alike {changed : Place → Prop} (h : Alike changed files files') (ht : files.Named)
    (ht' : files'.Named) (root : FilePath) : candidates files' root = candidates files root := by
  cases hl : files.list root with
  | error e => rw [candidates, candidates, hl, h.list_error hl]
  | ok entries =>
    obtain ⟨entries', hl', -, hkinds⟩ := h.list ht ht' hl
    obtain ⟨names, hfirsts, hnames⟩ := candidates_firsts ht hl
    obtain ⟨names', hfirsts', hnames'⟩ := candidates_firsts ht' hl'
    simp only [hkinds _ .folder rfl] at hfirsts'
    rw [hnames, hnames', hfirsts.unique hfirsts']

/-! ### What is offered -/

/-- Where the files of a folder are that say something about it. -/
def OwnPlace (files : FileTree) (folder : FilePath) (place : Place) : Prop :=
  ∃ name ∈ ownNames, files.place (folder.entry name) = .ok place

/-- The candidates are the first of the folders by their names. The files of a download are the first, by the bytes of
their names, of the entries that are regular files, or lead to one, and are not skipped. None of this depends on the
order of the entries, and when the contents of the files change that say something about a folder, no more changes than
the descriptions, and the sizes of files whose paths lead to these contents. -/
theorem offering_exact {workFolder : FilePath} {url : String} {made : Converter}
    (hmade : Converter.make workFolder url = .ok made) (extra : List String) (hnames : files.Named) :
    (∀ root entries, files.list root = .ok entries →
      ∃ names, Text.Firsts maxCandidates (fun name => (name, .folder) ∈ entries) names ∧
        candidates files root = .ok (names.map root.entry)) ∧
    (∀ folder d, (made.skip extra).convert files folder = .ok d →
      ∃ entries description names, files.list folder = .ok entries ∧
        Converter.description files folder = .ok description ∧
        Text.Firsts Folder.maxFiles (Offered files folder entries (ownNames ++ extra)) names ∧
        List.Forall₂ (Describes files folder entries description) names d.files) ∧
    (∀ files', files'.here = files.here → files'.rights = files.rights → files'.nodes.Perm files.nodes →
      (∀ root, candidates files' root = candidates files root) ∧
      ∀ folder, (made.skip extra).convert files' folder = (made.skip extra).convert files folder) ∧
    (∀ files', files'.Named → ∀ changed, Alike changed files files' → ∀ root,
      candidates files' root = candidates files root) ∧
    ∀ files' folder, files'.Named → Alike (OwnPlace files folder) files files' → ∀ d d',
      (made.skip extra).convert files folder = .ok d → (made.skip extra).convert files' folder = .ok d' →
      List.Forall₂ (fun f f' => f' = { f with size := f'.size, description := f'.description } ∧
        (f'.size = f.size ∨ ∃ place, files.place f.sourcePath = .ok place ∧ OwnPlace files folder place))
        d.files d'.files := by
  have hskip : (made.skip extra).skipped = ownNames ++ extra := by
    rw [Converter.make] at hmade
    split at hmade
    · cases hmade
    · obtain rfl := Except.ok.inj hmade
      rfl
  refine ⟨fun root entries hl => candidates_firsts hnames hl, fun folder d hd => ?_,
    fun files' hhere hrights hperm => ?_, ?_, ?_⟩
  · rw [← hskip]
    exact Converter.files_of_convert hnames hd
  · have hsame := FileTree.alike_of_perm hhere hrights hperm
    have hnames' := hnames.of_perm hperm
    exact ⟨candidates_alike hsame hnames hnames', fun folder => Converter.convert_same hsame hnames hnames'⟩
  · exact fun files' hnames' changed h root => candidates_alike h hnames hnames' root
  · exact fun files' folder hnames' h d d' hd hd' => Converter.convert_alike h hnames hnames' hd hd'

/-! ### A link to the description -/

/-- A folder with a description, and a link to it beside it, by its path from the root. -/
def linked (text : List UInt8) : FileTree where
  nodes := [(["srv"], .folder), (["srv", "share"], .folder), (["srv", "share", "a"], .folder),
    (["srv", "share", "a", "b.txt"], .link ⟨"/srv/share/a/description.md"⟩),
    (["srv", "share", "a", "description.md"], .file text), (["srv", "share", "a", "template.html"], .file [])]
  nodup := by
    show [["srv"], ["srv", "share"], ["srv", "share", "a"], ["srv", "share", "a", "b.txt"],
      ["srv", "share", "a", "description.md"], ["srv", "share", "a", "template.html"]].Nodup
    decide

section Linked

variable {text : List UInt8}

theorem named_linked (text : List UInt8) : (linked text).Named := by
  have hnames : ∀ place ∈ [["srv"], ["srv", "share"], ["srv", "share", "a"], ["srv", "share", "a", "b.txt"],
      ["srv", "share", "a", "description.md"], ["srv", "share", "a", "template.html"]],
      ∀ name ∈ place, FileName name := by decide
  exact FileTree.Proper.named fun node hn =>
    hnames node.1 (List.mem_map_of_mem hn : node.1 ∈ (linked text).nodes.map (·.1))

theorem alike_linked (text text' : List UInt8) :
    Alike (· = ["srv", "share", "a", "description.md"]) (linked text) (linked text') := by
  refine ⟨rfl, rfl, fun place => ?_⟩
  by_cases hp : place = ["srv", "share", "a", "description.md"]
  · exact .inr ⟨hp, .file text, .file text', hp ▸ rfl, hp ▸ rfl, rfl, rfl⟩
  · left
    simp [linked, FileTree.entry?, List.lookup_cons, beq_false_of_ne hp]

/-- The link leads to the description. -/
theorem place_linked (ht : text ∈ [[], [10]]) : ∀ way ∈ [("/srv/share/a", ["srv", "share", "a"]),
    ("/srv/share/a/b.txt", ["srv", "share", "a", "description.md"]),
    ("/srv/share/a/description.md", ["srv", "share", "a", "description.md"]),
    ("/srv/share/a/template.html", ["srv", "share", "a", "template.html"])],
    (linked text).place ⟨way.1⟩ = .ok way.2 := by
  intro way hm
  simp only [List.mem_cons, List.not_mem_nil, or_false] at hm ht
  rcases hm with rfl | rfl | rfl | rfl <;> rcases ht with rfl | rfl <;>
    exact FileTree.place_of_steps 10 (by decide) (by decide) (by decide +kernel)

theorem list_linked (ht : text ∈ [[], [10]]) : (linked text).list ⟨"/srv/share/a"⟩ =
    .ok [("b.txt", .link ⟨"/srv/share/a/description.md"⟩), ("description.md", .file text),
      ("template.html", .file [])] :=
  FileTree.list_eq_ok.mpr ⟨_, place_linked ht ("/srv/share/a", ["srv", "share", "a"]) (by simp), rfl, rfl, rfl⟩

theorem texts_linked (ht : text ∈ [[], [10]]) : Converter.description (linked text) ⟨"/srv/share/a"⟩ = .ok .empty ∧
    Converter.ownText (linked text) ⟨"/srv/share/a"⟩ Folder.templateName = .ok (some "") := by
  have hplace := place_linked ht
  have hdescription : ∀ decoded, FileTree.decodeText text = .ok decoded →
      Converter.ownText (linked text) ⟨"/srv/share/a"⟩ Folder.descriptionName = .ok (some decoded) := fun decoded hd =>
    Converter.ownText_of_file (hplace ("/srv/share/a/description.md", ["srv", "share", "a", "description.md"]) (by simp))
      rfl rfl hd
  refine ⟨?_, Converter.ownText_of_file
    (hplace ("/srv/share/a/template.html", ["srv", "share", "a", "template.html"]) (by simp)) rfl rfl (by decide)⟩
  simp only [List.mem_cons, List.not_mem_nil, or_false] at ht
  rcases ht with rfl | rfl
  · rw [Converter.description, hdescription "" (by decide)]
    rfl
  · rw [Converter.description, hdescription "\n" (by decide)]
    rfl

theorem size_linked (ht : text ∈ [[], [10]]) :
    Converter.size? (linked text) (FilePath.entry ⟨"/srv/share/a"⟩ "b.txt") = some text.length := by
  have hplace := place_linked ht ("/srv/share/a/b.txt", ["srv", "share", "a", "description.md"]) (by simp)
  rw [Converter.size?, FileTree.stat, show FilePath.entry ⟨"/srv/share/a"⟩ "b.txt" = ⟨"/srv/share/a/b.txt"⟩ from rfl,
    hplace]
  rfl

theorem offeredNames_linked (ht : text ∈ [[], [10]]) :
    plain.converter.offeredNames (linked text) ⟨"/srv/share/a"⟩
      [("b.txt", .link ⟨"/srv/share/a/description.md"⟩), ("description.md", .file text),
        ("template.html", .file [])] = ["b.txt"] := by
  have hsort : Converter.sortNames ["b.txt", "description.md", "template.html"] =
      ["b.txt", "description.md", "template.html"] := List.mergeSort_of_pairwise (by decide)
  have hlink : plain.converter.offers (linked text) ⟨"/srv/share/a"⟩ "b.txt" = true := by
    rw [Converter.offers, size_linked ht]
    rfl
  have hskipped : ∀ name ∈ ["description.md", "template.html"],
      plain.converter.offers (linked text) ⟨"/srv/share/a"⟩ name = false := by
    intro name hn
    rw [Converter.offers, show plain.converter.skipped.contains name = true by revert name; decide]
    rfl
  simp [Converter.offeredNames, hsort, hlink, hskipped, Folder.maxFiles]

/-- The link is offered with the size of the description. -/
theorem convert_linked (ht : text ∈ [[], [10]]) : ∃ d, plain.converter.convert (linked text) ⟨"/srv/share/a"⟩ = .ok d ∧
    d.files.map (fun f => (f.name, f.size)) = [("b.txt", text.length)] := by
  obtain ⟨d, hd⟩ := @Converter.convert_succeeds plain.converter (linked text) ⟨"/srv/share/a"⟩ [.normal "a"] _ .empty
    (some "") (by decide) (list_linked ht) (by rw [offeredNames_linked ht]; simp) (texts_linked ht).1
    (texts_linked ht).2 fun p => rfl
  obtain ⟨f, description, hfiles, hf⟩ :=
    Converter.file_of_single (named_linked text) (list_linked ht) (offeredNames_linked ht) hd
  obtain ⟨entry, he, hsize⟩ := hf.size
  have hlink : entry = .link ⟨"/srv/share/a/description.md"⟩ := by simpa using he
  rw [hlink, Converter.entrySize?, size_linked ht] at hsize
  refine ⟨d, hd, ?_⟩
  rw [hfiles, List.map_singleton, hf.name, Option.some.inj hsize]

/-- A description that gets longer. -/
theorem offering_exact_linked :
    Converter.make ⟨"/srv/share"⟩ "" = .ok plain.converter ∧ (linked []).Named ∧
    candidates (linked [10]) ⟨"/srv/share"⟩ = candidates (linked []) ⟨"/srv/share"⟩ ∧
    ∃ d d', plain.converter.convert (linked []) ⟨"/srv/share/a"⟩ = .ok d ∧
      plain.converter.convert (linked [10]) ⟨"/srv/share/a"⟩ = .ok d' ∧ d.files.length = 1 ∧
      List.Forall₂ (fun f f' => f' = { f with size := f'.size, description := f'.description }) d.files d'.files := by
  have hmake : Converter.make ⟨"/srv/share"⟩ "" = .ok plain.converter := by decide
  have hempty : [] ∈ [[], [(10 : UInt8)]] := by simp
  have hplace : (linked []).place (FilePath.entry ⟨"/srv/share/a"⟩ Folder.descriptionName) =
      .ok ["srv", "share", "a", "description.md"] :=
    place_linked hempty ("/srv/share/a/description.md", ["srv", "share", "a", "description.md"]) (by simp)
  have hown : Alike (OwnPlace (linked []) ⟨"/srv/share/a"⟩) (linked []) (linked [10]) :=
    (alike_linked [] [10]).mono fun place hp => ⟨Folder.descriptionName, by decide, hp ▸ hplace⟩
  obtain ⟨d, hd, hfiles⟩ := convert_linked hempty
  obtain ⟨d', hd', -⟩ := @convert_linked [10] (by simp)
  obtain ⟨-, -, -, hcandidates, hchange⟩ := offering_exact hmake [] (named_linked [])
  refine ⟨hmake, named_linked [], hcandidates _ (named_linked [10]) _ (alike_linked [] [10]) _, d, d', hd, hd', ?_, ?_⟩
  · have hlength := congrArg List.length hfiles
    rwa [List.length_map] at hlength
  · exact (hchange _ _ (named_linked [10]) hown d d' hd hd').imp fun f f' hf => hf.1

end Linked

/-! ### A long path -/

/-- A folder in the work folder, with many dots on the way to it. -/
def winding (dots : Nat) : FilePath := ⟨"/srv/share" ++ String.join (List.replicate dots "/.") ++ "/a"⟩

theorem utf8ByteSize_winding (dots : Nat) : (winding dots).text.utf8ByteSize = 2 * dots + 12 := by
  have hjoin : (String.join (List.replicate dots "/.")).utf8ByteSize = 2 * dots := by
    induction dots with
    | zero => rfl
    | succ dots ih =>
      rw [List.replicate_succ, String.join_cons, String.utf8ByteSize_append, ih, Nat.mul_succ, Nat.add_comm]
      rfl
  have hfirst : "/srv/share".utf8ByteSize = 10 := rfl
  have hlast : "/a".utf8ByteSize = 2 := rfl
  rw [winding, String.utf8ByteSize_append, String.utf8ByteSize_append, hjoin, hfirst, hlast]
  omega

theorem utf8ByteSize_winding_entry (dots : Nat) (name : String) :
    ((winding dots).entry name).text.utf8ByteSize = 2 * dots + 13 + name.utf8ByteSize := by
  have hlast : (winding dots).text.toList.getLast? = some 'a' := by
    rw [winding, String.toList_append]
    exact List.getLast?_append_of_ne_nil _ (by decide)
  have htext : (winding dots).entry name = ⟨(winding dots).text ++ "/" ++ name⟩ := by
    rw [FilePath.entry, hlast]
    rfl
  have hseparator : "/".utf8ByteSize = 1 := rfl
  rw [htext, String.utf8ByteSize_append, String.utf8ByteSize_append, utf8ByteSize_winding, hseparator]

theorem segments_winding (dots : Nat) : (winding dots).segments =
    [] :: "srv".toList :: "share".toList :: (List.replicate dots ['.'] ++ ["a".toList]) := by
  have hfront : ∀ front, separator ∉ front →
      Text.segments separator (front ++ (String.join (List.replicate dots "/.") ++ "/a").toList) =
        front :: (List.replicate dots ['.'] ++ ["a".toList]) := by
    induction dots with
    | zero =>
      intro front hf
      exact (Text.segments_append separator front ['a']).trans (by rw [Text.segments_of_not_mem hf]; rfl)
    | succ dots ih =>
      intro front hf
      rw [List.replicate_succ, String.join_cons, String.append_assoc, String.toList_append]
      refine (Text.segments_append separator front (['.'] ++ _)).trans ?_
      rw [Text.segments_of_not_mem hf, ih ['.'] (by decide)]
      rfl
  have hroot : ∀ rest, Text.segments separator ("/srv/share".toList ++ rest) =
      [] :: "srv".toList :: Text.segments separator ("share".toList ++ rest) := fun rest =>
    (Text.segments_append separator [] (['s', 'r', 'v'] ++ separator :: ("share".toList ++ rest))).trans
      (congrArg ([[]] ++ ·) (Text.segments_append separator ['s', 'r', 'v'] ("share".toList ++ rest)))
  rw [FilePath.segments, winding, String.append_assoc, String.toList_append, hroot, hfront "share".toList (by decide)]

theorem components_winding (dots : Nat) :
    (winding dots).components = [.root, .normal "srv", .normal "share", .normal "a"] := by
  have hdots : (List.replicate dots ['.']).filterMap Component.ofSegment? = [] := by
    simp [Component.ofSegment?]
  rw [FilePath.components, FilePath.anchor, segments_winding, List.filterMap_cons, List.filterMap_cons,
    List.filterMap_cons, List.filterMap_append, hdots]
  rfl

theorem walk_dots {t : FileTree} {place : Place} (hp : t.obstacle? place ['.'] = none) (links dots : Nat)
    (rest : List (List Char)) :
    t.walk true links place (List.replicate dots ['.'] ++ rest) = t.walk true links place rest := by
  induction dots with
  | zero => rfl
  | succ dots ih =>
    rw [List.replicate_succ, List.cons_append, FileTree.walk_next (FileTree.step_silent hp (.inr rfl)), ih]

/-- A folder with two files. -/
def far : FileTree where
  nodes := [(["srv"], .folder), (["srv", "share"], .folder), (["srv", "share", "a"], .folder),
    (["srv", "share", "a", "b"], .file []), (["srv", "share", "a", "fifteen-letters"], .file []),
    (["srv", "share", "a", "template.html"], .file [])]
  nodup := by decide

theorem place_far : far.place (winding 2034) = .ok ["srv", "share", "a"] := by
  refine FileTree.place_of_walk ?_ (fun he => ?_) (segments_winding 2034) ?_
  · rw [utf8ByteSize_winding]
    decide
  · have hsize := utf8ByteSize_winding 2034
    rw [he] at hsize
    cases hsize
  · have hinto : ∀ start name rest, (start, name) ∈ [([], "srv"), (["srv"], "share"), (["srv", "share"], "a")] →
        far.walk true FileTree.maxLinks start (name.toList :: rest) =
          far.walk true FileTree.maxLinks (start ++ [name]) rest := by
      intro start name rest hm
      simp only [List.mem_cons, List.not_mem_nil, or_false, Prod.mk.injEq] at hm
      have hfolder : ∀ place ∈ [["srv"], ["srv", "share"], ["srv", "share", "a"]], far.entry? place = some .folder := by
        decide
      rcases hm with ⟨rfl, rfl⟩ | ⟨rfl, rfl⟩ | ⟨rfl, rfl⟩ <;>
        exact FileTree.walk_into ⟨by decide, by decide, by decide, by decide⟩ (hfolder _ (by decide)) (by simp)
    have hstart : (winding 2034).start far.here = [] := by
      rw [FilePath.start]
      split <;> rfl
    rw [hstart, FileTree.walk_next (FileTree.step_silent rfl (.inl rfl)), hinto _ _ _ (by simp),
      hinto _ _ _ (by simp)]
    exact (walk_dots rfl _ _ _).trans ((hinto ["srv", "share"] "a" [] (by simp)).trans FileTree.walk_nil)

theorem list_far : far.list (winding 2034) =
    .ok [("b", .file []), ("fifteen-letters", .file []), ("template.html", .file [])] :=
  FileTree.list_eq_ok.mpr ⟨_, place_far, rfl, rfl, rfl⟩

theorem place_far_entry {name : String} {content : List UInt8}
    (he : far.entry? (["srv", "share", "a"] ++ [name]) = some (.file content)) (hn : FileName name)
    (hv : FileTree.validName name = true) (hlength : name.utf8ByteSize ≤ 14) :
    far.place ((winding 2034).entry name) = .ok (["srv", "share", "a"] ++ [name]) := by
  refine FileTree.place_entry rfl place_far hn ⟨hv, ?_, _, place_far, rfl⟩ he (by simp)
  rw [utf8ByteSize_winding_entry, FileTree.maxPath]
  omega

theorem texts_far : Converter.description far (winding 2034) = .ok .empty ∧
    Converter.ownText far (winding 2034) Folder.templateName = .ok (some "") := by
  have hlength : ((winding 2034).entry Folder.descriptionName).text.utf8ByteSize ≤ FileTree.maxPath := by
    rw [utf8ByteSize_winding_entry]
    decide
  have hdescription : far.place ((winding 2034).entry Folder.descriptionName) = .error .notFound := by
    obtain ⟨left, hfind⟩ := FileTree.find_entry place_far (by decide) hlength
    rw [FileTree.walk_past ⟨by decide, by decide, by decide, by decide⟩ (by decide), if_pos rfl] at hfind
    rw [FileTree.place, hfind]
  have htemplate : far.place ((winding 2034).entry Folder.templateName) = .ok ["srv", "share", "a", "template.html"] :=
    place_far_entry rfl (by decide) (by decide) (by decide)
  refine ⟨?_, Converter.ownText_of_file htemplate rfl rfl (by decide)⟩
  rw [Converter.description, Converter.ownText_of_absent hdescription]
  rfl

theorem offeredNames_far : plain.converter.offeredNames far (winding 2034)
    [("b", .file []), ("fifteen-letters", .file []), ("template.html", .file [])] = ["b"] := by
  have hsort : Converter.sortNames ["b", "fifteen-letters", "template.html"] =
      ["b", "fifteen-letters", "template.html"] := List.mergeSort_of_pairwise (by decide)
  have hshort : plain.converter.offers far (winding 2034) "b" = true := by
    rw [Converter.offers, Converter.size?, FileTree.stat, place_far_entry rfl (by decide) (by decide) (by decide)]
    rfl
  have hlong : plain.converter.offers far (winding 2034) "fifteen-letters" = false := by
    have hlength : FileTree.maxPath < ((winding 2034).entry "fifteen-letters").text.utf8ByteSize := by
      rw [utf8ByteSize_winding_entry]
      decide
    rw [Converter.offers, Converter.size?, FileTree.stat, FileTree.place, FileTree.find, if_pos hlength]
    rfl
  have hskipped : plain.converter.offers far (winding 2034) "template.html" = false := by
    rw [Converter.offers, show plain.converter.skipped.contains "template.html" = true by decide]
    rfl
  simp [Converter.offeredNames, hsort, hshort, hlong, hskipped, Folder.maxFiles]

/-- The file with the longer name is left out. -/
theorem convert_far : ∃ d, plain.converter.convert far (winding 2034) = .ok d ∧ d.files.map (·.name) = ["b"] := by
  have hbelow : plain.converter.below (winding 2034) = .ok [.normal "a"] := by
    refine Converter.below_ok_iff.mpr ⟨?_, ?_⟩
    · rw [components_winding]
      decide
    · rw [components_winding]
      rfl
  obtain ⟨d, hd⟩ := @Converter.convert_succeeds plain.converter far (winding 2034) [.normal "a"] _ .empty (some "")
    hbelow list_far (by rw [offeredNames_far]; simp) texts_far.1 texts_far.2 fun p => rfl
  have hnames : far.Proper := by
    unfold FileTree.Proper
    decide
  obtain ⟨f, description, hfiles, hf⟩ := Converter.file_of_single hnames.named list_far offeredNames_far hd
  exact ⟨d, hd, by rw [hfiles, List.map_singleton, hf.name]⟩

/-! ### What else counts -/

/-- More than the entries of a folder counts for what is offered: a link has the size of the description that it leads
to, and a regular file is left out if its path is too long. -/
theorem offering_beyond_entries :
    (Alike (· = ["srv", "share", "a", "description.md"]) (linked []) (linked [10]) ∧
      ∃ d d', plain.converter.convert (linked []) ⟨"/srv/share/a"⟩ = .ok d ∧
        plain.converter.convert (linked [10]) ⟨"/srv/share/a"⟩ = .ok d' ∧
        d.files.map (fun f => (f.name, f.size)) = [("b.txt", 0)] ∧
        d'.files.map (fun f => (f.name, f.size)) = [("b.txt", 1)]) ∧
    far.list (winding 2034) =
      .ok [("b", .file []), ("fifteen-letters", .file []), ("template.html", .file [])] ∧
    "fifteen-letters" ∉ ownNames ∧
    ∃ d, plain.converter.convert far (winding 2034) = .ok d ∧ d.files.map (·.name) = ["b"] := by
  obtain ⟨d, hd, hsize⟩ := @convert_linked [] (by simp)
  obtain ⟨d', hd', hsize'⟩ := @convert_linked [10] (by simp)
  exact ⟨⟨alike_linked [] [10], d, d', hd, hd', hsize, hsize'⟩, list_far, by decide, convert_far⟩

end Index
end ShareIndex
