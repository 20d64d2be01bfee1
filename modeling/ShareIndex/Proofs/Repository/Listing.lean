import ShareIndex.Proofs.Repository.Readers

/-!
# ShareIndex.Proofs.Repository.Listing

The listing of all counters: what it is made of, and that it tells of the same downloads, files and counters as the
other readers of the active generation do. They find a counter by its place in an answer, by its place in a list of
entries, or not at all; the places have to match.

* `Legible`         — states in which the active generation and the counters can be read.
* `listed`          — the downloads, with their files and counters, as the store has them.
* `allCounters_run` — on a legible state the listing is exactly that.
* `Told`            — what is told of one download.
* `readers_agree`   — the three readers tell the same.
-/

namespace ShareIndex
namespace Repository

open Store (Backend Fillable Keyspace hashOf Hash)
open Share (DownloadCounters FileCounter Summary)

/-- The maps of the active generation are hashes, or missing, and so are the counters, which are integers. -/
structure Legible (s : Shared Backend) : Prop where
  opened : s.store.access ≠ .closed
  downloads : ∀ g, s.holder = some g → Fillable (s.store.value? (Key.downloads g))
  downloadFiles : ∀ g, s.holder = some g → ∀ id, Fillable (s.store.value? (Key.downloadFiles g id))
  counters : Countable s.store

/-- Where the downloads of a generation are. -/
def downloadMap (s : Backend) (g : Generation) : Hash := hashOf (s.value? (Key.downloads g))

/-- The urls of the files of a download, by their ids. -/
def urlMap (s : Backend) (g : Generation) (id : String) : Hash := hashOf (s.value? (Key.downloadFiles g id))

def fileCounter (s : Backend) (file url : String) : FileCounter := .ofUrl file url ((counterAt s file).getD 0)

def downloadCounters (s : Backend) (g : Generation) (id path : String) : DownloadCounters :=
  ⟨id, path, (urlMap s g id).entries.map fun e => fileCounter s e.1 e.2⟩

def listed (s : Shared Backend) : List DownloadCounters :=
  match s.holder with
  | none => []
  | some g => (downloadMap s.store g).entries.map fun e => downloadCounters s.store g e.1 e.2

section Enumeration

variable {s : Shared Backend} {g : Generation}

theorem listed_of_holder (hg : s.holder = some g) :
    listed s = (downloadMap s.store g).entries.map fun e => downloadCounters s.store g e.1 e.2 := by
  rw [listed, hg]

/-- The values of the counters stand in the order of the files that were asked for. -/
theorem counterValues_perform (h : Legible s) (files : List String) :
    (counterValues files).perform s = (.ok (files.map (counterText s.store)), s) := by
  cases files with
  | nil => rfl
  | cons file rest =>
    exact perform_read rfl (s.store.perform_getFields (file :: rest) h.opened h.counters.fillable)

theorem zip_values (s : Backend) (entries : List (String × String)) :
    ((entries.zip ((entries.map (·.1)).map (counterText s))).map fun ((file, url), value) =>
        FileCounter.ofUrl file url ((counterOf? value).getD 0)) =
      entries.map fun e => fileCounter s e.1 e.2 := by
  induction entries with
  | nil => rfl
  | cons e rest ih =>
    simp only [List.map_cons, List.zip_cons_cons, ih]
    rfl

theorem countersOf_perform (h : Legible s) (hg : s.holder = some g) (id path : String) :
    (countersOf g id path).perform s = (.ok (downloadCounters s.store g id path), s) := by
  have hfiles := s.store.perform_getAll h.opened (h.downloadFiles g hg id)
  have hvalues := counterValues_perform h (urlMap s.store g id).keys
  rw [countersOf, perform_bind (perform_read rfl hfiles)]
  refine (perform_bind hvalues).trans ?_
  show (Except.ok (DownloadCounters.mk id path _), s) = _
  rw [OrderedMap.keys]
  exact congrArg (fun files => (Except.ok (DownloadCounters.mk id path files), s)) (zip_values s.store _)

theorem countersOfEach_run (h : Legible s) (hg : s.holder = some g) (entries : List (String × String)) :
    (countersOfEach g entries).run s =
      ((entries.map fun e => downloadCounters s.store g e.1 e.2, none), s) := by
  induction entries with
  | nil => rfl
  | cons e rest ih =>
    have hfirst : (countersOf g e.1 e.2).run.run s = (.ok (downloadCounters s.store g e.1 e.2), s) :=
      countersOf_perform h hg e.1 e.2
    refine (Program.run_bind _ _ s).trans ?_
    rw [hfirst]
    refine (Program.run_bind _ _ s).trans ?_
    rw [ih]
    rfl

/-- The listing is what the store has, and nothing is changed. -/
theorem allCounters_run (h : Legible s) : allCounters.run s = ((listed s, none), s) := by
  refine (Program.run_bind _ _ s).trans ?_
  rw [show readHolder.run.run s = (.ok s.holder, s) from rfl]
  cases hg : s.holder with
  | none =>
    rw [listed, hg]
    rfl
  | some g =>
    have hdownloads : (request .store (.getAll (Key.downloads g))).run.run s = (.ok (downloadMap s.store g), s) :=
      perform_read rfl (s.store.perform_getAll h.opened (h.downloads g hg))
    refine (Program.run_bind _ _ s).trans ?_
    rw [hdownloads, listed_of_holder hg]
    exact countersOfEach_run h hg _

end Enumeration

/-! ### The other readers -/

/-- Entries that already stand in the order of their keys stay as they are. -/
theorem entries_ofList {V : Type} {l : List (String × V)} (h : Ascending l) : (OrderedMap.ofList l).entries = l := by
  have hmap : OrderedMap.ofList l = ⟨l, h⟩ := by
    refine OrderedMap.ext_get? fun key => ?_
    rw [OrderedMap.ofList, get?_foldl_insert, OrderedMap.get?_empty, Option.or_none]
    cases hl : lastWhere? (fun e => e.1 = key) l with
    | none =>
      have hnone := lastWhere?_eq_none.mp hl
      cases hk : OrderedMap.lookup key l with
      | none => exact hk.symm
      | some v => exact absurd (hnone _ (OrderedMap.mem_of_lookup hk)) (by simp)
    | some e =>
      obtain ⟨hm, hp⟩ := mem_of_lastWhere? hl
      obtain rfl := of_decide_eq_true hp
      exact (OrderedMap.lookup_of_mem h hm).symm
  rw [hmap]

/-- What the store has, and what another reader answers, about a download of the listing. The answer has the files in
the same order. -/
structure Told (s : Shared Backend) (g : Generation) (c : DownloadCounters) : Prop where
  path : (downloadMap s.store g).get? c.id = some c.path
  urls : (urlMap s.store g c.id).entries = c.files.map fun f => (f.id, f.url)
  counts : ∀ f ∈ c.files, counterAt s.store f.id = some f.counter
  answered : ∃ answer, (counters c.id).perform s = (.ok answer, s) ∧
    answer.entries = c.files.map fun f => (f.id, f.counter)

section Readers

variable {s : Shared Backend} {g : Generation}

theorem Legible.counted (h : Legible s) (file : String) :
    counterAt s.store file = some ((counterAt s.store file).getD 0) := by
  obtain ⟨n, hn⟩ := Option.isSome_iff_exists.mp (h.counters.integer file)
  rw [hn]
  rfl

/-- The counters of one download are found by the ids of its files alone. -/
theorem counters_listed (h : Legible s) (hg : s.holder = some g) (id : String) :
    ∃ answer, (counters id).perform s = (.ok answer, s) ∧
      answer.entries = (urlMap s.store g id).entries.map fun e => (e.1, (counterAt s.store e.1).getD 0) := by
  refine ⟨_, counters_perform hg h.opened h.counters.fillable (h.downloadFiles g hg id), ?_⟩
  have hall : ∀ files : List String, (files.filterMap fun file => (counterAt s.store file).map fun n => (file, n)) =
      files.map fun file => (file, (counterAt s.store file).getD 0) := fun files => by
    rw [← List.filterMap_eq_map]
    refine List.filterMap_congr fun file _ => ?_
    rw [h.counted file]
    rfl
  have hmap : ((urlMap s.store g id).keys.map fun file => (file, (counterAt s.store file).getD 0)) =
      (urlMap s.store g id).entries.map fun e => (e.1, (counterAt s.store e.1).getD 0) := by
    rw [OrderedMap.keys, List.map_map]
    rfl
  rw [show hashOf (s.store.value? (Key.downloadFiles g id)) = urlMap s.store g id from rfl, hall, hmap]
  refine entries_ofList ?_
  rw [Ascending, List.pairwise_map]
  exact (urlMap s.store g id).ascending

theorem told_of_mem (h : Legible s) (hg : s.holder = some g) {c : DownloadCounters} (hc : c ∈ listed s) : Told s g c := by
  rw [listed_of_holder hg, List.mem_map] at hc
  obtain ⟨e, he, rfl⟩ := hc
  have hfiles : (downloadCounters s.store g e.1 e.2).files =
      (urlMap s.store g e.1).entries.map fun e => fileCounter s.store e.1 e.2 := rfl
  refine ⟨OrderedMap.get?_eq_some_iff.mpr he, ?_, ?_, ?_⟩
  · rw [hfiles, List.map_map]
    exact (List.map_id _).symm
  · rw [hfiles, List.forall_mem_map]
    exact fun f _ => h.counted f.1
  · obtain ⟨answer, ha, hentries⟩ := counters_listed h hg e.1
    refine ⟨answer, ha, hentries.trans ?_⟩
    rw [hfiles, List.map_map]
    rfl

theorem isEmpty_listed (hg : s.holder = some g) : listed s = [] ↔ (downloadMap s.store g).isEmpty = true := by
  rw [listed_of_holder hg, List.map_eq_nil_iff, OrderedMap.isEmpty, List.isEmpty_iff]

theorem summariesById_listed (hg : s.holder = some g) :
    summariesById s.store g = (listed s).map fun c => ⟨c.id, ⟨c.path⟩, c.files.length⟩ := by
  rw [listed_of_holder hg, List.map_map, summariesById]
  refine List.map_congr_left fun e _ => ?_
  simp [downloadCounters, OrderedMap.size, urlMap]

/-- The summaries are those of the downloads of the listing. -/
theorem info_listed (h : Legible s) : ∃ result, info.perform s = (result, s) ∧ match result with
    | .error e => e = .noDownloads ∧ listed s = []
    | .ok summaries => listed s ≠ [] ∧ summaries.Perm ((listed s).map fun c => ⟨c.id, ⟨c.path⟩, c.files.length⟩) := by
  cases hg : s.holder with
  | none =>
    refine ⟨.error .noDownloads, ?_, rfl, by rw [listed, hg]⟩
    rw [info, perform_bind (perform_readHolder s), hg]
    rfl
  | some g =>
    refine ⟨_, info_perform hg h.opened (h.downloads g hg) (h.downloadFiles g hg), ?_⟩
    by_cases he : (downloadMap s.store g).isEmpty = true
    · rw [show hashOf (s.store.value? (Key.downloads g)) = downloadMap s.store g from rfl, if_pos he]
      exact ⟨rfl, (isEmpty_listed hg).mpr he⟩
    · rw [show hashOf (s.store.value? (Key.downloads g)) = downloadMap s.store g from rfl, if_neg he]
      exact ⟨fun hl => he ((isEmpty_listed hg).mp hl), summariesById_listed hg ▸ List.mergeSort_perm _ _⟩

/-- The listing has each download of the active generation once, the summaries are those of its downloads, and what is
answered about one of them is what the listing has. -/
theorem readers_agree (h : Legible s) : ∃ listing, allCounters.run s = ((listing, none), s) ∧
    (∃ result, info.perform s = (result, s) ∧ match result with
      | .error e => e = .noDownloads ∧ listing = []
      | .ok summaries => listing ≠ [] ∧ summaries.Perm (listing.map fun c => ⟨c.id, ⟨c.path⟩, c.files.length⟩)) ∧
    match s.holder with
      | none => listing = []
      | some g => (listing.map fun c => (c.id, c.path)) = (downloadMap s.store g).entries ∧
          ∀ c ∈ listing, Told s g c := by
  refine ⟨listed s, allCounters_run h, info_listed h, ?_⟩
  cases hg : s.holder with
  | none => rw [listed, hg]
  | some g =>
    refine ⟨?_, fun c hc => told_of_mem h hg hc⟩
    rw [listed_of_holder hg, List.map_map]
    exact List.map_id _

end Readers

theorem fillable_of_entries {s : Keyspace} (h : ∀ e ∈ s.values.entries, e.1 = Key.active ∨ Fillable (some e.2))
    {key : String} (hk : key ≠ Key.active) : Fillable ((Backend.memory s).value? key) := by
  cases hv : (Backend.memory s).value? key with
  | none => trivial
  | some v => exact (h (key, v) (OrderedMap.get?_eq_some_iff.mp hv)).resolve_left hk

/-- A download with two files, of which one has been fetched. The texts have marks, a line feed and a backslash. -/
def shelf : Shared Backend where
  store := .memory ⟨.ofList [("av", .text "A"), ("dm:A", .hash (.ofList [("d", "a \"new\"\nshow")])),
    ("dfm:A:d", .hash (.ofList [("f", "/d/a.mp3"), ("g", "/d/b\\c")])), ("fs", .hash (.ofList [("g", "-3")]))]⟩
  holder := some .a

theorem fillable_shelf {key : String} (h : key ≠ Key.active) : Fillable (shelf.store.value? key) :=
  fillable_of_entries (by decide) h

theorem counterAt_shelf (file : String) : counterAt shelf.store file = if file = "g" then some (-3) else some 0 := by
  have htext : counterText shelf.store file = if file = "g" then some "-3" else none := rfl
  rw [counterAt, htext]
  split <;> rfl

theorem legible_shelf : Legible shelf where
  opened := by decide
  downloads g _ := fillable_shelf fun h => Key.not_scoped_active g (h ▸ Key.scoped_downloads g)
  downloadFiles g _ id := fillable_shelf fun h => Key.not_scoped_active g (h ▸ Key.scoped_downloadFiles g id)
  counters := {
    fillable := fillable_shelf (by decide)
    integer := fun file => by
      rw [counterAt_shelf]
      split <;> rfl }

def shelved : DownloadCounters :=
  ⟨"d", "a \"new\"\nshow", [⟨"f", "a.mp3", "/d/a.mp3", 0⟩, ⟨"g", "b\\c", "/d/b\\c", -3⟩]⟩

theorem allCounters_shelf : allCounters.run shelf = (([shelved], none), shelf) := by rfl

theorem readers_agree_shelf : allCounters.run shelf = (([shelved], none), shelf) ∧ Told shelf .a shelved := by
  obtain ⟨listing, hrun, -, -, htold⟩ := readers_agree legible_shelf
  obtain rfl : listing = [shelved] := congrArg (·.1.1) (hrun.symm.trans allCounters_shelf)
  exact ⟨hrun, htold _ (List.mem_singleton_self _)⟩

end Repository
end ShareIndex
