import ShareIndex.Repository.Publish
import ShareIndex.Proofs.Store.Effect
import ShareIndex.Proofs.Repository.Layout

/-!
# ShareIndex.Proofs.Repository.Batch

What a batch looks like in a generation. Of several items with the same id the last one counts.

* `entries`      — the fields that a batch sets, in their order; `commands_eq` says that this is all it does.
* `lastWhere?`   — the last item of a list with a property.
* `Maps`         — a value is a hash with given fields, and nothing else.
* `Holds`        — a generation is exactly what a batch describes.
* `Within`       — whatever is in a generation has been set by a batch.
* `holds_filled`, `within_filled` — after all, or some, of the fields have been set in an empty generation.
-/

namespace ShareIndex
namespace Repository

open Store (Backend Value Hash FieldEntry Fillable hashOf fill setFields assignments assignments_cons assignments_nil)
open Share (Download SharedFile)

def fileEntries (g : Generation) (download : String) (file : SharedFile) : List FieldEntry :=
  [⟨Key.files g, file.id, file.url⟩, ⟨Key.downloadFiles g download, file.id, file.url⟩]

def downloadEntries (g : Generation) (download : Download) : List FieldEntry :=
  [⟨Key.downloads g, download.id, download.sourcePath.text⟩, ⟨Key.pages g, download.id, download.pageContent⟩]
    ++ download.files.flatMap (fileEntries g download.id)

def entries (g : Generation) (batch : List Download) : List FieldEntry := batch.flatMap (downloadEntries g)

theorem commands_eq (g : Generation) (batch : List Download) :
    commands g batch = (entries g batch).map FieldEntry.command := by
  have hd : ∀ d, downloadCommands g d = (downloadEntries g d).map FieldEntry.command := by
    intro d
    rw [downloadCommands, downloadEntries, List.map_append, List.map_flatMap]
    rfl
  rw [commands, entries, List.map_flatMap]
  exact congrArg (List.flatMap · batch) (funext hd)

theorem mem_entries {g : Generation} {batch : List Download} {e : FieldEntry} (h : e ∈ entries g batch) :
    e.key = Key.downloads g ∨ e.key = Key.pages g ∨ e.key = Key.files g ∨
      ∃ d ∈ batch, e.key = Key.downloadFiles g d.id := by
  obtain ⟨d, hd, he⟩ := List.mem_flatMap.mp h
  rcases List.mem_append.mp he with he | he
  · rcases List.mem_cons.mp he with rfl | he
    · exact .inl rfl
    · obtain rfl := List.mem_singleton.mp he
      exact .inr (.inl rfl)
  · obtain ⟨f, -, he⟩ := List.mem_flatMap.mp he
    rcases List.mem_cons.mp he with rfl | he
    · exact .inr (.inr (.inl rfl))
    · obtain rfl := List.mem_singleton.mp he
      exact .inr (.inr (.inr ⟨d, hd, rfl⟩))

theorem scoped_of_mem_entries {g : Generation} {batch : List Download} {e : FieldEntry} (h : e ∈ entries g batch) :
    Key.Scoped g e.key := by
  rcases mem_entries h with he | he | he | ⟨d, -, he⟩ <;> rw [he]
  · exact Key.scoped_downloads g
  · exact Key.scoped_pages g
  · exact Key.scoped_files g
  · exact Key.scoped_downloadFiles g d.id

/-! ### Last occurrences -/

section Last

variable {α β : Type}

def lastWhere? (p : α → Bool) (l : List α) : Option α := l.reverse.find? p

theorem lastWhere?_cons (p : α → Bool) (a : α) (l : List α) :
    lastWhere? p (a :: l) = (lastWhere? p l).or (if p a then some a else none) := by
  rw [lastWhere?, List.reverse_cons, List.find?_append, List.find?_singleton]
  rfl

theorem lastWhere?_map (p : β → Bool) (f : α → β) (l : List α) :
    lastWhere? p (l.map f) = (lastWhere? (fun a => p (f a)) l).map f := by
  rw [lastWhere?, ← List.map_reverse, List.find?_map]
  rfl

theorem lastWhere?_eq_none {p : α → Bool} {l : List α} : lastWhere? p l = none ↔ ∀ a ∈ l, p a = false := by
  simp [lastWhere?]

theorem mem_of_lastWhere? {p : α → Bool} {l : List α} {a : α} (h : lastWhere? p l = some a) : a ∈ l ∧ p a = true :=
  ⟨List.mem_reverse.mp (List.mem_of_find?_eq_some h), List.find?_some h⟩

end Last

/-- A key has the value that was set last. -/
theorem get?_foldl_insert {V : Type} (m : OrderedMap String V) (l : List (String × V)) (key : String) :
    (l.foldl (fun m e => m.insert e.1 e.2) m).get? key =
      ((lastWhere? (fun e => e.1 = key) l).map (·.2)).or (m.get? key) := by
  induction l generalizing m with
  | nil => rfl
  | cons e l ih =>
    rw [List.foldl_cons, ih, OrderedMap.get?_insert, lastWhere?_cons]
    cases lastWhere? (fun e => e.1 = key) l with
    | some last => rfl
    | none =>
      by_cases h : e.1 = key
      · simp [h]
      · have h' : key ≠ e.1 := fun he => h he.symm
        simp [h, h']

theorem get?_setFields (fields : Hash) (l : List (String × String)) (field : String) :
    (setFields fields l).get? field = ((lastWhere? (fun e => e.1 = field) l).map (·.2)).or (fields.get? field) :=
  get?_foldl_insert fields l field

/-- The value is a hash with these fields; it is missing if there are none. -/
structure Maps (v : Option Value) (f : String → Option String) : Prop where
  fillable : Fillable v
  fields : ∀ field, (hashOf v).get? field = f field
  missing : v = none ↔ ∀ field, f field = none

theorem maps_fill (l : List (String × String)) :
    Maps (fill none l) fun field => (lastWhere? (fun e => e.1 = field) l).map (·.2) := by
  refine ⟨Store.fillable_fill (v := none) trivial l, fun field => ?_, ?_⟩
  · cases l with
    | nil => rfl
    | cons e l =>
      refine (get?_setFields _ (e :: l) field).trans ?_
      rw [show (hashOf none).get? field = none from rfl, Option.or_none]
  · cases l with
    | nil => simp [fill, lastWhere?]
    | cons e l =>
      simp only [fill, reduceCtorEq, if_false, false_iff]
      intro h
      have := Option.map_eq_none_iff.mp (h e.1)
      have := lastWhere?_eq_none.mp this e List.mem_cons_self
      simp at this

theorem maps_fill_map {α : Type} (id value : α → String) (l : List α) :
    Maps (fill none (l.map fun a => (id a, value a))) fun field =>
      (lastWhere? (fun a => id a = field) l).map value := by
  have := maps_fill (l.map fun a => (id a, value a))
  simp only [lastWhere?_map, Option.map_map] at this
  exact this

/-! ### Generations -/

/-- The files of all downloads with an id. -/
def filesOf (download : String) (batch : List Download) : List SharedFile :=
  batch.flatMap fun d => if d.id = download then d.files else []

structure Holds (s : Backend) (g : Generation) (batch : List Download) : Prop where
  downloads : Maps (s.value? (Key.downloads g)) fun id =>
    (lastWhere? (fun d => d.id = id) batch).map (·.sourcePath.text)
  pages : Maps (s.value? (Key.pages g)) fun id => (lastWhere? (fun d => d.id = id) batch).map (·.pageContent)
  files : Maps (s.value? (Key.files g)) fun id =>
    (lastWhere? (fun f => f.id = id) (batch.flatMap (·.files))).map (·.url)
  downloadFiles : ∀ download, Maps (s.value? (Key.downloadFiles g download)) fun id =>
    (lastWhere? (fun f => f.id = id) (filesOf download batch)).map (·.url)
  others : ∀ key, Key.Scoped g key → key ≠ Key.downloads g → key ≠ Key.pages g → key ≠ Key.files g →
    (∀ download, key ≠ Key.downloadFiles g download) → s.value? key = none

def Within (s : Backend) (g : Generation) (batch : List Download) : Prop :=
  ∀ key, Key.Scoped g key → s.value? key = none ∨ ∃ fields, s.value? key = some (.hash fields) ∧
    (∃ e ∈ entries g batch, e.key = key) ∧
    ∀ field value, fields.get? field = some value → ⟨key, field, value⟩ ∈ entries g batch

theorem assignments_flatMap {α : Type} (key : String) (l : List α) (f : α → List FieldEntry) :
    assignments key (l.flatMap f) = l.flatMap fun a => assignments key (f a) := List.filterMap_flatMap ..

section Assignments

variable (g : Generation) (batch : List Download)

theorem pages_ne_downloads : Key.pages g ≠ Key.downloads g := by cases g <;> decide

theorem files_ne_downloads : Key.files g ≠ Key.downloads g := by cases g <;> decide

theorem files_ne_pages : Key.files g ≠ Key.pages g := by cases g <;> decide

theorem downloadFiles_ne_downloads (d : String) : Key.downloadFiles g d ≠ Key.downloads g :=
  Key.downloadFiles_ne (by decide) g g d

theorem downloadFiles_ne_pages (d : String) : Key.downloadFiles g d ≠ Key.pages g :=
  Key.downloadFiles_ne (by decide) g g d

theorem downloadFiles_ne_files (d : String) : Key.downloadFiles g d ≠ Key.files g :=
  Key.downloadFiles_ne (by decide) g g d

theorem assignments_downloads :
    assignments (Key.downloads g) (entries g batch) = batch.map fun d => (d.id, d.sourcePath.text) := by
  rw [entries, assignments_flatMap, List.map_eq_flatMap]
  refine List.flatMap_congr fun d _ => ?_
  simp [downloadEntries, fileEntries, assignments_cons, assignments_nil, assignments_flatMap, pages_ne_downloads,
    files_ne_downloads, downloadFiles_ne_downloads]

theorem assignments_pages :
    assignments (Key.pages g) (entries g batch) = batch.map fun d => (d.id, d.pageContent) := by
  rw [entries, assignments_flatMap, List.map_eq_flatMap]
  refine List.flatMap_congr fun d _ => ?_
  simp [downloadEntries, fileEntries, assignments_cons, assignments_nil, assignments_flatMap,
    (pages_ne_downloads g).symm, files_ne_pages, downloadFiles_ne_pages]

theorem assignments_files :
    assignments (Key.files g) (entries g batch) = (batch.flatMap (·.files)).map fun f => (f.id, f.url) := by
  rw [entries, assignments_flatMap, List.map_flatMap]
  refine List.flatMap_congr fun d _ => ?_
  simp [downloadEntries, fileEntries, assignments_cons, assignments_nil, assignments_flatMap,
    (files_ne_downloads g).symm, (files_ne_pages g).symm, downloadFiles_ne_files, List.map_eq_flatMap]

theorem assignments_downloadFiles (download : String) :
    assignments (Key.downloadFiles g download) (entries g batch) =
      (filesOf download batch).map fun f => (f.id, f.url) := by
  rw [entries, assignments_flatMap, filesOf, List.map_flatMap]
  refine List.flatMap_congr fun d _ => ?_
  by_cases hd : d.id = download
  · simp [downloadEntries, fileEntries, assignments_cons, assignments_nil, assignments_flatMap, hd,
      (downloadFiles_ne_downloads g download).symm, (downloadFiles_ne_pages g download).symm,
      (downloadFiles_ne_files g download).symm, List.map_eq_flatMap]
  · have hk : Key.downloadFiles g d.id ≠ Key.downloadFiles g download := fun h => hd (Key.downloadFiles_inj h).2
    simp [downloadEntries, fileEntries, assignments_cons, assignments_nil, assignments_flatMap, hd, hk,
      (downloadFiles_ne_downloads g download).symm, (downloadFiles_ne_pages g download).symm,
      (downloadFiles_ne_files g download).symm]

end Assignments

/-- An empty generation in which all fields of a batch have been set. -/
theorem holds_filled {s : Backend} {g : Generation} {batch : List Download}
    (h : ∀ key, Key.Scoped g key → s.value? key = fill none (assignments key (entries g batch))) :
    Holds s g batch where
  downloads := by
    rw [h _ (Key.scoped_downloads g), assignments_downloads]
    exact maps_fill_map (·.id) (·.sourcePath.text) batch
  pages := by
    rw [h _ (Key.scoped_pages g), assignments_pages]
    exact maps_fill_map (·.id) (·.pageContent) batch
  files := by
    rw [h _ (Key.scoped_files g), assignments_files]
    exact maps_fill_map (·.id) (·.url) (batch.flatMap (·.files))
  downloadFiles download := by
    rw [h _ (Key.scoped_downloadFiles g download), assignments_downloadFiles]
    exact maps_fill_map (·.id) (·.url) (filesOf download batch)
  others key hk hd hp hf hdf := by
    have hnil : assignments key (entries g batch) = [] := by
      rw [assignments, List.filterMap_eq_nil_iff]
      intro e he
      refine if_neg fun hkey => ?_
      rcases mem_entries he with h | h | h | ⟨d, -, h⟩ <;> rw [hkey] at h
      · exact hd h
      · exact hp h
      · exact hf h
      · exact hdf d.id h
    rw [h key hk, hnil]
    rfl

/-- An empty generation in which some fields of a batch have been set. -/
theorem within_filled {s : Backend} {g : Generation} {batch : List Download} {l : List FieldEntry}
    (hl : ∀ e ∈ l, e ∈ entries g batch) (h : ∀ key, Key.Scoped g key → s.value? key = fill none (assignments key l)) :
    Within s g batch := by
  intro key hk
  rw [h key hk]
  cases ha : assignments key l with
  | nil => exact .inl rfl
  | cons a rest =>
    have hmem : ∀ field value, (field, value) ∈ a :: rest → ⟨key, field, value⟩ ∈ entries g batch := by
      intro field value hm
      exact hl _ (Store.mem_assignments.mp (ha ▸ hm))
    refine .inr ⟨_, rfl, ⟨_, hmem a.1 a.2 List.mem_cons_self, rfl⟩, fun field value hv => ?_⟩
    rw [get?_setFields, show (hashOf none).get? field = none from rfl, Option.or_none, Option.map_eq_some_iff] at hv
    obtain ⟨e, he, rfl⟩ := hv
    obtain ⟨hm, hf⟩ := mem_of_lastWhere? he
    exact hmem field e.2 (of_decide_eq_true hf ▸ hm)

end Repository
end ShareIndex
