import ShareIndex.Repository.Readers
import ShareIndex.Proofs.FilePath.Order
import ShareIndex.Proofs.Repository.Batch
import ShareIndex.Proofs.Repository.Counting
import Mathlib.Data.List.Dedup

/-!
# ShareIndex.Proofs.Repository.Readers

What the readers of the active generation answer when it is exactly what a batch describes.

* `page_holds`, `fileUrl_holds` — the last download, or the last file, with the id.
* `Lists`       — a list that has one summary for each id of a batch, ordered by path and then by id.
* `info_holds`  — the summaries of a batch.
* `info_gathers` — the only failures that are not explained by the batch are those of the store.
* `counters_holds` — the counters of the files of the downloads with the id.
* `Answers`     — all of these together.
-/

namespace ShareIndex
namespace Repository

open Store (Backend Request Fillable hashOf Value)
open Share (Download SharedFile Summary)

section Reads

variable {s : Shared Backend} {g : Generation} {batch : List Download}

theorem perform_readHolder (s : Shared Backend) : readHolder.perform s = (.ok s.holder, s) := rfl

theorem page_perform (hh : s.holder = some g) (ha : s.store.access ≠ .closed)
    (hf : Fillable (s.store.value? (Key.pages g))) (id : String) :
    (page id).perform s =
      (match (hashOf (s.store.value? (Key.pages g))).get? id with
        | none => .error (.pageNotFound id)
        | some page => .ok page, s) := by
  rw [page, perform_bind (perform_readHolder s), hh]
  have hread := s.store.perform_getField id ha hf
  refine (perform_bind (perform_read rfl hread)).trans ?_
  cases (hashOf (s.store.value? (Key.pages g))).get? id <;> rfl

theorem fileUrl_perform (hh : s.holder = some g) (ha : s.store.access ≠ .closed)
    (hf : Fillable (s.store.value? (Key.files g))) (id : String) :
    (fileUrl id).perform s =
      (match (hashOf (s.store.value? (Key.files g))).get? id with
        | none => .error (.fileNotFound id)
        | some url => .ok url, s) := by
  rw [fileUrl, perform_bind (perform_readHolder s), hh]
  have hread := s.store.perform_getField id ha hf
  refine (perform_bind (perform_read rfl hread)).trans ?_
  cases (hashOf (s.store.value? (Key.files g))).get? id <;> rfl

theorem page_holds (hh : s.holder = some g) (ha : s.store.access ≠ .closed) (hb : Holds s.store g batch)
    (id : String) : (page id).perform s =
      (match lastWhere? (fun d => d.id = id) batch with
        | none => .error (.pageNotFound id)
        | some d => .ok d.pageContent, s) := by
  rw [page_perform hh ha hb.pages.fillable, hb.pages.fields]
  cases lastWhere? (fun d => d.id = id) batch <;> rfl

theorem fileUrl_holds (hh : s.holder = some g) (ha : s.store.access ≠ .closed) (hb : Holds s.store g batch)
    (id : String) : (fileUrl id).perform s =
      (match lastWhere? (fun f => f.id = id) (batch.flatMap (·.files)) with
        | none => .error (.fileNotFound id)
        | some f => .ok f.url, s) := by
  rw [fileUrl_perform hh ha hb.files.fillable, hb.files.fields]
  cases lastWhere? (fun f => f.id = id) (batch.flatMap (·.files)) <;> rfl

end Reads

/-! ### Summaries -/

/-- The list has a summary for each id of the batch, with the path of the last download that has it and the number
of different files. They are ordered by path and, where paths have the same components, by id. -/
structure Lists (batch : List Download) (l : List Summary) : Prop where
  mem : ∀ x, x ∈ l ↔ ∃ d, lastWhere? (fun d => d.id = x.id) batch = some d ∧ x.sourcePath = d.sourcePath ∧
    x.fileCount = ((filesOf x.id batch).map (·.id)).dedup.length
  ordered : l.Pairwise fun x y => x.sourcePath.precedes y.sourcePath = true ∨
    (x.sourcePath.components = y.sourcePath.components ∧ x.id < y.id)

section Summaries

variable {s : Shared Backend} {g : Generation} {batch : List Download}

theorem summaries_perform (ha : s.store.access ≠ .closed)
    (hf : ∀ id, Fillable (s.store.value? (Key.downloadFiles g id))) (l : List (String × String)) :
    (summaries g l).perform s =
      (.ok (l.map fun e => ⟨e.1, ⟨e.2⟩, (hashOf (s.store.value? (Key.downloadFiles g e.1))).size⟩), s) := by
  induction l with
  | nil => rfl
  | cons e rest ih =>
    rw [summaries, perform_bind (perform_read rfl (s.store.perform_getAll ha (hf e.1))), perform_bind ih]
    rfl

/-- There are as many fields as there are different ids. -/
theorem Maps.size {α : Type} {v : Option Value} {id value : α → String} {l : List α}
    (h : Maps v fun field => (lastWhere? (fun a => id a = field) l).map value) :
    (hashOf v).size = (l.map id).dedup.length := by
  have hnodup : (hashOf v).keys.Nodup := (hashOf v).keys_ascending.imp fun hlt => ne_of_lt hlt
  have hperm : (hashOf v).keys.Perm (l.map id).dedup := by
    rw [List.perm_ext_iff_of_nodup hnodup (List.nodup_dedup _)]
    intro field
    rw [OrderedMap.mem_keys, OrderedMap.contains, h.fields, Option.isSome_map, List.mem_dedup, List.mem_map]
    cases hl : lastWhere? (fun a => id a = field) l with
    | none =>
      have := lastWhere?_eq_none.mp hl
      simpa using this
    | some a =>
      obtain ⟨hm, hp⟩ := mem_of_lastWhere? hl
      simpa using ⟨a, hm, of_decide_eq_true hp⟩
  rw [← hperm.length_eq, OrderedMap.keys, List.length_map, OrderedMap.size]

/-- The summaries that are sorted, by id. -/
def summariesById (s : Backend) (g : Generation) : List Summary :=
  (hashOf (s.value? (Key.downloads g))).entries.map fun e =>
    ⟨e.1, ⟨e.2⟩, (hashOf (s.value? (Key.downloadFiles g e.1))).size⟩

theorem info_perform (hh : s.holder = some g) (ha : s.store.access ≠ .closed)
    (hf : Fillable (s.store.value? (Key.downloads g)))
    (hfs : ∀ id, Fillable (s.store.value? (Key.downloadFiles g id))) :
    info.perform s =
      (if (hashOf (s.store.value? (Key.downloads g))).isEmpty then .error .noDownloads
        else .ok (sortByPath (summariesById s.store g)), s) := by
  rw [info, perform_bind (perform_readHolder s), hh]
  refine (perform_bind (perform_read rfl (s.store.perform_getAll ha hf))).trans ?_
  by_cases he : (hashOf (s.store.value? (Key.downloads g))).isEmpty = true
  · simp only [he, if_true]
    rfl
  · simp only [he]
    exact perform_bind (summaries_perform ha hfs _)

theorem summariesById_ascending (s : Backend) (g : Generation) :
    (summariesById s g).Pairwise fun x y => x.id < y.id := by
  rw [summariesById, List.pairwise_map]
  exact (hashOf (s.value? (Key.downloads g))).ascending

theorem mem_summariesById (hb : Holds s.store g batch) (x : Summary) :
    x ∈ summariesById s.store g ↔ ∃ d, lastWhere? (fun d => d.id = x.id) batch = some d ∧
      x.sourcePath = d.sourcePath ∧ x.fileCount = ((filesOf x.id batch).map (·.id)).dedup.length := by
  have hentry : ∀ e : String × String, e ∈ (hashOf (s.store.value? (Key.downloads g))).entries ↔
      ∃ d, lastWhere? (fun d => d.id = e.1) batch = some d ∧ d.sourcePath.text = e.2 := by
    intro e
    rw [← OrderedMap.get?_eq_some_iff, hb.downloads.fields, Option.map_eq_some_iff]
  rw [summariesById, List.mem_map]
  constructor
  · rintro ⟨e, he, rfl⟩
    obtain ⟨d, hd, hp⟩ := (hentry e).mp he
    exact ⟨d, hd, congrArg FilePath.mk hp.symm, (hb.downloadFiles e.1).size⟩
  · rintro ⟨d, hd, hp, hn⟩
    refine ⟨(x.id, x.sourcePath.text), (hentry _).mpr ⟨d, hd, by rw [hp]⟩, ?_⟩
    rw [(hb.downloadFiles x.id).size, ← hn]

theorem sortByPath_ordered {l : List Summary} (h : l.Pairwise fun x y => x.id < y.id) :
    (sortByPath l).Pairwise fun x y => x.sourcePath.precedes y.sourcePath = true ∨
      (x.sourcePath.components = y.sourcePath.components ∧ x.id < y.id) := by
  have hnodup : l.Nodup := h.imp fun {x y} hlt heq => by
    rw [heq] at hlt
    exact String.lt_irrefl _ hlt
  have htrans : ∀ x y z : Summary, x.sourcePath.atMost y.sourcePath = true → y.sourcePath.atMost z.sourcePath = true →
      x.sourcePath.atMost z.sourcePath = true := fun _ _ _ => FilePath.atMost_trans
  have htotal : ∀ x y : Summary, (x.sourcePath.atMost y.sourcePath || y.sourcePath.atMost x.sourcePath) = true :=
    fun _ _ => FilePath.atMost_total _ _
  have hties := pairwise_mergeSort_ties htrans htotal hnodup h
  refine List.Pairwise.imp ?_ hties
  rintro x y ⟨hle, hback⟩
  rcases FilePath.atMost_iff.mp hle with hlt | heq
  · exact .inl hlt
  · exact .inr ⟨heq, hback (FilePath.atMost_iff.mpr (.inr heq.symm))⟩

theorem lists_sorted (hb : Holds s.store g batch) : Lists batch (sortByPath (summariesById s.store g)) where
  mem x := List.mem_mergeSort.trans (mem_summariesById hb x)
  ordered := sortByPath_ordered (summariesById_ascending s.store g)

theorem isEmpty_downloads (hb : Holds s.store g batch) :
    (hashOf (s.store.value? (Key.downloads g))).isEmpty = true ↔ batch = [] := by
  rw [OrderedMap.isEmpty_iff_get?]
  simp only [hb.downloads.fields, Option.map_eq_none_iff, lastWhere?_eq_none]
  constructor
  · intro h
    cases batch with
    | nil => rfl
    | cons d rest => exact absurd (h d.id d List.mem_cons_self) (by simp)
  · rintro rfl
    simp

theorem info_holds (hh : s.holder = some g) (ha : s.store.access ≠ .closed) (hb : Holds s.store g batch) :
    ∃ result, info.perform s = (result, s) ∧ match result with
      | .error e => e = .noDownloads ∧ batch = []
      | .ok l => batch ≠ [] ∧ Lists batch l := by
  refine ⟨_, info_perform hh ha hb.downloads.fillable fun id => (hb.downloadFiles id).fillable, ?_⟩
  by_cases he : batch = []
  · rw [if_pos ((isEmpty_downloads hb).mpr he)]
    exact ⟨rfl, he⟩
  · rw [if_neg fun h => he ((isEmpty_downloads hb).mp h)]
    exact ⟨he, lists_sorted hb⟩

end Summaries

/-! ### Failures -/

/-- A call that reads whole hashes. All its requests succeed, and it answers as it does on a store without faults, or it
fails as one of them does. -/
def Gathers {α : Type} (x : Action α) : Prop :=
  ∀ {s s' : Shared Backend} {events : List Event} {result : Except Error α}, Runs x.run s events result s' →
    s' = s ∧ ((x.perform s = (result, s) ∧ ∀ e ∈ events, e.Succeeded) ∨
      ∃ key cause, ⟨.getAll key, .error cause⟩ ∈ events ∧ result = .error (.store cause))

section Gathering

variable {α β : Type}

theorem gathers_pure (a : α) : Gathers (pure a) := by
  intro s s' events result h
  obtain ⟨rfl, rfl, rfl⟩ := runs_pure h
  exact ⟨rfl, .inl ⟨rfl, by simp⟩⟩

theorem gathers_throw (e : Error) : Gathers (throw e : Action α) := by
  intro s s' events result h
  obtain ⟨rfl, rfl, rfl⟩ := runs_done h
  exact ⟨rfl, .inl ⟨rfl, by simp⟩⟩

theorem gathers_readHolder : Gathers readHolder := by
  intro s s' events result h
  obtain ⟨rfl, rfl, rfl⟩ := runs_readHolder h
  exact ⟨rfl, .inl ⟨rfl, by simp⟩⟩

theorem gathers_getAll (key : String) : Gathers (request .store (.getAll key)) := by
  intro s s' events result h
  obtain ⟨answer, store, hr, rfl, rfl, rfl⟩ := runs_request h
  obtain rfl : store = s.store := hr.read rfl
  refine ⟨rfl, ?_⟩
  cases answer with
  | ok fields =>
    have hs : Event.Succeeded ⟨.getAll key, .ok fields⟩ := ⟨fields, rfl⟩
    exact .inl ⟨perform_read rfl (congrArg (·.1) hr.of_ok), List.forall_mem_singleton.mpr hs⟩
  | error cause => exact .inr ⟨key, cause, List.mem_singleton_self _, rfl⟩

theorem gathers_bind {x : Action α} {f : α → Action β} (hx : Gathers x) (hf : ∀ a, Gathers (f a)) :
    Gathers (x >>= f) := by
  intro s s' events result h
  rcases runs_action h with ⟨e, rfl, h1⟩ | ⟨a, s1, before, after, rfl, h1, h2⟩
  · obtain ⟨rfl, ⟨hx, hs⟩ | ⟨key, cause, hm, he⟩⟩ := hx h1
    · exact ⟨rfl, .inl ⟨perform_bind_error hx, hs⟩⟩
    · obtain rfl : e = .store cause := Except.error.inj he
      exact ⟨rfl, .inr ⟨key, cause, hm, rfl⟩⟩
  · obtain ⟨rfl, ⟨hx, hs⟩ | ⟨key, cause, -, he⟩⟩ := hx h1
    · obtain ⟨rfl, ⟨hf, hs'⟩ | ⟨key, cause, hm, he⟩⟩ := hf a h2
      · exact ⟨rfl, .inl ⟨(perform_bind hx).trans hf, List.forall_mem_append.mpr ⟨hs, hs'⟩⟩⟩
      · exact ⟨rfl, .inr ⟨key, cause, List.mem_append_right _ hm, he⟩⟩
    · cases he

theorem summaries_gathers (g : Generation) (l : List (String × String)) : Gathers (summaries g l) := by
  induction l with
  | nil => exact gathers_pure []
  | cons e rest ih => exact gathers_bind (gathers_getAll _) fun files => gathers_bind ih fun _ => gathers_pure _

theorem info_gathers : Gathers info := by
  refine gathers_bind gathers_readHolder fun active => ?_
  cases active with
  | none => exact gathers_throw _
  | some g =>
    refine gathers_bind (gathers_getAll _) fun downloads => ?_
    dsimp only
    split
    · exact gathers_throw _
    · exact gathers_bind (summaries_gathers g _) fun _ => gathers_pure _

end Gathering

/-! ### Counters -/

/-- Of the keys, each that has a value is mapped to it. -/
theorem get?_ofList_filterMap {V : Type} (keys : List String) (f : String → Option V) (key : String) :
    (OrderedMap.ofList (keys.filterMap fun k => (f k).map fun v => (k, v))).get? key =
      if key ∈ keys then f key else none := by
  have hentry : ∀ k v, (k, v) ∈ keys.filterMap (fun k => (f k).map fun v => (k, v)) ↔ k ∈ keys ∧ f k = some v := by
    intro k v
    simp only [List.mem_filterMap, Option.map_eq_some_iff, Prod.mk.injEq]
    constructor
    · rintro ⟨k', hk, v', hv, rfl, rfl⟩
      exact ⟨hk, hv⟩
    · rintro ⟨hk, hv⟩
      exact ⟨k, hk, v, hv, rfl, rfl⟩
  rw [OrderedMap.ofList, get?_foldl_insert, OrderedMap.get?_empty, Option.or_none]
  cases hl : lastWhere? (fun e => e.1 = key) (keys.filterMap fun k => (f k).map fun v => (k, v)) with
  | none =>
    have hnone := lastWhere?_eq_none.mp hl
    split
    · rename_i hk
      cases hv : f key with
      | none => rfl
      | some v =>
        have := hnone _ ((hentry key v).mpr ⟨hk, hv⟩)
        simp at this
    · rfl
  | some e =>
    obtain ⟨hm, hp⟩ := mem_of_lastWhere? hl
    obtain rfl := of_decide_eq_true hp
    obtain ⟨hk, hv⟩ := (hentry e.1 e.2).mp hm
    rw [if_pos hk, hv]
    rfl

section Counters

variable {s : Shared Backend} {g : Generation} {batch : List Download}

theorem mem_keys_downloadFiles (hb : Holds s.store g batch) (download file : String) :
    file ∈ (hashOf (s.store.value? (Key.downloadFiles g download))).keys ↔
      file ∈ (filesOf download batch).map (·.id) := by
  rw [OrderedMap.mem_keys, OrderedMap.contains, (hb.downloadFiles download).fields, Option.isSome_map, List.mem_map]
  cases hl : lastWhere? (fun f => f.id = file) (filesOf download batch) with
  | none =>
    have := lastWhere?_eq_none.mp hl
    simpa using this
  | some f =>
    obtain ⟨hm, hp⟩ := mem_of_lastWhere? hl
    simpa using ⟨f, hm, of_decide_eq_true hp⟩

theorem filterMap_zip_map (keys : List String) (f : String → Option String) :
    ((keys.zip (keys.map f)).filterMap fun (file, value) => (counterOf? value).map fun n => (file, n)) =
      keys.filterMap fun file => (counterOf? (f file)).map fun n => (file, n) := by
  induction keys with
  | nil => rfl
  | cons key rest ih => rw [List.map_cons, List.zip_cons_cons, List.filterMap_cons, List.filterMap_cons, ih]

theorem counters_perform (hh : s.holder = some g) (ha : s.store.access ≠ .closed)
    (hf : Fillable (s.store.value? Key.counters)) {download : String}
    (hd : Fillable (s.store.value? (Key.downloadFiles g download))) :
    (counters download).perform s =
      (.ok (.ofList ((hashOf (s.store.value? (Key.downloadFiles g download))).keys.filterMap fun file =>
        (counterAt s.store file).map fun n => (file, n))), s) := by
  have hfiles := s.store.perform_getAll ha hd
  have hvalues := s.store.perform_getFields (hashOf (s.store.value? (Key.downloadFiles g download))).keys ha hf
  rw [counters, perform_bind (perform_readHolder s), hh]
  refine (perform_bind (perform_read rfl hfiles)).trans ((perform_bind (perform_read rfl hvalues)).trans ?_)
  rw [filterMap_zip_map]
  rfl

theorem counters_holds (hh : s.holder = some g) (ha : s.store.access ≠ .closed) (hb : Holds s.store g batch)
    (hf : Fillable (s.store.value? Key.counters)) (download : String) :
    ∃ result, (counters download).perform s = (.ok result, s) ∧ ∀ file, result.get? file =
      if file ∈ (filesOf download batch).map (·.id) then counterAt s.store file else none := by
  refine ⟨_, counters_perform hh ha hf (hb.downloadFiles download).fillable, fun file => ?_⟩
  rw [get?_ofList_filterMap]
  simp only [mem_keys_downloadFiles hb]

/-- The readers answer for the batch. -/
structure Answers (batch : List Download) (s : Shared Backend) : Prop where
  info : ∃ result, info.perform s = (result, s) ∧ match result with
    | .error e => e = .noDownloads ∧ batch = []
    | .ok l => batch ≠ [] ∧ Lists batch l
  page : ∀ id, (page id).perform s =
    (match lastWhere? (fun d => d.id = id) batch with
      | none => .error (.pageNotFound id)
      | some d => .ok d.pageContent, s)
  fileUrl : ∀ id, (fileUrl id).perform s =
    (match lastWhere? (fun f => f.id = id) (batch.flatMap (·.files)) with
      | none => .error (.fileNotFound id)
      | some f => .ok f.url, s)
  counters : Fillable (s.store.value? Key.counters) → ∀ download, ∃ result,
    (counters download).perform s = (.ok result, s) ∧ ∀ file, result.get? file =
      if file ∈ (filesOf download batch).map (·.id) then counterAt s.store file else none

theorem answers_holds (hh : s.holder = some g) (ha : s.store.access ≠ .closed) (hb : Holds s.store g batch) :
    Answers batch s where
  info := info_holds hh ha hb
  page := page_holds hh ha hb
  fileUrl := fileUrl_holds hh ha hb
  counters := counters_holds hh ha hb

end Counters
end Repository
end ShareIndex
