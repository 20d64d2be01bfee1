import ShareIndex.Proofs.Index.Cycle
import ShareIndex.Proofs.Index.Sink
import ShareIndex.Proofs.Repository.Listing

/-!
# ShareIndex.Proofs.Index.Anchor

Counters outlive generations, but not the files that they count: what ties them to the active generation.

* `publishBatch_perform` — what is done after a scan, on a store without faults.
* `Anchored`             — every counter is that of a file of the active generation.
* `Anchored.publish`     — the counters are tied to whatever is published next.
* `Anchored.increment`   — counting a file of the active generation leaves them tied to it.
* `index_publishes`      — an index publishes what the scan has found.
* `index_anchored`       — an index that fails has changed nothing, and one that succeeds has tied them anew.
-/

namespace ShareIndex
namespace Index

open Repository
open Share (Download Summary)
open Store (Backend Fillable KeyValueStore hashOf)

/-! ### Calls without faults -/

section Calls

variable {α β : Type} {s s' : Shared Backend}

theorem run_attempt {raise : Repository.Error → Error} {x : Repository.Action α} {result : Except Repository.Error α}
    (h : x.perform s = (result, s')) : (attempt raise x).run.run s = (result.mapError raise, s') := by
  have h : x.run.run s = (result, s') := h
  refine (Program.run_bind x.run _ s).trans ?_
  rw [h]
  rfl

theorem run_ignoreFailure {x : Repository.Action α} {result : Except Repository.Error α}
    (h : x.perform s = (result, s')) : (ignoreFailure x).run.run s = (.ok (), s') := by
  have h : x.run.run s = (result, s') := h
  refine (Program.run_bind (Program.bind x.run fun _ => .done ()) _ s).trans ?_
  rw [Program.run_bind, h]
  rfl

theorem run_bind_ok {x : Action α} {f : α → Action β} {a : α} (h : x.run.run s = (.ok a, s')) :
    (x >>= f).run.run s = (f a).run.run s' := by
  show (Program.bind x.run (ExceptT.bindCont f)).run s = _
  rw [Program.run_bind, h]
  rfl

/-- On a store that can be written to, the batch is published, and the counters of all other files are removed. -/
theorem publishBatch_perform {pages : Nat} {batch : List Download} (hne : batch ≠ [])
    (ha : s.store.access = .writing) (hp : ∀ fields, s.store.value? Key.active ≠ some (.hash fields))
    (hf : Fillable (s.store.value? Key.counters)) (hv : ∀ key, Key.Visible s.store key)
    (hn : KeyValueStore.extent s.store < pages) :
    ∃ infos s', (publishBatch pages batch).run.run s = (.ok infos, s') ∧ Published s s' [] batch ∧
      Fillable (s'.store.value? Key.counters) ∧ ∀ file, file ∉ fileIds batch → counterText s'.store file = none := by
  obtain ⟨g, s1, n, s2, infos, h1, h2, h3, hrest⟩ := publishBatch_phases hne ha hp hf (fun key _ _ => hv key) hn
  refine ⟨infos, s2, ?_, hrest⟩
  exact (run_bind_ok (run_attempt h1)).trans ((run_bind_ok (run_ignoreFailure h2)).trans (run_attempt h3))

end Calls

/-! ### Anchors -/

theorem pointer_eq_some {s : Backend} {g : Generation} (h : s.pointer = some g) :
    ∃ name, s.value? Key.active = some (.text name) := by
  unfold Backend.pointer at h
  split at h
  · exact ⟨_, ‹_›⟩
  · cases h

theorem mem_fileIds {s : Backend} {g : Generation} {batch : List Download} (hb : Holds s g batch) (file : String) :
    file ∈ fileIds batch ↔ ∃ url, (hashOf (s.value? (Key.files g))).get? file = some url := by
  rw [hb.files.fields, fileIds]
  constructor
  · intro hm
    obtain ⟨d, hd, hfile⟩ := List.mem_flatMap.mp hm
    obtain ⟨f, hf, rfl⟩ := List.mem_map.mp hfile
    cases hl : lastWhere? (fun x => x.id = f.id) (batch.flatMap (·.files)) with
    | none =>
      have := lastWhere?_eq_none.mp hl f (List.mem_flatMap.mpr ⟨d, hd, hf⟩)
      simp at this
    | some last => exact ⟨last.url, rfl⟩
  · rintro ⟨url, hurl⟩
    obtain ⟨f, hl, -⟩ := Option.map_eq_some_iff.mp hurl
    obtain ⟨hm, hid⟩ := mem_of_lastWhere? hl
    obtain ⟨d, hd, hf⟩ := List.mem_flatMap.mp hm
    exact List.mem_flatMap.mpr ⟨d, hd, List.mem_map.mpr ⟨f, hf, of_decide_eq_true hid⟩⟩

/-- The counters are integers. While a generation is active, it is exactly what a batch describes, and they belong to
files of that batch; else there are none. -/
structure Anchored (s : Backend) : Prop where
  pointer : ∀ fields, s.value? Key.active ≠ some (.hash fields)
  countable : Countable s
  inactive : s.pointer = none → s.value? Key.counters = none
  active : ∀ g, s.pointer = some g →
    ∃ batch, Holds s g batch ∧ ∀ file, counterText s file ≠ none → file ∈ fileIds batch

namespace Anchored

/-- Nothing is stored at first. -/
theorem empty : Anchored (.database .empty) where
  pointer _ h := nomatch h
  countable := ⟨trivial, fun _ => rfl⟩
  inactive _ := rfl
  active _ h := nomatch h

section Steps

variable {s s' : Shared Backend} {batch : List Download}

theorem publish (h : Anchored s.store) (hp : Published s s' [] batch) (hf : Fillable (s'.store.value? Key.counters))
    (hpruned : ∀ file, file ∉ fileIds batch → counterText s'.store file = none) : Anchored s'.store where
  pointer fields hv := by
    obtain ⟨name, hname⟩ := pointer_eq_some hp.pointer
    rw [hname] at hv
    cases hv
  countable := by
    refine ⟨hf, fun file => ?_⟩
    rcases hp.others file with hsame | hnone
    · rw [counterAt_congr hsame]
      exact h.countable.integer file
    · rw [counterAt_of_none hnone]
      rfl
  inactive hnone := by
    rw [hp.pointer] at hnone
    cases hnone
  active g hg := by
    obtain rfl := Option.some.inj (hp.pointer.symm.trans hg)
    exact ⟨batch, hp.holds, fun file hne => not_not.mp fun hfile => hne (hpruned file hfile)⟩

theorem increment {s s' : Backend} (h : Anchored s) {file : String} {n : Int} (hi : Incremented file n s s')
    (hothers : ∀ key, key ≠ Key.counters → s'.contents key = s.contents key) {g : Generation} (hg : s.pointer = some g)
    {url : String} (hurl : (hashOf (s.value? (Key.files g))).get? file = some url) : Anchored s' := by
  have hvalue : ∀ key, key ≠ Key.counters → s'.value? key = s.value? key :=
    fun key hk => congrArg Store.Contents.value? (hothers key hk)
  have hpointer := Backend.pointer_congr (hothers _ Key.active_ne_counters)
  refine ⟨fun fields => ?_, ⟨hi.fillable, fun other => ?_⟩, fun hnone => ?_, fun active ha => ?_⟩
  · rw [hvalue _ Key.active_ne_counters]
    exact h.pointer fields
  · rw [hi.counts, Option.isSome_map]
    exact h.countable.integer other
  · rw [hpointer, hg] at hnone
    cases hnone
  · rw [hpointer] at ha
    obtain ⟨batch, hb, hfiles⟩ := h.active active ha
    refine ⟨batch, hb.congr fun key hk => hvalue key fun he => Key.not_scoped_counters _ (he ▸ hk), fun other hne => ?_⟩
    by_cases ho : other = file
    · obtain rfl := Option.some.inj (hg.symm.trans ha)
      rw [ho]
      exact (mem_fileIds hb file).mpr ⟨url, hurl⟩
    · exact hfiles other (hi.others other ho ▸ hne)

/-- The counters can be listed. -/
theorem legible (h : Anchored s.store) (ha : s.store.access ≠ .closed) (hh : s.holder = s.store.pointer) : Legible s where
  opened := ha
  downloads g hg := by
    obtain ⟨batch, hb, -⟩ := h.active g (hh ▸ hg)
    exact hb.downloads.fillable
  downloadFiles g hg id := by
    obtain ⟨batch, hb, -⟩ := h.active g (hh ▸ hg)
    exact (hb.downloadFiles id).fillable
  counters := h.countable

end Steps
end Anchored

/-- A call of an indexer that is idle publishes what the scan has found. -/
theorem index_publishes {w : World Backend} (hslot : w.slot = .free) (ha : w.shared.store.access = .writing)
    (hv : ∀ key, Key.Visible w.shared.store key) (h : Anchored w.shared.store) {sc : Scanner} {cancelled : Bool}
    {batch : List Download} (hne : batch ≠ []) (hscan : sc.scan w.files cancelled = .ok batch) :
    ∃ infos shared, sc.index cancelled w = (.ok infos, { w with shared }) ∧ Published w.shared shared [] batch ∧
      Anchored shared.store := by
  obtain ⟨files, shared, slot⟩ := w
  obtain rfl : slot = .free := hslot
  obtain ⟨infos, after, hrun, hpublished, hfillable, hpruned⟩ := publishBatch_perform hne ha h.pointer
    h.countable.fillable hv (Nat.lt_succ_self (KeyValueStore.extent shared.store))
  refine ⟨infos, after, ?_, hpublished, h.publish hpublished hfillable hpruned⟩
  obtain ⟨download, rest, rfl⟩ := List.exists_cons_of_ne_nil hne
  rw [Scanner.index, alone_free rfl, World.perform, show sc.scan files cancelled = _ from hscan]
  exact congrArg (fun (result, shared) => (result, (⟨files, shared, .free⟩ : World Backend))) hrun

/-- A call of an indexer that is idle fails and changes nothing, or it succeeds and the counters are anchored anew. -/
theorem index_anchored {w : World Backend} (hslot : w.slot = .free) (ha : w.shared.store.access = .writing)
    (hv : ∀ key, Key.Visible w.shared.store key) (h : Anchored w.shared.store) (sc : Scanner) (cancelled : Bool) :
    (∃ e, sc.index cancelled w = (.error e, w)) ∨
      ∃ infos shared, sc.index cancelled w = (.ok infos, { w with shared }) ∧ Anchored shared.store := by
  cases hscan : sc.scan w.files cancelled with
  | ok batch =>
    cases batch with
    | cons download rest =>
      obtain ⟨infos, shared, hindex, -, hafter⟩ := index_publishes hslot ha hv h (List.cons_ne_nil _ _) hscan
      exact .inr ⟨infos, shared, hindex, hafter⟩
    | nil =>
      obtain ⟨files, shared, slot⟩ := w
      obtain rfl : slot = .free := hslot
      rw [Scanner.index, alone_free rfl, show sc.scan files cancelled = _ from hscan]
      exact .inl ⟨_, rfl⟩
  | error e =>
    obtain ⟨files, shared, slot⟩ := w
    obtain rfl : slot = .free := hslot
    rw [Scanner.index, alone_free rfl, show sc.scan files cancelled = _ from hscan]
    cases e <;> exact .inl ⟨_, rfl⟩

end Index
end ShareIndex
