import ShareIndex.Proofs.Repository.History
import ShareIndex.Proofs.Repository.Prune

/-!
# ShareIndex.Proofs.Repository.Reorder

Batches whose downloads come in another order.

* `Agree`     — lists of assignments whose last ones are the same, for every field.
* `Backend.perform_entries_congr` — entries that agree under every key leave the same store behind, row by row.
* `Unshared`  — no id is shared between the downloads of a batch.
* `Unshared.agree` — such a batch sets the same fields in whatever order its downloads come.
* `publish_perform_perm`, `prune_perm` — so the order does not matter to a publication or to a prune.
-/

namespace ShareIndex
namespace Store

open Repository (lastWhere? lastWhere?_cons lastWhere?_eq_none get?_setFields)

/-! ### Assignments -/

/-- Every field is assigned the same value last, if any. -/
def Agree (l l' : List (String × String)) : Prop :=
  ∀ field, lastWhere? (fun e => e.1 = field) l = lastWhere? (fun e => e.1 = field) l'

namespace Agree

variable {l l' : List (String × String)}

theorem symm (h : Agree l l') : Agree l' l := fun field => (h field).symm

theorem nil_of_nil (h : Agree [] l') : l' = [] := by
  cases l' with
  | nil => rfl
  | cons e l' =>
    have he := lastWhere?_eq_none.mp (h e.1).symm e List.mem_cons_self
    simp at he

theorem nil_iff (h : Agree l l') : l = [] ↔ l' = [] := by
  constructor
  · rintro rfl
    exact h.nil_of_nil
  · rintro rfl
    exact h.symm.nil_of_nil

theorem setFields (h : Agree l l') (fields : Hash) : Store.setFields fields l = Store.setFields fields l' := by
  apply OrderedMap.ext_get?
  intro field
  rw [get?_setFields, get?_setFields, h field]

theorem fill (h : Agree l l') (v : Option Value) : Store.fill v l = Store.fill v l' := by
  unfold Store.fill
  simp only [h.nil_iff, h.setFields]

end Agree

/-! ### Rows -/

theorem Tables.ext_contents {t t' : Tables} (h : ∀ key, t.contents key = t'.contents key) : t = t' := by
  have hkeys : t.keys = t'.keys := OrderedMap.ext_get? fun key => (Contents.rows.inj (h key)).1
  have hfields : t.fields = t'.fields := by
    apply OrderedMap.ext_get?
    intro k
    rw [← Tables.get?_fieldsOf t k.key k.field, ← Tables.get?_fieldsOf t' k.key k.field, (Contents.rows.inj (h k.key)).2]
  cases t
  cases t'
  simp_all

theorem Tables.get?_keys_insertHash (t : Tables) (key k : String) :
    (t.insertHash key).keys.get? k = if k = key then (t.keys.get? k).or (some ⟨.hash, none⟩) else t.keys.get? k := by
  unfold insertHash
  split
  · rename_i hc
    obtain ⟨row, hrow⟩ := OrderedMap.contains_iff.mp hc
    split
    · rename_i hk
      rw [hk, hrow, Option.some_or]
    · rfl
  · rename_i hc
    rw [OrderedMap.get?_insert]
    split
    · rename_i hk
      have hnone : t.keys.get? key = none := by simpa [OrderedMap.contains] using hc
      rw [hk, hnone, Option.none_or]
    · rfl

namespace Transaction

variable {a : Access} {t t' : Tables} {u : Unit}

theorem keys_setField {key field value : String} (h : exec (setField key field value) a t = .ok (u, t')) :
    t'.keys = (t.insertHash key).keys := by
  obtain ⟨u1, t1, h1, h2⟩ := exec_bind_ok.mp h
  obtain ⟨-, rfl, -⟩ := exec_ensureHash_ok h1
  obtain ⟨-, hs⟩ := exec_write_ok h2
  unfold Tables.upsertField at hs
  split at hs
  · obtain rfl := Except.ok.inj hs
    rfl
  · cases hs

/-- Entries add rows for keys that have none, and leave the others as they are. -/
theorem get?_keys_apply {entries : List FieldEntry}
    (h : exec (apply (entries.map FieldEntry.command)) a t = .ok (u, t')) (k : String) :
    t'.keys.get? k =
      if assignments k entries = [] then t.keys.get? k else (t.keys.get? k).or (some ⟨.hash, none⟩) := by
  induction entries generalizing t with
  | nil =>
    cases h
    rfl
  | cons e rest ih =>
    obtain ⟨u1, t1, h1, h2⟩ := exec_bind_ok.mp h
    rw [ih h2, keys_setField h1, Tables.get?_keys_insertHash, assignments_cons]
    by_cases hk : k = e.key
    · rw [if_pos hk, if_pos hk.symm, if_neg (List.cons_ne_nil _ _), Option.or_assoc, Option.some_or]
      split <;> rfl
    · have hk' : e.key ≠ k := fun he => hk he.symm
      rw [if_neg hk, if_neg hk']

theorem contents_apply_of_nil {entries : List FieldEntry}
    (h : exec (apply (entries.map FieldEntry.command)) a t = .ok (u, t')) {k : String}
    (hk : assignments k entries = []) : t'.contents k = t.contents k := by
  refine keeps_apply ?_ a t u t' h
  rw [List.map_map]
  intro hm
  obtain ⟨e, he, rfl⟩ := List.mem_map.mp hm
  have hassigned : (e.field, e.value) ∈ assignments e.key entries := mem_assignments.mpr he
  rw [show assignments e.key entries = [] from hk] at hassigned
  cases hassigned

/-- Entries that agree under every key write the same rows. -/
theorem apply_entries_congr {l l' : List FieldEntry} (hl : ∀ e ∈ l, Fillable (t.value? e.key))
    (hl' : ∀ e ∈ l', Fillable (t.value? e.key)) (h : ∀ key, Agree (assignments key l) (assignments key l')) :
    exec (apply (l.map FieldEntry.command)) .writing t = exec (apply (l'.map FieldEntry.command)) .writing t := by
  obtain ⟨t1, h1, hv1⟩ := apply_fillable hl
  obtain ⟨t2, h2, hv2⟩ := apply_fillable hl'
  have hsame : t1 = t2 := by
    apply Tables.ext_contents
    intro k
    by_cases hk : assignments k l = []
    · rw [contents_apply_of_nil h1 hk, contents_apply_of_nil h2 ((h k).nil_iff.mp hk)]
    · -- the rows depend on whether anything is assigned, and the fields on what is assigned last
      have hk' : assignments k l' ≠ [] := fun hnil => hk ((h k).nil_iff.mpr hnil)
      have hf1 := Tables.fieldsOf_of_value? ((hv1 k).trans (if_neg hk))
      have hf2 := Tables.fieldsOf_of_value? ((hv2 k).trans (if_neg hk'))
      rw [Tables.contents, Tables.contents, get?_keys_apply h1, get?_keys_apply h2, if_neg hk, if_neg hk', hf1, hf2,
        (h k).setFields]
  rw [h1, h2, hsame]

/-- A batch that is not empty is refused on a connection that may not write. -/
theorem exec_apply_entries {entries : List FieldEntry} (hne : entries ≠ []) (ha : a ≠ .writing) :
    exec (apply (entries.map FieldEntry.command)) a t = .error .database := by
  cases entries with
  | nil => exact absurd rfl hne
  | cons e rest =>
    cases a with
    | writing => exact absurd rfl ha
    | closed | reading => rfl

end Transaction

namespace Backend

variable {l l' : List FieldEntry}

theorem nil_iff_of_agree (h : ∀ key, Agree (assignments key l) (assignments key l')) : l = [] ↔ l' = [] := by
  have hnil : ∀ {l l' : List FieldEntry}, (∀ key, Agree (assignments key l) (assignments key l')) → l = [] → l' = [] := by
    rintro l l' h rfl
    cases l' with
    | nil => rfl
    | cons e rest =>
      have he := (h e.key).nil_of_nil
      rw [assignments_cons, if_pos rfl] at he
      cases he
  exact ⟨hnil h, hnil fun key => (h key).symm⟩

/-- Entries that agree under every key are as good as each other. -/
theorem perform_entries_congr {s : Backend} (hl : ∀ e ∈ l, Fillable (s.value? e.key))
    (hl' : ∀ e ∈ l', Fillable (s.value? e.key)) (h : ∀ key, Agree (assignments key l) (assignments key l')) :
    s.perform (.apply (l.map FieldEntry.command)) = s.perform (.apply (l'.map FieldEntry.command)) := by
  cases s with
  | memory s =>
    obtain ⟨s1, h1, hv1⟩ := Keyspace.apply_fillable (s := s) hl
    obtain ⟨s2, h2, hv2⟩ := Keyspace.apply_fillable (s := s) hl'
    have hvalues : s1.values = s2.values := OrderedMap.ext_get? fun k =>
      (hv1 k).trans (((h k).fill _).trans (hv2 k).symm)
    have hsame : s1 = s2 := congrArg Keyspace.mk hvalues
    rw [perform, perform, Keyspace.perform, Keyspace.perform, h1, h2, hsame]
  | database d =>
    by_cases hnil : l = []
    · obtain rfl := hnil
      obtain rfl := (nil_iff_of_agree h).mp rfl
      rfl
    have hnil' : l' ≠ [] := fun h' => hnil ((nil_iff_of_agree h).mpr h')
    have hperform : ∀ {l : List FieldEntry}, l ≠ [] → d.perform (.apply (l.map FieldEntry.command)) =
        d.transact (Transaction.apply (l.map FieldEntry.command)) := by
      intro l hne
      cases l with
      | nil => exact absurd rfl hne
      | cons e rest => rfl
    rw [perform_database, perform_database, hperform hnil, hperform hnil']
    by_cases hclosed : d.access = .closed
    · rw [Database.transact_closed hclosed, Database.transact_closed hclosed]
    rw [Database.transact_open hclosed, Database.transact_open hclosed]
    by_cases ha : d.access = .writing
    · rw [ha, Transaction.apply_entries_congr hl hl' h]
    · rw [Transaction.exec_apply_entries hnil ha, Transaction.exec_apply_entries hnil' ha]

end Backend
end Store

namespace Repository

open Store (Agree Backend FieldEntry Fillable KeyValueStore assignments mem_assignments)
open Share (Download stableId)

/-! ### Last occurrences -/

section Last

variable {α β : Type} {p : β → Bool} {f : α → List β}

theorem lastWhere?_append (p : β → Bool) (l l' : List β) :
    lastWhere? p (l ++ l') = (lastWhere? p l').or (lastWhere? p l) := by
  rw [lastWhere?, List.reverse_append, List.find?_append]
  rfl

/-- Parts of a list may change places if only one of them has what is looked for. -/
theorem lastWhere?_flatMap_perm {l l' : List α} (h : l.Perm l')
    (hp : l.Pairwise fun a b => lastWhere? p (f a) = none ∨ lastWhere? p (f b) = none) :
    lastWhere? p (l.flatMap f) = lastWhere? p (l'.flatMap f) := by
  induction h with
  | nil => rfl
  | cons a _ ih =>
    rw [List.flatMap_cons, List.flatMap_cons, lastWhere?_append, lastWhere?_append, ih (List.pairwise_cons.mp hp).2]
  | swap a b l =>
    have hab := (List.pairwise_cons.mp hp).1 a List.mem_cons_self
    simp only [List.flatMap_cons, lastWhere?_append, Option.or_assoc]
    rcases hab with hnone | hnone <;> simp [hnone]
  | trans h1 _ ih1 ih2 =>
    have hsymm : ∀ {a b : α}, (lastWhere? p (f a) = none ∨ lastWhere? p (f b) = none) →
        (lastWhere? p (f b) = none ∨ lastWhere? p (f a) = none) := Or.symm
    exact (ih1 hp).trans (ih2 ((h1.pairwise_iff hsymm).mp hp))

end Last

/-! ### Batches -/

/-- The ids of downloads are those of their paths, and different downloads have different ids, as have their files. -/
structure Unshared (batch : List Download) : Prop where
  named : ∀ d ∈ batch, d.id = stableId d.sourcePath
  apart : batch.Pairwise fun d d' => d.id ≠ d'.id ∧ ∀ file ∈ d.files, ∀ file' ∈ d'.files, file.id ≠ file'.id

theorem Unshared.perm {batch batch' : List Download} (hu : Unshared batch) (hp : batch.Perm batch') :
    Unshared batch' := by
  refine ⟨fun d hd => hu.named d (hp.mem_iff.mpr hd), (hp.pairwise_iff fun {d d'} h => ?_).mp hu.apart⟩
  exact ⟨h.1.symm, fun file hf file' hf' => (h.2 file' hf' file hf).symm⟩

section Batches

variable {g : Generation} {pages : Nat} {batch batch' : List Download} {s : Shared Backend}

/-- A field of a download stands for the download or for one of its files. -/
theorem mem_downloadEntries {d : Download} {e : FieldEntry} (h : e ∈ downloadEntries g d) :
    ((e.key = Key.downloads g ∨ e.key = Key.pages g) ∧ e.field = d.id) ∨
      ((e.key = Key.files g ∨ e.key = Key.downloadFiles g d.id) ∧ ∃ file ∈ d.files, e.field = file.id) := by
  simp only [downloadEntries, fileEntries, List.mem_append, List.mem_cons, List.not_mem_nil, or_false,
    List.mem_flatMap] at h
  rcases h with (rfl | rfl) | ⟨file, hf, rfl | rfl⟩
  · exact .inl ⟨.inl rfl, rfl⟩
  · exact .inl ⟨.inr rfl, rfl⟩
  · exact .inr ⟨.inl rfl, file, hf, rfl⟩
  · exact .inr ⟨.inr rfl, file, hf, rfl⟩

theorem downloadKey_ne_fileKey {key : String} {download : String} (h : key = Key.downloads g ∨ key = Key.pages g)
    (h' : key = Key.files g ∨ key = Key.downloadFiles g download) : False := by
  rcases h with rfl | rfl <;> rcases h' with h' | h'
  · exact files_ne_downloads g h'.symm
  · exact downloadFiles_ne_downloads g download h'.symm
  · exact files_ne_pages g h'.symm
  · exact downloadFiles_ne_pages g download h'.symm

theorem entries_apart {d d' : Download} (hids : d.id ≠ d'.id)
    (hfiles : ∀ file ∈ d.files, ∀ file' ∈ d'.files, file.id ≠ file'.id) {e e' : FieldEntry}
    (he : e ∈ downloadEntries g d) (he' : e' ∈ downloadEntries g d') (hkey : e.key = e'.key) : e.field ≠ e'.field := by
  rcases mem_downloadEntries he with ⟨hk, hf⟩ | ⟨hk, file, hm, hf⟩ <;>
    rcases mem_downloadEntries he' with ⟨hk', hf'⟩ | ⟨hk', file', hm', hf'⟩ <;> rw [hf, hf']
  · exact hids
  · exact (downloadKey_ne_fileKey hk (hkey ▸ hk')).elim
  · exact (downloadKey_ne_fileKey hk' (hkey ▸ hk)).elim
  · exact hfiles file hm file' hm'

theorem Unshared.agree (hu : Unshared batch) (hp : batch.Perm batch') (g : Generation) (key : String) :
    Agree (assignments key (entries g batch)) (assignments key (entries g batch')) := by
  intro field
  rw [entries, entries, assignments_flatMap, assignments_flatMap]
  refine lastWhere?_flatMap_perm hp (hu.apart.imp fun {d d'} hd => ?_)
  by_contra hboth
  rw [not_or] at hboth
  obtain ⟨⟨f, v⟩, hv⟩ := Option.ne_none_iff_exists'.mp hboth.1
  obtain ⟨⟨f', v'⟩, hv'⟩ := Option.ne_none_iff_exists'.mp hboth.2
  obtain ⟨hm, hf⟩ := mem_of_lastWhere? hv
  obtain ⟨hm', hf'⟩ := mem_of_lastWhere? hv'
  refine entries_apart hd.1 hd.2 (mem_assignments.mp hm) (mem_assignments.mp hm') rfl ?_
  exact (of_decide_eq_true hf).trans (of_decide_eq_true hf').symm

theorem Unshared.perform_commands (hu : Unshared batch) (hp : batch.Perm batch') {s : Backend}
    (hnone : ∀ e ∈ entries g batch, s.value? e.key = none) :
    s.perform (.apply (commands g batch)) = s.perform (.apply (commands g batch')) := by
  have hfillable : ∀ e ∈ entries g batch, Fillable (s.value? e.key) := by
    intro e he
    rw [hnone e he]
    trivial
  have hsubset : ∀ e ∈ entries g batch', e ∈ entries g batch := by
    intro e he
    exact ((hp.flatMap_right _).mem_iff).mpr he
  rw [commands_eq, commands_eq]
  exact Backend.perform_entries_congr hfillable (fun e he => hfillable e (hsubset e he)) (hu.agree hp g)

/-! ### Calls -/

theorem request_apply_congr {raise : Store.Error → Error} {cs cs' : List Store.Command}
    (h : s.store.perform (.apply cs) = s.store.perform (.apply cs')) :
    (request raise (.apply cs)).perform s = (request raise (.apply cs')).perform s :=
  congrArg (fun o : Store.Outcome Backend Unit => (o.1.mapError raise, { s with store := o.2 })) h

/-- A publication does not depend on the order of the downloads. -/
theorem publish_perform_perm (hu : Unshared batch) (hp : batch.Perm batch') (hn : KeyValueStore.extent s.store < pages) :
    (publish pages batch).perform s = (publish pages batch').perform s := by
  unfold publish
  refine run_action_congr rfl fun active s1 h1 => run_action_congr rfl fun n s2 h2 => ?_
  refine run_action_congr (request_apply_congr (hu.perform_commands hp fun e he => ?_)) fun u s3 _ => rfl
  -- nothing is left under the keys of the batch once the generation has been cleared
  obtain ⟨events1, hr1⟩ := runs_perform h1
  obtain ⟨rfl, -⟩ := storedGeneration_runs hr1
  obtain ⟨events2, hr2⟩ := runs_perform h2
  refine clear_all hn hr2 (scoped_of_mem_entries he) fun _ => ?_
  refine visible_of_mem_entries s1.store (fun d hd => ?_) he
  rw [hu.named d hd]
  exact lineFeed_not_mem_stableId d.sourcePath

theorem fileIds_perm (hp : batch.Perm batch') : (fileIds batch).Perm (fileIds batch') := hp.flatMap_right _

/-- A prune depends only on which files are to be kept. -/
theorem prune_perm (pages : Nat) (hp : batch.Perm batch') : prune pages batch = prune pages batch' := by
  have hcontains : ∀ file, (fileIds batch).contains file = (fileIds batch').contains file := by
    intro file
    rw [Bool.eq_iff_iff, List.contains_iff_mem, List.contains_iff_mem, (fileIds_perm hp).mem_iff]
  have hpages : ∀ (pages : Nat) (cursor : Option String),
      pruneAfter (fileIds batch) pages cursor = pruneAfter (fileIds batch') pages cursor := by
    intro pages
    induction pages with
    | zero => exact fun _ => rfl
    | succ pages ih =>
      intro cursor
      have hnext : ∀ next, pruneNext (fileIds batch) pages next = pruneNext (fileIds batch') pages next := by
        intro next
        funext deleted
        cases next with
        | none => rfl
        | some cursor => rw [pruneNext, pruneNext, ih]
      simp only [pruneAfter_succ, hcontains, hnext]
  exact hpages pages none

end Batches
end Repository
end ShareIndex
