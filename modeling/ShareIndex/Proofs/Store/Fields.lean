import ShareIndex.Proofs.Store.Effect
import Mathlib.Algebra.Order.BigOperators.Group.List

/-!
# ShareIndex.Proofs.Store.Fields

What requests to a single hash answer and do, for both backends at once.

* `Backend.perform_increment`    — one field is set to the sum, or nothing happens.
* `Backend.perform_deleteFields` — the fields are gone, and with the last one the hash, or nothing happens.
* `Backend.perform_scanFields`   — a page of the fields.
* `Backend.fields_le_extent`     — no hash has more fields than the store has keys and fields.
-/

namespace ShareIndex
namespace Store

/-- A hash without fields has a single page, which is empty. -/
theorem Page.ofItems_after_empty (cursor : Option String) (count : Nat) :
    Page.ofItems (((∅ : Hash).after cursor).take count) count (·.1) = ⟨[], none⟩ := by
  have hempty : ((∅ : Hash).after cursor).take count = [] := by cases cursor <;> exact List.take_nil
  rw [hempty, Page.ofItems]
  split <;> rfl

/-! ### Memory -/

namespace Keyspace

theorem get?_eraseFields (hash : Hash) (fields : List String) (f : String) :
    (eraseFields hash fields).2.get? f = if f ∈ fields then none else hash.get? f := by
  induction fields generalizing hash with
  | nil => simp [eraseFields]
  | cons field rest ih =>
    simp only [eraseFields, ih, OrderedMap.get?_erase, List.mem_cons]
    by_cases h1 : f ∈ rest <;> by_cases h2 : f = field <;> simp [h1, h2]

theorem eraseFields_empty (fields : List String) : eraseFields ∅ fields = (0, ∅) := by
  induction fields with
  | nil => rfl
  | cons field rest ih =>
    have herase : OrderedMap.erase (∅ : Hash) field = ∅ := rfl
    rw [eraseFields, herase, ih]
    rfl

theorem deleteFields_eq (s : Keyspace) (key : String) (fields : List String) :
    s.deleteFields key fields =
      if Fillable (s.get? key) then
        (.ok (eraseFields (hashOf (s.get? key)) fields).1, s.putHash key (eraseFields (hashOf (s.get? key)) fields).2)
      else (.error (.wrongType key), s) := by
  rw [deleteFields, hashAt_eq]
  by_cases hf : Fillable (s.get? key)
  · simp only [if_pos hf]
  · simp only [if_neg hf]

end Keyspace

/-! ### Databases -/

namespace Tables

theorem fieldsOf_congr {t t' : Tables} {key : String}
    (h : ∀ f, t'.fields.get? ⟨key, f⟩ = t.fields.get? ⟨key, f⟩) : t'.fieldsOf key = t.fieldsOf key :=
  OrderedMap.ext_get? fun f => by rw [get?_fieldsOf, get?_fieldsOf, h]

theorem fillable_of_insertHash {t : Tables} {key : String} (h : (t.insertHash key).kindOf? key ≠ some .text) :
    Fillable (t.value? key) := by
  rw [fillable_iff]
  intro ht
  refine h ?_
  have hc : t.keys.contains key = true := by
    rw [kindOf?, Option.map_eq_some_iff] at ht
    obtain ⟨row, hrow, -⟩ := ht
    exact OrderedMap.contains_iff.mpr ⟨row, hrow⟩
  rw [insertHash, if_pos hc, ht]

theorem kindOf?_hash {t : Tables} {key : String} (h : t.kindOf? key = some .hash) :
    ∃ v, t.keys.get? key = some ⟨.hash, v⟩ := by
  rw [kindOf?, Option.map_eq_some_iff] at h
  obtain ⟨⟨kind, v⟩, hrow, rfl⟩ := h
  exact ⟨v, hrow⟩

/-- A hash that has lost its fields is a missing key, and another hash stays as it is. -/
theorem value?_deleteEmptyHash (t : Tables) {key : String} (h : t.kindOf? key = some .hash) :
    (t.deleteEmptyHash key).value? key = stored (t.fieldsOf key) := by
  obtain ⟨v, hrow⟩ := kindOf?_hash h
  unfold deleteEmptyHash stored
  by_cases he : t.fieldRows key = []
  · have hempty : (t.fieldsOf key).isEmpty = true := List.isEmpty_iff.mpr he
    rw [if_pos ⟨h, he⟩, value?_of_none (t.get?_keys_deleteKey key), if_pos hempty]
  · have hne : ¬ (t.fieldsOf key).isEmpty = true := fun hb => he (List.isEmpty_iff.mp hb)
    rw [if_neg fun hb => he hb.2, value?_of_hash hrow, if_neg hne]

end Tables

namespace Transaction

variable {t t' : Tables} {a : Access} {key field : String} {delta : Int64} {n : Int}

theorem exec_lift {α : Type} (r : Except Error α) (a : Access) (t : Tables) :
    exec (liftM r : Transaction α) a t = r.map fun x => (x, t) := by
  cases r <;> rfl

theorem exec_lift_ok {α : Type} {r : Except Error α} {x : α} (h : exec (liftM r : Transaction α) a t = .ok (x, t')) :
    r = .ok x ∧ t' = t := by
  rw [exec_lift] at h
  cases r with
  | error e => cases h
  | ok y => cases h; exact ⟨rfl, rfl⟩

theorem fieldOf?_insertHash (h : Fillable (t.value? key)) (field : String) :
    (t.insertHash key).fieldOf? key field = (hashOf (t.value? key)).get? field := by
  rw [Tables.fieldOf?, (Tables.insertHash_hash h).2, ← Tables.get?_fieldsOf, Tables.fieldsOf_eq_hashOf h]

/-- An increment that succeeds has stored the sum. -/
theorem exec_increment_ok (h : exec (increment key field delta) a t = .ok (n, t')) :
    a = .writing ∧ Fillable (t.value? key) ∧ summed (t.value? key) field delta = .ok n ∧
      t'.value? key = some (.hash ((hashOf (t.value? key)).insert field (Decimal.renderWord n))) := by
  obtain ⟨u, t1, h1, h⟩ := exec_bind_ok.mp h
  obtain ⟨ha, rfl, hk⟩ := exec_ensureHash_ok h1
  have hf := Tables.fillable_of_insertHash hk
  obtain ⟨t2, t3, h2, h⟩ := exec_bind_ok.mp h
  cases h2
  obtain ⟨current, t4, h3, h⟩ := exec_bind_ok.mp h
  obtain ⟨hc, rfl⟩ := exec_lift_ok h3
  obtain ⟨sum, t5, h4, h⟩ := exec_bind_ok.mp h
  obtain ⟨hs, rfl⟩ := exec_lift_ok h4
  obtain ⟨u', t6, h5, h⟩ := exec_bind_ok.mp h
  cases h
  rw [fieldOf?_insertHash hf] at hc
  obtain ⟨⟨v, hv⟩, hfields⟩ := Tables.insertHash_hash hf
  obtain ⟨t7, hu, hval⟩ := Tables.upsertField_hash field (Decimal.renderWord n) hv
  obtain rfl : t7 = t' := Except.ok.inj (hu.symm.trans (exec_write_ok h5).2)
  refine ⟨ha, hf, by rw [summed, hc]; exact hs, ?_⟩
  have hsame : (t.insertHash key).fieldsOf key = t.fieldsOf key :=
    Tables.fieldsOf_congr fun f => by rw [hfields]
  rw [hval, hsame, Tables.fieldsOf_eq_hashOf hf]

theorem exec_increment_writing (hf : Fillable (t.value? key)) (hn : summed (t.value? key) field delta = .ok n) :
    ∃ t', exec (increment key field delta) .writing t = .ok (n, t') := by
  obtain ⟨⟨v, hv⟩, -⟩ := Tables.insertHash_hash hf
  obtain ⟨t', hu, -⟩ := Tables.upsertField_hash field (Decimal.renderWord n) hv
  have hupsert : exec (upsertField key field (Decimal.renderWord n)) .writing (t.insertHash key) = .ok ((), t') := by
    rw [upsertField, exec_write, if_pos rfl, hu]
    rfl
  have hget : exec get .writing (t.insertHash key) = .ok (t.insertHash key, t.insertHash key) := rfl
  refine ⟨t', ?_⟩
  rw [increment, exec_bind_of_ok (exec_ensureHash_writing hf), exec_bind_of_ok hget, fieldOf?_insertHash hf]
  rw [summed] at hn
  cases hc : currentValue ((hashOf (t.value? key)).get? field) with
  | error e =>
    rw [hc] at hn
    cases hn
  | ok current =>
    rw [hc] at hn
    have hsum : addWithin current delta = .ok n := hn
    rw [exec_bind_of_ok rfl, hsum, exec_bind_of_ok rfl, exec_bind_of_ok hupsert]
    rfl

/-- The rows that are deleted are those of the fields that the hash has. -/
theorem exec_deleteFieldRows (key : String) (fields : List String) (t : Tables) :
    ∃ t', exec (deleteFieldRows key fields) .writing t = .ok ((Keyspace.eraseFields (t.fieldsOf key) fields).1, t') ∧
      t'.keys = t.keys ∧ t'.fieldsOf key = (Keyspace.eraseFields (t.fieldsOf key) fields).2 := by
  induction fields generalizing t with
  | nil => exact ⟨t, rfl, rfl, rfl⟩
  | cons field rest ih =>
    have herase : (t.deleteField key field).fieldsOf key = (t.fieldsOf key).erase field := by
      apply OrderedMap.ext_get?
      intro f
      rw [Tables.get?_fieldsOf, OrderedMap.get?_erase, Tables.get?_fieldsOf, Tables.deleteField, OrderedMap.get?_erase]
      simp
    have hhere : t.fields.contains ⟨key, field⟩ = (t.fieldsOf key).contains field := by
      rw [OrderedMap.contains, OrderedMap.contains, Tables.get?_fieldsOf]
    have hget : exec get .writing t = .ok (t, t) := rfl
    have hwrite : exec (write fun t => .ok (t.deleteField key field)) .writing t = .ok ((), t.deleteField key field) := by
      rw [exec_write, if_pos rfl]
      rfl
    obtain ⟨t', hx, hk, hf⟩ := ih (t.deleteField key field)
    rw [herase] at hx hf
    refine ⟨t', ?_, hk, hf⟩
    rw [deleteFieldRows, exec_bind_of_ok hget, exec_bind_of_ok hwrite, exec_bind_of_ok hx, hhere]
    rfl

/-- The fields are gone, and with the last one the hash. -/
theorem exec_deleteFields (hf : Fillable (t.value? key)) (fields : List String) :
    ∃ t', exec (deleteFields key fields) .writing t =
        .ok ((Keyspace.eraseFields (hashOf (t.value? key)) fields).1, t') ∧
      t'.value? key = stored (Keyspace.eraseFields (hashOf (t.value? key)) fields).2 := by
  have hkind := t.kindOf?_eq key
  cases hv : t.value? key with
  | none =>
    rw [hv] at hkind
    have hexpect : exec (expectHash key) .writing t = .ok (false, t) := by rw [exec_expectHash, hkind, Option.map_none]
    have hhash : hashOf none = ∅ := rfl
    rw [hhash, Keyspace.eraseFields_empty]
    refine ⟨t, ?_, hv⟩
    rw [deleteFields, exec_bind_of_ok hexpect]
    rfl
  | some v =>
    cases v with
    | text text =>
      rw [hv] at hf
      exact hf.elim
    | hash hash =>
      rw [hv] at hkind
      have hexpect : exec (expectHash key) .writing t = .ok (true, t) := by rw [exec_expectHash, hkind, Option.map_some]
      obtain ⟨t', hrows, hkeys, hleft⟩ := exec_deleteFieldRows key fields t
      rw [Tables.fieldsOf_of_value? hv] at hrows hleft
      have hwrite : exec (write fun t => .ok (t.deleteEmptyHash key)) .writing t' = .ok ((), t'.deleteEmptyHash key) := by
        rw [exec_write, if_pos rfl]
        rfl
      refine ⟨t'.deleteEmptyHash key, ?_, ?_⟩
      · rw [deleteFields, exec_bind_of_ok hexpect, if_pos rfl, exec_bind_of_ok hrows, exec_bind_of_ok hwrite]
        rfl
      · have hkind' : t'.kindOf? key = some .hash := by
          rw [Tables.kindOf?, hkeys]
          exact hkind
        rw [t'.value?_deleteEmptyHash hkind', hleft]
        rfl

/-- No other deletion succeeds. -/
theorem exec_deleteFields_ok {fields : List String} {count : Nat}
    (h : exec (deleteFields key fields) a t = .ok (count, t')) :
    Fillable (t.value? key) ∧ count = (Keyspace.eraseFields (hashOf (t.value? key)) fields).1 ∧
      t'.value? key = stored (Keyspace.eraseFields (hashOf (t.value? key)) fields).2 := by
  obtain ⟨there, t0, h1, h2⟩ := exec_bind_ok.mp h
  obtain ⟨rfl, hne⟩ := exec_expectHash_ok h1
  have hf := (t0.fillable_iff key).mpr hne
  cases there with
  | false =>
    -- nothing is there, so that the right to write is not asked for
    cases h2
    have hnone : t'.value? key = none := by
      rw [exec_expectHash] at h1
      split at h1
      · rename_i hkind
        rwa [Tables.kindOf?_eq, Option.map_eq_none_iff] at hkind
      · cases h1
      · cases h1
    have hhash : hashOf none = ∅ := rfl
    rw [hnone, hhash, Keyspace.eraseFields_empty]
    exact ⟨trivial, rfl, rfl⟩
  | true =>
    obtain ⟨deleted, t1, -, h3⟩ := exec_bind_ok.mp h2
    obtain ⟨u, t2, h4, -⟩ := exec_bind_ok.mp h3
    obtain ⟨rfl, -⟩ := exec_write_ok h4
    obtain ⟨t3, hx, hv⟩ := exec_deleteFields hf fields
    rw [h] at hx
    cases hx
    exact ⟨hf, rfl, hv⟩

end Transaction

/-! ### Both -/

namespace Backend

/-- On a store that can be written to, only a sum that cannot be made or a text in the place of the hash make an
increment fail. -/
theorem perform_increment (s : Backend) (key field : String) (delta : Int64) :
    (∃ e, s.perform (.increment key field delta) = (.error e, s) ∧
      (s.access = .writing → Fillable (s.value? key) → ∃ e, summed (s.value? key) field delta = .error e)) ∨
    ∃ n s', s.perform (.increment key field delta) = (.ok n, s') ∧ Fillable (s.value? key) ∧
      summed (s.value? key) field delta = .ok n ∧
      s'.value? key = some (.hash ((hashOf (s.value? key)).insert field (Decimal.renderWord n))) := by
  cases s with
  | memory s =>
    have hp : (memory s).perform (.increment key field delta) =
        ((s.increment key field delta).1, memory (s.increment key field delta).2) := rfl
    rw [hp, s.increment_eq]
    by_cases hf : Fillable (s.get? key)
    · rw [if_pos hf]
      cases hn : summed (s.get? key) field delta with
      | error e => exact .inl ⟨e, rfl, fun _ _ => ⟨e, hn⟩⟩
      | ok n => exact .inr ⟨n, _, rfl, hf, hn, (s.get?_put key _ key).trans (if_pos rfl)⟩
    · rw [if_neg hf]
      exact .inl ⟨_, rfl, fun _ hf' => absurd hf' hf⟩
  | database d =>
    have hp : d.perform (.increment key field delta) = d.transact (Transaction.increment key field delta) := rfl
    rw [perform_database, hp]
    rcases d.transact_cases (Transaction.increment key field delta) with ⟨e, he⟩ | ⟨n, t, hx, he⟩
    · refine .inl ⟨e, by rw [he], fun ha hf => ?_⟩
      cases hn : summed (d.tables.value? key) field delta with
      | error e' => exact ⟨e', hn⟩
      | ok n =>
        obtain ⟨t, hx⟩ := Transaction.exec_increment_writing hf hn
        rw [Database.transact_open (by rw [show d.access = .writing from ha]; decide),
          show d.access = .writing from ha, hx] at he
        cases he
    · obtain ⟨-, hf, hn, hv⟩ := Transaction.exec_increment_ok hx
      exact .inr ⟨n, database { d with tables := t }, by rw [he], hf, hn, hv⟩

/-- On a store that can be written to, only a text in the place of the hash makes a deletion fail. -/
theorem perform_deleteFields (s : Backend) (key : String) (fields : List String) :
    (∃ e, s.perform (.deleteFields key fields) = (.error e, s) ∧ (s.access = .writing → ¬ Fillable (s.value? key))) ∨
    ∃ s', s.perform (.deleteFields key fields) =
        (.ok (Keyspace.eraseFields (hashOf (s.value? key)) fields).1, s') ∧
      s'.value? key = stored (Keyspace.eraseFields (hashOf (s.value? key)) fields).2 := by
  cases s with
  | memory s =>
    have hp : (memory s).perform (.deleteFields key fields) =
        ((s.deleteFields key fields).1, memory (s.deleteFields key fields).2) := rfl
    rw [hp, s.deleteFields_eq]
    by_cases hf : Fillable (s.get? key)
    · rw [if_pos hf]
      exact .inr ⟨_, rfl, (s.get?_putHash key _ key).trans (if_pos rfl)⟩
    · rw [if_neg hf]
      exact .inl ⟨_, rfl, fun _ => hf⟩
  | database d =>
    have hp : d.perform (.deleteFields key fields) = d.transact (Transaction.deleteFields key fields) := rfl
    rw [perform_database, hp]
    rcases d.transact_cases (Transaction.deleteFields key fields) with ⟨e, he⟩ | ⟨n, t, hx, he⟩
    · refine .inl ⟨e, by rw [he], fun ha hf => ?_⟩
      obtain ⟨t, hx, -⟩ := Transaction.exec_deleteFields hf fields
      rw [Database.transact_open (by rw [show d.access = .writing from ha]; decide),
        show d.access = .writing from ha, hx] at he
      cases he
    · obtain ⟨-, rfl, hv⟩ := Transaction.exec_deleteFields_ok hx
      refine .inr ⟨database { d with tables := t }, ?_, hv⟩
      rw [he]
      rfl

/-- What is left of a hash is there, and nothing is there when nothing is left of it. -/
theorem deleteFields_ok {s s' : Backend} {key : String} {fields : List String} {n : Nat}
    (h : s.perform (.deleteFields key fields) = (.ok n, s')) :
    n = (Keyspace.eraseFields (hashOf (s.value? key)) fields).1 ∧
      s'.value? key = stored (Keyspace.eraseFields (hashOf (s.value? key)) fields).2 := by
  rcases s.perform_deleteFields key fields with ⟨e, he, -⟩ | ⟨left, he, hv⟩
  · rw [he] at h
    cases h
  · rw [he] at h
    cases h
    exact ⟨rfl, hv⟩

theorem perform_scanFields (s : Backend) (key : String) (cursor : Option String) (count : Nat) :
    s.perform (.scanFields key cursor count) =
      (if s.access = .closed then .error .database
        else if Fillable (s.value? key) then .ok (.ofItems (((hashOf (s.value? key)).after cursor).take count) count (·.1))
        else .error (.wrongType key), s) := by
  cases s with
  | memory s =>
    show (s.scanFields key cursor count, memory s) = _
    rw [Keyspace.scanFields, s.hashAt_eq, if_neg (show (memory s).access ≠ .closed by simp [access])]
    by_cases hf : Fillable (s.get? key)
    · rw [if_pos hf, if_pos (show Fillable ((memory s).value? key) from hf)]
      rfl
    · rw [if_neg hf, if_neg (show ¬ Fillable ((memory s).value? key) from hf)]
  | database d =>
    rw [perform_database, Database.perform]
    by_cases h : d.access = .closed
    · rw [if_pos (show (database d).access = .closed from h), Database.query_closed h]
    · rw [if_neg (show (database d).access ≠ .closed from h), Database.query_open h]
      by_cases hf : Fillable (d.tables.value? key)
      · have hfields : d.tables.fieldsOf key = hashOf (d.tables.value? key) := Tables.fieldsOf_eq_hashOf hf
        have hmissing : d.tables.value? key = none → (⟨[], none⟩ : Page (String × String)) =
            .ofItems (d.tables.scanFields key cursor count) count (·.1) := by
          intro hv
          rw [Tables.scanFields, hfields, hv]
          exact (Page.ofItems_after_empty cursor count).symm
        rw [ofHash_eq hf hmissing, if_pos (show Fillable ((database d).value? key) from hf), Tables.scanFields, hfields]
        rfl
      · rw [if_neg (show ¬ Fillable ((database d).value? key) from hf)]
        have hkind : d.tables.kindOf? key = some .text := by
          rw [Tables.fillable_iff] at hf
          exact not_not.mp hf
        rw [Database.ofHash, hkind]

/-- No hash has more fields than there are keys and fields. -/
theorem fields_le_extent (s : Backend) (key : String) : (hashOf (s.value? key)).size ≤ KeyValueStore.extent s := by
  cases s with
  | memory s =>
    show (hashOf (s.values.get? key)).size ≤ s.extent
    have hsum : ∀ e ∈ s.values.entries, Keyspace.valueExtent e.2 ≤ s.extent := fun e he =>
      List.le_sum_of_mem (List.mem_map_of_mem he)
    cases hv : s.values.get? key with
    | none => exact Nat.zero_le _
    | some v =>
      have hle := hsum _ (OrderedMap.get?_eq_some_iff.mp hv)
      cases v with
      | text => exact Nat.zero_le _
      | hash fields => exact Nat.le_trans (Nat.le_add_left _ 1) hle
  | database d =>
    show (hashOf (d.tables.value? key)).size ≤ d.tables.keys.size + d.tables.fields.size
    by_cases hf : Fillable (d.tables.value? key)
    · rw [← Tables.fieldsOf_eq_hashOf hf]
      exact Nat.le_trans (List.length_filterMap_le _ _) (Nat.le_add_left _ _)
    · cases hv : d.tables.value? key with
      | none => exact Nat.zero_le _
      | some v =>
        cases v with
        | text => exact Nat.zero_le _
        | hash => rw [hv] at hf; exact absurd trivial hf

end Backend
end Store
end ShareIndex
