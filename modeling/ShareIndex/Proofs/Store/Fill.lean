import ShareIndex.Proofs.Store.Rows

/-!
# ShareIndex.Proofs.Store.Fill

Batches that do nothing but set fields.

* `FieldEntry` — a value for a field of a key; `FieldEntry.command` sets it.
* `fill`       — a value after some of its fields have been set, one after the other.
* `Keyspace.apply_fillable`, `Transaction.apply_fillable` — a batch on hashes and missing keys succeeds, and fills
  each key with its entries.
-/

namespace ShareIndex
namespace Store

structure FieldEntry where
  key : String
  field : String
  value : String
  deriving DecidableEq, Repr

def FieldEntry.command (e : FieldEntry) : Command := .setField e.key e.field e.value

/-- What the entries set under one key, in their order. -/
def assignments (key : String) (entries : List FieldEntry) : List (String × String) :=
  entries.filterMap fun e => if e.key = key then some (e.field, e.value) else none

def setFields (fields : Hash) (l : List (String × String)) : Hash := l.foldl (fun m e => m.insert e.1 e.2) fields

def fill (v : Option Value) (l : List (String × String)) : Option Value :=
  if l = [] then v else some (.hash (setFields (hashOf v) l))

theorem fill_cons (v : Option Value) (e : String × String) (l : List (String × String)) :
    fill (some (.hash ((hashOf v).insert e.1 e.2))) l = fill v (e :: l) := by
  cases l with
  | nil => rfl
  | cons d l => rfl

theorem fillable_fill {v : Option Value} (h : Fillable v) (l : List (String × String)) : Fillable (fill v l) := by
  unfold fill
  split
  · exact h
  · trivial

theorem assignments_nil (key : String) : assignments key [] = [] := rfl

theorem assignments_cons (key : String) (e : FieldEntry) (entries : List FieldEntry) :
    assignments key (e :: entries) =
      if e.key = key then (e.field, e.value) :: assignments key entries else assignments key entries := by
  unfold assignments
  split
  · rename_i h; rw [List.filterMap_cons_some (by rw [if_pos h])]
  · rename_i h; rw [List.filterMap_cons_none (by rw [if_neg h])]

theorem mem_assignments {key field value : String} {entries : List FieldEntry} :
    (field, value) ∈ assignments key entries ↔ ⟨key, field, value⟩ ∈ entries := by
  simp only [assignments, List.mem_filterMap, Option.ite_none_right_eq_some, Option.some.injEq, Prod.mk.injEq]
  constructor
  · rintro ⟨e, he, rfl, rfl, rfl⟩
    exact he
  · intro h
    exact ⟨_, h, rfl, rfl, rfl⟩

/-! ### Memory -/

namespace Keyspace

theorem runCommand_entry {s : Keyspace} {e : FieldEntry} (h : Fillable (s.get? e.key)) :
    s.runCommand e.command =
      (.ok (), s.put e.key (.hash ((hashOf (s.get? e.key)).insert e.field e.value))) := by
  rw [FieldEntry.command, runCommand, setField_eq, if_pos h]

/-- A batch of entries for hashes and missing keys succeeds, and fills each key with its entries. -/
theorem apply_fillable {s : Keyspace} {entries : List FieldEntry} (h : ∀ e ∈ entries, Fillable (s.get? e.key)) :
    ∃ s', s.apply (entries.map FieldEntry.command) = (.ok (), s') ∧
      ∀ k, s'.get? k = fill (s.get? k) (assignments k entries) := by
  induction entries generalizing s with
  | nil => exact ⟨s, rfl, fun k => rfl⟩
  | cons e rest ih =>
    obtain ⟨he, hr⟩ := List.forall_mem_cons.mp h
    have hc := runCommand_entry he
    obtain ⟨s', hs', hk⟩ := ih (s := s.put e.key (.hash ((hashOf (s.get? e.key)).insert e.field e.value)))
      (by
        intro d hd
        rw [get?_put]
        split
        · trivial
        · exact hr d hd)
    refine ⟨s', ?_, fun k => ?_⟩
    · rw [List.map_cons, apply, hc]
      exact hs'
    · rw [hk, get?_put, assignments_cons]
      by_cases hek : k = e.key
      · rw [if_pos hek, if_pos hek.symm, hek, ← fill_cons]
      · rw [if_neg hek, if_neg fun h => hek h.symm]

end Keyspace

/-! ### Databases -/

namespace Tables

def value? (t : Tables) (key : String) : Option Value := (t.contents key).value?

theorem value?_of_none {t : Tables} {key : String} (h : t.keys.get? key = none) : t.value? key = none := by
  rw [value?, contents, h, Contents.value?]

theorem value?_of_hash {t : Tables} {key : String} {v : Option String} (h : t.keys.get? key = some ⟨.hash, v⟩) :
    t.value? key = some (.hash (t.fieldsOf key)) := by
  rw [value?, contents, h, Contents.value?]

theorem value?_of_text {t : Tables} {key : String} {v : Option String} (h : t.keys.get? key = some ⟨.text, v⟩) :
    t.value? key = some (.text (v.getD "")) := by
  rw [value?, contents, h, Contents.value?]

theorem kindOf?_eq (t : Tables) (key : String) :
    t.kindOf? key = (t.value? key).map fun | .text _ => .text | .hash _ => .hash := by
  rw [kindOf?]
  cases h : t.keys.get? key with
  | none => rw [value?_of_none h]; rfl
  | some row =>
    obtain ⟨kind, v⟩ := row
    cases kind with
    | text => rw [value?_of_text h]; rfl
    | hash => rw [value?_of_hash h]; rfl

theorem fillable_iff (t : Tables) (key : String) : Fillable (t.value? key) ↔ t.kindOf? key ≠ some .text := by
  rw [kindOf?_eq]
  cases h : t.value? key with
  | none => simp [Fillable]
  | some v => cases v <;> simp [Fillable]

/-- The fields of a key are those of its hash; a key that holds nothing has none. -/
theorem fieldsOf_eq_hashOf {t : Tables} {key : String} (h : Fillable (t.value? key)) :
    t.fieldsOf key = hashOf (t.value? key) := by
  cases hk : t.keys.get? key with
  | none => rw [value?_of_none hk, fieldsOf_eq_empty hk]; rfl
  | some row =>
    obtain ⟨kind, v⟩ := row
    cases kind with
    | text => rw [value?_of_text hk] at h; exact h.elim
    | hash => rw [value?_of_hash hk]; rfl

theorem fieldsOf_of_value? {t : Tables} {key : String} {fields : Hash} (h : t.value? key = some (.hash fields)) :
    t.fieldsOf key = fields := by
  have hf : Fillable (t.value? key) := by
    rw [h]
    trivial
  rw [fieldsOf_eq_hashOf hf, h]
  rfl

theorem insertHash_hash {t : Tables} {key : String} (h : Fillable (t.value? key)) :
    (∃ v, (t.insertHash key).keys.get? key = some ⟨.hash, v⟩) ∧ (t.insertHash key).fields = t.fields := by
  rw [fillable_iff, kindOf?] at h
  unfold insertHash
  split
  · rename_i hc
    refine ⟨?_, rfl⟩
    obtain ⟨⟨kind, v⟩, hrow⟩ := OrderedMap.contains_iff.mp hc
    rw [hrow] at h ⊢
    cases kind with
    | text => exact absurd rfl h
    | hash => exact ⟨v, rfl⟩
  · exact ⟨⟨none, by rw [OrderedMap.get?_insert, if_pos rfl]⟩, rfl⟩

theorem value?_eq {t t' : Tables} {key : String} (h : t'.contents key = t.contents key) :
    t'.value? key = t.value? key := congrArg Contents.value? h

theorem upsertField_hash {t : Tables} {key : String} {v : Option String} (field value : String)
    (h : t.keys.get? key = some ⟨.hash, v⟩) :
    ∃ t', t.upsertField key field value = .ok t' ∧
      t'.value? key = some (.hash ((t.fieldsOf key).insert field value)) := by
  have hc : t.keys.contains key = true := OrderedMap.contains_iff.mpr ⟨_, h⟩
  obtain ⟨t', hs, hk, hf⟩ : ∃ t', t.upsertField key field value = .ok t' ∧ t'.keys = t.keys ∧
      t'.fields = t.fields.insert ⟨key, field⟩ value := ⟨_, dif_pos hc, rfl, rfl⟩
  have hfields : t'.fieldsOf key = (t.fieldsOf key).insert field value := by
    apply OrderedMap.ext_get?
    intro f
    rw [OrderedMap.get?_insert, get?_fieldsOf, get?_fieldsOf, hf, OrderedMap.get?_insert]
    simp
  exact ⟨t', hs, by rw [value?_of_hash (hk ▸ h), hfields]⟩

end Tables

namespace Transaction

open Tables (value?)

theorem exec_ensureHash_writing {t : Tables} {key : String} (h : Fillable (t.value? key)) :
    exec (ensureHash key) .writing t = .ok ((), t.insertHash key) := by
  obtain ⟨⟨v, hv⟩, -⟩ := Tables.insertHash_hash h
  have hwrite : exec (write fun t => .ok (t.insertHash key)) .writing t = .ok ((), t.insertHash key) := by
    rw [exec_write, if_pos rfl]
    rfl
  have hexpect : exec (expectHash key) .writing (t.insertHash key) = .ok (true, t.insertHash key) := by
    rw [exec_expectHash, Tables.kindOf?, hv]
    rfl
  rw [ensureHash, exec_bind_of_ok hwrite, exec_bind_of_ok hexpect]
  rfl

/-- The field is set, whether the key holds a hash or nothing. -/
theorem exec_setField_writing {t : Tables} {key : String} (field value : String) (h : Fillable (t.value? key)) :
    ∃ t', exec (setField key field value) .writing t = .ok ((), t') ∧
      t'.value? key = some (.hash ((hashOf (t.value? key)).insert field value)) := by
  obtain ⟨⟨v, hv⟩, hf⟩ := Tables.insertHash_hash h
  obtain ⟨t', hu, hv'⟩ := Tables.upsertField_hash field value hv
  have hupsert : exec (upsertField key field value) .writing (t.insertHash key) = .ok ((), t') := by
    rw [upsertField, exec_write, if_pos rfl, hu]; rfl
  have hfields : (t.insertHash key).fieldsOf key = t.fieldsOf key :=
    OrderedMap.ext_get? fun f => by rw [Tables.get?_fieldsOf, Tables.get?_fieldsOf, hf]
  refine ⟨t', exec_bind_ok.mpr ⟨(), _, exec_ensureHash_writing h, hupsert⟩, ?_⟩
  rw [hv', hfields, Tables.fieldsOf_eq_hashOf h]

/-- A batch of entries for hashes and missing keys succeeds, and fills each key with its entries. -/
theorem apply_fillable {t : Tables} {entries : List FieldEntry} (h : ∀ e ∈ entries, Fillable (t.value? e.key)) :
    ∃ t', exec (apply (entries.map FieldEntry.command)) .writing t = .ok ((), t') ∧
      ∀ k, t'.value? k = fill (t.value? k) (assignments k entries) := by
  induction entries generalizing t with
  | nil => exact ⟨t, rfl, fun k => rfl⟩
  | cons e rest ih =>
    obtain ⟨he, hr⟩ := List.forall_mem_cons.mp h
    obtain ⟨t1, h1, hv⟩ := exec_setField_writing e.field e.value he
    have hother : ∀ k, k ≠ e.key → t1.value? k = t.value? k := fun k hk =>
      Tables.value?_eq (keeps_setField e.field e.value hk _ _ _ _ h1)
    obtain ⟨t', h2, hk⟩ := ih (t := t1) (by
      intro d hd
      by_cases hde : d.key = e.key
      · rw [hde, hv]; trivial
      · rw [hother _ hde]; exact hr d hd)
    refine ⟨t', exec_bind_ok.mpr ⟨(), t1, h1, h2⟩, fun k => ?_⟩
    rw [hk, assignments_cons]
    by_cases hek : k = e.key
    · rw [if_pos hek.symm, hek, hv, ← fill_cons]
    · rw [if_neg fun h => hek h.symm, hother k hek]

/-- A batch that is not empty needs a connection for writing. -/
theorem writing_of_apply {entries : List FieldEntry} {a : Access} {t t' : Tables} {u : Unit} (hne : entries ≠ [])
    (h : exec (apply (entries.map FieldEntry.command)) a t = .ok (u, t')) : a = .writing := by
  cases entries with
  | nil => exact absurd rfl hne
  | cons e rest =>
    obtain ⟨u1, t1, h1, -⟩ := exec_bind_ok.mp h
    obtain ⟨u2, t2, h2, -⟩ := exec_bind_ok.mp h1
    exact (exec_ensureHash_ok h2).1

end Transaction
end Store
end ShareIndex
