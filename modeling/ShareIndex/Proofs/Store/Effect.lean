import ShareIndex.Proofs.Store.View

/-!
# ShareIndex.Proofs.Store.Effect

What requests answer and do, for both backends at once. A request that writes does all of it or, on a connection
that may not write, nothing.

* `Page.next_eq_none_iff`, `Page.last_of_next`, `Page.follows_of_drop` — what the cursor of a page says about the rest.
* `Backend.listed`          — the keys that a complete scan for a pattern finds.
* `Backend.perform_scan`    — a page of a scan.
* `Backend.perform_delete`, `Backend.listed_delete` — deletion, and what scans find after it.
* `Backend.perform_set`, `Backend.perform_entries`  — setting a text, and setting fields.
* `Backend.perform_get`, `Backend.perform_getField`, `Backend.perform_getFields`, `Backend.perform_getAll` — what
  reads answer.
-/

namespace ShareIndex
namespace Store
namespace Backend

/-- Whether an enumeration that continues after the cursor still comes to the key. -/
def follows : Option String → String → Bool
  | none, _ => true
  | some cursor, key => decide (cursor < key)

theorem not_follows_last {l : List String} (hl : l.Pairwise (· < ·)) {last field : String}
    (h : l.getLast? = some last) (hf : field ∈ l) : follows (some last) field = false := by
  obtain ⟨front, rfl⟩ := List.getLast?_eq_some_iff.mp h
  refine decide_eq_false fun hlt => ?_
  rcases List.mem_append.mp hf with hf | hf
  · have hback := (List.pairwise_append.mp hl).2.2 field hf last List.mem_cons_self
    exact String.lt_irrefl _ (String.lt_trans hlt hback)
  · obtain rfl := List.mem_singleton.mp hf
    exact String.lt_irrefl _ hlt

theorem follows_trans {cursor : Option String} {next field : String} (h1 : follows cursor next = true)
    (h2 : follows (some next) field = true) : follows cursor field = true := by
  cases cursor with
  | none => rfl
  | some c => exact decide_eq_true (String.lt_trans (of_decide_eq_true h1) (of_decide_eq_true h2))

end Backend

/-! ### Pages -/

namespace Page

open Backend (follows not_follows_last)

variable {α : Type} {items : List α} {count : Nat} {name : α → String} {next : String} {a : α}

/-- A page is the last one if it is not full. -/
theorem next_eq_none_iff (hcount : 0 < count) :
    (Page.ofItems (items.take count) count name).next = none ↔ items.length < count := by
  simp only [ofItems, List.length_take, ite_eq_right_iff, Option.map_eq_none_iff, List.getLast?_eq_none_iff]
  constructor
  · intro h
    by_contra hle
    have hlength := congrArg List.length (h (by omega))
    simp only [List.length_take, List.length_nil] at hlength
    omega
  · intro hlt hle
    omega

theorem drop_of_last (hcount : 0 < count) (h : (Page.ofItems (items.take count) count name).next = none) :
    items.drop count = [] := List.drop_eq_nil_of_le (Nat.le_of_lt ((next_eq_none_iff hcount).mp h))

/-- The cursor of the next page is the last item of a full one. -/
theorem last_of_next (h : (Page.ofItems (items.take count) count name).next = some next) :
    count ≤ items.length ∧ ((items.take count).map name).getLast? = some next := by
  simp only [ofItems, List.length_take, Option.ite_none_right_eq_some] at h
  obtain ⟨hle, hlast⟩ := h
  rw [List.getLast?_map]
  exact ⟨by omega, hlast⟩

/-- What a page leaves over follows its cursor. -/
theorem follows_of_drop (hasc : items.Pairwise fun a b => name a < name b)
    (h : (Page.ofItems (items.take count) count name).next = some next) (ha : a ∈ items.drop count) :
    follows (some next) (name a) = true := by
  obtain ⟨last, hlast, rfl⟩ := List.mem_map.mp (List.mem_of_getLast? (last_of_next h).2)
  rw [← List.take_append_drop count items] at hasc
  exact decide_eq_true ((List.pairwise_append.mp hasc).2.2 last hlast a ha)

theorem not_follows_of_take (hasc : items.Pairwise fun a b => name a < name b)
    (h : (Page.ofItems (items.take count) count name).next = some next) (ha : a ∈ items.take count) :
    follows (some next) (name a) = false := by
  have htake := List.pairwise_map.mpr (hasc.sublist (List.take_sublist count items))
  exact not_follows_last htake (last_of_next h).2 (List.mem_map_of_mem ha)

end Page

namespace Backend

def listed (s : Backend) (pattern : Pattern) : List String := s.keys.filter (s.admits pattern)

theorem mem_keys {s : Backend} {key : String} : key ∈ s.keys ↔ s.value? key ≠ none := by
  cases s with
  | memory s =>
    show key ∈ s.values.keys ↔ s.values.get? key ≠ none
    rw [OrderedMap.mem_keys, OrderedMap.contains, Option.isSome_iff_ne_none]
  | database d =>
    show key ∈ d.tables.keys.keys ↔ d.tables.value? key ≠ none
    rw [OrderedMap.mem_keys, OrderedMap.contains]
    cases h : d.tables.keys.get? key with
    | none => simp [Tables.value?_of_none h]
    | some row =>
      obtain ⟨kind, v⟩ := row
      cases kind with
      | text => simp [Tables.value?_of_text h]
      | hash => simp [Tables.value?_of_hash h]

theorem keys_ascending (s : Backend) : s.keys.Pairwise (· < ·) := by
  cases s with
  | memory s => exact s.values.keys_ascending
  | database d => exact d.tables.keys.keys_ascending

/-- There are no more keys than keys and fields. -/
theorem keys_length_le_extent (s : Backend) : s.keys.length ≤ KeyValueStore.extent s := by
  cases s with
  | memory s =>
    show (s.values.entries.map (·.1)).length ≤ s.extent
    rw [Keyspace.extent, List.length_map]
    induction s.values.entries with
    | nil => exact Nat.le_refl 0
    | cons e rest ih =>
      have hpos : 1 ≤ Keyspace.valueExtent e.2 := by
        unfold Keyspace.valueExtent
        split <;> omega
      simp only [List.length_cons, List.map_cons, List.foldr_cons]
      omega
  | database d =>
    show (d.tables.keys.entries.map (·.1)).length ≤ d.tables.keys.size + d.tables.fields.size
    rw [List.length_map]
    exact Nat.le_add_right _ _

theorem listed_ascending (s : Backend) (pattern : Pattern) : (s.listed pattern).Pairwise (· < ·) :=
  s.keys_ascending.sublist List.filter_sublist

theorem mem_listed {s : Backend} {pattern : Pattern} {key : String} :
    key ∈ s.listed pattern ↔ s.value? key ≠ none ∧ s.admits pattern key = true := by
  rw [listed, List.mem_filter, mem_keys]

theorem map_after {V : Type} (m : OrderedMap String V) (cursor : Option String) :
    (m.after cursor).map (·.1) = m.keys.filter (follows cursor) := by
  cases cursor with
  | none => exact (List.filter_eq_self.mpr fun _ _ => rfl).symm
  | some c =>
    rw [OrderedMap.after, OrderedMap.keys, List.filter_map]
    rfl

theorem perform_database (d : Database) (r : Request) :
    (database d).perform r = ((d.perform r).1, database (d.perform r).2) := rfl

/-! ### Scans and deletions -/

theorem perform_scan (s : Backend) (cursor : Option String) (pattern : Pattern) (count : Nat) :
    s.perform (.scan cursor pattern count) =
      (if s.access = .closed then .error .database
        else .ok (.ofItems (((s.listed pattern).filter (follows cursor)).take count) count id), s) := by
  have hcomm : (s.listed pattern).filter (follows cursor) =
      (s.keys.filter (follows cursor)).filter (s.admits pattern) := by
    rw [listed, List.filter_filter, List.filter_filter]
    exact List.filter_congr fun _ _ => Bool.and_comm _ _
  rw [hcomm]
  cases s with
  | memory s =>
    show (Except.ok (s.scan cursor pattern count), memory s) = _
    rw [Keyspace.scan, map_after, if_neg (by simp [access])]
    rfl
  | database d =>
    rw [perform_database, Database.perform]
    by_cases h : d.access = .closed
    · rw [if_pos (show (database d).access = .closed from h), Database.query_closed h]
    · rw [if_neg (show (database d).access ≠ .closed from h), Database.query_open h, Tables.scanKeys, map_after]
      rfl

theorem perform_delete (s : Backend) (keys : List String) :
    (∃ e, s.perform (.delete keys) = (.error e, s) ∧ s.access ≠ .writing) ∨
      ∃ n s', s.perform (.delete keys) = (.ok n, s') ∧
        ∀ k, s'.value? k = if k ∈ keys then none else s.value? k := by
  cases s with
  | memory s => exact .inr ⟨_, _, rfl, fun k => s.get?_deleteKeys keys k⟩
  | database d =>
    rcases d.transact_cases (Transaction.deleteKeys keys) with ⟨e, he⟩ | ⟨n, t, hx, he⟩
    · refine .inl ⟨e, by rw [perform, Database.perform, he], fun ha => ?_⟩
      obtain ⟨n, t, hx⟩ := Transaction.exec_deleteKeys_writing keys d.tables
      rw [Database.transact_open (by rw [show d.access = .writing from ha]; decide),
        show d.access = .writing from ha, hx] at he
      cases he
    · refine .inr ⟨n, database { d with tables := t }, by rw [perform, Database.perform, he], fun k => ?_⟩
      split
      · rename_i hk
        exact Tables.value?_of_none (Transaction.get?_keys_of_deleteKeys hx hk)
      · rename_i hk
        exact Tables.value?_eq (Transaction.keeps_deleteKeys hk _ _ _ _ hx)

/-- Deleted keys are the only ones that a scan no longer finds. -/
theorem listed_delete {s s' : Backend} {keys : List String} {n : Nat} (pattern : Pattern)
    (h : s.perform (.delete keys) = (.ok n, s')) :
    s'.listed pattern = (s.listed pattern).filter fun k => !decide (k ∈ keys) := by
  rcases s.perform_delete keys with ⟨e, he, -⟩ | ⟨m, s1, he, hv⟩
  · rw [he] at h; cases h
  · rw [he] at h
    cases h
    have ha : s'.admits = s.admits := by
      have := s.admits_perform (.delete keys)
      rwa [he] at this
    refine (s'.listed_ascending pattern).eq_of_mem_iff ((s.listed_ascending pattern).sublist List.filter_sublist)
      fun k => ?_
    rw [List.mem_filter, mem_listed, mem_listed, ha, hv]
    by_cases hk : k ∈ keys <;> simp [hk]

/-! ### Writes -/

theorem perform_set (s : Backend) (key text : String) :
    (∃ e, s.perform (.set key text) = (.error e, s) ∧ s.access ≠ .writing) ∨
      ∃ s', s.perform (.set key text) = (.ok (), s') ∧ s'.value? key = some (.text text) := by
  cases s with
  | memory s => exact .inr ⟨_, rfl, (s.get?_put key _ key).trans (if_pos rfl)⟩
  | database d =>
    have hx : Transaction.exec (Transaction.setText key text) .writing d.tables =
        .ok ((), (d.tables.deleteAllFields key).upsertText key text) := rfl
    by_cases ha : d.access = .writing
    · refine .inr ⟨database { d with tables := (d.tables.deleteAllFields key).upsertText key text }, ?_, ?_⟩
      · rw [perform, Database.perform, Database.transact_open (by rw [ha]; decide), ha, hx]
      · have hrow : ((d.tables.deleteAllFields key).upsertText key text).keys.get? key = some ⟨.text, some text⟩ :=
          (OrderedMap.get?_insert _ _ _ _).trans (if_pos rfl)
        exact Tables.value?_of_text hrow
    · rcases d.transact_cases (Transaction.setText key text) with ⟨e, he⟩ | ⟨n, t, hx, he⟩
      · exact .inl ⟨e, by rw [perform, Database.perform, he], ha⟩
      · obtain ⟨u, t1, h1, -⟩ := Transaction.exec_bind_ok.mp hx
        exact absurd (Transaction.exec_write_ok h1).1 ha

/-- Entries for hashes and missing keys are set together, or not at all. -/
theorem perform_entries {s : Backend} {entries : List FieldEntry} (h : ∀ e ∈ entries, Fillable (s.value? e.key)) :
    (∃ e, s.perform (.apply (entries.map FieldEntry.command)) = (.error e, s) ∧ s.access ≠ .writing) ∨
      ∃ s', s.perform (.apply (entries.map FieldEntry.command)) = (.ok (), s') ∧
        ∀ k, s'.value? k = fill (s.value? k) (assignments k entries) := by
  cases s with
  | memory s =>
    obtain ⟨s', hs, hk⟩ := Keyspace.apply_fillable (s := s) h
    exact .inr ⟨memory s', by rw [perform, Keyspace.perform, hs], hk⟩
  | database d =>
    cases entries with
    | nil => exact .inr ⟨database d, rfl, fun k => rfl⟩
    | cons e rest =>
      obtain ⟨t, hx, hk⟩ := Transaction.apply_fillable (t := d.tables) h
      have hp : d.perform (.apply ((e :: rest).map FieldEntry.command)) =
          d.transact (Transaction.apply ((e :: rest).map FieldEntry.command)) := rfl
      rw [perform_database, hp]
      rcases d.transact_cases (Transaction.apply ((e :: rest).map FieldEntry.command)) with ⟨e', he⟩ | ⟨u, t', hx', he⟩
      · refine .inl ⟨e', by rw [he], fun ha => ?_⟩
        rw [Database.transact_open (by rw [show d.access = .writing from ha]; decide),
          show d.access = .writing from ha, hx] at he
        cases he
      · have ha := Transaction.writing_of_apply (List.cons_ne_nil _ _) hx'
        rw [ha, hx] at hx'
        cases hx'
        exact .inr ⟨database { d with tables := t }, by rw [he], hk⟩

/-! ### Reads -/

/-- A text is answered as it is, and a key that holds nothing with nothing. -/
theorem value?_of_get {s : Backend} {key : String} {v : Option String} (h : (s.perform (.get key)).1 = .ok v) :
    (s.value? key = none ∧ v = none) ∨ s.value? key = some (.text (v.getD "")) := by
  cases s with
  | memory s =>
    have h : s.getText key = .ok v := h
    show (s.get? key = none ∧ v = none) ∨ s.get? key = some (.text (v.getD ""))
    unfold Keyspace.getText at h
    split at h
    · rename_i hg; cases h; exact .inl ⟨hg, rfl⟩
    · rename_i hg; cases h; exact .inr hg
    · cases h
  | database d =>
    have h : (d.query (Database.getText key)).1 = .ok v := h
    show (d.tables.value? key = none ∧ v = none) ∨ d.tables.value? key = some (.text (v.getD ""))
    by_cases ha : d.access = .closed
    · rw [Database.query_closed ha] at h; cases h
    · rw [Database.query_open ha, Database.getText, Tables.kindOf?, Tables.textOf?] at h
      cases hk : d.tables.keys.get? key with
      | none => rw [hk] at h; cases h; exact .inl ⟨Tables.value?_of_none hk, rfl⟩
      | some row =>
        obtain ⟨kind, w⟩ := row
        rw [hk] at h
        cases kind with
        | text => cases h; exact .inr (Tables.value?_of_text hk)
        | hash => cases h

theorem perform_get {s : Backend} {key : String} (ha : s.access ≠ .closed)
    (h : ∀ fields, s.value? key ≠ some (.hash fields)) : ∃ v, (s.perform (.get key)).1 = .ok v := by
  cases s with
  | memory s =>
    show ∃ v, s.getText key = .ok v
    unfold Keyspace.getText
    split
    · exact ⟨_, rfl⟩
    · exact ⟨_, rfl⟩
    · rename_i fields hg
      exact absurd hg (h fields)
  | database d =>
    show ∃ v, (d.query (Database.getText key)).1 = .ok v
    rw [Database.query_open ha, Database.getText, Tables.kindOf?]
    cases hk : d.tables.keys.get? key with
    | none => exact ⟨_, rfl⟩
    | some row =>
      obtain ⟨kind, w⟩ := row
      cases kind with
      | text => exact ⟨_, rfl⟩
      | hash => exact absurd (Tables.value?_of_hash hk) (h _)

theorem ofHash_eq {α : Type} {t : Tables} {key : String} {missing : α} {read : Tables → α}
    (h : Fillable (t.value? key)) (hm : t.value? key = none → missing = read t) :
    Database.ofHash key missing read t = .ok (read t) := by
  rw [Database.ofHash, Tables.kindOf?_eq]
  cases hv : t.value? key with
  | none => rw [hm hv]; rfl
  | some v =>
    cases v with
    | text => rw [hv] at h; exact h.elim
    | hash => rfl

/-- A hash is answered as it is, and a key that holds nothing as an empty hash. -/
theorem perform_getAll {s : Backend} {key : String} (ha : s.access ≠ .closed) (h : Fillable (s.value? key)) :
    (s.perform (.getAll key)).1 = .ok (hashOf (s.value? key)) := by
  cases s with
  | memory s => exact (s.hashAt_eq key).trans (if_pos h)
  | database d =>
    have hf : d.tables.fieldsOf key = hashOf (d.tables.value? key) := Tables.fieldsOf_eq_hashOf h
    show (d.query (Database.ofHash key ∅ fun t => t.fieldsOf key)).1 = .ok (hashOf (d.tables.value? key))
    rw [Database.query_open ha, ofHash_eq h fun hv => by rw [hf, hv]; rfl, hf]

/-- A field of a hash; a key that holds nothing has none. -/
theorem perform_getField {s : Backend} {key : String} (field : String) (ha : s.access ≠ .closed)
    (h : Fillable (s.value? key)) : (s.perform (.getField key field)).1 = .ok ((hashOf (s.value? key)).get? field) := by
  cases s with
  | memory s =>
    show (s.hashAt key).map (·.get? field) = .ok ((hashOf (s.get? key)).get? field)
    rw [s.hashAt_eq key, if_pos (show Fillable (s.get? key) from h)]
    rfl
  | database d =>
    have hf : d.tables.fieldOf? key field = (hashOf (d.tables.value? key)).get? field := by
      rw [← Tables.fieldsOf_eq_hashOf h, Tables.get?_fieldsOf, Tables.fieldOf?]
    show (d.query (Database.ofHash key none fun t => t.fieldOf? key field)).1 =
      .ok ((hashOf (d.tables.value? key)).get? field)
    rw [Database.query_open ha, ofHash_eq h fun hv => by rw [hf, hv]; rfl, hf]

/-- Fields of a hash, in the order in which they are asked for. -/
theorem perform_getFields {s : Backend} {key : String} (fields : List String) (ha : s.access ≠ .closed)
    (h : Fillable (s.value? key)) :
    (s.perform (.getFields key fields)).1 = .ok (fields.map (hashOf (s.value? key)).get?) := by
  cases s with
  | memory s =>
    show (s.hashAt key).map (fun hash : Hash => fields.map hash.get?) = .ok (fields.map (hashOf (s.get? key)).get?)
    rw [s.hashAt_eq key, if_pos (show Fillable (s.get? key) from h)]
    rfl
  | database d =>
    have hf : d.tables.fieldOf? key = (hashOf (d.tables.value? key)).get? := by
      funext field
      rw [← Tables.fieldsOf_eq_hashOf h, Tables.get?_fieldsOf, Tables.fieldOf?]
    have hm : d.tables.value? key = none → (fields.map fun _ => none) = fields.map (d.tables.fieldOf? key) := by
      intro hv
      rw [hf, hv]
      rfl
    show (d.query (Database.ofHash key (fields.map fun _ => none) fun t => fields.map (t.fieldOf? key))).1 =
      .ok (fields.map (hashOf (d.tables.value? key)).get?)
    rw [Database.query_open ha, ofHash_eq h hm, hf]

end Backend
end Store
end ShareIndex
