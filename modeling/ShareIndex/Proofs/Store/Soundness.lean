import ShareIndex.Proofs.Store.Tally

/-!
# ShareIndex.Proofs.Store.Soundness

What holds of both backends whatever they have been asked, failures included.

* `Keyspace.Sound`, `Tables.Sound` — no hash is empty, and the two tables of a database fit together.
* `Contents.Sound`        — the same for a single key; `Backend.sound_iff` says that nothing else is to be shown.
* `Backend.Reachable`     — the states that requests lead to; a database may be closed and opened again.
* `Backend.sound_perform` — the step; `Backend.Reachable.sound` is the run.
* `Backend.Sound.mem_keys_iff` — the keys that are there are the keys that can be read.
-/

namespace ShareIndex

theorem OrderedMap.isEmpty_insert {K V : Type} [LT K] [DecidableEq K] [DecidableLT K] [StrictOrder K]
    (m : OrderedMap K V) (k : K) (v : V) : (m.insert k v).isEmpty = false := by
  rw [Bool.eq_false_iff]
  intro hempty
  have hnone := OrderedMap.isEmpty_iff_get?.mp hempty k
  rw [OrderedMap.get?_insert, if_pos rfl] at hnone
  cases hnone

namespace Store

/-! ### States -/

/-- No hash is empty. -/
structure Keyspace.Sound (s : Keyspace) : Prop where
  filled : ∀ key fields, s.get? key = some (.hash fields) → fields.isEmpty = false

/-- A row of `fields` belongs to a hash, a hash has such a row, and a text has its value and no such row. -/
structure Tables.Sound (t : Tables) : Prop where
  owned : ∀ key field, t.fields.contains ⟨key, field⟩ = true → t.kindOf? key = some .hash
  filled : ∀ key, t.kindOf? key = some .hash → ∃ field, t.fields.contains ⟨key, field⟩ = true
  valued : ∀ key value, t.keys.get? key = some ⟨.text, value⟩ →
    value.isSome = true ∧ ∀ field, t.fields.contains ⟨key, field⟩ = false

def Backend.Sound : Backend → Prop
  | memory s => s.Sound
  | database d => d.tables.Sound

/-- What soundness says about the contents of one key. -/
def Contents.Sound : Contents → Prop
  | value (some (.hash fields)) => fields.isEmpty = false
  | value _ => True
  | rows none fields => fields.isEmpty = true
  | rows (some ⟨.hash, _⟩) fields => fields.isEmpty = false
  | rows (some ⟨.text, v⟩) fields => v.isSome = true ∧ fields.isEmpty = true

theorem Keyspace.sound_iff {s : Keyspace} : s.Sound ↔ ∀ key, (Contents.value (s.get? key)).Sound := by
  constructor
  · intro h key
    cases hv : s.get? key with
    | none => trivial
    | some v =>
      cases v with
      | text => trivial
      | hash fields => exact h.filled key fields hv
  · intro h
    refine ⟨fun key fields hv => ?_⟩
    have hkey := h key
    rw [hv] at hkey
    exact hkey

namespace Tables

variable {t : Tables} {key : String}

theorem fieldsOf_isEmpty_iff : (t.fieldsOf key).isEmpty = true ↔ ∀ field, t.fields.contains ⟨key, field⟩ = false := by
  simp [OrderedMap.isEmpty_iff_get?, get?_fieldsOf, OrderedMap.contains]

theorem fieldsOf_isEmpty_false_iff :
    (t.fieldsOf key).isEmpty = false ↔ ∃ field, t.fields.contains ⟨key, field⟩ = true := by
  rw [← Bool.not_eq_true, fieldsOf_isEmpty_iff]
  simp

theorem sound_iff : t.Sound ↔ ∀ key, (t.contents key).Sound := by
  constructor
  · intro h key
    rw [contents]
    cases hrow : t.keys.get? key with
    | none =>
      rw [fieldsOf_eq_empty hrow]
      rfl
    | some row =>
      obtain ⟨kind, v⟩ := row
      cases kind with
      | text => exact ⟨(h.valued key v hrow).1, fieldsOf_isEmpty_iff.mpr (h.valued key v hrow).2⟩
      | hash => exact fieldsOf_isEmpty_false_iff.mpr (h.filled key (by rw [kindOf?, hrow]; rfl))
  · intro h
    constructor
    case owned =>
      intro key field hfield
      have hkey := h key
      have hne := fieldsOf_isEmpty_false_iff.mpr ⟨field, hfield⟩
      rw [contents] at hkey
      rw [kindOf?]
      cases hrow : t.keys.get? key with
      | none => simp [hrow, Contents.Sound, hne] at hkey
      | some row =>
        obtain ⟨kind, v⟩ := row
        cases kind with
        | text => simp [hrow, Contents.Sound, hne] at hkey
        | hash => rfl
    case filled =>
      intro key hkind
      obtain ⟨v, hrow⟩ := kindOf?_hash hkind
      have hkey := h key
      rw [contents, hrow] at hkey
      exact fieldsOf_isEmpty_false_iff.mp hkey
    case valued =>
      intro key v hrow
      have hkey := h key
      rw [contents, hrow] at hkey
      exact ⟨hkey.1, fieldsOf_isEmpty_iff.mp hkey.2⟩

end Tables

/-- Soundness is a matter of each key. -/
theorem Backend.sound_iff {s : Backend} : s.Sound ↔ ∀ key, (s.contents key).Sound := by
  cases s with
  | memory s => exact Keyspace.sound_iff
  | database d => exact Tables.sound_iff

/-! ### Memory -/

namespace Keyspace.Sound

variable {s : Keyspace}

theorem empty : Keyspace.empty.Sound := ⟨fun _ _ h => by cases h⟩

theorem put_text (h : s.Sound) (key text : String) : (s.put key (.text text)).Sound := by
  refine ⟨fun k fields hv => ?_⟩
  rw [get?_put] at hv
  split at hv
  · cases hv
  · exact h.filled k fields hv

theorem put_hash (h : s.Sound) (key : String) {hash : Hash} (hne : hash.isEmpty = false) :
    (s.put key (.hash hash)).Sound := by
  refine ⟨fun k fields hv => ?_⟩
  rw [get?_put] at hv
  split at hv
  · cases hv
    exact hne
  · exact h.filled k fields hv

theorem remove (h : s.Sound) (key : String) : (s.remove key).Sound := by
  refine ⟨fun k fields hv => ?_⟩
  rw [get?_remove] at hv
  split at hv
  · cases hv
  · exact h.filled k fields hv

theorem putHash (h : s.Sound) (key : String) (hash : Hash) : (s.putHash key hash).Sound := by
  unfold Keyspace.putHash
  split
  · exact h.remove key
  · rename_i hne
    exact h.put_hash key (Bool.eq_false_iff.mpr hne)

theorem deleteKeys (h : s.Sound) (keys : List String) : (s.deleteKeys keys).2.Sound := by
  refine ⟨fun k fields hv => ?_⟩
  rw [get?_deleteKeys] at hv
  split at hv
  · cases hv
  · exact h.filled k fields hv

theorem deleteFields (h : s.Sound) (key : String) (fields : List String) : (s.deleteFields key fields).2.Sound := by
  rw [deleteFields_eq]
  split
  · exact h.putHash key _
  · exact h

theorem setField (h : s.Sound) (key field value : String) : (s.setField key field value).2.Sound := by
  rw [setField_eq]
  split
  · exact h.put_hash key (OrderedMap.isEmpty_insert _ _ _)
  · exact h

theorem increment (h : s.Sound) (key field : String) (delta : Int64) : (s.increment key field delta).2.Sound := by
  rw [increment_eq]
  split
  · split
    · exact h
    · exact h.put_hash key (OrderedMap.isEmpty_insert _ _ _)
  · exact h

theorem runCommand (h : s.Sound) (command : Command) : (s.runCommand command).2.Sound := by
  cases command with
  | set key value => exact h.put_text key value
  | setField key field value => exact h.setField key field value
  | delete key => exact h.remove key
  | deleteField key field =>
    have hd := h.deleteFields key [field]
    simp only [Keyspace.runCommand]
    split <;> rename_i he <;> rw [he] at hd <;> exact hd

/-- A batch that stops has run commands that keep the state sound, too. -/
theorem apply (h : s.Sound) (commands : List Command) : (s.apply commands).2.Sound := by
  induction commands generalizing s with
  | nil => exact h
  | cons command rest ih =>
    have hc := h.runCommand command
    simp only [Keyspace.apply]
    split <;> rename_i he <;> rw [he] at hc
    · exact ih hc
    · exact hc

theorem perform (h : s.Sound) (r : Request) : (s.perform r).2.Sound := by
  cases r with
  | get | scan | getField | getFields | getAll | scanFields => exact h
  | set key value => exact h.put_text key value
  | delete keys => exact h.deleteKeys keys
  | deleteFields key fields => exact h.deleteFields key fields
  | increment key field delta => exact h.increment key field delta
  | apply commands => exact h.apply commands

end Keyspace.Sound

/-! ### Databases -/

namespace Tables

variable {t : Tables} {key : String}

theorem sound_empty : Tables.empty.Sound := sound_iff.mpr fun _ => rfl

theorem contents_sound_of_none (h : t.value? key = none) : (t.contents key).Sound := by
  rw [value?, contents] at h
  rw [contents]
  cases hrow : t.keys.get? key with
  | none =>
    rw [fieldsOf_eq_empty hrow]
    rfl
  | some row =>
    obtain ⟨kind, v⟩ := row
    rw [hrow] at h
    cases kind <;> cases h

theorem contents_sound_of_hash {fields : Hash} (h : t.value? key = some (.hash fields)) (hne : fields.isEmpty = false) :
    (t.contents key).Sound := by
  rw [value?, contents] at h
  rw [contents]
  cases hrow : t.keys.get? key with
  | none =>
    rw [hrow] at h
    cases h
  | some row =>
    obtain ⟨kind, v⟩ := row
    rw [hrow] at h
    cases kind <;> cases h
    exact hne

end Tables

namespace Transaction

variable {α : Type} {t t' : Tables} {a : Access} {n : Nat} {key field : String}

/-- A transaction that succeeds on sound tables leaves sound tables. -/
def Preserves (m : Transaction α) : Prop := ∀ a t x t', exec m a t = .ok (x, t') → t.Sound → t'.Sound

/-- Only the key that a transaction works on is to be looked at. -/
theorem preserves_of_keeps {m : Transaction α} (key : String) (hkeeps : ∀ k, k ≠ key → Keeps k m)
    (hkey : ∀ a t x t', exec m a t = .ok (x, t') → t.Sound → (t'.contents key).Sound) : Preserves m := by
  intro a t x t' hx h
  refine Tables.sound_iff.mpr fun k => ?_
  by_cases hk : k = key
  · rw [hk]
    exact hkey a t x t' hx h
  · rw [hkeeps k hk a t x t' hx]
    exact Tables.sound_iff.mp h k

theorem preserves_pure (x : α) : Preserves (pure x) := by
  intro a t y t' hx h
  cases hx
  exact h

theorem preserves_bind {β : Type} {m : Transaction α} {f : α → Transaction β} (hm : Preserves m)
    (hf : ∀ x, Preserves (f x)) : Preserves (m >>= f) := by
  intro a t y t' hx h
  obtain ⟨x, t1, h1, h2⟩ := exec_bind_ok.mp hx
  exact hf x a t1 y t' h2 (hm a t x t1 h1 h)

theorem preserves_setText (key value : String) : Preserves (setText key value) := by
  refine preserves_of_keeps key (fun k hk => keeps_setText value hk) fun a t x t' hx _ => ?_
  obtain ⟨u, t1, h1, h2⟩ := exec_bind_ok.mp hx
  obtain ⟨-, hs1⟩ := exec_write_ok h1
  obtain ⟨-, hs2⟩ := exec_write_ok h2
  cases hs1
  cases hs2
  have hrow : ((t.deleteAllFields key).upsertText key value).keys.get? key = some ⟨.text, some value⟩ :=
    (OrderedMap.get?_insert _ _ _ _).trans (if_pos rfl)
  rw [Tables.contents, hrow]
  refine ⟨rfl, Tables.fieldsOf_isEmpty_iff.mpr fun field => ?_⟩
  show OrderedMap.contains (OrderedMap.filter t.fields fun k _ => k.key ≠ key) ⟨key, field⟩ = false
  rw [OrderedMap.contains, OrderedMap.get?_filter]
  cases t.fields.get? ⟨key, field⟩ <;> simp [Option.filter]

/-- A field that is set is the field of a hash. -/
theorem exec_setField_ok {value : String} {u : Unit} (h : exec (setField key field value) a t = .ok (u, t')) :
    Fillable (t.value? key) ∧ t'.value? key = some (.hash ((hashOf (t.value? key)).insert field value)) := by
  have hx := h
  obtain ⟨u, t1, h1, -⟩ := exec_bind_ok.mp h
  obtain ⟨rfl, rfl, hkind⟩ := exec_ensureHash_ok h1
  have hf := Tables.fillable_of_insertHash hkind
  obtain ⟨t2, h2, hv⟩ := exec_setField_writing field value hf
  rw [h2] at hx
  cases hx
  exact ⟨hf, hv⟩

theorem preserves_setField (key field value : String) : Preserves (setField key field value) := by
  refine preserves_of_keeps key (fun k hk => keeps_setField field value hk) fun a t x t' hx _ => ?_
  exact Tables.contents_sound_of_hash (exec_setField_ok hx).2 (OrderedMap.isEmpty_insert _ _ _)

theorem preserves_deleteKey (key : String) : Preserves (deleteKey key) := by
  refine preserves_of_keeps key (fun k hk => keeps_deleteKey hk) fun a t x t' hx _ => ?_
  rw [exec_deleteKey_ok hx]
  exact Tables.contents_sound_of_none (Tables.value?_of_none (t.get?_keys_deleteKey key))

theorem preserves_deleteKeys (keys : List String) : Preserves (deleteKeys keys) := by
  induction keys with
  | nil => exact preserves_pure _
  | cons key rest ih =>
    refine preserves_bind (preserves_deleteKey key) fun _ => ?_
    exact preserves_bind ih fun _ => preserves_pure _

theorem preserves_deleteFields (key : String) (fields : List String) : Preserves (deleteFields key fields) := by
  refine preserves_of_keeps key (fun k hk => keeps_deleteFields fields hk) fun a t x t' hx _ => ?_
  have hv := (exec_deleteFields_ok hx).2.2
  -- the hash goes with its last field
  rw [stored] at hv
  split at hv
  · exact Tables.contents_sound_of_none hv
  · rename_i he
    exact Tables.contents_sound_of_hash hv (Bool.eq_false_iff.mpr he)

theorem preserves_increment (key field : String) (delta : Int64) : Preserves (increment key field delta) := by
  refine preserves_of_keeps key (fun k hk => keeps_increment field delta hk) fun a t x t' hx _ => ?_
  exact Tables.contents_sound_of_hash (exec_increment_ok hx).2.2.2 (OrderedMap.isEmpty_insert _ _ _)

theorem preserves_runCommand (command : Command) : Preserves (runCommand command) := by
  cases command with
  | set key value => exact preserves_setText key value
  | setField key field value => exact preserves_setField key field value
  | delete key => exact preserves_bind (preserves_deleteKey key) fun _ => preserves_pure _
  | deleteField key field => exact preserves_bind (preserves_deleteFields key [field]) fun _ => preserves_pure _

theorem preserves_apply (commands : List Command) : Preserves (apply commands) := by
  induction commands with
  | nil => exact preserves_pure _
  | cons command rest ih => exact preserves_bind (preserves_runCommand command) fun _ => ih

end Transaction

namespace Database

variable {d : Database}

theorem sound_transact {α : Type} {body : Transaction α} (h : d.tables.Sound) (hb : Transaction.Preserves body) :
    (d.transact body).2.tables.Sound := by
  rcases d.transact_cases body with ⟨e, he⟩ | ⟨a, t, hx, he⟩
  · rw [he]
    exact h
  · rw [he]
    exact hb _ _ _ _ hx h

theorem sound_perform (h : d.tables.Sound) (r : Request) : (d.perform r).2.tables.Sound := by
  cases r with
  | get | scan | getField | getFields | getAll | scanFields =>
    rw [perform, query_snd]
    exact h
  | set key value => exact sound_transact h (Transaction.preserves_setText key value)
  | delete keys => exact sound_transact h (Transaction.preserves_deleteKeys keys)
  | deleteFields key fields => exact sound_transact h (Transaction.preserves_deleteFields key fields)
  | increment key field delta => exact sound_transact h (Transaction.preserves_increment key field delta)
  | apply commands =>
    cases commands with
    | nil => exact h
    | cons command rest => exact sound_transact h (Transaction.preserves_apply _)

end Database

/-! ### Both -/

namespace Backend

variable {s : Backend} {key : String}

/-- The states that any requests lead to, starting with nothing. A database may be closed, and opened again for
reading or for writing. -/
inductive Reachable : Backend → Prop where
  | memory : Reachable (.memory .empty)
  | database : Reachable (.database .empty)
  | perform {s : Backend} (r : Request) : Reachable s → Reachable (s.perform r).2
  | reopen {d : Database} (access : Access) : Reachable (.database d) → Reachable (.database { d with access })

theorem sound_perform (h : s.Sound) (r : Request) : (s.perform r).2.Sound := by
  cases s with
  | memory s => exact Keyspace.Sound.perform h r
  | database d => exact Database.sound_perform h r

/-- Whatever has been asked, and whether it has succeeded or not, the state is sound. -/
theorem Reachable.sound (h : Reachable s) : s.Sound := by
  induction h with
  | memory => exact Keyspace.Sound.empty
  | database => exact Tables.sound_empty
  | perform r _ ih => exact sound_perform ih r
  | reopen access _ ih => exact ih

/-! ### Reads -/

theorem Sound.hash_isEmpty (h : s.Sound) {fields : Hash} (hv : s.value? key = some (.hash fields)) :
    fields.isEmpty = false := by
  have hkey := sound_iff.mp h key
  rw [value?] at hv
  cases hc : s.contents key with
  | value v =>
    rw [hc] at hkey hv
    obtain rfl : v = some (.hash fields) := hv
    exact hkey
  | rows row hash =>
    rw [hc] at hkey hv
    cases row with
    | none => cases hv
    | some row =>
      obtain ⟨kind, v⟩ := row
      cases kind <;> cases hv
      exact hkey

/-- A text is read as it is. In a database that takes the value of its row. -/
theorem Sound.get_text (h : s.Sound) (ha : s.access ≠ .closed) {text : String} (hv : s.value? key = some (.text text)) :
    (s.perform (.get key)).1 = .ok (some text) := by
  cases s with
  | memory s =>
    have hv : s.get? key = some (.text text) := hv
    show s.getText key = .ok (some text)
    rw [Keyspace.getText, hv]
  | database d =>
    have hkey := sound_iff.mp h key
    have hv : (d.tables.contents key).value? = some (.text text) := hv
    show (d.query (Database.getText key)).1 = .ok (some text)
    rw [contents] at hkey
    rw [Database.query_open ha, Database.getText, Tables.kindOf?, Tables.textOf?]
    rw [Tables.contents] at hkey hv
    cases hrow : d.tables.keys.get? key with
    | none =>
      rw [hrow] at hv
      cases hv
    | some row =>
      obtain ⟨kind, v⟩ := row
      rw [hrow] at hkey hv
      cases kind with
      | hash => cases hv
      | text =>
        obtain ⟨w, rfl⟩ := Option.isSome_iff_exists.mp hkey.1
        cases hv
        rfl

/-- Reading the key gives a text, or a hash with fields. -/
def Readable (s : Backend) (key : String) : Prop :=
  (∃ text, (s.perform (.get key)).1 = .ok (some text)) ∨
    ∃ fields, (s.perform (.getAll key)).1 = .ok fields ∧ fields.isEmpty = false

/-- A key is there exactly when it can be read. -/
theorem Sound.mem_keys_iff (h : s.Sound) (ha : s.access ≠ .closed) : key ∈ s.keys ↔ s.Readable key := by
  rw [mem_keys]
  constructor
  · intro hne
    cases hv : s.value? key with
    | none => exact absurd hv hne
    | some v =>
      cases v with
      | text text => exact .inl ⟨text, h.get_text ha hv⟩
      | hash fields =>
        have hf : Fillable (s.value? key) := by
          rw [hv]
          trivial
        have hread := perform_getAll ha hf
        rw [hv] at hread
        exact .inr ⟨fields, hread, h.hash_isEmpty hv⟩
  · rintro (⟨text, hread⟩ | ⟨fields, hread, hne⟩) hnone
    · rcases value?_of_get hread with ⟨-, hcontra⟩ | hv
      · cases hcontra
      · rw [hnone] at hv
        cases hv
    · have hf : Fillable (s.value? key) := by
        rw [hnone]
        trivial
      have hempty := perform_getAll ha hf
      rw [hnone] at hempty
      rw [hempty] at hread
      cases hread
      cases hne

end Backend
end Store
end ShareIndex
