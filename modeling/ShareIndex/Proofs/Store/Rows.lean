import ShareIndex.Proofs.Store.Contents

/-!
# ShareIndex.Proofs.Store.Rows

What statements and transactions do to the rows of one key.

* `Transaction.exec`  — a transaction as a function on tables.
* `Transaction.Keeps` — a transaction that leaves the rows of a key alone when it succeeds.
* `Transaction.keeps_apply`, `Transaction.keeps_increment` and the like — the keys that each one can reach.
-/

namespace ShareIndex
namespace Store

namespace Tables

theorem get?_fieldsOf (t : Tables) (key field : String) :
    (t.fieldsOf key).get? field = t.fields.get? ⟨key, field⟩ := by
  have hm : ∀ v, (field, v) ∈ t.fieldRows key ↔ (⟨key, field⟩, v) ∈ t.fields.entries := by
    intro v
    simp only [fieldRows, List.mem_filterMap, Option.ite_none_right_eq_some, Option.some.injEq, Prod.mk.injEq]
    constructor
    · rintro ⟨⟨k, w⟩, he, rfl, rfl, rfl⟩
      exact he
    · intro h
      exact ⟨_, h, rfl, rfl, rfl⟩
  apply Option.ext
  intro v
  rw [OrderedMap.get?_eq_some_iff, OrderedMap.get?_eq_some_iff]
  exact hm v

theorem contents_eq {t t' : Tables} {key : String} (hk : t'.keys.get? key = t.keys.get? key)
    (hf : ∀ field, t'.fields.get? ⟨key, field⟩ = t.fields.get? ⟨key, field⟩) : t'.contents key = t.contents key := by
  have : t'.fieldsOf key = t.fieldsOf key :=
    OrderedMap.ext_get? fun field => by rw [get?_fieldsOf, get?_fieldsOf, hf]
  rw [contents, contents, hk, this]

/-- A key without a row has no fields. -/
theorem fieldsOf_eq_empty {t : Tables} {key : String} (h : t.keys.get? key = none) : t.fieldsOf key = ∅ := by
  apply OrderedMap.ext_get?
  intro field
  rw [get?_fieldsOf]
  cases hf : t.fields.get? ⟨key, field⟩ with
  | none => rfl
  | some v =>
    have hr := t.references ⟨key, field⟩ (by simp [OrderedMap.contains, hf])
    simp [OrderedMap.contains, h] at hr

/-! ### Statements -/

theorem contents_insertHash (t : Tables) {key k : String} (h : k ≠ key) :
    (t.insertHash key).contents k = t.contents k := by
  unfold insertHash
  split
  · rfl
  · exact contents_eq (by rw [OrderedMap.get?_insert, if_neg h]) fun _ => rfl

theorem contents_upsertText (t : Tables) {key k : String} (value : String) (h : k ≠ key) :
    (t.upsertText key value).contents k = t.contents k :=
  contents_eq (by rw [upsertText, OrderedMap.get?_insert, if_neg h]) fun _ => rfl

theorem contents_upsertField {t t' : Tables} {key k field value : String} (h : k ≠ key)
    (hs : t.upsertField key field value = .ok t') : t'.contents k = t.contents k := by
  unfold upsertField at hs
  split at hs
  · cases hs
    refine contents_eq rfl fun f => ?_
    rw [OrderedMap.get?_insert, if_neg]
    simp [h]
  · cases hs

theorem contents_deleteAllFields (t : Tables) {key k : String} (h : k ≠ key) :
    (t.deleteAllFields key).contents k = t.contents k := by
  refine contents_eq rfl fun f => ?_
  rw [deleteAllFields, OrderedMap.get?_filter]
  cases t.fields.get? ⟨k, f⟩ <;> simp [Option.filter, h]

theorem contents_deleteField (t : Tables) {key k : String} (field : String) (h : k ≠ key) :
    (t.deleteField key field).contents k = t.contents k := by
  refine contents_eq rfl fun f => ?_
  rw [deleteField, OrderedMap.get?_erase, if_neg]
  simp [h]

theorem contents_deleteKey (t : Tables) {key k : String} (h : k ≠ key) :
    (t.deleteKey key).contents k = t.contents k := by
  unfold deleteKey
  split
  · refine contents_eq (by rw [OrderedMap.get?_erase, if_neg h]) fun f => ?_
    rw [OrderedMap.get?_filter]
    cases t.fields.get? ⟨k, f⟩ <;> simp [Option.filter, h]
  · rfl

theorem contents_deleteEmptyHash (t : Tables) {key k : String} (h : k ≠ key) :
    (t.deleteEmptyHash key).contents k = t.contents k := by
  unfold deleteEmptyHash
  split
  · exact t.contents_deleteKey h
  · rfl

theorem get?_keys_deleteKey (t : Tables) (key : String) : (t.deleteKey key).keys.get? key = none := by
  unfold deleteKey
  split
  · rw [OrderedMap.get?_erase, if_pos rfl]
  · rename_i h
    simpa [OrderedMap.contains] using h

end Tables

namespace Transaction

variable {α β : Type}

def exec (m : Transaction α) (a : Access) (t : Tables) : Except Error (α × Tables) := (m.run a).run t

theorem exec_bind (m : Transaction α) (f : α → Transaction β) (a : Access) (t : Tables) :
    exec (m >>= f) a t = (exec m a t).bind fun r => exec (f r.1) a r.2 := rfl

theorem exec_bind_ok {m : Transaction α} {f : α → Transaction β} {a : Access} {t t' : Tables} {y : β} :
    exec (m >>= f) a t = .ok (y, t') ↔ ∃ x t1, exec m a t = .ok (x, t1) ∧ exec (f x) a t1 = .ok (y, t') := by
  rw [exec_bind]
  cases exec m a t with
  | error e => simp [Except.bind]
  | ok r =>
    constructor
    · intro h
      exact ⟨r.1, r.2, rfl, h⟩
    · rintro ⟨x, t1, h1, h2⟩
      cases h1
      exact h2

theorem exec_bind_of_ok {m : Transaction α} {f : α → Transaction β} {a : Access} {t t' : Tables} {x : α}
    (h : exec m a t = .ok (x, t')) : exec (m >>= f) a t = exec (f x) a t' := by
  rw [exec_bind, h]
  rfl

theorem exec_bind_error {m : Transaction α} {f : α → Transaction β} {a : Access} {t : Tables} {e : Error}
    (h : exec m a t = .error e) : exec (m >>= f) a t = .error e := by
  rw [exec_bind, h]
  rfl

theorem exec_write (statement : Tables → Except Error Tables) (a : Access) (t : Tables) :
    exec (write statement) a t =
      if a = .writing then (statement t).map fun t' => ((), t') else .error .database := by
  cases a with
  | closed => rfl
  | reading => rfl
  | writing =>
    have h : exec (write statement) .writing t =
        ((statement t).bind fun t' => .ok (t', t)).bind fun r => .ok ((), r.1) := rfl
    rw [h, if_pos rfl]
    cases statement t <;> rfl

theorem exec_write_ok {statement : Tables → Except Error Tables} {a : Access} {t t' : Tables} {u : Unit}
    (h : exec (write statement) a t = .ok (u, t')) : a = .writing ∧ statement t = .ok t' := by
  rw [exec_write] at h
  split at h
  · rename_i ha
    cases hs : statement t with
    | error e => rw [hs] at h; cases h
    | ok t1 => rw [hs] at h; cases h; exact ⟨ha, rfl⟩
  · cases h

theorem exec_expectHash (key : String) (a : Access) (t : Tables) :
    exec (expectHash key) a t =
      match t.kindOf? key with
      | none => .ok (false, t)
      | some .hash => .ok (true, t)
      | some .text => .error (.wrongType key) := by
  have h : exec (expectHash key) a t = exec (match t.kindOf? key with
      | none => return false
      | some .hash => return true
      | some .text => throw (.wrongType key)) a t := rfl
  rw [h]
  cases t.kindOf? key with
  | none => rfl
  | some kind => cases kind <;> rfl

theorem exec_expectHash_ok {key : String} {a : Access} {t t' : Tables} {b : Bool}
    (h : exec (expectHash key) a t = .ok (b, t')) : t' = t ∧ t.kindOf? key ≠ some .text := by
  rw [exec_expectHash] at h
  split at h
  · rename_i hk; cases h; exact ⟨rfl, by simp [hk]⟩
  · rename_i hk; cases h; exact ⟨rfl, by simp [hk]⟩
  · cases h

/-! ### Frames -/

/-- When the transaction succeeds, the rows of the key are as before. -/
def Keeps (key : String) (m : Transaction α) : Prop :=
  ∀ a t x t', exec m a t = .ok (x, t') → t'.contents key = t.contents key

theorem keeps_pure (k : String) (x : α) : Keeps k (pure x) := by
  intro a t y t' h
  cases h
  rfl

theorem keeps_throw (k : String) (e : Error) : Keeps k (throw e : Transaction α) := by
  intro a t y t' h
  cases h

theorem keeps_get (k : String) : Keeps k get := by
  intro a t y t' h
  cases h
  rfl

theorem keeps_bind {k : String} {m : Transaction α} {f : α → Transaction β} (hm : Keeps k m)
    (hf : ∀ x, Keeps k (f x)) : Keeps k (m >>= f) := by
  intro a t y t' h
  obtain ⟨x, t1, h1, h2⟩ := exec_bind_ok.mp h
  exact (hf x a t1 y t' h2).trans (hm a t x t1 h1)

theorem keeps_write {k : String} {statement : Tables → Except Error Tables}
    (hs : ∀ t t', statement t = .ok t' → t'.contents k = t.contents k) : Keeps k (write statement) := by
  intro a t x t' h
  exact hs t t' (exec_write_ok h).2

theorem keeps_expectHash (k key : String) : Keeps k (expectHash key) := by
  intro a t x t' h
  rw [(exec_expectHash_ok h).1]

/-- A choice that was made outside the tables. -/
theorem keeps_lift (k : String) (r : Except Error α) : Keeps k (liftM r : Transaction α) := by
  intro a t x t' h
  cases r with
  | error e => cases h
  | ok y => cases h; rfl

theorem keeps_ensureHash {k key : String} (h : k ≠ key) : Keeps k (ensureHash key) := by
  refine keeps_bind (keeps_write fun t t' hs => ?_) fun _ => keeps_bind (keeps_expectHash k key) fun b => ?_
  · cases hs
    exact t.contents_insertHash h
  · cases b with
    | false => exact keeps_throw k _
    | true => exact keeps_pure k _

theorem keeps_setText {k key : String} (value : String) (h : k ≠ key) : Keeps k (setText key value) := by
  refine keeps_bind (keeps_write fun t t' hs => ?_) fun _ => keeps_write fun t t' hs => ?_
  · cases hs
    exact t.contents_deleteAllFields h
  · cases hs
    exact t.contents_upsertText value h

theorem keeps_upsertField {k key : String} (field value : String) (h : k ≠ key) :
    Keeps k (upsertField key field value) :=
  keeps_write fun _ _ hs => Tables.contents_upsertField h hs

theorem keeps_setField {k key : String} (field value : String) (h : k ≠ key) :
    Keeps k (setField key field value) :=
  keeps_bind (keeps_ensureHash h) fun _ => keeps_upsertField field value h

theorem keeps_deleteKey {k key : String} (h : k ≠ key) : Keeps k (deleteKey key) := by
  refine keeps_bind (keeps_get k) fun t => keeps_bind (keeps_write fun t t' hs => ?_) fun _ => keeps_pure k _
  cases hs
  exact t.contents_deleteKey h

theorem keeps_deleteKeys {k : String} {keys : List String} (h : k ∉ keys) : Keeps k (deleteKeys keys) := by
  induction keys with
  | nil => exact keeps_pure k _
  | cons key rest ih =>
    simp only [List.mem_cons, not_or] at h
    exact keeps_bind (keeps_deleteKey h.1) fun _ => keeps_bind (ih h.2) fun _ => keeps_pure k _

theorem keeps_deleteFieldRows {k key : String} (fields : List String) (h : k ≠ key) :
    Keeps k (deleteFieldRows key fields) := by
  induction fields with
  | nil => exact keeps_pure k _
  | cons field rest ih =>
    refine keeps_bind (keeps_get k) fun t => keeps_bind (keeps_write fun t t' hs => ?_) fun _ =>
      keeps_bind ih fun _ => keeps_pure k _
    cases hs
    exact t.contents_deleteField field h

theorem keeps_deleteFields {k key : String} (fields : List String) (h : k ≠ key) :
    Keeps k (deleteFields key fields) := by
  refine keeps_bind (keeps_expectHash k key) fun b => ?_
  cases b with
  | false => exact keeps_pure k _
  | true =>
    refine keeps_bind (keeps_deleteFieldRows fields h) fun _ =>
      keeps_bind (keeps_write fun t t' hs => ?_) fun _ => keeps_pure k _
    cases hs
    exact t.contents_deleteEmptyHash h

theorem keeps_runCommand {k : String} {command : Command} (h : k ≠ command.key) : Keeps k (runCommand command) := by
  cases command with
  | set key value => exact keeps_setText value h
  | setField key field value => exact keeps_setField field value h
  | delete key => exact keeps_bind (keeps_deleteKey h) fun _ => keeps_pure k _
  | deleteField key field => exact keeps_bind (keeps_deleteFields [field] h) fun _ => keeps_pure k _

theorem keeps_apply {k : String} {commands : List Command} (h : k ∉ commands.map Command.key) :
    Keeps k (apply commands) := by
  induction commands with
  | nil => exact keeps_pure k _
  | cons command rest ih =>
    simp only [List.map_cons, List.mem_cons, not_or] at h
    exact keeps_bind (keeps_runCommand h.1) fun _ => ih h.2

theorem keeps_increment {k key : String} (field : String) (delta : Int64) (h : k ≠ key) :
    Keeps k (increment key field delta) :=
  keeps_bind (keeps_ensureHash h) fun _ => keeps_bind (keeps_get k) fun _ =>
    keeps_bind (keeps_lift k _) fun _ => keeps_bind (keeps_lift k _) fun _ =>
      keeps_bind (keeps_upsertField field _ h) fun _ => keeps_pure k _

/-! ### Effects -/

theorem exec_deleteKey_ok {key : String} {a : Access} {t t' : Tables} {n : Nat}
    (h : exec (deleteKey key) a t = .ok (n, t')) : t' = t.deleteKey key := by
  obtain ⟨t1, t2, h1, h2⟩ := exec_bind_ok.mp h
  cases h1
  obtain ⟨u, t3, h3, h4⟩ := exec_bind_ok.mp h2
  cases h4
  have := (exec_write_ok h3).2
  cases this
  rfl

theorem exec_deleteKey_writing (key : String) (t : Tables) :
    ∃ n, exec (deleteKey key) .writing t = .ok (n, t.deleteKey key) := ⟨_, rfl⟩

theorem exec_deleteKeys_writing (keys : List String) (t : Tables) :
    ∃ n t', exec (deleteKeys keys) .writing t = .ok (n, t') := by
  induction keys generalizing t with
  | nil => exact ⟨0, t, rfl⟩
  | cons key rest ih =>
    obtain ⟨n, hn⟩ := exec_deleteKey_writing key t
    obtain ⟨m, t', hm⟩ := ih (t.deleteKey key)
    exact ⟨n + m, t', exec_bind_ok.mpr ⟨n, _, hn, exec_bind_ok.mpr ⟨m, t', hm, rfl⟩⟩⟩

theorem get?_keys_of_deleteKeys {keys : List String} {a : Access} {t t' : Tables} {n : Nat}
    (h : exec (deleteKeys keys) a t = .ok (n, t')) {k : String} (hk : k ∈ keys) : t'.keys.get? k = none := by
  induction keys generalizing t t' n with
  | nil => cases hk
  | cons key rest ih =>
    obtain ⟨m, t1, h1, h2⟩ := exec_bind_ok.mp h
    obtain ⟨l, t2, h3, h4⟩ := exec_bind_ok.mp h2
    cases h4
    by_cases hr : k ∈ rest
    · exact ih h3 hr
    · obtain rfl : k = key := (List.mem_cons.mp hk).resolve_right hr
      have hc := keeps_deleteKeys hr a t1 l _ h3
      rw [Tables.contents, Tables.contents] at hc
      rw [(Contents.rows.inj hc).1, exec_deleteKey_ok h1]
      exact t.get?_keys_deleteKey k

theorem exec_ensureHash_ok {key : String} {a : Access} {t t' : Tables} {u : Unit}
    (h : exec (ensureHash key) a t = .ok (u, t')) :
    a = .writing ∧ t' = t.insertHash key ∧ t'.kindOf? key ≠ some .text := by
  obtain ⟨u1, t1, h1, h2⟩ := exec_bind_ok.mp h
  obtain ⟨b, t2, h3, h4⟩ := exec_bind_ok.mp h2
  obtain ⟨ha, hs⟩ := exec_write_ok h1
  cases hs
  obtain ⟨rfl, hk⟩ := exec_expectHash_ok h3
  cases b with
  | false => cases h4
  | true => cases h4; exact ⟨ha, rfl, hk⟩

end Transaction
end Store
end ShareIndex
