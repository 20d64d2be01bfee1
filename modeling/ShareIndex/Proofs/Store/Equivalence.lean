import ShareIndex.Proofs.Store.Fields
import ShareIndex.Proofs.Store.Matching

/-!
# ShareIndex.Proofs.Store.Equivalence

The two backends are the same store, but for what a batch leaves behind that fails.

* `Represents`  — tables that stand for a keyspace.
* `Alike`       — the outcome of a transaction and the outcome in memory are the same, with related states.
* `setField_alike`, `deleteFields_alike`, `increment_alike` and the like — the writes, one by one.
* `apply_alike` — a batch succeeds on both sides, or both come to the same command that fails.
* `Comparable`  — what is asked of a scan: no line feeds in keys, and a database that matches as it is documented.
* `Together`, `StopsTogether` — what both backends answer and leave behind.
* `backends_agree` — every request is answered alike, and so is every run without failing batches.
-/

namespace ShareIndex
namespace Store

/-- The tables hold the values of the keyspace, and no text without its value. -/
structure Represents (t : Tables) (s : Keyspace) : Prop where
  value : ∀ key, t.value? key = s.get? key
  valued : ∀ key, t.keys.get? key ≠ some ⟨.text, none⟩

namespace Represents

variable {t t' : Tables} {s s' : Keyspace}

theorem empty : Represents .empty .empty := ⟨fun _ => rfl, fun _ h => by cases h⟩

theorem contains (h : Represents t s) (key : String) : t.keys.contains key = s.values.contains key := by
  have hd : key ∈ t.keys.keys ↔ t.value? key ≠ none := Backend.mem_keys (s := .database (.ofTables t))
  have hm : key ∈ s.values.keys ↔ s.get? key ≠ none := Backend.mem_keys (s := .memory s)
  rw [Bool.eq_iff_iff, ← OrderedMap.mem_keys, ← OrderedMap.mem_keys, hd, hm, h.value]

/-- A change to a single key. -/
theorem update (h : Represents t s) (key : String) (ht : ∀ k, k ≠ key → t'.contents k = t.contents k)
    (hs : ∀ k, k ≠ key → s'.get? k = s.get? k) (hv : t'.value? key = s'.get? key)
    (hrow : t'.keys.get? key ≠ some ⟨.text, none⟩) : Represents t' s' := by
  constructor
  · intro k
    by_cases hk : k = key
    · rw [hk, hv]
    · rw [Tables.value?_eq (ht k hk), h.value, hs k hk]
  · intro k
    by_cases hk : k = key
    · rw [hk]
      exact hrow
    · rw [(Contents.rows.inj (ht k hk)).1]
      exact h.valued k

theorem updateHash (h : Represents t s) (key : String) (ht : ∀ k, k ≠ key → t'.contents k = t.contents k)
    (hs : ∀ k, k ≠ key → s'.get? k = s.get? k) (hv : t'.value? key = s'.get? key) (hf : Fillable (t'.value? key)) :
    Represents t' s' := by
  refine h.update key ht hs hv fun hrow => ?_
  rw [Tables.value?_of_text hrow] at hf
  exact hf

end Represents

/-! ### Transactions -/

/-- The outcome on tables and the outcome on a keyspace: the same answer and related states, or the same error and no
change. -/
def Alike {α : Type} (s : Keyspace) (r : Except Error (α × Tables)) (o : Outcome Keyspace α) : Prop :=
  (∃ x t' s', r = .ok (x, t') ∧ o = (.ok x, s') ∧ Represents t' s') ∨ ∃ e, r = .error e ∧ o = (.error e, s)

namespace Transaction

variable {t t' : Tables} {s : Keyspace} {key field : String} {delta : Int64} {e : Error}

theorem exec_expectHash_error (h : ¬ Fillable (t.value? key)) (a : Access) :
    exec (expectHash key) a t = .error (.wrongType key) := by
  rw [Tables.fillable_iff, not_not] at h
  rw [exec_expectHash, h]

theorem exec_ensureHash_error (h : ¬ Fillable (t.value? key)) :
    exec (ensureHash key) .writing t = .error (.wrongType key) := by
  have hkind : t.kindOf? key = some .text := by
    rw [Tables.fillable_iff, not_not] at h
    exact h
  have hsame : t.insertHash key = t := by
    obtain ⟨row, hrow, -⟩ := Option.map_eq_some_iff.mp hkind
    exact if_pos (OrderedMap.contains_iff.mpr ⟨row, hrow⟩)
  have hwrite : exec (write fun t => .ok (t.insertHash key)) .writing t = .ok ((), t) := by
    rw [exec_write, if_pos rfl, hsame]
    rfl
  rw [ensureHash, exec_bind_of_ok hwrite]
  exact exec_bind_error (exec_expectHash_error h .writing)

theorem exec_increment_error (hf : Fillable (t.value? key)) (hs : summed (t.value? key) field delta = .error e) :
    exec (increment key field delta) .writing t = .error e := by
  have hget : exec get .writing (t.insertHash key) = .ok (t.insertHash key, t.insertHash key) := rfl
  rw [increment, exec_bind_of_ok (exec_ensureHash_writing hf), exec_bind_of_ok hget, fieldOf?_insertHash hf]
  rw [summed] at hs
  cases hc : currentValue ((hashOf (t.value? key)).get? field) with
  | error e' =>
    rw [hc] at hs
    cases hs
    exact exec_bind_error rfl
  | ok current =>
    rw [hc] at hs
    have hsum : addWithin current delta = .error e := hs
    rw [exec_bind_of_ok rfl, hsum]
    exact exec_bind_error rfl

theorem exec_deleteKey (key : String) (t : Tables) :
    exec (deleteKey key) .writing t = .ok (if t.keys.contains key then 1 else 0, t.deleteKey key) := rfl

end Transaction

/-! ### Commands -/

section Commands

open Transaction

variable {t : Tables} {s : Keyspace}

theorem setText_alike (h : Represents t s) (key value : String) :
    Alike s (exec (setText key value) .writing t) (.ok (), s.put key (.text value)) := by
  refine .inl ⟨(), (t.deleteAllFields key).upsertText key value, _, rfl, rfl, ?_⟩
  have hrow : ((t.deleteAllFields key).upsertText key value).keys.get? key = some ⟨.text, some value⟩ :=
    (OrderedMap.get?_insert _ _ _ _).trans (if_pos rfl)
  refine h.update key ?_ ?_ ?_ ?_
  · intro k hk
    exact keeps_setText value hk .writing t () _ rfl
  · intro k hk
    rw [Keyspace.get?_put, if_neg hk]
  · rw [Tables.value?_of_text hrow, Keyspace.get?_put, if_pos rfl]
    rfl
  · rw [hrow]
    simp

theorem setField_alike (h : Represents t s) (key field value : String) :
    Alike s (exec (setField key field value) .writing t) (s.setField key field value) := by
  rw [s.setField_eq, ← h.value]
  by_cases hf : Fillable (t.value? key)
  · rw [if_pos hf]
    obtain ⟨t', hx, hv⟩ := exec_setField_writing field value hf
    refine .inl ⟨(), t', _, hx, rfl, h.updateHash key ?_ ?_ ?_ ?_⟩
    · intro k hk
      exact keeps_setField field value hk .writing t () t' hx
    · intro k hk
      rw [Keyspace.get?_put, if_neg hk]
    · rw [hv, Keyspace.get?_put, if_pos rfl]
    · rw [hv]
      trivial
  · rw [if_neg hf]
    exact .inr ⟨_, exec_bind_error (exec_ensureHash_error hf), rfl⟩

theorem deleteKey_represents (h : Represents t s) (key : String) : Represents (t.deleteKey key) (s.remove key) := by
  have hnone : (t.deleteKey key).value? key = none := Tables.value?_of_none (t.get?_keys_deleteKey key)
  refine h.updateHash key ?_ ?_ ?_ ?_
  · intro k hk
    exact t.contents_deleteKey hk
  · intro k hk
    rw [Keyspace.get?_remove, if_neg hk]
  · rw [hnone, Keyspace.get?_remove, if_pos rfl]
  · rw [hnone]
    trivial

theorem exec_deleteKeys (h : Represents t s) (keys : List String) :
    ∃ t', exec (deleteKeys keys) .writing t = .ok ((s.deleteKeys keys).1, t') ∧ Represents t' (s.deleteKeys keys).2 := by
  induction keys generalizing t s with
  | nil => exact ⟨t, rfl, h⟩
  | cons key rest ih =>
    obtain ⟨t', hx, h'⟩ := ih (deleteKey_represents h key)
    refine ⟨t', ?_, h'⟩
    rw [deleteKeys, exec_bind_of_ok (exec_deleteKey key t), exec_bind_of_ok hx, h.contains]
    rfl

theorem deleteKeys_alike (h : Represents t s) (keys : List String) :
    Alike s (exec (deleteKeys keys) .writing t) (.ok (s.deleteKeys keys).1, (s.deleteKeys keys).2) := by
  obtain ⟨t', hx, h'⟩ := exec_deleteKeys h keys
  exact .inl ⟨_, t', _, hx, rfl, h'⟩

theorem deleteFields_alike (h : Represents t s) (key : String) (fields : List String) :
    Alike s (exec (deleteFields key fields) .writing t) (s.deleteFields key fields) := by
  rw [s.deleteFields_eq, ← h.value]
  by_cases hf : Fillable (t.value? key)
  · rw [if_pos hf]
    obtain ⟨t', hx, hv⟩ := exec_deleteFields hf fields
    refine .inl ⟨_, t', _, hx, rfl, h.updateHash key ?_ ?_ ?_ ?_⟩
    · intro k hk
      exact keeps_deleteFields fields hk .writing t _ t' hx
    · intro k hk
      rw [Keyspace.get?_putHash, if_neg hk]
    · rw [hv, Keyspace.get?_putHash, if_pos rfl]
    · rw [hv]
      exact fillable_stored _
  · rw [if_neg hf]
    exact .inr ⟨_, exec_bind_error (exec_expectHash_error hf .writing), rfl⟩

theorem increment_alike (h : Represents t s) (key field : String) (delta : Int64) :
    Alike s (exec (increment key field delta) .writing t) (s.increment key field delta) := by
  rw [s.increment_eq, ← h.value]
  by_cases hf : Fillable (t.value? key)
  · rw [if_pos hf]
    cases hsum : summed (t.value? key) field delta with
    | error e => exact .inr ⟨e, exec_increment_error hf hsum, rfl⟩
    | ok n =>
      obtain ⟨t', hx⟩ := exec_increment_writing hf hsum
      obtain ⟨-, -, -, hv⟩ := exec_increment_ok hx
      refine .inl ⟨n, t', _, hx, rfl, h.updateHash key ?_ ?_ ?_ ?_⟩
      · intro k hk
        exact keeps_increment field delta hk .writing t n t' hx
      · intro k hk
        rw [Keyspace.get?_put, if_neg hk]
      · rw [hv, Keyspace.get?_put, if_pos rfl]
      · rw [hv]
        trivial
  · rw [if_neg hf]
    exact .inr ⟨_, exec_bind_error (exec_ensureHash_error hf), rfl⟩

theorem runCommand_alike (h : Represents t s) (command : Command) :
    Alike s (exec (runCommand command) .writing t) (s.runCommand command) := by
  cases command with
  | set key value => exact setText_alike h key value
  | setField key field value => exact setField_alike h key field value
  | delete key => exact .inl ⟨(), t.deleteKey key, _, rfl, rfl, deleteKey_represents h key⟩
  | deleteField key field =>
    rcases deleteFields_alike h key [field] with ⟨n, t', s', hx, hs, h'⟩ | ⟨e, hx, hs⟩
    · refine .inl ⟨(), t', s', ?_, ?_, h'⟩
      · rw [runCommand, exec_bind_of_ok hx]
        rfl
      · rw [Keyspace.runCommand, hs]
    · refine .inr ⟨e, exec_bind_error hx, ?_⟩
      rw [Keyspace.runCommand, hs]

end Commands

/-! ### Batches -/

section Batches

variable {t t' : Tables} {s s' : Keyspace} {commands : List Command} {e : Error}

theorem exec_apply_append (h : Transaction.exec (Transaction.apply commands) .writing t = .ok ((), t'))
    (later : List Command) :
    Transaction.exec (Transaction.apply (commands ++ later)) .writing t =
      Transaction.exec (Transaction.apply later) .writing t' := by
  induction commands generalizing t with
  | nil =>
    cases h
    rfl
  | cons command rest ih =>
    obtain ⟨u, t1, hc, hr⟩ := Transaction.exec_bind_ok.mp h
    rw [List.cons_append, Transaction.apply, Transaction.exec_bind_of_ok hc]
    exact ih hr

theorem apply_append (h : s.apply commands = (.ok (), s')) (later : List Command) :
    s.apply (commands ++ later) = s'.apply later := by
  induction commands generalizing s with
  | nil =>
    cases h
    rfl
  | cons command rest ih =>
    rw [Keyspace.apply] at h
    rw [List.cons_append, Keyspace.apply]
    split at h
    · exact ih h
    · cases h

/-- A batch succeeds on both sides, or comes to the same command that fails on both. -/
theorem apply_alike (h : Represents t s) (commands : List Command) :
    (∃ t' s', Transaction.exec (Transaction.apply commands) .writing t = .ok ((), t') ∧
      s.apply commands = (.ok (), s') ∧ Represents t' s') ∨
    ∃ before command after e t' s', commands = before ++ command :: after ∧
      Transaction.exec (Transaction.apply before) .writing t = .ok ((), t') ∧ s.apply before = (.ok (), s') ∧
      Represents t' s' ∧ Transaction.exec (Transaction.runCommand command) .writing t' = .error e ∧
      s'.runCommand command = (.error e, s') := by
  induction commands generalizing t s with
  | nil => exact .inl ⟨t, s, rfl, rfl, h⟩
  | cons command rest ih =>
    rcases runCommand_alike h command with ⟨u, t1, s1, hx, hs, h1⟩ | ⟨e, hx, hs⟩
    · have hexec : ∀ later, Transaction.exec (Transaction.apply (command :: later)) .writing t =
          Transaction.exec (Transaction.apply later) .writing t1 := fun later => Transaction.exec_bind_of_ok hx
      have happly : ∀ later, s.apply (command :: later) = s1.apply later := fun later => by rw [Keyspace.apply, hs]
      rcases ih h1 with ⟨t', s', ht', hs', h'⟩ | ⟨before, failing, after, e, t', s', rfl, ht', hs', h', hxf, hsf⟩
      · exact .inl ⟨t', s', (hexec rest).trans ht', (happly rest).trans hs', h'⟩
      · exact .inr ⟨command :: before, failing, after, e, t', s', rfl, (hexec before).trans ht',
          (happly before).trans hs', h', hxf, hsf⟩
    · exact .inr ⟨[], command, rest, e, t, s, rfl, rfl, rfl, h, hx, hs⟩

end Batches

/-! ### Reads -/

section Reads

variable {t : Tables} {s : Keyspace}

theorem getText_eq (h : Represents t s) (key : String) : Database.getText key t = s.getText key := by
  rw [Database.getText, Keyspace.getText, ← h.value, Tables.kindOf?, Tables.textOf?]
  cases hrow : t.keys.get? key with
  | none =>
    rw [Tables.value?_of_none hrow]
    rfl
  | some row =>
    obtain ⟨kind, v⟩ := row
    cases kind with
    | hash =>
      rw [Tables.value?_of_hash hrow]
      rfl
    | text =>
      rw [Tables.value?_of_text hrow]
      cases v with
      | none => exact absurd hrow (h.valued key)
      | some text => rfl

theorem ofHash_map {α : Type} (h : Represents t s) {key : String} {missing : α} {read : Tables → α} {f : Hash → α}
    (hread : ∀ hash, t.fieldsOf key = hash → read t = f hash) (hmissing : missing = f ∅) :
    Database.ofHash key missing read t = (s.hashAt key).map f := by
  rw [Database.ofHash, Keyspace.hashAt, Tables.kindOf?_eq, ← h.value]
  cases hv : t.value? key with
  | none =>
    rw [hmissing]
    rfl
  | some v =>
    cases v with
    | text => rfl
    | hash hash => exact congrArg Except.ok (hread hash (Tables.fieldsOf_of_value? hv))

theorem fieldOf?_eq {key : String} {hash : Hash} (h : t.fieldsOf key = hash) : t.fieldOf? key = hash.get? := by
  funext field
  rw [← h, Tables.get?_fieldsOf, Tables.fieldOf?]

end Reads

/-! ### Requests -/

/-- A scan is compared if no key has a line feed, and if the database reads the pattern on every key as its
documentation says. -/
def Comparable (s : Keyspace) : Request → Prop
  | .scan _ pattern _ => ∀ key ∈ s.values.keys,
      '\n' ∉ key.toList ∧ globMatches pattern.bracketed key = documentedMatches pattern.bracketed key
  | _ => True

/-- Without NULs, the documentation holds unless a character of a key is taken for another one of the pattern. -/
theorem comparable_of_distinguishes {s : Keyspace} {pattern : Pattern} (cursor : Option String) (count : Nat)
    (hp : '\x00' ∉ pattern.glob.toList)
    (hk : ∀ key ∈ s.values.keys,
      '\n' ∉ key.toList ∧ '\x00' ∉ key.toList ∧ Distinguishes pattern.glob.toList key.toList) :
    Comparable s (.scan cursor pattern count) := by
  intro key hkey
  obtain ⟨hn, hnul, hd⟩ := hk key hkey
  exact ⟨hn, Pattern.globMatches_documented hp hnul hn hd⟩

/-- Both backends give the same answer and come to related states. -/
def Together (t : Tables) (s : Keyspace) (r : Request) : Prop :=
  ∃ t', (Database.ofTables t).perform r = ((s.perform r).1, .ofTables t') ∧ Represents t' (s.perform r).2

/-- Both backends stop at the same command with the same error, whatever comes after it. The database is as it was, and
the keyspace is as after the commands before that one. -/
def StopsTogether (t : Tables) (s : Keyspace) (commands : List Command) : Prop :=
  ∃ before command after e, commands = before ++ command :: after ∧
    Together t s (.apply before) ∧ (s.perform (.apply before)).1 = .ok () ∧
    ∀ later, (Database.ofTables t).perform (.apply (before ++ command :: later)) = (.error e, .ofTables t) ∧
      s.perform (.apply (before ++ command :: later)) = (.error e, (s.perform (.apply before)).2)

section Requests

variable {t : Tables} {s : Keyspace}

theorem query_ofTables {α : Type} (t : Tables) (read : Tables → Except Error α) :
    (Database.ofTables t).query read = (read t, .ofTables t) := Database.query_open (by simp [Database.ofTables]) read

theorem transact_ofTables {α : Type} (t : Tables) (body : Transaction α) :
    (Database.ofTables t).transact body =
      match Transaction.exec body .writing t with
      | .ok (a, tables) => (.ok a, .ofTables tables)
      | .error e => (.error e, .ofTables t) := Database.transact_open (by simp [Database.ofTables]) body

theorem Alike.transact {α : Type} {m : Transaction α} {o : Outcome Keyspace α} (h : Represents t s)
    (ha : Alike s (m.exec .writing t) o) :
    ∃ t', (Database.ofTables t).transact m = (o.1, .ofTables t') ∧ Represents t' o.2 := by
  rw [transact_ofTables]
  rcases ha with ⟨x, t', s', hx, rfl, h'⟩ | ⟨e, hx, rfl⟩
  · rw [hx]
    exact ⟨t', rfl, h'⟩
  · rw [hx]
    exact ⟨t, rfl, h⟩

theorem together_read {r : Request} (h : Represents t s)
    (hd : (Database.ofTables t).perform r = ((s.perform r).1, .ofTables t)) (hs : (s.perform r).2 = s) :
    Together t s r := by
  refine ⟨t, hd, ?_⟩
  rw [hs]
  exact h

theorem listed_eq (h : Represents t s) {pattern : Pattern} (hc : ∀ key ∈ s.values.keys,
      '\n' ∉ key.toList ∧ globMatches pattern.bracketed key = documentedMatches pattern.bracketed key) :
    (Backend.database (.ofTables t)).listed pattern = (Backend.memory s).listed pattern := by
  refine ((Backend.listed_ascending _ pattern).eq_of_mem_iff (Backend.listed_ascending _ pattern)) fun key => ?_
  have hvalue : (Backend.database (.ofTables t)).value? key = (Backend.memory s).value? key := h.value key
  rw [Backend.mem_listed, Backend.mem_listed, hvalue]
  refine and_congr_right fun hkey => ?_
  obtain ⟨hn, hdocumented⟩ := hc key (Backend.mem_keys (s := .memory s).mpr hkey)
  show globMatches pattern.bracketed key = true ↔ pattern.matches key = true
  rw [hdocumented, Pattern.documentedMatches_bracketed hn]

/-- A request other than a batch. -/
theorem perform_together (h : Represents t s) {r : Request} (hr : r.operation ≠ .apply) (hc : Comparable s r) :
    Together t s r := by
  cases r with
  | get key =>
    refine together_read h ?_ rfl
    rw [Database.perform, query_ofTables, getText_eq h]
    rfl
  | set key value => exact (setText_alike h key value).transact h
  | delete keys => exact (deleteKeys_alike h keys).transact h
  | scan cursor pattern count =>
    refine together_read h ?_ rfl
    have hd := (Backend.database (.ofTables t)).perform_scan cursor pattern count
    have hm := (Backend.memory s).perform_scan cursor pattern count
    rw [listed_eq h hc] at hd
    have hanswer : ((Database.ofTables t).perform (.scan cursor pattern count)).1 = (s.perform (.scan cursor pattern count)).1 :=
      (congrArg Prod.fst hd).trans (congrArg Prod.fst hm).symm
    rw [← hanswer, Database.perform, query_ofTables]
  | getField key field =>
    have hanswer : Database.ofHash key none (fun t => t.fieldOf? key field) t = (s.hashAt key).map (·.get? field) :=
      ofHash_map h (fun hash hf => by rw [fieldOf?_eq hf]) rfl
    refine together_read h ?_ rfl
    rw [Database.perform, query_ofTables, hanswer]
    rfl
  | getFields key fields =>
    have hanswer : Database.ofHash key (fields.map fun _ => none) (fun t => fields.map (t.fieldOf? key)) t =
        (s.hashAt key).map fun hash => fields.map hash.get? :=
      ofHash_map h (fun hash hf => by rw [fieldOf?_eq hf]) rfl
    refine together_read h ?_ rfl
    rw [Database.perform, query_ofTables, hanswer]
    rfl
  | getAll key =>
    have hanswer : Database.ofHash key ∅ (fun t => t.fieldsOf key) t = s.hashAt key := by
      rw [ofHash_map h (f := fun hash => hash) (fun _ hf => hf) rfl]
      cases s.hashAt key <;> rfl
    refine together_read h ?_ rfl
    rw [Database.perform, query_ofTables, hanswer]
    rfl
  | scanFields key cursor count =>
    have hanswer : Database.ofHash key ⟨[], none⟩ (fun t => .ofItems (t.scanFields key cursor count) count (·.1)) t =
        s.scanFields key cursor count := by
      rw [ofHash_map h (f := fun hash => .ofItems ((hash.after cursor).take count) count (·.1))]
      · rw [Keyspace.scanFields]
        cases s.hashAt key <;> rfl
      · intro hash hf
        rw [Tables.scanFields, hf]
      · exact (Page.ofItems_after_empty cursor count).symm
    refine together_read h ?_ rfl
    rw [Database.perform, query_ofTables, hanswer]
    rfl
  | deleteFields key fields => exact (deleteFields_alike h key fields).transact h
  | increment key field delta => exact (increment_alike h key field delta).transact h
  | apply commands => exact absurd rfl hr

theorem perform_apply (t : Tables) (commands : List Command) :
    (Database.ofTables t).perform (.apply commands) = (Database.ofTables t).transact (Transaction.apply commands) := by
  cases commands <;> rfl

theorem batch_together (h : Represents t s) (commands : List Command) :
    (Together t s (.apply commands) ∧ (s.perform (.apply commands)).1 = .ok ()) ∨ StopsTogether t s commands := by
  have hsucceeds : ∀ {commands : List Command} {t' s'}, Transaction.exec (Transaction.apply commands) .writing t = .ok ((), t') →
      s.apply commands = (.ok (), s') → Represents t' s' →
      Together t s (.apply commands) ∧ (s.perform (.apply commands)).1 = .ok () := by
    intro commands t' s' ht hs h'
    have hperform : s.perform (.apply commands) = (.ok (), s') := hs
    refine ⟨⟨t', ?_, ?_⟩, ?_⟩
    · rw [perform_apply, transact_ofTables, ht, hperform]
    · rw [hperform]
      exact h'
    · rw [hperform]
  rcases apply_alike h commands with ⟨t', s', ht, hs, h'⟩ | ⟨before, command, after, e, t', s', rfl, ht, hs, h', hx, hf⟩
  · exact .inl (hsucceeds ht hs h')
  · obtain ⟨htogether, hok⟩ := hsucceeds ht hs h'
    refine .inr ⟨before, command, after, e, rfl, htogether, hok, fun later => ⟨?_, ?_⟩⟩
    · have hexec : Transaction.exec (Transaction.apply (before ++ command :: later)) .writing t = .error e := by
        rw [exec_apply_append ht]
        exact Transaction.exec_bind_error hx
      rw [perform_apply, transact_ofTables, hexec]
    · have hbefore : s.perform (.apply before) = (.ok (), s') := hs
      show s.apply (before ++ command :: later) = _
      rw [apply_append hs, Keyspace.apply, hf, hbefore]

end Requests

/-! ### Runs -/

/-- What a store answers to requests that are made one after the other, and the state after them. -/
def serve {S : Type} [KeyValueStore S] (s : S) : List Request → List ((r : Request) × Except Error r.Answer) × S
  | [] => ([], s)
  | r :: rest =>
    let (answer, s1) := KeyValueStore.perform s r
    let (later, s2) := serve s1 rest
    (⟨r, answer⟩ :: later, s2)

/-- No batch fails, and every scan can be compared. -/
def Regular (s : Keyspace) : List Request → Prop
  | [] => True
  | r :: rest => Comparable s r ∧ (r.operation = .apply → ∃ a, (s.perform r).1 = .ok a) ∧ Regular (s.perform r).2 rest

theorem request_together {t : Tables} {s : Keyspace} (h : Represents t s) {r : Request} (hc : Comparable s r)
    (hr : r.operation = .apply → ∃ a, (s.perform r).1 = .ok a) : Together t s r := by
  by_cases hbatch : r.operation = .apply
  · cases r with
    | apply commands =>
      rcases batch_together h commands with ⟨htogether, -⟩ | ⟨before, command, after, e, rfl, -, -, hstop⟩
      · exact htogether
      · obtain ⟨a, ha⟩ := hr rfl
        rw [(hstop after).2] at ha
        cases ha
    | get | set | delete | scan | getField | getFields | getAll | scanFields | deleteFields | increment => cases hbatch
  · exact perform_together h hbatch hc

theorem serve_together {t : Tables} {s : Keyspace} (h : Represents t s) {requests : List Request}
    (hr : Regular s requests) :
    ∃ t', serve (Database.ofTables t) requests = ((serve s requests).1, .ofTables t') ∧
      Represents t' (serve s requests).2 := by
  induction requests generalizing t s with
  | nil => exact ⟨t, rfl, h⟩
  | cons r rest ih =>
    obtain ⟨hc, hbatch, hrest⟩ := hr
    obtain ⟨t1, hp, h1⟩ := request_together h hc hbatch
    obtain ⟨t', hs, h'⟩ := ih h1 hrest
    refine ⟨t', ?_, h'⟩
    show ((⟨r, ((Database.ofTables t).perform r).1⟩ :: (serve ((Database.ofTables t).perform r).2 rest).1 :
      List ((r : Request) × Except Error r.Answer)), (serve ((Database.ofTables t).perform r).2 rest).2) = _
    rw [hp, hs]
    rfl

/-- On related states, both backends give the same answer to every request and come to related states, except when a
batch fails: then both stop at the same command, but only the database takes back what came before it. So they also
agree over every run without such a batch. -/
theorem backends_agree {t : Tables} {s : Keyspace} (h : Represents t s) :
    (∀ r : Request, r.operation ≠ .apply → Comparable s r → Together t s r) ∧
    (∀ commands, (Together t s (.apply commands) ∧ (s.perform (.apply commands)).1 = .ok ()) ∨
      StopsTogether t s commands) ∧
    ∀ requests, Regular s requests →
      ∃ t', serve (Database.ofTables t) requests = ((serve s requests).1, .ofTables t') ∧
        Represents t' (serve s requests).2 := by
  refine ⟨fun r hr hc => perform_together h hr hc, batch_together h, fun requests hr => ?_⟩
  exact serve_together h hr

/-- A pattern with a bracket, and a batch that finds a text in the place of a hash. -/
theorem backends_agree_brackets :
    let run : List Request := [.set "k[1]" "v", .apply [.setField "h" "f" "1"], .increment "h" "f" 2,
      .scan none ⟨"k[*"⟩ 10, .get "h"]
    let batch : List Command := [.setField "h" "f" "1", .set "k" "v", .setField "k" "f" "2", .delete "h"]
    Represents .empty .empty ∧ Regular .empty run ∧
      (serve (Database.ofTables .empty) run).1 = (serve Keyspace.empty run).1 ∧ StopsTogether .empty .empty batch := by
  intro run batch
  have hkeys : ∀ key ∈ ["h", "k[1]"], '\n' ∉ key.toList ∧ '\x00' ∉ key.toList ∧
      Distinguishes ("k[*" : String).toList key.toList := by decide +kernel
  have hregular : Regular .empty run :=
    ⟨trivial, nofun, trivial, fun _ => ⟨(), rfl⟩, trivial, nofun,
      comparable_of_distinguishes none 10 (by decide) hkeys, nofun, trivial, nofun, trivial⟩
  obtain ⟨-, hbatches, hruns⟩ := backends_agree Represents.empty
  obtain ⟨t', hserve, -⟩ := hruns run hregular
  refine ⟨Represents.empty, hregular, congrArg Prod.fst hserve, ?_⟩
  rcases hbatches batch with ⟨-, hok⟩ | hstop
  · have hfails : (Keyspace.empty.perform (.apply batch)).1 = .error (.wrongType "k") := rfl
    rw [hfails] at hok
    cases hok
  · exact hstop

end Store
end ShareIndex
