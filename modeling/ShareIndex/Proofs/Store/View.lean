import ShareIndex.Proofs.Store.Fill
import Mathlib.Data.List.Sort
import Mathlib.Data.String.Basic

/-!
# ShareIndex.Proofs.Store.View

Each request as seen through the view of a store, for both backends at once.

* `Backend.contents_perform`, `Backend.access_perform` — what a request leaves alone.
* `Database.perform_error` — a database does all of a request or nothing.
* `Backend.perform_error`  — so do both backends, unless there are commands to apply.
* `Backend.answer_congr`   — the answer to a read depends on the contents of its key only.
-/

namespace ShareIndex
namespace Store

namespace Database

variable {α : Type}

theorem transact_closed {d : Database} (h : d.access = .closed) (body : Transaction α) :
    d.transact body = (.error .database, d) := if_pos h

theorem transact_open {d : Database} (h : d.access ≠ .closed) (body : Transaction α) :
    d.transact body =
      match Transaction.exec body d.access d.tables with
      | .ok (a, tables) => (.ok a, { d with tables })
      | .error e => (.error e, d) := if_neg h

/-- A transaction that fails changes nothing, and one that succeeds has run on an open connection. -/
theorem transact_cases (d : Database) (body : Transaction α) :
    (∃ e, d.transact body = (.error e, d)) ∨
      ∃ a t, Transaction.exec body d.access d.tables = .ok (a, t) ∧
        d.transact body = (.ok a, { d with tables := t }) := by
  by_cases h : d.access = .closed
  · exact .inl ⟨_, transact_closed h body⟩
  · rw [transact_open h]
    cases he : Transaction.exec body d.access d.tables with
    | error e => exact .inl ⟨e, rfl⟩
    | ok r => exact .inr ⟨r.1, r.2, rfl, rfl⟩

/-- A backend whose transaction has succeeded holds the tables that the transaction has made. -/
theorem transact_ok {d : Database} {s : Backend} {body : Transaction α} {a : α}
    (h : ((d.transact body).1, Backend.database (d.transact body).2) = (.ok a, s)) :
    ∃ t, Transaction.exec body d.access d.tables = .ok (a, t) ∧ s = .database { d with tables := t } := by
  rcases d.transact_cases body with ⟨e, he⟩ | ⟨b, t, hx, he⟩
  · rw [he] at h
    cases h
  · rw [he] at h
    cases h
    exact ⟨t, hx, rfl⟩

theorem contents_transact (d : Database) {body : Transaction α} {key : String} (h : Transaction.Keeps key body) :
    (d.transact body).2.tables.contents key = d.tables.contents key := by
  rcases d.transact_cases body with ⟨e, he⟩ | ⟨a, t, hx, he⟩
  · rw [he]
  · rw [he]; exact h _ _ _ _ hx

theorem access_transact (d : Database) (body : Transaction α) : (d.transact body).2.access = d.access := by
  rcases d.transact_cases body with ⟨e, he⟩ | ⟨a, t, hx, he⟩ <;> rw [he]

theorem query_closed {d : Database} (h : d.access = .closed) (read : Tables → Except Error α) :
    d.query read = (.error .database, d) := if_pos h

theorem query_open {d : Database} (h : d.access ≠ .closed) (read : Tables → Except Error α) :
    d.query read = (read d.tables, d) := if_neg h

theorem query_snd (d : Database) (read : Tables → Except Error α) : (d.query read).2 = d := by
  unfold query
  split <;> rfl

theorem contents_perform (d : Database) (r : Request) {key : String} (h : key ∉ r.writes) :
    (d.perform r).2.tables.contents key = d.tables.contents key := by
  cases r with
  | get | scan | getField | getFields | getAll | scanFields => rw [perform, query_snd]
  | set k value => exact d.contents_transact (Transaction.keeps_setText value (by simpa [Request.writes] using h))
  | delete keys => exact d.contents_transact (Transaction.keeps_deleteKeys h)
  | deleteFields k fields =>
    exact d.contents_transact (Transaction.keeps_deleteFields fields (by simpa [Request.writes] using h))
  | increment k field delta =>
    exact d.contents_transact (Transaction.keeps_increment field delta (by simpa [Request.writes] using h))
  | apply commands =>
    cases commands with
    | nil => rfl
    | cons command rest => exact d.contents_transact (Transaction.keeps_apply h)

theorem access_perform (d : Database) (r : Request) : (d.perform r).2.access = d.access := by
  cases r with
  | get | scan | getField | getFields | getAll | scanFields => rw [perform, query_snd]
  | set | delete | deleteFields | increment => exact d.access_transact _
  | apply commands =>
    cases commands with
    | nil => rfl
    | cons command rest => exact d.access_transact _

/-- A request that fails changes nothing. -/
theorem perform_error {d : Database} {r : Request} {e : Error} (h : (d.perform r).1 = .error e) :
    (d.perform r).2 = d := by
  have ht : ∀ {α : Type} {body : Transaction α}, (d.transact body).1 = .error e → (d.transact body).2 = d := by
    intro α body hb
    rcases d.transact_cases body with ⟨e', he⟩ | ⟨a, t, hx, he⟩
    · rw [he]
    · rw [he] at hb; cases hb
  cases r with
  | get | scan | getField | getFields | getAll | scanFields => rw [perform, query_snd]
  | set | delete | deleteFields | increment => exact ht h
  | apply commands =>
    cases commands with
    | nil => rfl
    | cons command rest => exact ht h

end Database

namespace Keyspace

theorem perform_error {s : Keyspace} {r : Request} {e : Error} (hr : r.operation ≠ .apply)
    (h : (s.perform r).1 = .error e) : (s.perform r).2 = s := by
  cases r with
  | get | scan | getField | getFields | getAll | scanFields => rfl
  | set | delete => cases h
  | deleteFields key fields =>
    rw [perform, deleteFields] at h ⊢
    split at h
    · rfl
    · cases h
  | increment key field delta =>
    rw [perform, increment_eq] at h ⊢
    by_cases hf : Fillable (s.get? key)
    · rw [if_pos hf] at h ⊢
      cases hsum : summed (s.get? key) field delta with
      | error e' => rfl
      | ok n =>
        rw [hsum] at h
        cases h
    · rw [if_neg hf]
  | apply commands => exact absurd rfl hr

end Keyspace

namespace Backend

/-- A request leaves the contents of every key alone that it does not write. -/
theorem contents_perform (s : Backend) (r : Request) {key : String} (h : key ∉ r.writes) :
    (s.perform r).2.contents key = s.contents key := by
  cases s with
  | memory s => exact congrArg Contents.value (s.get?_perform r h)
  | database d => exact d.contents_perform r h

theorem access_perform (s : Backend) (r : Request) : (s.perform r).2.access = s.access := by
  cases s with
  | memory s => rfl
  | database d => exact d.access_perform r

/-- A request that fails changes nothing, unless some of its commands have been run before the one that fails. -/
theorem perform_error {s : Backend} {r : Request} {e : Error} (hr : r.operation ≠ .apply)
    (h : (s.perform r).1 = .error e) : (s.perform r).2 = s := by
  cases s with
  | memory s => exact congrArg memory (Keyspace.perform_error hr h)
  | database d => exact congrArg database (Database.perform_error h)

theorem admits_perform (s : Backend) (r : Request) : (s.perform r).2.admits = s.admits := by
  cases s <;> rfl

theorem perform_read {s : Backend} {r : Request} {key : String} (h : r.reads? = some key) : (s.perform r).2 = s := by
  cases s with
  | memory s =>
    cases r with
    | get | getField | getFields | getAll | scanFields => rfl
    | set | delete | scan | deleteFields | increment | apply => cases h
  | database d =>
    cases r with
    | get | getField | getFields | getAll | scanFields => exact congrArg database (d.query_snd _)
    | set | delete | scan | deleteFields | increment | apply => cases h

end Backend

/-! ### Reads -/

theorem Keyspace.answer_congr {s s' : Keyspace} {r : Request} {key : String} (hr : r.reads? = some key)
    (h : s.get? key = s'.get? key) : (s.perform r).1 = (s'.perform r).1 := by
  have hh : s.hashAt key = s'.hashAt key := by rw [hashAt_eq, hashAt_eq, h]
  cases r with
  | get k =>
    cases hr
    show s.getText key = s'.getText key
    rw [getText, getText, h]
  | getField k field => cases hr; exact congrArg (·.map (·.get? field)) hh
  | getFields k fields => cases hr; exact congrArg (·.map fun hash : Hash => fields.map hash.get?) hh
  | getAll k => cases hr; exact hh
  | scanFields k cursor count =>
    cases hr
    show s.scanFields key cursor count = s'.scanFields key cursor count
    rw [scanFields, scanFields, hh]
  | set | delete | scan | deleteFields | increment | apply => cases hr

theorem Database.query_congr {α : Type} {d d' : Database} {f f' : Tables → Except Error α}
    (ha : d.access = d'.access) (h : f d.tables = f' d'.tables) : (d.query f).1 = (d'.query f').1 := by
  rw [query, query, ha]
  split
  · rfl
  · exact h

theorem Database.answer_congr {d d' : Database} {r : Request} {key : String} (hr : r.reads? = some key)
    (ha : d.access = d'.access) (h : d.tables.contents key = d'.tables.contents key) :
    (d.perform r).1 = (d'.perform r).1 := by
  obtain ⟨hk, hf⟩ := Contents.rows.inj h
  have hkind : d.tables.kindOf? key = d'.tables.kindOf? key := congrArg (·.map (·.kind)) hk
  have hfield : d.tables.fieldOf? key = d'.tables.fieldOf? key := by
    funext field
    rw [Tables.fieldOf?, Tables.fieldOf?, ← Tables.get?_fieldsOf, ← Tables.get?_fieldsOf, hf]
  cases r with
  | get k =>
    cases hr
    refine query_congr ha ?_
    rw [getText, getText, hkind, Tables.textOf?, Tables.textOf?, hk]
  | getField k field =>
    cases hr
    refine query_congr ha ?_
    rw [ofHash, ofHash, hkind, hfield]
  | getFields k fields =>
    cases hr
    refine query_congr ha ?_
    rw [ofHash, ofHash, hkind, hfield]
  | getAll k =>
    cases hr
    refine query_congr ha ?_
    rw [ofHash, ofHash, hkind, hf]
  | scanFields k cursor count =>
    cases hr
    refine query_congr ha ?_
    rw [ofHash, ofHash, hkind, Tables.scanFields, Tables.scanFields, hf]
  | set | delete | scan | deleteFields | increment | apply => cases hr

namespace Backend

/-- The answer to a read depends on the contents of its key only. -/
theorem answer_congr {s s' : Backend} {r : Request} {key : String} (hr : r.reads? = some key)
    (ha : s.access = s'.access) (hc : s.contents key = s'.contents key) : (s.perform r).1 = (s'.perform r).1 := by
  cases s with
  | memory s =>
    cases s' with
    | memory s' => exact Keyspace.answer_congr hr (Contents.value.inj hc)
    | database d => cases hc
  | database d =>
    cases s' with
    | memory s' => cases hc
    | database d' => exact Database.answer_congr hr ha hc

end Backend
end Store
end ShareIndex
