import ShareIndex.Store.Request
import ShareIndex.Store.Glob

/-!
# ShareIndex.Store.Database

The store that is kept in a database of two tables. `keys` has a row for each key, with its kind and, for
a text, its value; `fields` has a row for each field of a hash, whose key refers to a row of `keys` and
which is deleted with it. Both tables are ordered by their primary keys, byte by byte.

* `Tables`      — the two tables; the first functions on them are single statements.
* `Transaction` — a sequence of statements; one that fails leaves the tables as they were.
* `Database`    — the tables behind a connection, and what the connection may do.
-/

namespace ShareIndex
namespace Store

/-- The primary key of a row of `fields`. -/
structure FieldKey where
  key : String
  field : String
  deriving DecidableEq, Repr

namespace FieldKey

instance : LT FieldKey := ⟨fun a b => a.key < b.key ∨ (a.key = b.key ∧ a.field < b.field)⟩

theorem lt_def {a b : FieldKey} : a < b ↔ a.key < b.key ∨ (a.key = b.key ∧ a.field < b.field) := Iff.rfl

instance : DecidableLT FieldKey := fun _ _ => inferInstanceAs (Decidable (_ ∨ _))

instance : StrictOrder FieldKey where
  irrefl a h := by
    rcases lt_def.mp h with h | ⟨_, h⟩ <;> exact StrictOrder.irrefl _ h
  trans {a b c} h1 h2 := by
    rcases lt_def.mp h1 with h1 | ⟨e1, h1⟩ <;> rcases lt_def.mp h2 with h2 | ⟨e2, h2⟩
    · exact .inl (StrictOrder.trans h1 h2)
    · exact .inl (e2 ▸ h1)
    · exact .inl (e1 ▸ h2)
    · exact .inr ⟨e1.trans e2, StrictOrder.trans h1 h2⟩
  connected {a b} h1 h2 := by
    rw [lt_def] at h1 h2
    have hk : a.key = b.key := StrictOrder.connected (fun h => h1 (.inl h)) (fun h => h2 (.inl h))
    have hf : a.field = b.field :=
      StrictOrder.connected (fun h => h1 (.inr ⟨hk, h⟩)) (fun h => h2 (.inr ⟨hk.symm, h⟩))
    cases a; cases b; simp_all

end FieldKey

inductive Kind where
  | text
  | hash
  deriving DecidableEq, Repr

/-- A row of `keys`; the value is set for texts only. -/
structure KeyRow where
  kind : Kind
  value : Option String
  deriving DecidableEq, Repr

structure Tables where
  keys : OrderedMap String KeyRow
  fields : OrderedMap FieldKey String
  /-- The key of every row of `fields` has a row in `keys`. -/
  references : ∀ k, fields.contains k = true → keys.contains k.key = true
  deriving DecidableEq

namespace Tables

def empty : Tables := ⟨∅, ∅, fun _ h => by cases h⟩

instance : Inhabited Tables := ⟨empty⟩

/-! ### Statements -/

def kindOf? (t : Tables) (key : String) : Option Kind := (t.keys.get? key).map (·.kind)

/-- The value of a key that is a text. -/
def textOf? (t : Tables) (key : String) : Option String :=
  match t.keys.get? key with
  | some ⟨.text, value⟩ => value
  | _ => none

def fieldOf? (t : Tables) (key field : String) : Option String := t.fields.get? ⟨key, field⟩

/-- The rows of the fields of one key, in the order of the fields. -/
def fieldRows (t : Tables) (key : String) : List (String × String) :=
  t.fields.entries.filterMap fun e => if e.1.key = key then some (e.1.field, e.2) else none

theorem ascending_fieldRows (t : Tables) (key : String) : Ascending (t.fieldRows key) := by
  have h := t.fields.ascending
  simp only [fieldRows, Ascending, List.pairwise_filterMap] at h ⊢
  refine h.imp ?_
  intro a b hab x hx y hy
  simp only [Option.ite_none_right_eq_some, Option.some.injEq] at hx hy
  obtain ⟨ha, rfl⟩ := hx
  obtain ⟨hb, rfl⟩ := hy
  rcases FieldKey.lt_def.mp hab with h | ⟨_, h⟩
  · rw [ha, hb] at h; exact absurd h (StrictOrder.irrefl _)
  · exact h

/-- The fields of one key as a map. -/
def fieldsOf (t : Tables) (key : String) : Hash := ⟨t.fieldRows key, t.ascending_fieldRows key⟩

theorem references_insert (t : Tables) (key : String) (row : KeyRow) (k : FieldKey)
    (h : t.fields.contains k = true) : (t.keys.insert key row).contains k.key = true := by
  simp [OrderedMap.contains_insert, t.references k h]

theorem references_filter (t : Tables) (p : FieldKey → String → Bool) (k : FieldKey)
    (h : (t.fields.filter p).contains k = true) : t.keys.contains k.key = true :=
  t.references k (OrderedMap.contains_of_filter h).1

/-- Keeps a row that is already there. -/
def insertHash (t : Tables) (key : String) : Tables :=
  if t.keys.contains key then t
  else { t with keys := t.keys.insert key ⟨.hash, none⟩, references := t.references_insert key _ }

def upsertText (t : Tables) (key value : String) : Tables :=
  { t with keys := t.keys.insert key ⟨.text, some value⟩, references := t.references_insert key _ }

theorem references_insertField (t : Tables) {key : String} (field value : String)
    (hk : t.keys.contains key = true) (k : FieldKey)
    (h : (t.fields.insert ⟨key, field⟩ value).contains k = true) : t.keys.contains k.key = true := by
  rw [OrderedMap.contains_insert, Bool.or_eq_true, decide_eq_true_eq] at h
  rcases h with rfl | h
  · exact hk
  · exact t.references k h

/-- Refused when no row of `keys` has the key. -/
def upsertField (t : Tables) (key field value : String) : Except Error Tables :=
  if h : t.keys.contains key then
    .ok { t with
      fields := t.fields.insert ⟨key, field⟩ value
      references := t.references_insertField field value h }
  else .error .database

def deleteAllFields (t : Tables) (key : String) : Tables :=
  { t with fields := t.fields.filter fun k _ => k.key ≠ key, references := t.references_filter _ }

def deleteField (t : Tables) (key field : String) : Tables :=
  { t with fields := t.fields.erase ⟨key, field⟩, references := t.references_filter _ }

theorem references_cascade (t : Tables) (key : String) (k : FieldKey)
    (h : (t.fields.filter fun k _ => k.key ≠ key).contains k = true) : (t.keys.erase key).contains k.key = true := by
  obtain ⟨hk, _, hne⟩ := OrderedMap.contains_of_filter h
  rw [OrderedMap.contains_erase, t.references k hk, Bool.and_true]
  exact hne

/-- The rows of the fields go with the row of their key. -/
def deleteKey (t : Tables) (key : String) : Tables :=
  if t.keys.contains key then
    ⟨t.keys.erase key, t.fields.filter fun k _ => k.key ≠ key, t.references_cascade key⟩
  else t

/-- Deletes the row of a hash that has no field left. -/
def deleteEmptyHash (t : Tables) (key : String) : Tables :=
  if t.kindOf? key = some .hash ∧ t.fieldRows key = [] then t.deleteKey key else t

def scanKeys (t : Tables) (cursor : Option String) (glob : String) (limit : Nat) : List String :=
  (((t.keys.after cursor).map (·.1)).filter (globMatches glob)).take limit

def scanFields (t : Tables) (key : String) (cursor : Option String) (limit : Nat) : List (String × String) :=
  ((t.fieldsOf key).after cursor).take limit

end Tables

/-! ### Transactions -/

/-- What a connection may do. -/
inductive Access where
  | closed
  | reading
  | writing
  deriving DecidableEq, Repr

/-- Statements that run on the tables; an error discards what they have written. -/
abbrev Transaction := ReaderT Access (StateT Tables (Except Error))

namespace Transaction

/-- Runs a statement that writes. It is refused on a connection for reading, even if it would change nothing. -/
def write (statement : Tables → Except Error Tables) : Transaction Unit := do
  if (← read) = .writing then set (← (statement (← get) : Except Error Tables))
  else throw .database

/-- Whether the key holds a hash; an error if it holds a text. -/
def expectHash (key : String) : Transaction Bool := do
  match (← get).kindOf? key with
  | none => return false
  | some .hash => return true
  | some .text => throw (.wrongType key)

def ensureHash (key : String) : Transaction Unit := do
  write fun t => .ok (t.insertHash key)
  unless ← expectHash key do throw .vanished

def setText (key value : String) : Transaction Unit := do
  write fun t => .ok (t.deleteAllFields key)
  write fun t => .ok (t.upsertText key value)

def upsertField (key field value : String) : Transaction Unit := write fun t => t.upsertField key field value

def setField (key field value : String) : Transaction Unit := do
  ensureHash key
  upsertField key field value

/-- Deletes one key and counts it, if it was there. -/
def deleteKey (key : String) : Transaction Nat := do
  let t ← get
  write fun t => .ok (t.deleteKey key)
  return if t.keys.contains key then 1 else 0

def deleteKeys : List String → Transaction Nat
  | [] => return 0
  | key :: rest => do
    let here ← deleteKey key
    return here + (← deleteKeys rest)

def deleteFieldRows (key : String) : List String → Transaction Nat
  | [] => return 0
  | field :: rest => do
    let t ← get
    write fun t => .ok (t.deleteField key field)
    return (if t.fields.contains ⟨key, field⟩ then 1 else 0) + (← deleteFieldRows key rest)

def deleteFields (key : String) (fields : List String) : Transaction Nat := do
  if ← expectHash key then
    let count ← deleteFieldRows key fields
    write fun t => .ok (t.deleteEmptyHash key)
    return count
  else return 0

def runCommand : Command → Transaction Unit
  | .set key value => setText key value
  | .setField key field value => setField key field value
  | .delete key => do let _ ← deleteKey key
  | .deleteField key field => do let _ ← deleteFields key [field]

def apply : List Command → Transaction Unit
  | [] => return ()
  | command :: rest => do
    runCommand command
    apply rest

def increment (key field : String) (delta : Int64) : Transaction Int := do
  ensureHash key
  let current ← (currentValue ((← get).fieldOf? key field) : Except Error Int)
  let sum ← (addWithin current delta : Except Error Int)
  upsertField key field (Decimal.renderWord sum)
  return sum

end Transaction

structure Database where
  tables : Tables
  access : Access
  deriving DecidableEq

namespace Database

/-- The tables behind a connection that may do everything. -/
def ofTables (tables : Tables) : Database := ⟨tables, .writing⟩

def empty : Database := ofTables .empty

def close (d : Database) : Database := { d with access := .closed }

/-- Leaves what the tables hold as it is. -/
def protect (d : Database) : Database := { d with access := .reading }

/-- Reads, unless the connection is closed. -/
def query {α : Type} (d : Database) (read : Tables → Except Error α) : Outcome Database α :=
  if d.access = .closed then (.error .database, d) else (read d.tables, d)

/-- Runs a transaction, unless the connection is closed: all of it, or nothing. -/
def transact {α : Type} (d : Database) (body : Transaction α) : Outcome Database α :=
  if d.access = .closed then (.error .database, d)
  else
    match (body.run d.access).run d.tables with
    | .ok (a, tables) => (.ok a, { d with tables })
    | .error e => (.error e, d)

def getText (key : String) (t : Tables) : Except Error (Option String) :=
  match t.kindOf? key with
  | none => .ok none
  | some .text => .ok (t.textOf? key)
  | some .hash => .error (.wrongType key)

/-- A read of a hash, with an answer for a key that holds nothing. -/
def ofHash {α : Type} (key : String) (missing : α) (read : Tables → α) (t : Tables) : Except Error α :=
  match t.kindOf? key with
  | none => .ok missing
  | some .hash => .ok (read t)
  | some .text => .error (.wrongType key)

def perform (d : Database) : (r : Request) → Outcome Database r.Answer
  | .get key => d.query (getText key)
  | .set key value => d.transact (Transaction.setText key value)
  | .delete keys => d.transact (Transaction.deleteKeys keys)
  | .scan cursor pattern count =>
    d.query fun t => .ok (.ofItems (t.scanKeys cursor pattern.bracketed count) count id)
  | .getField key field => d.query (ofHash key none fun t => t.fieldOf? key field)
  | .getFields key fields => d.query (ofHash key (fields.map fun _ => none) fun t => fields.map (t.fieldOf? key))
  | .getAll key => d.query (ofHash key ∅ fun t => t.fieldsOf key)
  | .scanFields key cursor count =>
    d.query (ofHash key ⟨[], none⟩ fun t => .ofItems (t.scanFields key cursor count) count (·.1))
  | .deleteFields key fields => d.transact (Transaction.deleteFields key fields)
  | .increment key field delta => d.transact (Transaction.increment key field delta)
  | .apply [] => (.ok (), d)
  | .apply (command :: rest) => d.transact (Transaction.apply (command :: rest))

def extent (d : Database) : Nat := d.tables.keys.size + d.tables.fields.size

instance : KeyValueStore Database := ⟨perform, extent⟩

end Database
end Store
end ShareIndex
