import ShareIndex.Store.Backend
import ShareIndex.Proofs.Text.Decimal

/-!
# ShareIndex.Proofs.Store.Contents

What a store holds under one key, for both backends.

* `stored`            — a hash as the value of a key, if it has fields.
* `Contents`          — a value in memory, or the rows of a key in a database.
* `Contents.value?`   — the value that the contents stand for.
* `Backend.contents`, `Backend.value?`, `Backend.keys`, `Backend.access` — the view of a store.
* `Request.writes`    — the keys that a request may change.
* `Request.reads?`    — the only key that the answer of a request depends on, if there is one.
* `Keyspace.increment_eq` — an increment that fails leaves no hash behind, although it puts an empty one first.
-/

namespace ShareIndex
namespace Store

/-- A hash that is written to; nothing counts as an empty hash. -/
def hashOf : Option Value → Hash
  | some (.hash fields) => fields
  | _ => ∅

/-- Whether a value can be written to as a hash. -/
def Fillable : Option Value → Prop
  | some (.text _) => False
  | _ => True

instance : DecidablePred Fillable := fun
  | none => inferInstanceAs (Decidable True)
  | some (.hash _) => inferInstanceAs (Decidable True)
  | some (.text _) => inferInstanceAs (Decidable False)

/-- A hash as the value of a key: nothing, if it has no fields. -/
def stored (hash : Hash) : Option Value := if hash.isEmpty then none else some (.hash hash)

theorem fillable_stored (hash : Hash) : Fillable (stored hash) := by
  unfold stored
  split <;> trivial

theorem hashOf_stored (hash : Hash) : hashOf (stored hash) = hash := by
  unfold stored
  split
  · rename_i he
    have hnone := OrderedMap.isEmpty_iff_get?.mp he
    exact OrderedMap.ext_get? fun f => (hnone f).symm
  · rfl

inductive Contents where
  | value (v : Option Value)
  | rows (row : Option KeyRow) (fields : Hash)
  deriving DecidableEq

/-- A text without a value is read as if it were empty. -/
def Contents.value? : Contents → Option Value
  | value v => v
  | rows none _ => none
  | rows (some ⟨.text, v⟩) _ => some (.text (v.getD ""))
  | rows (some ⟨.hash, _⟩) fields => some (.hash fields)

def Command.key : Command → String
  | .set key _ | .setField key _ _ | .delete key | .deleteField key _ => key

namespace Request

def writes : Request → List String
  | set key _ | deleteFields key _ | increment key _ _ => [key]
  | delete keys => keys
  | apply commands => commands.map Command.key
  | get _ | scan _ _ _ | getField _ _ | getFields _ _ | getAll _ | scanFields _ _ _ => []

def reads? : Request → Option String
  | get key | getField key _ | getFields key _ | getAll key | scanFields key _ _ => some key
  | set _ _ | delete _ | scan _ _ _ | deleteFields _ _ | increment _ _ _ | apply _ => none

end Request

namespace Tables

def contents (t : Tables) (key : String) : Contents := .rows (t.keys.get? key) (t.fieldsOf key)

end Tables

namespace Backend

def contents : Backend → String → Contents
  | memory s, key => .value (s.get? key)
  | database d, key => d.tables.contents key

def value? (s : Backend) (key : String) : Option Value := (s.contents key).value?

/-- The keys, in ascending order. -/
def keys : Backend → List String
  | memory s => s.values.keys
  | database d => d.tables.keys.keys

/-- Memory can always be written to. -/
def access : Backend → Access
  | memory _ => .writing
  | database d => d.access

/-- Whether a key is found by a scan for a pattern. -/
def admits : Backend → Pattern → String → Bool
  | memory _, pattern, key => pattern.matches key
  | database _, pattern, key => globMatches pattern.bracketed key

end Backend

/-! ### Sums -/

/-- The sum that an increment stores, if the field holds an integer and the sum is one of 64 bits. -/
def summed (v : Option Value) (field : String) (delta : Int64) : Except Error Int :=
  (currentValue ((hashOf v).get? field)).bind fun current => addWithin current delta

/-- Where there is nothing yet there always is a sum. -/
theorem summed_none (field : String) (delta : Int64) : summed none field delta = .ok delta.toInt := by
  have hzero : summed none field delta = addWithin 0 delta := rfl
  rw [hzero, addWithin, Int.zero_add, if_pos (Decimal.inRange_toInt delta)]

/-! ### Memory -/

namespace Keyspace

theorem get?_put (s : Keyspace) (key : String) (v : Value) (k : String) :
    (s.put key v).get? k = if k = key then some v else s.get? k := OrderedMap.get?_insert _ _ _ _

theorem get?_remove (s : Keyspace) (key k : String) :
    (s.remove key).get? k = if k = key then none else s.get? k := OrderedMap.get?_erase _ _ _

theorem get?_putHash (s : Keyspace) (key : String) (fields : Hash) (k : String) :
    (s.putHash key fields).get? k = if k = key then stored fields else s.get? k := by
  unfold putHash stored
  split
  · rw [get?_remove]
  · rw [get?_put]

theorem get?_deleteKeys (s : Keyspace) (keys : List String) (k : String) :
    (s.deleteKeys keys).2.get? k = if k ∈ keys then none else s.get? k := by
  induction keys generalizing s with
  | nil => simp [deleteKeys]
  | cons key rest ih =>
    simp only [deleteKeys, ih, get?_remove, List.mem_cons]
    by_cases h1 : k ∈ rest <;> by_cases h2 : k = key <;> simp [h1, h2]

theorem hashAt_eq (s : Keyspace) (key : String) :
    s.hashAt key = if Fillable (s.get? key) then .ok (hashOf (s.get? key)) else .error (.wrongType key) := by
  unfold hashAt
  split
  · rename_i h; rw [h]; rfl
  · rename_i h; rw [h]; rfl
  · rename_i h; rw [h]; rfl

theorem put_put (s : Keyspace) (key : String) (v w : Value) : (s.put key v).put key w = s.put key w := by
  refine congrArg Keyspace.mk (OrderedMap.ext_get? fun k => ?_)
  simp only [put, OrderedMap.get?_insert]
  split <;> rfl

/-- A hash that is opened is that of the key. The map is changed by that only if there was nothing at the key, and it is
all the same for what is put there next. -/
theorem openHash_of_fillable {s : Keyspace} {key : String} (h : Fillable (s.get? key)) :
    ∃ opened, s.openHash key = (.ok (hashOf (s.get? key)), opened) ∧ (s.get? key = none ∨ opened = s) ∧
      ∀ v, opened.put key v = s.put key v := by
  rw [openHash]
  cases hv : s.get? key with
  | none => exact ⟨_, rfl, .inl rfl, s.put_put key _⟩
  | some v =>
    cases v with
    | hash fields => exact ⟨s, rfl, .inr rfl, fun _ => rfl⟩
    | text value =>
      rw [hv] at h
      exact h.elim

theorem openHash_of_text {s : Keyspace} {key : String} (h : ¬ Fillable (s.get? key)) :
    s.openHash key = (.error (.wrongType key), s) := by
  rw [openHash]
  cases hv : s.get? key with
  | none => exact absurd (hv ▸ trivial) h
  | some v =>
    cases v with
    | hash fields => exact absurd (hv ▸ trivial) h
    | text value => rfl

theorem get?_openHash (s : Keyspace) (key : String) {k : String} (h : k ≠ key) :
    (s.openHash key).2.get? k = s.get? k := by
  unfold openHash
  split
  · exact (s.get?_put key _ k).trans (if_neg h)
  · rfl
  · rfl

theorem get?_deleteFields (s : Keyspace) (key : String) (fields : List String) {k : String} (h : k ≠ key) :
    (s.deleteFields key fields).2.get? k = s.get? k := by
  unfold deleteFields
  split
  · rfl
  · rw [get?_putHash, if_neg h]

theorem setField_eq (s : Keyspace) (key field value : String) :
    s.setField key field value =
      if Fillable (s.get? key) then (.ok (), s.put key (.hash ((hashOf (s.get? key)).insert field value)))
      else (.error (.wrongType key), s) := by
  rw [setField]
  by_cases hf : Fillable (s.get? key)
  · obtain ⟨opened, ho, -, hput⟩ := openHash_of_fillable hf
    rw [ho, if_pos hf, ← hput]
  · rw [openHash_of_text hf, if_neg hf]

/-- An increment fails before it has opened the hash, or has not changed the map by that: a hash that is put for it has
no field, and the sum from there is the integer that was asked for. -/
theorem increment_eq (s : Keyspace) (key field : String) (delta : Int64) :
    s.increment key field delta =
      if Fillable (s.get? key) then
        match summed (s.get? key) field delta with
        | .error e => (.error e, s)
        | .ok sum => (.ok sum, s.put key (.hash ((hashOf (s.get? key)).insert field (Decimal.renderWord sum))))
      else (.error (.wrongType key), s) := by
  by_cases hf : Fillable (s.get? key)
  · obtain ⟨opened, ho, hsame, hput⟩ := openHash_of_fillable hf
    have hopened : s.increment key field delta =
        match summed (s.get? key) field delta with
        | .error e => (.error e, opened)
        | .ok sum =>
          (.ok sum, opened.put key (.hash ((hashOf (s.get? key)).insert field (Decimal.renderWord sum)))) := by
      rw [increment, ho, summed]
      dsimp only
      cases currentValue ((hashOf (s.get? key)).get? field) with
      | error e => rfl
      | ok current => cases addWithin current delta <;> rfl
    rw [if_pos hf, hopened]
    rcases hsame with hfree | rfl
    · simp only [hfree, summed_none, ← hput]
    · rfl
  · rw [if_neg hf, increment, openHash_of_text hf]

theorem get?_increment (s : Keyspace) (key field : String) (delta : Int64) {k : String} (h : k ≠ key) :
    (s.increment key field delta).2.get? k = s.get? k := by
  have hopened := s.get?_openHash key h
  unfold increment
  split <;> rename_i ho <;> rw [ho] at hopened
  · exact hopened
  · split
    · exact hopened
    · split
      · exact hopened
      · rw [get?_put, if_neg h]
        exact hopened

theorem get?_runCommand (s : Keyspace) (command : Command) {k : String} (h : k ≠ command.key) :
    (s.runCommand command).2.get? k = s.get? k := by
  cases command with
  | set key value => exact (s.get?_put key _ k).trans (if_neg h)
  | setField key field value =>
    rw [runCommand, setField_eq]
    split
    · exact (s.get?_put key _ k).trans (if_neg h)
    · rfl
  | delete key => exact (s.get?_remove key k).trans (if_neg h)
  | deleteField key field =>
    have hd := s.get?_deleteFields key [field] h
    simp only [runCommand]
    split <;> rename_i he <;> rw [he] at hd <;> exact hd

theorem get?_apply (s : Keyspace) (commands : List Command) {k : String}
    (h : k ∉ commands.map Command.key) : (s.apply commands).2.get? k = s.get? k := by
  induction commands generalizing s with
  | nil => rfl
  | cons command rest ih =>
    simp only [List.map_cons, List.mem_cons, not_or] at h
    have hc := s.get?_runCommand command h.1
    simp only [apply]
    split
    · rename_i s' he
      rw [he] at hc
      exact (ih s' h.2).trans hc
    · rename_i s' he
      rw [he] at hc
      exact hc

theorem get?_perform (s : Keyspace) (r : Request) {k : String} (h : k ∉ r.writes) :
    (s.perform r).2.get? k = s.get? k := by
  cases r with
  | get | scan | getField | getFields | getAll | scanFields => rfl
  | set key value => rw [perform, get?_put, if_neg (by simpa [Request.writes] using h)]
  | delete keys => exact (s.get?_deleteKeys keys k).trans (if_neg h)
  | deleteFields key fields => exact s.get?_deleteFields key fields (by simpa [Request.writes] using h)
  | increment key field delta => exact s.get?_increment key field delta (by simpa [Request.writes] using h)
  | apply commands => exact s.get?_apply commands h

end Keyspace
end Store
end ShareIndex
