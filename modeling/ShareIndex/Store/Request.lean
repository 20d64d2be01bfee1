import ShareIndex.OrderedMap
import ShareIndex.Store.Pattern
import ShareIndex.Text.Decimal

/-!
# ShareIndex.Store.Request

What a key-value store is asked, and what it answers. A key holds a text or a hash, which is a non-empty
map from fields to texts.

* `Command`       — a write that can be part of a batch.
* `Request`       — one request; `Request.Answer` is the type of its answer.
* `Page`          — a part of an enumeration, with the cursor of the next part.
* `Store.Error`   — why a request fails.
* `KeyValueStore` — the states of a store and what a request does to them.
-/

namespace ShareIndex
namespace Store

inductive Command where
  | set (key value : String)
  | setField (key field value : String)
  | delete (key : String)
  | deleteField (key field : String)
  deriving DecidableEq, Repr

/-- The kinds of requests, by the names they have in reports. -/
inductive Operation where
  | get | set | delete | scan | getField | getFields | getAll | scanFields | deleteFields | increment | apply
  deriving DecidableEq, Repr

namespace Operation

def name : Operation → String
  | get => "Get"
  | set => "Set"
  | delete => "Delete"
  | scan => "Scan"
  | getField => "HGet"
  | getFields => "HMGet"
  | getAll => "HGetAll"
  | scanFields => "HScan"
  | deleteFields => "HDel"
  | increment => "HIncrBy"
  | apply => "Apply"

def all : List Operation :=
  [get, set, delete, scan, getField, getFields, getAll, scanFields, deleteFields, increment, apply]

def ofName? (name : String) : Option Operation := all.find? (·.name == name)

end Operation

inductive Error where
  /-- The database cannot be reached or used. -/
  | database
  /-- The tables of a new database cannot be made. -/
  | migration
  | wrongType (key : String)
  | notInteger
  | overflow
  /-- A hash that was just created is missing. -/
  | vanished
  | injected (operation : Operation)
  | injectedAfter (commands : Nat)
  deriving DecidableEq, Repr

def Error.message : Error → String
  | database => "database error"
  | migration => "database migration error"
  | wrongType key => s!"wrong type of value held at key: {key}"
  | notInteger => "invalid store data: hash value is not an integer"
  | overflow => "invalid store data: increment overflow"
  | vanished => "invalid store data: hash key vanished during write"
  | injected operation => s!"backend error: injected {operation.name} failure"
  | injectedAfter commands =>
    s!"backend error: injected {Operation.name .apply} failure after {Decimal.renderWord commands} commands"

/-- Some items of an enumeration, and the cursor after which the next page starts, if there may be one. -/
structure Page (α : Type) where
  items : List α
  next : Option String
  deriving DecidableEq, Repr

/-- A page that was asked for `count` items; it is the last one when it has fewer. -/
def Page.ofItems {α : Type} (items : List α) (count : Nat) (cursorOf : α → String) : Page α :=
  ⟨items, if count ≤ items.length then items.getLast?.map cursorOf else none⟩

abbrev Hash := OrderedMap String String

inductive Request where
  | get (key : String)
  | set (key value : String)
  | delete (keys : List String)
  | scan (cursor : Option String) (pattern : Pattern) (count : Nat)
  | getField (key field : String)
  | getFields (key : String) (fields : List String)
  | getAll (key : String)
  | scanFields (key : String) (cursor : Option String) (count : Nat)
  | deleteFields (key : String) (fields : List String)
  | increment (key field : String) (delta : Int64)
  | apply (commands : List Command)
  deriving DecidableEq, Repr

namespace Request

@[reducible] def Answer : Request → Type
  | get _ => Option String
  | set _ _ => Unit
  | delete _ => Nat
  | scan _ _ _ => Page String
  | getField _ _ => Option String
  | getFields _ _ => List (Option String)
  | getAll _ => Hash
  | scanFields _ _ _ => Page (String × String)
  | deleteFields _ _ => Nat
  | increment _ _ _ => Int
  | apply _ => Unit

def operation : Request → Operation
  | get _ => .get
  | set _ _ => .set
  | delete _ => .delete
  | scan _ _ _ => .scan
  | getField _ _ => .getField
  | getFields _ _ => .getFields
  | getAll _ => .getAll
  | scanFields _ _ _ => .scanFields
  | deleteFields _ _ => .deleteFields
  | increment _ _ _ => .increment
  | apply _ => .apply

end Request

/-- The outcome of a request: its answer or an error, and the state that it leaves. -/
abbrev Outcome (S α : Type) := Except Error α × S

class KeyValueStore (S : Type) where
  perform : S → (r : Request) → Outcome S r.Answer
  /-- How many keys and fields there are; no enumeration has more items. -/
  extent : S → Nat

/-- The sum, if it is an integer of 64 bits. -/
def addWithin (current : Int) (delta : Int64) : Except Error Int :=
  if Decimal.InRange (current + delta.toInt) then .ok (current + delta.toInt) else .error .overflow

/-- The integer that a field holds; a missing field counts as zero. -/
def currentValue : Option String → Except Error Int
  | none => .ok 0
  | some text =>
    match Decimal.parseWord text with
    | some n => .ok n
    | none => .error .notInteger

end Store
end ShareIndex
