import ShareIndex.Toml.Scalar
import ShareIndex.Toml.Table
import ShareIndex.Toml.Text

/-!
# ShareIndex.Toml.Reader

Reads TOML.

* `value?` — a value: a text, a scalar, a list, or a table on one line.
* `read?`  — the table of a whole document, line by line.
-/

namespace ShareIndex
namespace Toml

mutual

/-- The value at the start of a text, in `depth` lists and tables; `fuel` bounds the number of parts. -/
def value? : (fuel : Nat) → (depth : Nat) → List Char → Option (Datum × List Char)
  | 0, _, _ => none
  | fuel + 1, depth, cs =>
    match cs with
    | '"' :: rest => (quoted? '"' rest).map fun (text, rest) => (.text (String.ofList text), rest)
    | '\'' :: rest => (quoted? '\'' rest).map fun (text, rest) => (.text (String.ofList text), rest)
    | '[' :: rest =>
      if maxDepth ≤ depth + 1 then none
      else (items? fuel (depth + 1) (skipLines rest)).map fun (items, rest) => (.list items, rest)
    | '{' :: rest =>
      if maxDepth ≤ depth + 1 then none
      else
        match skipBlanks rest with
        | '}' :: rest => some (.table [], rest)
        | rest => (pairs? fuel (depth + 1) [] rest).map fun (entries, rest) => (.table (entriesDatum entries), rest)
    | cs => scalar? cs

/-- Items up to the end of their list; a comma may follow the last one. -/
def items? : (fuel : Nat) → (depth : Nat) → List Char → Option (List Datum × List Char)
  | 0, _, _ => none
  | _ + 1, _, ']' :: rest => some ([], rest)
  | fuel + 1, depth, cs => do
    let (item, rest) ← value? fuel depth cs
    match skipLines rest with
    | ',' :: rest =>
      let (items, rest) ← items? fuel depth (skipLines rest)
      return (item :: items, rest)
    | ']' :: rest => return ([item], rest)
    | _ => none

/-- Entries up to the end of their table; all stand on one line, and no comma follows the last one. -/
def pairs? : (fuel : Nat) → (depth : Nat) → Entries → List Char → Option (Entries × List Char)
  | 0, _, _, _ => none
  | fuel + 1, depth, entries, cs => do
    let (key, rest) ← key? cs
    match rest with
    | '=' :: rest =>
      let (value, rest) ← value? fuel depth (skipBlanks rest)
      let entries ← assign? key value .header entries
      match skipBlanks rest with
      | ',' :: rest => pairs? fuel depth entries rest
      | '}' :: rest => return (entries, rest)
      | _ => none
    | _ => none

end

structure Document where
  root : Entries
  /-- The key in the last header. -/
  current : List String

def Document.empty : Document := ⟨[], []⟩

/-- Gives a key its value in the table of the last header. -/
def Document.assign? (d : Document) (key : List String) (value : Datum) : Option Document :=
  (update? false (Toml.assign? key value) d.current .header d.root).map fun root => { d with root }

/-- What a line that is neither empty nor a comment does, and what follows it. -/
def statement? (d : Document) (cs : List Char) : Option (Document × List Char) := do
  match cs with
  | '[' :: '[' :: rest =>
    match ← key? rest with
    | (key, ']' :: ']' :: rest) => return (⟨← openElement? key d.root, key⟩, ← endOfLine? rest)
    | _ => none
  | '[' :: rest =>
    match ← key? rest with
    | (key, ']' :: rest) => return (⟨← openTable? key d.root, key⟩, ← endOfLine? rest)
    | _ => none
  | cs =>
    match ← key? cs with
    | (key, '=' :: rest) =>
      let (value, rest) ← value? (2 * rest.length + 2) 0 (skipBlanks rest)
      return (← d.assign? key value, ← endOfLine? rest)
    | _ => none

/-- Reads line after line; `fuel` bounds the number of lines. -/
def statements? : (fuel : Nat) → Document → List Char → Option Document
  | 0, _, _ => none
  | fuel + 1, d, cs =>
    match skipBlanks cs with
    | [] => some d
    | rest =>
      match endOfLine? rest with
      | some next => statements? fuel d next
      | none =>
        match statement? d rest with
        | none => none
        | some (d, next) => statements? fuel d next

def byteOrderMark : Char := '\ufeff'

/-- The table of a document; a mark of the byte order may stand at its start. -/
def read? (cs : List Char) : Option Datum :=
  let cs := if cs.head? = some byteOrderMark then cs.tail else cs
  (statements? (cs.length + 1) .empty cs).map fun d => .table (entriesDatum d.root)

end Toml
end ShareIndex
