import ShareIndex.Text.Hexadecimal

/-!
# ShareIndex.Yaml.Tag

The tags of nodes. A tag is a list of bytes: `%` and two hexadecimal digits stand for a byte in it, and such bytes
need not be the text of anything.

* `Tag.ofAddress?` — the bytes of a written address; only the shape of escaped characters is looked at.
* `Tag.localName?` — the name in a tag with an exclamation mark before it.
* `nullTag`, `boolTag`, `intTag`, `floatTag` — the tags that say what a scalar stands for.
-/

namespace ShareIndex
namespace Yaml

structure Tag where
  bytes : List UInt8
  deriving DecidableEq, Repr

namespace Tag

def ofString (s : String) : Tag := ⟨s.toUTF8.data.toList⟩

def append (start suffix : Tag) : Tag := ⟨start.bytes ++ suffix.bytes⟩

/-- A zero byte ends a tag. -/
def cut (t : Tag) : Tag := ⟨t.bytes.takeWhile (· ≠ 0)⟩

/-! ### Escapes -/

/-- How many bytes a character takes, by the first of them. -/
def width? (b : UInt8) : Option Nat :=
  if b < 0x80 then some 1
  else if b < 0xC0 then none
  else if b < 0xE0 then some 2
  else if b < 0xF0 then some 3
  else if b < 0xF8 then some 4
  else none

def isTrailing (b : UInt8) : Bool := 0x80 ≤ b && b < 0xC0

/-- How many bytes of a character are left after one more of them; `pending` were left before. -/
def pendingAfter? (pending : Nat) (b : UInt8) : Option Nat :=
  match pending with
  | 0 => (width? b).map (· - 1)
  | pending + 1 => if isTrailing b then some pending else none

/-- The bytes of an address; `pending` bytes of an escaped character are still to come, and are escaped too. -/
def bytesOf? : (pending : Nat) → List Char → Option (List UInt8)
  | 0, [] => some []
  | _ + 1, [] => none
  | pending, '%' :: a :: b :: cs => do
    let byte := UInt8.ofNat (16 * (← Hexadecimal.digitValue? a) + (← Hexadecimal.digitValue? b))
    return byte :: (← bytesOf? (← pendingAfter? pending byte) cs)
  | _, '%' :: _ => none
  | 0, c :: cs => return (String.singleton c).toUTF8.data.toList ++ (← bytesOf? 0 cs)
  | _ + 1, _ => none

def ofAddress? (cs : List Char) : Option Tag := (bytesOf? 0 cs).map Tag.mk

/-! ### Names -/

def bang : Tag := ofString "!"

/-- The name after the exclamation mark; the mark alone is a name too. -/
def localName? (t : Tag) : Option String :=
  match t.bytes with
  | mark :: rest =>
    if mark = 0x21 then String.fromUTF8? ⟨(if rest.isEmpty then [mark] else rest).toArray⟩ else none
  | [] => none

/-- Whether a tag has an exclamation mark before it. -/
def isLocal (t : Tag) : Bool := t.bytes.head? == some 0x21

end Tag

def nullTag : Tag := .ofString "tag:yaml.org,2002:null"

def boolTag : Tag := .ofString "tag:yaml.org,2002:bool"

def intTag : Tag := .ofString "tag:yaml.org,2002:int"

def floatTag : Tag := .ofString "tag:yaml.org,2002:float"

end Yaml
end ShareIndex
