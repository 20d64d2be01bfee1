import ShareIndex.FilePath
import ShareIndex.Text.Hexadecimal

/-!
# ShareIndex.Store.Address

What the path of a database stands for. A path that begins with `file:` is an address with a path and
options of its own; every other one is the path of a file.

* `Usage`          — what is asked of the file: to read it, to write it, to make it, or to do without it.
* `Keeper`         — who keeps the file.
* `AddressOptions` — the options of an address; a later one may ask for no more than those before it.
* `Address`        — a file, or memory that connections share or have for themselves.
* `Address.of?`    — the address that a path stands for.
-/

namespace ShareIndex
namespace Store

/-- What is asked of the file of a database. -/
inductive Usage where
  | read
  | write
  | create
  | memory
  deriving DecidableEq, Repr

namespace Usage

def ofName? : String → Option Usage
  | "ro" => some read
  | "rw" => some write
  | "rwc" => some create
  | "memory" => some memory
  | _ => none

def rank : Usage → Nat
  | read => 0
  | write => 1
  | create => 2
  | memory => 3

/-- Whether `next` may take the place of `u`. Memory always may, and gives way to everything. -/
def allows (u next : Usage) : Bool := next = memory || next.rank ≤ u.rank

end Usage

/-- Who keeps the file of a database. -/
inductive Keeper where
  | system
  | memory
  deriving DecidableEq, Repr

def Keeper.ofName? (name : String) : Option Keeper :=
  if ["unix", "unix-dotfile", "unix-excl", "unix-none"].contains name then some system
  else if name = "memdb" then some memory
  else none

/-- The values of options that stand for yes: three words in any case, and numbers other than zero. -/
def isYes (value : String) : Bool :=
  let digits := value.toList.takeWhile Char.isDigit
  ["yes", "on", "true"].contains value.toLower || digits.any (· ≠ '0')

structure AddressOptions where
  usage : Usage := .create
  /-- Connections to memory of one name share it. -/
  sharing : Bool := false
  /-- It is missing if nobody has the name that was given last. -/
  keeper : Option Keeper := some .system
  /-- Nobody else changes the file, and neither do connections to it. The first mention decides. -/
  frozen : Option Bool := none
  deriving DecidableEq, Repr

/-- The options after one more of them; options of other names do not count. -/
def AddressOptions.add? (o : AddressOptions) : String × String → Option AddressOptions
  | ("mode", value) => do
    let usage ← Usage.ofName? value
    if o.usage.allows usage then some { o with usage } else none
  | ("cache", "shared") => some { o with sharing := true }
  | ("cache", "private") => some { o with sharing := false }
  | ("cache", _) => none
  | ("vfs", value) => some { o with keeper := Keeper.ofName? value }
  | ("immutable", value) => some { o with frozen := o.frozen.or (isYes value) }
  | _ => some o

inductive Address where
  | file (path : FilePath) (usage : Usage) (frozen : Bool)
  /-- Memory that is lost when the last connection to it is closed. -/
  | memory (sharing writable : Bool)
  deriving DecidableEq, Repr

namespace Address

/-! ### Escapes -/

/-- The bytes of a part of an address; `%` and two hexadecimal digits stand for a byte. -/
def bytes : List Char → List UInt8
  | [] => []
  | '%' :: a :: b :: rest =>
    match Hexadecimal.digitValue? a, Hexadecimal.digitValue? b with
    | some x, some y => UInt8.ofNat (16 * x + y) :: bytes rest
    | _, _ => 0x25 :: bytes (a :: b :: rest)
  | c :: rest => String.utf8EncodeChar c ++ bytes rest

/-- The text of bytes; those that are no text count as the characters of the same numbers. -/
def textOf (content : List UInt8) : String :=
  (String.fromUTF8? ⟨content.toArray⟩).getD (String.ofList (content.map fun b => Char.ofNat b.toNat))

/-- The text of a part of an address; a zero byte ends it. -/
def decode (part : List Char) : String := textOf ((bytes part).takeWhile (· ≠ 0))

/-! ### Parts -/

/-- What comes before the first occurrence of a separator, and what comes after it. -/
def cut (sep : Char) (cs : List Char) : List Char × List Char :=
  (cs.takeWhile (· ≠ sep), (cs.dropWhile (· ≠ sep)).drop 1)

/-- The name and the value of an option; an option without a name does not count. -/
def option? (part : List Char) : Option (String × String) :=
  let (name, value) := cut '=' part
  if decode name = "" then none else some (decode name, decode value)

def options (text : List Char) : List (String × String) := (Text.segments '&' text).filterMap option?

def scheme : List Char := "file:".toList

/-- An address without the host before its path, which can only be this one. -/
def dropHost? (text : List Char) : Option (List Char) :=
  match FilePath.afterStart? ['/', '/'] text with
  | none => some text
  | some rest =>
    let host := rest.takeWhile (· ≠ '/')
    if host = [] ∨ host = "localhost".toList then some (rest.dropWhile (· ≠ '/')) else none

def memoryName : String := ":memory:"

/-- Only memory with a name can be shared. -/
def ofOptions (path : String) (o : AddressOptions) (keeper : Keeper) : Address :=
  let writable := o.usage ≠ .read
  let frozen := o.frozen.getD false
  if path = "" then memory false writable
  else if path = memoryName ∨ o.usage = .memory then memory o.sharing writable
  else if keeper = .memory then memory (o.sharing || path.toList.head? == some separator) (writable && !frozen)
  else file ⟨path⟩ o.usage frozen

/-- Reads what follows the scheme, up to a `#`. -/
def ofUri? (text : List Char) : Option Address := do
  let (path, query) := cut '?' ((← dropHost? text).takeWhile (· ≠ '#'))
  let o ← (options query).foldlM AddressOptions.add? {}
  return ofOptions (decode path) o (← o.keeper)

/-- The address that a path stands for; a character with the number zero has no place in one. -/
def of? (path : FilePath) : Option Address :=
  if path.text.toList.contains '\x00' then none
  else
    match FilePath.afterStart? scheme path.text.toList with
    | some rest => ofUri? rest
    | none => some (ofOptions path.text {} .system)

end Address
end Store
end ShareIndex
