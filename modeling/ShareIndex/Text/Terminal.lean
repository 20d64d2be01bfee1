/-!
# ShareIndex.Text.Terminal

Text for a terminal holds control sequences among the characters to show.

* `Mode`   — where in a control sequence a reader is.
* `change` — the mode after a character, and whether the character is shown.
* `Reader` — the mode together with whether the last character was shown.
* `plain`  — the characters that are shown.

A run of shown characters is read as if no sequence were open. The character that ends the run is
read once more in the mode that was open, so a line break inside of a sequence is shown and the
sequence goes on at the next character that is not shown by itself.
-/

namespace ShareIndex
namespace Text
namespace Terminal

inductive Mode where
  | ground
  /-- After the escape character. -/
  | escape
  /-- After the escape character and some intermediate characters. -/
  | intermediate
  /-- In a sequence of parameters with a final letter. -/
  | control
  /-- Before the first letter of a device control string. -/
  | device
  /-- In a string that a bell does not end. -/
  | string
  /-- In a string that a bell ends too. -/
  | command
  deriving DecidableEq, Repr

/-- The layout characters: tab, line feed, form feed and carriage return. -/
def isLayout (c : Char) : Bool := c = '\t' || c = '\n' || c = '\x0c' || c = '\r'

def isAscii (c : Char) : Bool := c.toNat < 0x80

/-- The byte that terminates a string. It counts inside of the encoding of a character too. -/
def terminator : UInt8 := 0x9C

/-- The mode that follows the escape character and `c`; controls do not end it. -/
def opened (c : Char) : Mode :=
  let n := c.toNat
  if n < 0x20 || n = 0x7F then .escape
  else if n < 0x30 then .intermediate
  else if c = '[' then .control
  else if c = ']' then .command
  else if c = 'P' then .device
  else if c = 'X' || c = '^' || c = '_' then .string
  else .ground

/-- The mode after a character and whether it is shown. Only `ground` takes characters beyond ASCII. -/
def change (mode : Mode) (c : Char) : Mode × Bool :=
  if c = '\x18' || c = '\x1a' then (.ground, false)
  else if c = '\x1b' then (.escape, false)
  else
    match mode with
    | .ground => (.ground, isLayout c || (0x20 ≤ c.toNat && c ≠ '\x7f'))
    | .escape => if isAscii c then (opened c, isLayout c) else (.escape, false)
    | .intermediate => (if '0' ≤ c && c ≤ '~' then .ground else .intermediate, isLayout c)
    | .control => (if '@' ≤ c && c ≤ '~' then .ground else .control, isLayout c)
    | .device => (if '@' ≤ c && c ≤ '~' then .string else .device, false)
    | .string => (if (String.utf8EncodeChar c).contains terminator then .ground else .string, false)
    | .command => (if c = '\x07' then .ground else .command, false)

structure Reader where
  mode : Mode := .ground
  /-- The last character was shown. -/
  shows : Bool := false
  deriving DecidableEq, Repr

/-- The open mode after a character that was read as in `ground`; a character beyond ASCII closes every sequence. -/
def Reader.resume (r : Reader) (c : Char) : Mode :=
  if c = '\x18' || c = '\x1a' || ! isAscii c then .ground
  else if c = '\x1b' then .escape
  else r.mode

/-- The reader after a character, which it shows when `shows` holds afterwards. -/
def Reader.read (r : Reader) (c : Char) : Reader :=
  let start (mode : Mode) : Reader :=
    let (next, shown) := change mode c
    ⟨if shown && ! isAscii c then .ground else next, shown⟩
  if ! r.shows then start r.mode
  else if (change .ground c).2 then ⟨r.resume c, true⟩
  else start (r.resume c)

def Reader.plain (r : Reader) : List Char → List Char
  | [] => []
  | c :: cs =>
    let next := r.read c
    if next.shows then c :: next.plain cs else next.plain cs

/-- The text without its control sequences. -/
def plain (text : String) : String := String.ofList (Reader.plain {} text.toList)

/-- Puts a text in bold. -/
def bold (text : String) : String := "\x1b[1m" ++ text ++ "\x1b[0m"

end Terminal
end Text
end ShareIndex
