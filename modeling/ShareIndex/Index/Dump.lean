import ShareIndex.Index.Cycle
import ShareIndex.Json.Writer

/-!
# ShareIndex.Index.Dump

The counters of all active downloads as JSON: a list with each download on a line of its own.

* `Sink`          — takes bytes, all of them or up to a limit.
* `Sink.writeAll` — the dump of what an enumeration of the counters has given.
* `dump`          — dumps into a sink.
* `Disk`          — what the file system has to do for a dump into a file, and may refuse.
* `dumpToPath`    — dumps into a draft, which takes the place of the file when the whole dump has succeeded.
-/

namespace ShareIndex
namespace Index

open Repository (allCounters Shared)
open Share (DownloadCounters FileCounter)
open Store (KeyValueStore)

/-! ### Text -/

def fileDatum (c : FileCounter) : Datum :=
  .table [("id", .text c.id), ("name", .text c.name), ("path", .text c.url), ("counter", .integer c.counter)]

def downloadDatum (c : DownloadCounters) : Datum :=
  .table [("id", .text c.id), ("path", .text c.path), ("files", .list (c.files.map fileDatum))]

def line (c : DownloadCounters) : List Char := Json.write (downloadDatum c) ++ ['\n']

def listStart : List Char := ['[', '\n']

def listEnd : List Char := [']']

/-- The line of a download, after a comma unless it is the first one. -/
def item (first : Bool) (c : DownloadCounters) : List Char := if first then line c else ',' :: line c

def items : List DownloadCounters → List Char
  | [] => []
  | c :: rest => item true c ++ rest.flatMap (item false)

/-- The text of a whole dump. -/
def dumpText (counters : List DownloadCounters) : List Char := listStart ++ items counters ++ listEnd

/-! ### Sinks -/

/-- Whether a call finds itself cancelled when it has written so many downloads. -/
abbrev Cancellation := Nat → Bool

structure Sink where
  received : List UInt8
  /-- How many bytes are still accepted, if that is limited. -/
  room : Option Nat
  deriving DecidableEq, Repr

namespace Sink

def empty (room : Option Nat) : Sink := ⟨[], room⟩

/-- Takes as many bytes as it accepts; answers whether these were all. -/
def write (s : Sink) (bytes : List UInt8) : Bool × Sink :=
  match s.room with
  | none => (true, { s with received := s.received ++ bytes })
  | some room => (bytes.length ≤ room, ⟨s.received ++ bytes.take room, some (room - bytes.length)⟩)

def writeText (s : Sink) (text : List Char) : Except Error Unit × Sink :=
  match s.write (String.ofList text).toUTF8.data.toList with
  | (true, s) => (.ok (), s)
  | (false, s) => (.error (.dump none), s)

/-- The downloads and the end of the list, when some downloads have been written before. -/
def writeItems (cancelled : Cancellation) (failure : Option Repository.Error) :
    Nat → List DownloadCounters → Sink → Except Error Unit × Sink
  | written, [], s =>
    match failure with
    | none => s.writeText listEnd
    | some e => (.error (if cancelled written then .cancelled none else .dump (some e)), s)
  | written, c :: rest, s =>
    if cancelled written then (.error (.cancelled none), s)
    else
      match s.writeText (item (written == 0) c) with
      | (.error e, s) => (.error e, s)
      | (.ok (), s) => writeItems cancelled failure (written + 1) rest s

/-- A call that is cancelled notices that when the next download, or the failure, has come. -/
def writeAll (cancelled : Cancellation) (counters : List DownloadCounters × Option Repository.Error) (s : Sink) :
    Except Error Unit × Sink :=
  match s.writeText listStart with
  | (.error e, s) => (.error e, s)
  | (.ok (), s) => writeItems cancelled counters.2 0 counters.1 s

end Sink

/-! ### Calls -/

section Calls

variable {S : Type} [KeyValueStore S]

/-- All counters, and the world after they have been read. -/
def World.counters (w : World S) : (List DownloadCounters × Option Repository.Error) × World S :=
  let (counters, shared) := allCounters.run w.shared
  (counters, { w with shared })

/-- Writes all counters to a sink with the given room; answers what the sink has received, too. -/
def stream (cancelled : Cancellation) (room : Option Nat) (w : World S) : (Except Error Unit × List UInt8) × World S :=
  let (counters, w) := w.counters
  let (result, sink) := (Sink.empty room).writeAll cancelled counters
  ((result, sink.received), w)

def dumpInto (cancelled : Bool) (room : Option Nat) (w : World S) : (Except Error Unit × List UInt8) × World S :=
  stream (fun _ => cancelled) room w

/-- Dumps into a sink. -/
def dumpStream (cancelled : Cancellation) (room : Option Nat) (w : World S) :
    (Except Error Unit × List UInt8) × World S :=
  w.alone (.error .alreadyRunning, []) (stream cancelled room)

def dump (cancelled : Bool) (room : Option Nat) (w : World S) : (Except Error Unit × List UInt8) × World S :=
  dumpStream (fun _ => cancelled) room w

end Calls

/-! ### Files -/

/-- The name of the file that a dump is written to at first; its letters are chosen at random. -/
def draftName (letters : String) : String := ".fetchtrack-dump-" ++ letters ++ ".tmp"

/-- What the file system does for a dump, as far as that does not depend on the entries. -/
structure Disk where
  /-- The letters of a name, by the number of attempts that are left after it. -/
  letters : Nat → String
  /-- How many names are tried until one is free. -/
  attempts : Nat
  /-- How many bytes are accepted, if that is limited. -/
  room : Option Nat
  /-- Whether all that has been accepted reaches the disk. -/
  syncs : Bool
  renames : Bool

namespace Disk

/-- Six digits. -/
def numbered (n : Nat) : String :=
  let digits := Decimal.digits n
  String.ofList (List.replicate (6 - digits.length) '0' ++ digits)

def reliable : Disk := ⟨numbered, 1000000, none, true, true⟩

/-- A free place for the draft in a folder. -/
def freePlace? (disk : Disk) (files : FileTree) (folder : Place) : Nat → Option Place
  | 0 => none
  | left + 1 =>
    let place := folder ++ [draftName (disk.letters left)]
    if (files.entry? place).isNone then some place else freePlace? disk files folder left

/-- Where a draft is made; the path from the root to it must not be too long. -/
def draft? (disk : Disk) (files : FileTree) (folder : FilePath) : Option Place :=
  match files.place folder with
  | .error _ => none
  | .ok place =>
    if files.isFolder place ∧ (files.rights place).enter ∧
        (files.absolute (folder.entry (draftName (disk.letters 0)))).text.utf8ByteSize ≤ FileTree.maxPath then
      disk.freePlace? files place disk.attempts
    else none

/-- Puts a complete draft in the place of the file. -/
def persist (disk : Disk) (draft : Place) (path : FilePath) (files : FileTree) : Except Error FileTree :=
  if disk.syncs && disk.renames then (files.rename draft path).mapError fun _ => .dump none else .error (.dump none)

end Disk

section Calls

variable {S : Type} [KeyValueStore S]

/-- The draft is removed when it does not take the place of the file. -/
def dumpToFile (disk : Disk) (cancelled : Cancellation) (path : FilePath) (w : World S) : Except Error Unit × World S :=
  w.alone (.error .alreadyRunning) fun w =>
    match disk.draft? w.files path.folder with
    | none => (.error (.dump none), w)
    | some draft =>
      let ((result, received), w) := stream cancelled disk.room w
      let files := w.files.put draft (.file received)
      match result.bind fun _ => disk.persist draft path files with
      | .error e => (.error e, { w with files := files.erase draft })
      | .ok files => (.ok (), { w with files })

def dumpToPath (cancelled : Bool) (path : FilePath) (w : World S) : Except Error Unit × World S :=
  dumpToFile .reliable (fun _ => cancelled) path w

end Calls

end Index
end ShareIndex
