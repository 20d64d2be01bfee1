import ShareIndex.CommandLine.Session

/-!
# ShareIndex.CommandLine.Daemon

The program that keeps running: it indexes when it starts, and indexes and dumps when it is asked to.

* `Signal`        — what it is asked for.
* `Outcome`       — how an index or a dump has ended. A failure does not end the daemon.
* `Daemon.start`  — starts with an index.
* `Daemon.handle` — does what a signal asks for.
-/

namespace ShareIndex
namespace CommandLine

open Index (Scanner)

inductive Signal where
  | index
  | dump
  deriving DecidableEq, Repr

inductive Outcome where
  | published
  | dumped
  /-- A later signal may succeed, also without a change of the work folder. -/
  | indexFailed
  | dumpFailed
  | error
  deriving DecidableEq, Repr

namespace Outcome

def text : Outcome → String
  | published => "published"
  | dumped => "counters dumped"
  | indexFailed => "index failed"
  | dumpFailed => "dump failed"
  | error => "error"

def ofIndex {α : Type} : Except Index.Error α → Outcome
  | .ok _ => published
  | .error e => if e.isRetryable then indexFailed else error

def ofDump {α : Type} : Except Index.Error α → Outcome
  | .ok _ => dumped
  | .error e => if e.isRetryable then dumpFailed else error

end Outcome

structure Daemon where
  session : Session
  scanner : Scanner

namespace Daemon

def handle (d : Daemon) : Signal → Outcome × Daemon
  | .index =>
    let (result, world) := d.scanner.index false d.session.world
    (.ofIndex result, { d with session := { d.session with world } })
  | .dump =>
    let (result, world) := Index.dumpToPath false d.session.settings.dumpFile d.session.world
    (.ofDump result, { d with session := { d.session with world } })

def start (s : Session) : Except Error (Outcome × Daemon) :=
  match scannerOf s.settings with
  | .error e => .error e
  | .ok scanner => .ok (handle ⟨s, scanner⟩ .index)

/-- The files that the daemon sees. -/
def files (d : Daemon) : FileTree := d.session.world.files

def setFiles (d : Daemon) (files : FileTree) : Daemon :=
  { d with session := { d.session with world := { d.session.world with files } } }

/-- The files after the daemon has been told to end. -/
def stop (d : Daemon) : FileTree := d.session.files

end Daemon
end CommandLine
end ShareIndex
