import ShareIndex.CommandLine.Arguments
import ShareIndex.CommandLine.Daemon
import ShareIndex.CommandLine.Help

/-!
# ShareIndex.CommandLine.Launch

The whole program: from the words it is started with to its end, or to a daemon that keeps running.

* `Exit`   — how the program ends, with its exit code and its output.
* `Launch` — what a start leads to.
* `launch` — starts the program.
* `run`    — runs the program to its end; a daemon is told to end after its first index.
-/

namespace ShareIndex
namespace CommandLine

inductive Exit where
  | success (output : List UInt8)
  | failure (e : Error)
  | misuse
  deriving DecidableEq, Repr

namespace Exit

def code : Exit → UInt32
  | success _ => 0
  | failure _ => 1
  | misuse => 2

/-- Only a success has any output. -/
def output : Exit → List UInt8
  | success output => output
  | failure _ | misuse => []

def ofResult : Except Error (List UInt8) → Exit
  | .ok output => success output
  | .error e => failure e

def ofEnding (fallback : Option String) : Ending → Exit
  | .misuse => misuse
  | .help topic => success (bytes (help fallback topic))
  | .version => success (bytes version)

end Exit

inductive Launch where
  | ended (exit : Exit) (files : FileTree)
  | watching (outcome : Outcome) (daemon : Daemon)

/-- The value of the variable that names a file with settings. -/
def Environment.configName (e : Environment) : Option String := e.values.lookup configVariable

def once (s : Session) (job : Job) : Launch :=
  let (result, s) := s.perform job
  .ended (.ofResult result) s.files

def watch (s : Session) : Launch :=
  match Daemon.start s with
  | .error e => .ended (.failure e) s.files
  | .ok (outcome, daemon) => .watching outcome daemon

def perform (s : Session) : Command → Launch
  | .once job => once s job
  | .watch => watch s

def launch (e : Environment) (words : List String) (files : FileTree) : Launch :=
  match parse words e.configName with
  | .error ending => .ended (.ofEnding e.configName ending) files
  | .ok request =>
    match Session.start e request.config files with
    | (.error cause, files) => .ended (.failure cause) files
    | (.ok s, _) => perform s request.command

def run (e : Environment) (words : List String) (files : FileTree) : Exit × FileTree :=
  match launch e words files with
  | .ended exit files => (exit, files)
  | .watching _ daemon => (.success [], daemon.stop)

end CommandLine
end ShareIndex
