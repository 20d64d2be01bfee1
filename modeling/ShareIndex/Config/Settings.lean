import ShareIndex.Datum
import ShareIndex.Store.Location
import ShareIndex.Text.Decimal

/-!
# ShareIndex.Config.Settings

The settings of the program.

* `Settings`          — all settings; `Settings.default` holds where nothing else is said.
* `Layers`            — tables of settings, from the lowest to the highest.
* `Layers.setting?`   — the value of a setting: the highest layer that mentions it decides.
* `Settings.ofLayers?` — the settings of layers, if each value is of the right kind.
* `Settings.validate` — whether the program can work with the settings.
-/

namespace ShareIndex
namespace Config

structure Settings where
  /-- The folder whose folders are shared. -/
  workFolder : FilePath
  /-- How many folders are converted at a time. -/
  workers : Nat
  /-- The public address that pages start their links with. -/
  url : String
  store : Store.Location
  /-- Where counters are dumped when no file is named. -/
  dumpFile : FilePath
  /-- In seconds. -/
  indexTimeout : Option Nat
  /-- The seconds between two indexes of a daemon. -/
  interval : Option Nat
  /-- Names of files that are not offered. -/
  skipFiles : List String
  deriving DecidableEq, Repr

def Settings.default : Settings :=
  { workFolder := ⟨"."⟩
    workers := 4
    url := "http://localhost"
    store := .memory
    dumpFile := ⟨"counters.json"⟩
    indexTimeout := none
    interval := none
    skipFiles := [] }

/-! ### Failures -/

/-- What a value that cannot work was given for. -/
inductive Subject where
  | fileExtension
  | workFolder
  | workers
  | dumpFile
  | indexTimeout
  | interval
  deriving DecidableEq, Repr

def Subject.name : Subject → String
  | fileExtension => "config file extension"
  | workFolder => "work_dir"
  | workers => "workers"
  | dumpFile => "dump_file"
  | indexTimeout => "index_timeout_secs"
  | interval => "interval_secs"

inductive Error where
  | load
  | invalid (subject : Subject)
  deriving DecidableEq, Repr

def Error.message : Error → String
  | load => "could not load configuration"
  | invalid subject => "invalid configuration value: " ++ subject.name

/-! ### Values -/

def text? : Datum → Option String
  | .text s => some s
  | _ => none

def path? (d : Datum) : Option FilePath := (text? d).map FilePath.mk

/-- A natural number of 64 bits. -/
def count? : Datum → Option Nat
  | .integer n => if 0 ≤ n ∧ n < Decimal.wordLimit then some n.toNat else none
  | _ => none

def optionalCount? : Datum → Option (Option Nat)
  | .absent => some none
  | d => (count? d).map some

def texts? : Datum → Option (List String)
  | .list items => items.mapM text?
  | _ => none

def location? (d : Datum) : Option Store.Location := (text? d).bind Store.Location.parse?

/-! ### Layers -/

/-- Tables of settings, the lowest first. -/
abbrev Layers := List Datum

/-- The value in the highest layer that mentions a setting. -/
def Layers.setting? (layers : Layers) (key : String) : Option Datum := layers.reverse.findSome? (Datum.entry? key)

/-- A value of the right kind, or the default of a setting that is not mentioned. -/
def Layers.read? {α : Type} (layers : Layers) (key : String) (read : Datum → Option α) (default : α) : Option α :=
  match layers.setting? key with
  | none => some default
  | some d => read d

namespace Settings

def ofLayers? (layers : Layers) : Option Settings := do
  return {
    workFolder := ← layers.read? "work_dir" path? default.workFolder
    workers := ← layers.read? "workers" count? default.workers
    url := ← layers.read? "url" text? default.url
    store := ← layers.read? "store" location? default.store
    dumpFile := ← layers.read? "dump_file" path? default.dumpFile
    indexTimeout := ← layers.read? "index_timeout_secs" optionalCount? default.indexTimeout
    interval := ← layers.read? "interval_secs" optionalCount? default.interval
    skipFiles := ← layers.read? "skip_files" texts? default.skipFiles }

/-- The first setting that cannot work. -/
def fault? (s : Settings) : Option Subject :=
  if s.workFolder.text = "" then some .workFolder
  else if s.workers = 0 then some .workers
  else if s.dumpFile.text = "" then some .dumpFile
  else if s.indexTimeout = some 0 then some .indexTimeout
  else if s.interval = some 0 then some .interval
  else none

def validate (s : Settings) : Except Error Settings :=
  match s.fault? with
  | some subject => .error (.invalid subject)
  | none => .ok s

end Settings
end Config
end ShareIndex
