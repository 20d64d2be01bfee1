import ShareIndex.CommandLine.Command
import ShareIndex.CommandLine.Error
import ShareIndex.Config.Source
import ShareIndex.Index.Dump
import ShareIndex.Repository.Pointer
import ShareIndex.Store.Backend
import ShareIndex.Store.DatabaseFile
import ShareIndex.Text.Decimal

/-!
# ShareIndex.CommandLine.Session

The program between its start and its end.

* `Environment`     — what the program finds when it starts, besides the files.
* `Session`         — the settings, and the world that jobs act on.
* `Session.start`   — loads the settings, opens the store, and reads which generation is active.
* `Session.perform` — does a job; its output is a text in UTF-8.
* `Session.files`   — the files when the program has ended.
-/

namespace ShareIndex
namespace CommandLine

open Config (Settings)
open Folder (Converter)
open Index (Scanner World)
open Repository (Program)
open Share (Summary)
open Store (Backend Location)

structure Environment where
  /-- The variables by name. -/
  values : List (String × String)
  /-- The folder with the settings of the user, if the user has a home. -/
  userFolder : Option FilePath
  deriving DecidableEq, Repr

structure Session where
  settings : Settings
  world : World Backend

/-! ### Start and end -/

/-- Opens a store, together with the files as they are afterwards. -/
def openStore (files : FileTree) : Location → Except Error Backend × FileTree
  | .memory => (.ok (.memory .empty), files)
  | .database path =>
    match files.makeFolders (path.parent?.getD ⟨""⟩) with
    | (.error _, files) => (.error (.store none), files)
    | (.ok (), files) =>
      match Store.connect files path with
      | (.error e, files) => (.error (.store (some e)), files)
      | (.ok d, files) => (.ok (.database d), files)

/-- The files after a store has been closed. -/
def closeStore (files : FileTree) : Location → Backend → FileTree
  | .database path, .database d => Store.persist files path d
  | _, _ => files

def generation (w : World Backend) : Except Error Unit × World Backend :=
  match Program.run Repository.refresh.run w.shared with
  | (.error e, shared) => (.error (.generation e), { w with shared })
  | (.ok _, shared) => (.ok (), { w with shared })

namespace Session

def files (s : Session) : FileTree := closeStore s.world.files s.settings.store s.world.shared.store

/-- A session with a holder that follows the stored pointer. -/
def ofStore (settings : Settings) (files : FileTree) (store : Backend) : Except Error Session × FileTree :=
  let (result, world) := generation ⟨files, ⟨store, none⟩, .free⟩
  let s : Session := ⟨settings, world⟩
  (result.map fun _ => s, s.files)

def start (e : Environment) (config : Option FilePath) (files : FileTree) : Except Error Session × FileTree :=
  match Config.load files e.userFolder config e.values with
  | .error cause => (.error (.configuration cause), files)
  | .ok settings =>
    match openStore files settings.store with
    | (.error cause, files) => (.error cause, files)
    | (.ok store, files) => ofStore settings files store

end Session

/-! ### Output -/

def bytes (text : String) : List UInt8 := text.toUTF8.data.toList

/-- Two columns. -/
def row (left right : String) : String := left ++ "\t" ++ right ++ "\n"

def summaryRow (s : Summary) : String :=
  row s.id (Decimal.renderWord s.fileCount ++ "\t" ++ s.sourcePath.text)

def summaryRows (summaries : List Summary) : List UInt8 := bytes (String.join (summaries.map summaryRow))

def counterRows (counters : OrderedMap String Int) : List UInt8 :=
  bytes (String.join (counters.entries.map fun (file, counter) => row file (Decimal.renderWord counter)))

def pageLine (page : String) : List UInt8 := bytes (page ++ "\n")

/-! ### Jobs -/

/-- The scan and the conversion that the settings describe. -/
def scannerOf (s : Settings) : Except Error Scanner :=
  match Converter.make s.workFolder s.url with
  | .error e => .error (.conversion e)
  | .ok converter => .ok ⟨s.workFolder, s.workers, converter.skip s.skipFiles, ⟨0, s.indexTimeout.map (· * 1000)⟩⟩

/-- The name of the standard output among files. -/
def standardOutput : FilePath := ⟨"-"⟩

def isStandardOutput (path : FilePath) : Bool := path.components == standardOutput.components

/-- Counts a download of a file; answers the row of its url and the counter. -/
def countHit (file : String) : Repository.Action (List UInt8) := do
  let url ← Repository.fileUrl file
  let counter ← Repository.increment file
  return bytes (row url (Decimal.renderWord counter))

namespace Session

/-- Runs a call on the world; `raise` says what its failure means for the program. -/
def call {ε α : Type} (s : Session) (raise : ε → Error) (f : World Backend → Except ε α × World Backend) :
    Except Error α × Session :=
  let (result, world) := f s.world
  (result.mapError raise, { s with world })

def lookup {α : Type} (s : Session) (action : Repository.Action α) : Except Error α × Session :=
  s.call .lookup fun w =>
    let (result, shared) := action.perform w.shared
    (result, { w with shared })

/-- Gives the scanner of the settings to a call that needs one. -/
def withScanner {α : Type} (s : Session) (f : Scanner → Except Error α × Session) : Except Error α × Session :=
  match scannerOf s.settings with
  | .error e => (.error e, s)
  | .ok scanner => f scanner

def index (s : Session) (scanner : Scanner) : Except Error (List Summary) × Session :=
  s.call .index (scanner.index false)

def dumpToPath (s : Session) (path : FilePath) : Except Error Unit × Session :=
  s.call .dump (Index.dumpToPath false path)

/-- The text of a dump without limits. -/
def dumpText (s : Session) : Except Error (List UInt8) × Session :=
  s.call .dump fun w =>
    let ((result, received), w) := Index.dump false none w
    (result.map fun _ => received, w)

/-- Dumps to the standard output, to the file that is named, or to that of the settings. -/
def dump (s : Session) : Option FilePath → Except Error (List UInt8) × Session
  | none => (s.dumpToPath s.settings.dumpFile).map (·.map fun _ => []) id
  | some path => if isStandardOutput path then s.dumpText else (s.dumpToPath path).map (·.map fun _ => []) id

def perform (s : Session) : Job → Except Error (List UInt8) × Session
  | .index => s.withScanner fun scanner => (s.index scanner).map (·.map summaryRows) id
  | .dump output => s.withScanner fun _ => s.dump output
  | .page download => s.lookup (pageLine <$> Repository.page download)
  | .counters download => s.lookup (counterRows <$> Repository.counters download)
  | .hit file => s.lookup (countHit file)

end Session
end CommandLine
end ShareIndex
