import ShareIndex.FileTree
import ShareIndex.Store.Address

/-!
# ShareIndex.Store.DatabaseFile

Databases in files.

* `resolve` — the place that a path names. A `..` takes back the segment before it, whether or not that leads
  to a folder, and links are put in the place of their names.
* `connect` — opens a database, together with the files as they are afterwards.
* `persist` — what the files hold after the database has changed.
-/

namespace ShareIndex
namespace Store

/-! ### Places -/

/-- How many links are put in the place of their names. -/
def maxLinks : Nat := 201

/-- The longest path from the root to a database, in bytes. -/
def maxPlace : Nat := 512

/-- What the names of the files beside a database add to its name, at most. -/
def companionLength : Nat := "-journal".length

/-- The length of the path from the root to a place. -/
def pathLength (place : Place) : Nat := place.foldl (fun n name => n + 1 + name.utf8ByteSize) 0

/-- Whether a place may have one below it: it is a folder that may be entered, or nothing yet. -/
def isOpenEnded (files : FileTree) (place : Place) : Bool :=
  match files.entry? place with
  | none => true
  | some .folder => (files.rights place).enter
  | _ => false

/-- The place to which segments lead from another one; nothing needs to be there. -/
def resolveFrom (files : FileTree) (links : Nat) (place : Place) : List (List Char) → Option Place
  | [] => some place
  | segment :: rest =>
    let next := place ++ [String.ofList segment]
    if segment = [] ∨ segment = ['.'] then resolveFrom files links place rest
    else if segment = ['.', '.'] then resolveFrom files links place.up rest
    else if !isOpenEnded files place || !FileTree.validName (String.ofList segment) then none
    else if maxPlace ≤ pathLength next then none
    else
      match files.entry? next with
      | some (.link target) =>
        match links with
        | 0 => none
        | links + 1 => resolveFrom files links (target.start place) (target.segments ++ rest)
      | _ => resolveFrom files links next rest
  termination_by segments => (links, segments.length)

/-- Whether there is room for the names of a database at a place and of the files beside it. -/
def hasRoom (place : Place) : Bool :=
  match place.getLast? with
  | none => false
  | some name =>
    name.utf8ByteSize + companionLength ≤ FileTree.maxName && pathLength place + companionLength ≤ maxPlace

/-- Whether paths may start at a place: it is a folder that is not too far from the root. -/
def isStart (files : FileTree) (place : Place) : Bool := files.isFolder place && decide (pathLength place < maxPlace)

/-- The place of a database in an existing folder. -/
def resolve (files : FileTree) (path : FilePath) : Option Place :=
  if isStart files (path.start files.here) then
    match resolveFrom files maxLinks (path.start files.here) path.segments with
    | none => none
    | some place => if hasRoom place && files.isFolder place.up then some place else none
  else none

/-! ### Connections -/

/-- The tables at a place: those of a database, or none in a file that is as good as empty. -/
inductive Content where
  | missing
  | blank
  | tables (tables : Tables)
  | other

/-- A file of a single byte counts as empty. -/
def contentAt (files : FileTree) (place : Place) : Content :=
  match files.entry? place with
  | none => .missing
  | some entry =>
    if !(files.rights place).read then .other
    else
      match entry with
      | .file [] | .file [_] => .blank
      | .database tables _ => .tables tables
      | _ => .other

/-- Puts a database with these tables at a place. -/
def putTables (files : FileTree) (place : Place) (tables : Tables) : FileTree :=
  files.put place (.database tables (files.databaseSize place tables))

/-- Opens the database at a place. An empty file becomes one, which needs leave to write. A file that is frozen is
made if it is missing, but it stays empty. -/
def connectAt (files : FileTree) (place : Place) (usage : Usage) (frozen : Bool) :
    Except Error Database × FileTree :=
  match contentAt files place, usage with
  | .tables tables, .read => (.ok (Database.ofTables tables).protect, files)
  | .tables tables, _ => (.ok (if frozen then (Database.ofTables tables).protect else .ofTables tables), files)
  | .missing, .create =>
    if frozen then (.error .migration, files.put place (.file []))
    else (.ok .empty, putTables files place .empty)
  | .blank, .create | .blank, .write =>
    if frozen then (.error .migration, files) else (.ok .empty, putTables files place .empty)
  | .blank, .read => (.error (if frozen then .migration else .database), files)
  | _, _ => (.error .database, files)

/-- A database for a connection that finds the tables that the first connection has made. -/
def reached (found : Bool) (d : Database) : Database := if found then d else d.close

/-- Opens a database. The first connection makes the tables, and the next one has to find them: it does not if
connections do not share their memory, if the file itself is now in the way of a path such as `s.db/x/..`, or if what
was made may not be read. -/
def connect (files : FileTree) (path : FilePath) : Except Error Database × FileTree :=
  match Address.of? path with
  | none => (.error .database, files)
  | some (.memory sharing writable) =>
    (if writable then .ok (reached sharing .empty) else .error .migration, files)
  | some (.file path usage frozen) =>
    match resolve files path with
    | none => (.error .database, files)
    | some place =>
      let (result, files) := connectAt files place usage frozen
      (result.map (reached (resolve files path = some place && (files.rights place).read)), files)

/-- Puts the tables of a database into its file, as long as that is there and has other ones. -/
def persistAt (files : FileTree) (place : Place) (d : Database) : FileTree :=
  match files.entry? place with
  | some (.database tables _) => if tables = d.tables then files else putTables files place d.tables
  | _ => files

def persist (files : FileTree) (path : FilePath) (d : Database) : FileTree :=
  match Address.of? path with
  | some (.file path _ _) =>
    match resolve files path with
    | none => files
    | some place => persistAt files place d
  | _ => files

end Store
end ShareIndex
