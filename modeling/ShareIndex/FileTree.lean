import ShareIndex.FilePath
import ShareIndex.Store.Database

/-!
# ShareIndex.FileTree

A file system as a value, together with the place in it where a process runs.

* `Entry`     — a file, a symbolic link, a folder, a file that holds a database, or a thing of another kind.
* `Rights`    — what the process may do with what is at a place.
* `FileTree`  — the entries by their place, in the order in which a folder is enumerated.
* `step`, `walk` — where a path leads; `..` and links are followed one segment at a time.
* `Failure`   — why the system refuses.

Places are counted from the root. A path starts there if it begins with a separator, and where the process runs if it
does not; the target of a link starts there or at the folder of the link.
-/

namespace ShareIndex

inductive Entry where
  | file (content : List UInt8)
  | link (target : FilePath)
  | folder
  | database (tables : Store.Tables) (size : Nat)
  /-- A socket, or another thing that can neither be read nor entered. -/
  | special
  deriving DecidableEq

/-- The names on the way down from the root. -/
abbrev Place := List String

/-- The folder that holds a place; the root holds itself. -/
def Place.up (place : Place) : Place := place.dropLast

/-- Where a path starts if it is met at a place. -/
def FilePath.start (path : FilePath) (place : Place) : Place := if path.isAbsolute then [] else place

/-- The path from the root to a place. -/
def FilePath.ofPlace (place : Place) : FilePath := ⟨separator.toString ++ separator.toString.intercalate place⟩

structure Rights where
  /-- Whether the file may be read, or the folder be listed. -/
  read : Bool
  /-- Whether paths may lead through the folder. -/
  enter : Bool
  deriving DecidableEq, Repr

def Rights.all : Rights := ⟨true, true⟩

/-- The size of the file of a database in which nothing is stored: five pages of 4096 bytes. -/
def blankSize : Nat := 20480

@[ext]
structure FileTree where
  nodes : List (Place × Entry)
  /-- Each place has one entry. -/
  nodup : (nodes.map (·.1)).Nodup
  /-- The folder in which the process runs. -/
  here : Place := []
  rights : Place → Rights := fun _ => .all
  /-- How large the file of a database becomes; the tables do not tell, since that depends on how they were filled. -/
  databaseSize : Place → Store.Tables → Nat := fun _ _ => blankSize

namespace FileTree

inductive Failure where
  | notFound
  | notFolder
  | isFolder
  | exists
  | isSpecial
  | tooManyLinks
  | invalidName
  | invalidText
  | denied
  deriving DecidableEq, Repr

def empty : FileTree := { nodes := [], nodup := .nil }

instance : EmptyCollection FileTree := ⟨empty⟩

instance : Inhabited FileTree := ⟨empty⟩

/-- The entry at a place; the root is always a folder. -/
def entry? (t : FileTree) (place : Place) : Option Entry := if place = [] then some .folder else t.nodes.lookup place

def isFolder (t : FileTree) (place : Place) : Bool :=
  match t.entry? place with
  | some .folder => true
  | _ => false

/-- The name that remains of a place below a folder, if it is an entry of that folder. -/
def childName? : Place → Place → Option String
  | [], [name] => some name
  | a :: folder, b :: place => if a = b then childName? folder place else none
  | _, _ => none

/-- The entries of a folder, in the order of the enumeration. -/
def children (t : FileTree) (folder : Place) : List (String × Entry) :=
  t.nodes.filterMap fun node => (childName? folder node.1).map fun name => (name, node.2)

/-! ### Where paths lead -/

/-- Where a path leads: to an entry, or to a name that is free in an existing folder. -/
inductive Found where
  | entry (place : Place)
  | free (place : Place)
  deriving DecidableEq, Repr

def Found.place : Found → Place
  | entry place | free place => place

/-- How many links are followed on the way. -/
def maxLinks : Nat := 40

/-- The longest name of an entry, in bytes. -/
def maxName : Nat := 255

def validName (name : String) : Bool := name.utf8ByteSize ≤ maxName && !name.toList.contains '\x00'

/-- Why a walk cannot go on to a segment from a place. An empty segment only asks for a folder. -/
def obstacle? (t : FileTree) (place : Place) (segment : List Char) : Option Failure :=
  match t.entry? place with
  | none => some .notFound
  | some .folder =>
    if segment = [] then none
    else if !(t.rights place).enter then some .denied
    else if !validName (String.ofList segment) then some .invalidName
    else none
  | some _ => some .notFolder

/-- What the next segment does to a walk: the walk fails, it is over, or it goes on elsewhere. -/
inductive Step where
  | failed (e : Failure)
  | ended (found : Found)
  | next (links : Nat) (place : Place) (segments : List (List Char))
  deriving DecidableEq

/-- Takes a name from a place. A link is followed, but in the last segment only if `follow` says so. -/
def stepName (t : FileTree) (follow : Bool) (links : Nat) (place : Place) (name : String)
    (rest : List (List Char)) : Step :=
  match t.entry? (place ++ [name]) with
  | none => if rest = [] then .ended (.free (place ++ [name])) else .failed .notFound
  | some (.link target) =>
    if rest = [] ∧ !follow then .ended (.entry (place ++ [name]))
    else if target.text = "" then .failed .notFound
    else
      match links with
      | 0 => .failed .tooManyLinks
      | links + 1 => .next links (target.start place) (target.segments ++ rest)
  | some _ => .next links (place ++ [name]) rest

/-- Takes a segment from a place. -/
def step (t : FileTree) (follow : Bool) (links : Nat) (place : Place) (segment : List Char)
    (rest : List (List Char)) : Step :=
  match t.obstacle? place segment with
  | some e => .failed e
  | none =>
    if segment = [] ∨ segment = ['.'] then .next links place rest
    else if segment = ['.', '.'] then .next links place.up rest
    else t.stepName follow links place (String.ofList segment) rest

/-- A link is used up, or a segment. -/
theorem step_decreases {t : FileTree} {follow : Bool} {links left : Nat} {place there : Place} {segment : List Char}
    {rest segments : List (List Char)} (h : t.step follow links place segment rest = .next left there segments) :
    left < links ∨ left = links ∧ segments = rest := by
  unfold step at h
  split at h
  · cases h
  split at h
  · cases h; exact .inr ⟨rfl, rfl⟩
  split at h
  · cases h; exact .inr ⟨rfl, rfl⟩
  unfold stepName at h
  split at h
  · split at h <;> cases h
  · split at h
    · cases h
    split at h
    · cases h
    split at h <;> cases h
    exact .inl (Nat.lt_succ_self _)
  · cases h; exact .inr ⟨rfl, rfl⟩

/-- Follows segments from a place. -/
def walk (t : FileTree) (follow : Bool) (links : Nat) (place : Place) : List (List Char) → Except Failure Found
  | [] => .ok (.entry place)
  | segment :: rest =>
    match _ : t.step follow links place segment rest with
    | .failed e => .error e
    | .ended found => .ok found
    | .next links place segments => walk t follow links place segments
  termination_by segments => (links, segments.length)
  decreasing_by
    rename_i h
    rcases step_decreases h with hlt | ⟨rfl, rfl⟩
    · exact Prod.Lex.left _ _ hlt
    · exact Prod.Lex.right _ (Nat.lt_succ_self _)

/-- The longest path, in bytes. -/
def maxPath : Nat := 4095

def find (t : FileTree) (path : FilePath) (follow : Bool) : Except Failure Found :=
  if maxPath < path.text.utf8ByteSize then .error .invalidName
  else if path.text = "" then .error .notFound
  else t.walk follow maxLinks (path.start t.here) path.segments

/-- The same path, from the root. -/
def absolute (t : FileTree) (path : FilePath) : FilePath :=
  if path.isAbsolute then path else (FilePath.ofPlace t.here).entry path.text

/-- The place of the entry that a path leads to, through all links. -/
def place (t : FileTree) (path : FilePath) : Except Failure Place :=
  match t.find path true with
  | .error e => .error e
  | .ok (.free _) => .error .notFound
  | .ok (.entry place) => .ok place

/-- The entry that a path leads to, through all links. -/
def stat (t : FileTree) (path : FilePath) : Except Failure Entry :=
  match t.place path with
  | .error e => .error e
  | .ok place =>
    match t.entry? place with
    | none => .error .notFound
    | some entry => .ok entry

/-! ### Reading -/

def read (t : FileTree) (path : FilePath) : Except Failure (List UInt8) :=
  match t.place path with
  | .error e => .error e
  | .ok place =>
    if !(t.rights place).read then .error .denied
    else
      match t.entry? place with
      | some (.file content) => .ok content
      | some (.database _ _) => .error .invalidText
      | some .folder => .error .isFolder
      | some .special => .error .isSpecial
      | some (.link _) | none => .error .notFound

def decodeText (content : List UInt8) : Except Failure String :=
  match String.fromUTF8? ⟨content.toArray⟩ with
  | some text => .ok text
  | none => .error .invalidText

def readText (t : FileTree) (path : FilePath) : Except Failure String := do decodeText (← t.read path)

/-- The entries of the folder that a path leads to. -/
def list (t : FileTree) (path : FilePath) : Except Failure (List (String × Entry)) :=
  match t.place path with
  | .error e => .error e
  | .ok place =>
    if !t.isFolder place then .error .notFolder
    else if !(t.rights place).read then .error .denied
    else .ok (t.children place)

/-! ### Writing -/

theorem map_put (nodes : List (Place × Entry)) (place : Place) (entry : Entry) :
    (nodes.map fun node => if node.1 = place then (place, entry) else node).map (·.1) = nodes.map (·.1) := by
  rw [List.map_map]
  refine List.map_congr_left fun node _ => ?_
  simp only [Function.comp]
  split
  · rename_i hn; exact hn.symm
  · rfl

def put (t : FileTree) (place : Place) (entry : Entry) : FileTree :=
  if h : place ∈ t.nodes.map (·.1) then
    { t with
      nodes := t.nodes.map fun node => if node.1 = place then (place, entry) else node
      nodup := by rw [map_put]; exact t.nodup }
  else { t with nodes := (place, entry) :: t.nodes, nodup := List.nodup_cons.mpr ⟨h, t.nodup⟩ }

/-- Takes away one entry. -/
def erase (t : FileTree) (place : Place) : FileTree :=
  { t with
    nodes := t.nodes.filter fun node => node.1 ≠ place
    nodup := t.nodup.sublist (List.Sublist.map Prod.fst List.filter_sublist) }

/-- Whether a place is at or below another one. -/
def below : Place → Place → Bool
  | [], _ => true
  | _ :: _, [] => false
  | a :: top, b :: place => a = b && below top place

/-- Takes away an entry and all that is below it. -/
def drop (t : FileTree) (place : Place) : FileTree :=
  { t with
    nodes := t.nodes.filter fun node => !below place node.1
    nodup := t.nodup.sublist (List.Sublist.map Prod.fst List.filter_sublist) }

/-- Writes a file, which is made if its name is free. -/
def write (t : FileTree) (path : FilePath) (content : List UInt8) : Except Failure FileTree :=
  match t.find path true with
  | .error e => .error e
  | .ok (.free place) => .ok (t.put place (.file content))
  | .ok (.entry place) =>
    match t.entry? place with
    | some .folder => .error .isFolder
    | some .special => .error .isSpecial
    | _ => .ok (t.put place (.file content))

/-- Moves an entry to where a path leads, in the place of what is there, unless that is a folder; a link is replaced
itself. -/
def rename (t : FileTree) (source : Place) (path : FilePath) : Except Failure FileTree :=
  match t.entry? source with
  | none => .error .notFound
  | some entry =>
    match t.find path false with
    | .error e => .error e
    | .ok target => if t.isFolder target.place then .error .isFolder else .ok ((t.erase source).put target.place entry)

def makeLink (t : FileTree) (path target : FilePath) : Except Failure FileTree :=
  match t.find path false with
  | .error e => .error e
  | .ok (.entry _) => .error .exists
  | .ok (.free place) => if target.text = "" then .error .notFound else .ok (t.put place (.link target))

/-- Makes the folders that are missing on the way from a place to the last segment, and that one too. A link that leads
nowhere is in the way of a folder. What has been made stays if a later folder cannot be. -/
def makeFoldersFrom (t : FileTree) (start : Place) (done : List (List Char)) :
    List (List Char) → Except Failure Unit × FileTree
  | [] => (.ok (), t)
  | segment :: rest =>
    match t.walk false maxLinks start (done ++ [segment]) with
    | .error e => (.error e, t)
    | .ok (.free place) => (t.put place .folder).makeFoldersFrom start (done ++ [segment]) rest
    | .ok (.entry _) =>
      match t.walk true maxLinks start (done ++ [segment]) with
      | .ok (.entry place) =>
        if t.isFolder place then t.makeFoldersFrom start (done ++ [segment]) rest else (.error .notFolder, t)
      | .ok (.free _) => (.error .exists, t)
      | .error e => (.error e, t)

def makeFolders (t : FileTree) (path : FilePath) : Except Failure Unit × FileTree :=
  if maxPath < path.text.utf8ByteSize ∨ '\x00' ∈ path.text.toList then (.error .invalidName, t)
  else if path.text = "" then (.ok (), t)
  else t.makeFoldersFrom (path.start t.here) [] path.segments

/-- Removes a file, a link, or a folder with all in it; the folders on the way to where the process runs stay. -/
def remove (t : FileTree) (path : FilePath) : Except Failure FileTree :=
  match t.find path false with
  | .error e => .error e
  | .ok (.free _) => .error .notFound
  | .ok (.entry place) => if place.isPrefixOf t.here then .error .denied else .ok (t.drop place)

end FileTree
end ShareIndex
