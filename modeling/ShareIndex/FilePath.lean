import ShareIndex.Text.Segment

/-!
# ShareIndex.FilePath

Paths as texts, and the components they name.

* `Component`          — the root, the current folder, the parent folder, or a name.
* `FilePath.components` — the components of a path; repeated and trailing separators and inner `.` do not count.
* `FilePath.name?`, `FilePath.extension?`, `FilePath.parent?` — the parts of a path.
* `FilePath.relativeTo?` — what remains of a path below another one.
* `FilePath.precedes`    — the order of paths, component by component.
-/

namespace ShareIndex

def separator : Char := '/'

inductive Component where
  | root
  | current
  | parent
  | normal (name : String)
  deriving DecidableEq, Repr

structure FilePath where
  text : String
  deriving DecidableEq, Repr

namespace Component

/-- The component that a segment of a path stands for, unless it is empty or `.`. -/
def ofSegment? (segment : List Char) : Option Component :=
  if segment = [] ∨ segment = ['.'] then none
  else if segment = ['.', '.'] then some parent
  else some (normal (String.ofList segment))

def rank : Component → Nat
  | root => 0
  | current => 1
  | parent => 2
  | normal _ => 3

/-- Names are ordered by their characters; every name follows the other components. -/
def precedes : Component → Component → Bool
  | normal a, normal b => decide (a < b)
  | a, b => decide (a.rank < b.rank)

def name? : Component → Option String
  | normal name => some name
  | _ => none

end Component

namespace FilePath

def segments (p : FilePath) : List (List Char) := Text.segments separator p.text.toList

/-- What a path begins with before its first name: the root, or a leading `.`. -/
def anchor (p : FilePath) : List Component :=
  match p.segments with
  | [] :: _ :: _ => [.root]
  | ['.'] :: _ => [.current]
  | _ => []

def components (p : FilePath) : List Component := p.anchor ++ p.segments.filterMap Component.ofSegment?

def isAbsolute (p : FilePath) : Bool := p.anchor == [.root]

/-- The last component, if it is a name. -/
def name? (p : FilePath) : Option String := p.components.getLast?.bind Component.name?

/-- The name of what a path leads to, empty when the path does not end in a name. -/
def nameOrEmpty (p : FilePath) : String := p.name?.getD ""

/-- Segments, the last one first, from the last that stands for a component on; the first segment always stays. -/
def dropSilent : List (List Char) → List (List Char)
  | [] => []
  | [first] => [first]
  | segment :: rest => if (Component.ofSegment? segment).isNone then dropSilent rest else segment :: rest

/-- What is written before the last component. -/
def textBeforeLast (p : FilePath) : String :=
  match dropSilent ((dropSilent p.segments.reverse).drop 1) with
  | [[]] => separator.toString
  | segments => String.ofList (Text.joinSegments separator segments.reverse)

/-- The path without its last component; neither the empty path nor the root has a parent. -/
def parent? (p : FilePath) : Option FilePath :=
  match p.components.getLast? with
  | none => none
  | some .root => none
  | some _ => some ⟨p.textBeforeLast⟩

/-- The folder in which a path has its last component. -/
def folder (p : FilePath) : FilePath :=
  match p.parent? with
  | none => ⟨"."⟩
  | some parent => if parent.text = "" then ⟨"."⟩ else parent

/-- The part of a name after its last dot; a dot at the start of the name does not count. -/
def extensionOf? (name : String) : Option String :=
  let pieces := Text.segments '.' name.toList
  if name = ".." then none
  else
    match pieces with
    | [] => none
    | [_] => none
    | [[], _] => none
    | _ => some (String.ofList (pieces.getLastD []))

def extension? (p : FilePath) : Option String := p.name?.bind extensionOf?

/-- The path of the entry `name` of the folder `p`. -/
def entry (p : FilePath) (name : String) : FilePath :=
  match p.text.toList.getLast? with
  | none => ⟨name⟩
  | some c => if c = separator then ⟨p.text ++ name⟩ else ⟨p.text ++ separator.toString ++ name⟩

/-- What remains of a list after a given beginning. -/
def afterStart? {α : Type} [DecidableEq α] : List α → List α → Option (List α)
  | [], rest => some rest
  | _ :: _, [] => none
  | a :: start, b :: rest => if a = b then afterStart? start rest else none

/-- The components of `p` below `base`, if `base` leads to `p`. -/
def relativeTo? (p base : FilePath) : Option (List Component) := afterStart? base.components p.components

def precedesList : List Component → List Component → Bool
  | _, [] => false
  | [], _ :: _ => true
  | a :: as, b :: bs => if a = b then precedesList as bs else a.precedes b

/-- The order of paths: by the first component in which they differ. -/
def precedes (p q : FilePath) : Bool := precedesList p.components q.components

/-- Whether `p` may stand before `q` in a sorted list of paths. -/
def atMost (p q : FilePath) : Bool := !q.precedes p

end FilePath
end ShareIndex
