import ShareIndex.Repository.Generation
import ShareIndex.Store.Pattern

/-!
# ShareIndex.Repository.Key

Where things are in the store. Of the keys that a generation `g` owns

* `Key.downloads g`         — maps the id of a download to the path of its folder,
* `Key.pages g`             — maps the id of a download to its page,
* `Key.files g`             — maps the id of a file to its url,
* `Key.downloadFiles g d`   — maps the ids of the files of the download `d` to their urls.

Both generations share `Key.active`, which holds the name of the active generation, and `Key.counters`,
which maps the id of a file to its counter.
-/

namespace ShareIndex
namespace Repository
namespace Key

open Store (Pattern)

def active : String := "av"

def counters : String := "fs"

/-- The key of a group of entries in a generation. -/
def ofGroup (group : String) (g : Generation) : String := group ++ ":" ++ g.text

/-- Matches every key below the key of a group. -/
def childrenOfGroup (group : String) (g : Generation) : String := ofGroup group g ++ ":*"

def downloadGroup : String := "dm"

def pageGroup : String := "pc"

def fileGroup : String := "fm"

def downloadFileGroup : String := "dfm"

/-- The groups that make up a generation, in the order in which they are cleared. -/
def groups : List String := [downloadGroup, fileGroup, downloadFileGroup, pageGroup]

def downloads (g : Generation) : String := ofGroup downloadGroup g

def pages (g : Generation) : String := ofGroup pageGroup g

def files (g : Generation) : String := ofGroup fileGroup g

def downloadFiles (g : Generation) (download : String) : String :=
  ofGroup downloadFileGroup g ++ ":" ++ download

def children (group : String) (g : Generation) : Pattern := ⟨childrenOfGroup group g⟩

/-- How many items are asked for at a time when keys or fields are enumerated. -/
def pageSize : Nat := 1000

end Key
end Repository
end ShareIndex
