import ShareIndex.Repository.Pointer
import ShareIndex.Share.Download

/-!
# ShareIndex.Repository.Publish

Publication of a batch of downloads: the standby generation is cleared and filled, and only then does the
pointer move. Readers see the old generation until then.

* `clear`    — deletes every key of a generation, page by page.
* `commands` — what writes a batch into a generation.
* `publish`  — all steps.

The number of pages that are read of one group is bounded; no group has more pages than the store has keys,
plus one.
-/

namespace ShareIndex
namespace Repository

open Store (Request Command Page)
open Share (Download SharedFile)

/-- Deletes the keys of a page, if it has any. -/
def deletePage (raise : Store.Error → Error) (keys : List String) : Action Nat :=
  if keys.isEmpty then return 0 else request raise (.delete keys)

/-- Deletes the keys below the key of a group, starting after the cursor. -/
def clearChildren (raise : Store.Error → Error) (group : String) (g : Generation) :
    Nat → Option String → Action Nat
  | 0, _ => return 0
  | pages + 1, cursor => do
    let page ← request raise (.scan cursor (Key.children group g) Key.pageSize)
    let deleted ← deletePage raise page.items
    match page.next with
    | none => return deleted
    | some next => return deleted + (← clearChildren raise group g pages (some next))

def clearGroups (raise : Store.Error → Error) (pages : Nat) (g : Generation) : List String → Action Nat
  | [] => return 0
  | group :: rest => do
    let children ← clearChildren raise group g pages none
    let own ← request raise (.delete [Key.ofGroup group g])
    return children + own + (← clearGroups raise pages g rest)

/-- Deletes everything that a generation owns; answers how many keys there were. -/
def clear (pages : Nat) (g : Generation) : Action Nat := clearGroups (.clear g) pages g Key.groups

def fileCommands (g : Generation) (download : String) (file : SharedFile) : List Command :=
  [.setField (Key.files g) file.id file.url, .setField (Key.downloadFiles g download) file.id file.url]

def downloadCommands (g : Generation) (download : Download) : List Command :=
  [.setField (Key.downloads g) download.id download.sourcePath.text,
    .setField (Key.pages g) download.id download.pageContent]
    ++ download.files.flatMap (fileCommands g download.id)

def commands (g : Generation) (batch : List Download) : List Command := batch.flatMap (downloadCommands g)

/-- Makes a batch the active generation, and answers which one that is. -/
def publish (pages : Nat) (batch : List Download) : Action Generation := do
  let standby := Generation.standby (← storedGeneration)
  let _ ← clear pages standby
  request (.write standby) (.apply (commands standby batch))
  request (.swap standby) (.set Key.active standby.text)
  writeHolder (some standby)
  return standby

end Repository
end ShareIndex
