import ShareIndex.Repository.Program
import ShareIndex.Share.Download
import ShareIndex.Share.Counter

/-!
# ShareIndex.Repository.Counters

Counting the fetches of files. Counters belong to no generation: they outlive publications, and are removed
only when a file is no longer offered.

* `increment`       — counts one fetch.
* `prune`           — removes the counters of files outside a batch, page by page.
* `counters`        — the counters of one active download.
* `allCounters`     — the counters of all active downloads, and the failure that cut the enumeration short.
-/

namespace ShareIndex
namespace Repository

open Store (Hash)
open Share (Download DownloadCounters FileCounter)

def increment (file : String) : Action Int := request .store (.increment Key.counters file 1)

/-- The ids of the files of a batch. -/
def fileIds (batch : List Download) : List String := batch.flatMap fun d => d.files.map (·.id)

def deleteCounters (files : List String) : Action Nat :=
  if files.isEmpty then return 0 else request .store (.deleteFields Key.counters files)

/-- Removes the counters after the cursor of files that are not to be kept. -/
def pruneAfter (keep : List String) : Nat → Option String → Action Nat
  | 0, _ => return 0
  | pages + 1, cursor => do
    let page ← request .store (.scanFields Key.counters cursor Key.pageSize)
    let deleted ← deleteCounters ((page.items.map (·.1)).filter fun file => !keep.contains file)
    match page.next with
    | none => return deleted
    | some next => return deleted + (← pruneAfter keep pages (some next))

/-- Removes the counters of files outside the batch; answers how many there were. The number of pages is
bounded; the counters have no more pages than there are counters, plus one. -/
def prune (pages : Nat) (batch : List Download) : Action Nat := pruneAfter (fileIds batch) pages none

/-- The integer in a counter; a missing counter counts as zero, and another text is no counter. -/
def counterOf? : Option String → Option Int
  | none => some 0
  | some text => Decimal.parseWord text

def counters (download : String) : Action (OrderedMap String Int) := do
  match ← readHolder with
  | none => return ∅
  | some g =>
    let files ← request .store (.getAll (Key.downloadFiles g download))
    let values ← request .store (.getFields Key.counters files.keys)
    return .ofList ((files.keys.zip values).filterMap fun (file, value) => (counterOf? value).map fun n => (file, n))

/-- The values of counters; nothing is asked when there are none. -/
def counterValues (files : List String) : Action (List (Option String)) :=
  if files.isEmpty then return [] else request .store (.getFields Key.counters files)

def countersOf (g : Generation) (id path : String) : Action DownloadCounters := do
  let files ← request .store (.getAll (Key.downloadFiles g id))
  let values ← counterValues files.keys
  return ⟨id, path, (files.entries.zip values).map fun ((file, url), value) =>
    .ofUrl file url ((counterOf? value).getD 0)⟩

/-- The counters of downloads one after the other, up to the first failure. -/
def countersOfEach (g : Generation) : List (String × String) → Program (List DownloadCounters × Option Error)
  | [] => return ([], none)
  | (id, path) :: rest => do
    match ← (countersOf g id path).run with
    | .error e => return ([], some e)
    | .ok first =>
      let (others, failure) ← countersOfEach g rest
      return (first :: others, failure)

def allCounters : Program (List DownloadCounters × Option Error) := do
  match ← readHolder.run with
  | .error e => return ([], some e)
  | .ok none => return ([], none)
  | .ok (some g) =>
    match ← (request .store (.getAll (Key.downloads g))).run with
    | .error e => return ([], some e)
    | .ok downloads => countersOfEach g downloads.entries

end Repository
end ShareIndex
