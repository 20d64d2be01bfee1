import ShareIndex.Index.Scan
import ShareIndex.Index.Slot
import ShareIndex.Repository.Counters
import ShareIndex.Repository.Publish
import ShareIndex.Repository.Readers

/-!
# ShareIndex.Index.Cycle

One cycle of an indexer: what a scan has found becomes the active generation, and the counters of files that
are gone are removed.

* `Action`        — calls on the repository that fail as an indexer does.
* `cycle`         — the steps after the scan.
* `World`         — what the calls of an indexer act on.
* `World.alone`   — runs a call unless another one is running.
* `Scanner.index` — a whole cycle.
-/

namespace ShareIndex
namespace Index

open Repository (Program Shared)
open Share (Download Summary)
open Store (KeyValueStore)

abbrev Action := ExceptT Error Program

/-- A call on the repository; `raise` says what its failure means for the indexer. -/
def attempt {α : Type} (raise : Repository.Error → Error) (action : Repository.Action α) : Action α :=
  ExceptT.adapt raise action

/-- A call on the repository whose failure does not matter. -/
def ignoreFailure {α : Type} (action : Repository.Action α) : Action Unit :=
  ExceptT.lift (action.run >>= fun _ => pure ())

/-- Publishes a batch. Counters that could not be removed are removed by a later cycle. -/
def publishBatch (pages : Nat) (batch : List Download) : Action (List Summary) := do
  let _ ← attempt .publish (Repository.publish pages batch)
  ignoreFailure (Repository.prune pages batch)
  attempt .info Repository.info

/-- A scan that found nothing leaves the store as it is. -/
def cycle (pages : Nat) : Except ScanError (List Download) → Action (List Summary)
  | .error .cancelled => throw (.cancelled (some .cancelled))
  | .error e => throw (.scan e)
  | .ok [] => throw .noDownloads
  | .ok (download :: rest) => publishBatch pages (download :: rest)

/-! ### Calls -/

structure World (S : Type) where
  files : FileTree
  shared : Shared S
  slot : Slot

namespace World

variable {S : Type} {α : Type}

/-- Runs a call that has the slot; when another call has it, the answer is `refusal` and nothing happens. -/
def alone (w : World S) (refusal : α) (call : World S → α × World S) : α × World S :=
  match w.slot.acquire with
  | (false, _) => (refusal, w)
  | (true, slot) =>
    let (result, after) := call { w with slot }
    (result, { after with slot := after.slot.release })

variable [KeyValueStore S]

/-- The number of pages that an enumeration of the store cannot exceed. -/
def pages (w : World S) : Nat := KeyValueStore.extent w.shared.store + 1

def perform (w : World S) (action : Action α) : Except Error α × World S :=
  let (result, shared) := Program.run action.run w.shared
  (result, { w with shared })

end World

def Scanner.index {S : Type} [KeyValueStore S] (s : Scanner) (cancelled : Bool) (w : World S) :
    Except Error (List Summary) × World S :=
  w.alone (.error .alreadyRunning) fun w => w.perform (cycle w.pages (s.scan w.files cancelled))

end Index
end ShareIndex
