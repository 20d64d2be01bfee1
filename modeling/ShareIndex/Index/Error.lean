import ShareIndex.FilePath
import ShareIndex.Repository.Error

/-!
# ShareIndex.Index.Error

Why a scan, an index or a dump fails.

* `ScanError` — the failures of a scan.
* `Error`     — the failures of the calls of an indexer, with what is behind them.
* `Error.isRetryable` — whether the same call may succeed later.
-/

namespace ShareIndex
namespace Index

inductive ScanError where
  | unreadable (root : FilePath)
  | cancelled
  deriving DecidableEq, Repr

def ScanError.message : ScanError → String
  | unreadable root => "could not read directory: " ++ root.text
  | cancelled => "scan cancelled"

inductive Error where
  | alreadyRunning
  | scan (cause : ScanError)
  /-- A scan says why it was cancelled, a dump does not. -/
  | cancelled (cause? : Option ScanError)
  | noDownloads
  | publish (cause : Repository.Error)
  | info (cause : Repository.Error)
  /-- There is no cause when the text could not be written. -/
  | dump (cause? : Option Repository.Error)
  deriving DecidableEq, Repr

namespace Error

def message : Error → String
  | alreadyRunning => "indexing process has already started"
  | scan _ => "could not scan work directory"
  | cancelled _ => "cancelled"
  | noDownloads => "no downloads found"
  | publish _ => "could not publish downloads"
  | info _ => "could not read download info"
  | dump _ => "could not dump counters"

def isRetryable : Error → Bool
  | alreadyRunning | publish _ | info _ | dump _ => true
  | scan _ | cancelled _ | noDownloads => false

end Error
end Index
end ShareIndex
