import ShareIndex.Folder.Conversion
import ShareIndex.Index.Error
import ShareIndex.Index.Pool

/-!
# ShareIndex.Index.Scan

The downloads of a work folder.

* `candidates`   — the folders in the work folder, in the order of their paths; links do not count.
* `Pace`         — how long a conversion takes, and how long a scan may take.
* `Scanner.scan` — converts all candidates; a folder that cannot be converted is left out. A scan that is
  cancelled gives no downloads at all.
-/

namespace ShareIndex
namespace Index

open Folder (Converter)
open Share (Download)

/-- No scan has more candidates; those that follow in the order are ignored. -/
def maxCandidates : Nat := 100

def isFolder : Entry → Bool
  | .folder => true
  | _ => false

def sortPaths (paths : List FilePath) : List FilePath := paths.mergeSort FilePath.atMost

def candidates (files : FileTree) (root : FilePath) : Except ScanError (List FilePath) :=
  match files.list root with
  | .error _ => .error (.unreadable root)
  | .ok entries =>
    .ok ((sortPaths ((entries.filter fun e => isFolder e.2).map fun e => root.entry e.1)).take maxCandidates)

/-- Times are in milliseconds. -/
structure Pace where
  conversion : Nat
  /-- The time after which a scan is cancelled. -/
  limit : Option Nat
  deriving DecidableEq, Repr

/-- Whether the time is over before the last of `folders` conversions, of which `workers` run at a time. -/
def Pace.runsOut (p : Pace) (workers folders : Nat) : Bool :=
  match p.limit with
  | none => false
  | some limit => decide (limit ≤ (folders + workers - 1) / workers * p.conversion)

structure Scanner where
  root : FilePath
  workers : Nat
  converter : Converter
  pace : Pace
  deriving DecidableEq, Repr

namespace Scanner

def work (s : Scanner) (files : FileTree) (folder : FilePath) : Pool.Work Download :=
  match s.converter.convert files folder with
  | .ok download => ⟨.result download, false⟩
  | .error _ => ⟨.nothing, false⟩

def scan (s : Scanner) (files : FileTree) (cancelled : Bool) : Except ScanError (List Download) :=
  match candidates files s.root with
  | .error e => .error e
  | .ok folders =>
    let cancelled := cancelled || s.pace.runsOut (max s.workers 1) folders.length
    let downloads := Pool.parallelMap (s.work files) folders s.workers cancelled
    if cancelled then .error .cancelled else .ok downloads

end Scanner
end Index
end ShareIndex
