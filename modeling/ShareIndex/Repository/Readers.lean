import ShareIndex.Repository.Program
import ShareIndex.Share.Download

/-!
# ShareIndex.Repository.Readers

What is read of the active generation.

* `info`    — a summary of each download, ordered by path.
* `page`    — the page of a download.
* `fileUrl` — the url of a file.
-/

namespace ShareIndex
namespace Repository

open Share (Summary)

/-- Summaries of downloads, in the given order. -/
def summaries (g : Generation) : List (String × String) → Action (List Summary)
  | [] => return []
  | (id, path) :: rest => do
    let files ← request .store (.getAll (Key.downloadFiles g id))
    return ⟨id, ⟨path⟩, files.size⟩ :: (← summaries g rest)

def sortByPath (summaries : List Summary) : List Summary :=
  summaries.mergeSort fun x y => x.sourcePath.atMost y.sourcePath

def info : Action (List Summary) := do
  match ← readHolder with
  | none => throw .noDownloads
  | some g =>
    let downloads ← request .store (.getAll (Key.downloads g))
    if downloads.isEmpty then throw .noDownloads
    return sortByPath (← summaries g downloads.entries)

def page (download : String) : Action String := do
  match ← readHolder with
  | none => throw (.pageNotFound download)
  | some g =>
    match ← request .store (.getField (Key.pages g) download) with
    | none => throw (.pageNotFound download)
    | some page => return page

def fileUrl (file : String) : Action String := do
  match ← readHolder with
  | none => throw (.fileNotFound file)
  | some g =>
    match ← request .store (.getField (Key.files g) file) with
    | none => throw (.fileNotFound file)
    | some url => return url

end Repository
end ShareIndex
