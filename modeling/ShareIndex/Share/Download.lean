import ShareIndex.Digest.Blake3
import ShareIndex.FilePath

/-!
# ShareIndex.Share.Download

What is offered: a download is a folder of the share, with its files and a rendered page.

* `stableId`   — the id of a path, which depends on the text of the path alone.
* `SharedFile` — one file of a download.
* `Download`   — a folder that has been converted.
* `Summary`    — what is reported about a published download.
-/

namespace ShareIndex
namespace Share

def idOfBytes (bytes : List UInt8) : String := Digest.digestHex bytes

def idOfText (text : String) : String := idOfBytes text.toUTF8.data.toList

/-- The same path has the same id at every time. -/
def stableId (path : FilePath) : String := idOfText path.text

structure SharedFile where
  id : String
  name : String
  description : Option String
  sourcePath : FilePath
  /-- The public path of the file. -/
  url : String
  /-- In bytes. -/
  size : Nat
  mediaType : String
  deriving DecidableEq, Repr

/-- A file without a description; id and name come from its own path. -/
def SharedFile.ofPath (sourcePath : FilePath) (url : String) (size : Nat) (mediaType : String) : SharedFile :=
  { id := stableId sourcePath
    name := sourcePath.nameOrEmpty
    description := none
    sourcePath, url, size, mediaType }

structure Download where
  id : String
  title : String
  description : Option String
  enabled : Bool
  sourcePath : FilePath
  pageContent : String
  /-- The digest of the page. -/
  pageHash : String
  files : List SharedFile
  deriving DecidableEq, Repr

/-- An enabled download without a description. -/
def Download.ofPath (sourcePath : FilePath) (title pageContent : String) (files : List SharedFile) : Download :=
  { id := stableId sourcePath
    description := none
    enabled := true
    pageHash := idOfText pageContent
    title, sourcePath, pageContent, files }

structure Summary where
  id : String
  sourcePath : FilePath
  fileCount : Nat
  deriving DecidableEq, Repr

end Share
end ShareIndex
