import ShareIndex.Text.Segment

/-!
# ShareIndex.Share.Counter

How often the files of a download were fetched.

* `FileCounter`      — the counter of one file, with its url and the name in it.
* `DownloadCounters` — the counters of all files of a download.
-/

namespace ShareIndex
namespace Share

structure FileCounter where
  id : String
  name : String
  url : String
  counter : Int
  deriving DecidableEq, Repr

/-- The name of a file is what follows the last separator of its url. -/
def FileCounter.ofUrl (id url : String) (counter : Int) : FileCounter :=
  ⟨id, String.ofList (Text.lastSegment '/' url.toList), url, counter⟩

structure DownloadCounters where
  id : String
  /-- The path of the folder. -/
  path : String
  files : List FileCounter
  deriving DecidableEq, Repr

end Share
end ShareIndex
