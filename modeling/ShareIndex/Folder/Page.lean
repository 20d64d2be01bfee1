import ShareIndex.Share.Download
import ShareIndex.Template.Render

/-!
# ShareIndex.Folder.Page

The page of a download.

* `context`      — the variables of a page: the public address, and the download with its files.
* `standardPage` — the template of folders that bring none of their own, and `standardSource` the text it is made from.
* `renderPage`   — the page, from the folder's own template if there is one.
-/

namespace ShareIndex
namespace Folder

open Share (SharedFile)
open Template (Expression Node Value)

/-- What a page says about a download. -/
structure PageContent where
  id : String
  title : String
  description : Option String
  files : List SharedFile

def fileValue (f : SharedFile) : Value :=
  .map [("description", .ofOption f.description), ("id", .ofString f.id), ("mime_type", .ofString f.mediaType),
    ("name", .ofString f.name), ("size", .integer f.size), ("url", .ofString f.url)]

def downloadValue (p : PageContent) : Value :=
  .map [("description", .ofOption p.description), ("files", .list (p.files.map fileValue)), ("id", .ofString p.id),
    ("title", .ofString p.title)]

def context (baseUrl : String) (p : PageContent) : List (String × Value) :=
  [("url", .ofString baseUrl), ("download", downloadValue p)]

/-! ### The standard template -/

def plainText (s : String) : Node := .text s.toList

def plainVariable (name : String) : Expression := .variable false name []

def field (name member : String) : Expression := .variable false name [⟨false, .name member⟩]

def verbatim (e : Expression) : Node := .output e .verbatim

def escaped (e : Expression) : Node := .output e .html

/-- An entry of the list of files. -/
def fileEntry : List Node :=
  [plainText "\n        <li>\n            <a href=\"",
    escaped (plainVariable "url"),
    plainText "/file/",
    verbatim (field "file" "id"),
    plainText "\">",
    .branch false (field "file" "description")
      [escaped (field "file" "description")]
      [escaped (field "file" "name")],
    plainText "</a>\n            <small>",
    verbatim (field "file" "size"),
    plainText " bytes, ",
    escaped (field "file" "mime_type"),
    plainText "</small>\n        </li>\n    "]

def standardPage : List Node :=
  [plainText ("<!DOCTYPE html>\n<html lang=\"en\">\n<head>\n    <meta charset=\"UTF-8\">\n"
      ++ "    <meta name=\"viewport\" content=\"width=device-width, initial-scale=1.0\">\n    <title>"),
    escaped (field "download" "title"),
    plainText "</title>\n</head>\n<body>\n    <h1>",
    escaped (field "download" "title"),
    plainText "</h1>\n    ",
    .branch false (field "download" "description")
      [plainText "\n    <p style=\"white-space: pre-line\">",
        escaped (field "download" "description"),
        plainText "</p>\n    "]
      [],
    plainText "\n    <ul>\n    ",
    .loop (.item "file") (field "download" "files") fileEntry,
    plainText "\n    </ul>\n</body>\n</html>\n"]

/-- The text of the standard template. -/
def standardSource : String := .join
  ["<!DOCTYPE html>\n",
    "<html lang=\"en\">\n",
    "<head>\n",
    "    <meta charset=\"UTF-8\">\n",
    "    <meta name=\"viewport\" content=\"width=device-width, initial-scale=1.0\">\n",
    "    <title>\x7b\x7b download.title|html \x7d\x7d</title>\n",
    "</head>\n",
    "<body>\n",
    "    <h1>\x7b\x7b download.title|html \x7d\x7d</h1>\n",
    "    \x7b% if download.description %\x7d\n",
    "    <p style=\"white-space: pre-line\">\x7b\x7b download.description|html \x7d\x7d</p>\n",
    "    \x7b% endif %\x7d\n",
    "    <ul>\n",
    "    \x7b% for file in download.files %\x7d\n",
    "        <li>\n",
    "            <a href=\"\x7b\x7b url|html \x7d\x7d/file/\x7b\x7b file.id \x7d\x7d\">",
    "\x7b% if file.description %\x7d\x7b\x7b file.description|html \x7d\x7d",
    "\x7b% else %\x7d\x7b\x7b file.name|html \x7d\x7d\x7b% endif %\x7d</a>\n",
    "            <small>\x7b\x7b file.size \x7d\x7d bytes, \x7b\x7b file.mime_type|html \x7d\x7d</small>\n",
    "        </li>\n",
    "    \x7b% endfor %\x7d\n",
    "    </ul>\n",
    "</body>\n",
    "</html>\n"]

/-- A page; a template that is not well-formed, or that needs a value that is missing, has none. -/
def renderPage (template : Option String) (baseUrl : String) (p : PageContent) : Option String := do
  let nodes ← match template with
    | none => some standardPage
    | some source => Template.nodes? source
  Template.render nodes (context baseUrl p)

end Folder
end ShareIndex
