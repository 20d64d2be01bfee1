import ShareIndex.Proofs.Folder.Conversion
import ShareIndex.Proofs.Text.Decimal
import ShareIndex.Proofs.Text.Hexadecimal
import ShareIndex.Proofs.Text.Markup

/-!
# ShareIndex.Proofs.Folder.Page

What no input can change in a page that is made from the standard template.

* `Shows`             — nodes of a template have a text, with this markup; one rule for each kind of node.
* `fileEntry_shows`   — an entry of the list of files has the same markup for every file.
* `nodes?_standardSource` — the standard template is the one that its text says.
* `standardPage_shows` — the markup of a page: it depends on the number of files, and on whether there is a description.
* `convert_markup`    — so it is with the page of a folder without a template.
* `page_markup`       — two pages have the same markup, and what is escaped has none at all.
-/

namespace ShareIndex

open Text (markup)

namespace Template

/-! ### Markup of nodes -/

/-- The nodes have a text in the environment, and this is its markup. -/
def Shows (env : Environment) (nodes : List Node) (tags : List Char) : Prop :=
  ∃ text, renderAll env nodes = some text ∧ markup text = tags

namespace Shows

variable {env : Environment} {nodes rest yes no body : List Node} {tags tags' : List Char} {e : Expression} {v : Value}

theorem of_eq {nodes : List Node} (h : Shows env nodes tags) (he : tags = tags') : Shows env nodes tags' := he ▸ h

theorem nil : Shows env [] [] := ⟨[], rfl, rfl⟩

theorem cons {node : Node} {first : List Char} (hn : node.render env = some first)
    (hr : Shows env rest tags) : Shows env (node :: rest) (markup first ++ tags) := by
  obtain ⟨text, ht, rfl⟩ := hr
  exact ⟨first ++ text, by rw [renderAll, hn, ht]; rfl, Text.markup_append first text⟩

theorem text {cs : List Char} (own : List Char) (hm : markup cs = own) (hr : Shows env rest tags) :
    Shows env (.text cs :: rest) (own ++ tags) :=
  hm ▸ cons (by rw [Node.render]) hr

/-- What is escaped adds no markup. -/
theorem escaped {cs : List Char} (he : evaluate env e = some (.text cs)) (hr : Shows env rest tags) :
    Shows env (.output e .html :: rest) tags := by
  have hn : (Node.output e .html).render env = some (Text.escape cs) := by
    rw [Node.render, he]
    rfl
  simpa using cons hn hr

/-- Nor does what is written without any. -/
theorem verbatim {cs : List Char} (he : evaluate env e = some v) (hw : v.write = some cs) (hm : markup cs = [])
    (hr : Shows env rest tags) : Shows env (.output e .verbatim :: rest) tags := by
  have hn : (Node.output e .verbatim).render env = some cs := by
    rw [Node.render, he]
    exact hw
  simpa [hm] using cons hn hr

theorem branch (he : evaluate env e = some v) (hy : v.isTrue = true → Shows env yes tags)
    (hn : v.isTrue = false → Shows env no tags') (hr : Shows env rest tags'') :
    Shows env (.branch false e yes no :: rest) ((if v.isTrue then tags else tags') ++ tags'') := by
  have hbranch : Shows env (if v.isTrue then yes else no) (if v.isTrue then tags else tags') := by
    cases hv : v.isTrue with
    | true => exact hy hv
    | false => exact hn hv
  obtain ⟨first, hf, hm⟩ := hbranch
  rw [← hm]
  refine cons ?_ hr
  rw [Node.render, he, Option.bind_eq_bind, Option.bind_some, ← hf, holds]
  cases v.isTrue <;> rfl

theorem rounds {scopes : List Scope} (h : ∀ scope ∈ scopes, Shows (env.push scope) body tags) :
    ∃ texts, scopes.mapM (fun scope => renderAll (env.push scope) body) = some texts ∧
      markup texts.flatten = (List.replicate scopes.length tags).flatten := by
  induction scopes with
  | nil => exact ⟨[], rfl, rfl⟩
  | cons scope scopes ih =>
    obtain ⟨⟨first, hfirst, hm⟩, hrest⟩ := List.forall_mem_cons.mp h
    obtain ⟨texts, htexts, hms⟩ := ih hrest
    refine ⟨first :: texts, ?_, ?_⟩
    · rw [List.mapM_cons, hfirst, htexts]
      rfl
    · rw [List.flatten_cons, Text.markup_append, hm, hms, List.length_cons, List.replicate_succ, List.flatten_cons]

/-- A loop whose rounds all have the same markup. -/
theorem loop {name : String} {items : List Value} (he : evaluate env e = some (.list items))
    (hb : ∀ place item, item ∈ items → Shows (env.push (.round [(loopName, place), (name, item)])) body tags)
    (hr : Shows env rest tags') :
    Shows env (.loop (.item name) e body :: rest) ((List.replicate items.length tags).flatten ++ tags') := by
  let scopes := items.zipIdx.map fun item =>
    Scope.round [(loopName, position item.2 items.length), (name, item.1)]
  have hscopes : ∀ scope ∈ scopes, Shows (env.push scope) body tags := by
    intro scope hs
    obtain ⟨⟨item, i⟩, hitem, rfl⟩ := List.mem_map.mp hs
    exact hb _ item (List.fst_mem_of_mem_zipIdx hitem)
  obtain ⟨texts, htexts, hm⟩ := rounds hscopes
  have hlength : scopes.length = items.length := by simp [scopes]
  rw [hlength] at hm
  rw [← hm]
  refine cons ?_ hr
  rw [Node.render, he, Option.bind_eq_bind, Option.bind_some]
  show (scopes.mapM fun scope => renderAll (env.push scope) body).bind _ = _
  rw [htexts]
  rfl

end Shows
end Template

namespace Folder

open Share (Download SharedFile stableId)
open Template

/-! ### The standard template -/

theorem pieces?_join (lines : List String) : Template.pieces? (String.join lines) =
    Template.piecesFrom ((lines.flatMap String.toList).length + 1) false (lines.flatMap String.toList) := by
  rw [Template.pieces?, String.toList_join, ← String.length_toList, String.toList_join]

/-- The characters of a literal are taken from it before anything is computed with them. -/
theorem flatMap_toList_cons (cs : List Char) (rest : List String) :
    (String.ofList cs :: rest).flatMap String.toList = cs ++ rest.flatMap String.toList := by
  rw [List.flatMap_cons, String.toList_ofList]

def memberWords (name member : String) : List Word := [.name name, .sign '.', .name member]

/-- The words of a tag whose value is escaped. -/
def escapedWords (words : List Word) : List Word := words ++ [.sign '|', .name "html"]

/-- The text and the tags of the standard template, in their order. -/
def standardPieces : List Piece :=
  [.text ("<!DOCTYPE html>\n<html lang=\"en\">\n<head>\n    <meta charset=\"UTF-8\">\n"
      ++ "    <meta name=\"viewport\" content=\"width=device-width, initial-scale=1.0\">\n    <title>").toList,
    .expression (escapedWords (memberWords "download" "title")),
    .text "</title>\n</head>\n<body>\n    <h1>".toList,
    .expression (escapedWords (memberWords "download" "title")),
    .text "</h1>\n    ".toList,
    .statement (.name "if" :: memberWords "download" "description"),
    .text "\n    <p style=\"white-space: pre-line\">".toList,
    .expression (escapedWords (memberWords "download" "description")),
    .text "</p>\n    ".toList,
    .statement [.name "endif"],
    .text "\n    <ul>\n    ".toList,
    .statement ([.name "for", .name "file", .name "in"] ++ memberWords "download" "files"),
    .text "\n        <li>\n            <a href=\"".toList,
    .expression (escapedWords [.name "url"]),
    .text "/file/".toList,
    .expression (memberWords "file" "id"),
    .text "\">".toList,
    .statement (.name "if" :: memberWords "file" "description"),
    .expression (escapedWords (memberWords "file" "description")),
    .statement [.name "else"],
    .expression (escapedWords (memberWords "file" "name")),
    .statement [.name "endif"],
    .text "</a>\n            <small>".toList,
    .expression (memberWords "file" "size"),
    .text " bytes, ".toList,
    .expression (escapedWords (memberWords "file" "mime_type")),
    .text "</small>\n        </li>\n    ".toList,
    .statement [.name "endfor"],
    .text "\n    </ul>\n</body>\n</html>\n".toList]

theorem pieces?_standardSource : Template.pieces? standardSource = some standardPieces := by
  rw [standardSource, pieces?_join]
  repeat rw [flatMap_toList_cons]
  rw [standardPieces, String.toList_append]
  repeat rw [String.toList_ofList]
  decide +kernel

/-- The standard template is what its text says. -/
theorem nodes?_standardSource : Template.nodes? standardSource = some standardPage := by
  rw [Template.nodes?, pieces?_standardSource]
  rfl

theorem renderPage_standardSource (baseUrl : String) (p : PageContent) :
    renderPage (some standardSource) baseUrl p = renderPage none baseUrl p := by
  simp only [renderPage, nodes?_standardSource]

/-! ### Markup of pages -/

/-- Whether there is a description that says something. -/
def isDescribed (description : Option String) : Bool := description.any (· ≠ "")

theorem isTrue_ofOption (description : Option String) :
    (Value.ofOption description).isTrue = isDescribed description := by
  cases description with
  | none => rfl
  | some text =>
    by_cases h : text = ""
    · rw [h]
      rfl
    · have hlist : text.toList ≠ [] := fun he => h (String.toList_inj.mp he)
      simp [Value.ofOption, Value.ofString, Value.isTrue, isDescribed, h, hlist]

theorem markup_hexadecimal {text : String} (h : IsHexadecimal text) : markup text.toList = [] := by
  rw [Text.markup_eq_nil_iff]
  intro c hc
  have hdigit := h c hc
  rw [Bool.eq_false_iff, Text.isMarkup, ne_eq, List.contains_iff_mem]
  intro hm
  simp only [List.mem_cons, List.not_mem_nil, or_false] at hm
  rcases hm with rfl | rfl | rfl | rfl <;> exact absurd hdigit (by decide)

theorem markup_render (n : Nat) : markup (Decimal.render n) = [] := by
  rw [Text.markup_eq_nil_iff]
  intro c hc
  have hdigit : Decimal.isDigit c = true := Decimal.isDigit_of_mem_digits hc
  rw [Bool.eq_false_iff, Text.isMarkup, ne_eq, List.contains_iff_mem]
  intro hm
  simp only [List.mem_cons, List.not_mem_nil, or_false] at hm
  rcases hm with rfl | rfl | rfl | rfl <;> exact absurd hdigit (by decide)

/-- A tag without values, and one with a value in quotes. -/
def tag : List Char := ['<', '>']

def valueTag : List Char := ['<', '"', '"', '>']

/-- What stands before the first value: the type of the document, and the start of its head. -/
def headMarkup : List Char := tag ++ valueTag ++ tag ++ valueTag ++ ['<', '"', '"', '"', '"', '>'] ++ tag

/-- A list item with a link and small print. -/
def entryMarkup : List Char := tag ++ valueTag ++ tag ++ tag ++ tag ++ tag

/-- The title and the heading, the paragraph of a description, and the list. -/
def pageMarkup (described : Bool) (count : Nat) : List Char :=
  headMarkup ++ tag ++ tag ++ tag ++ tag ++ tag ++ (if described then valueTag ++ tag else []) ++ tag ++
    (List.replicate count entryMarkup).flatten ++ tag ++ tag ++ tag

/-- A description that is true is a text, which is escaped. -/
theorem text_of_isTrue {description : Option String} (h : (Value.ofOption description).isTrue = true) :
    ∃ text : String, Value.ofOption description = .text text.toList := by
  cases description with
  | none => cases h
  | some text => exact ⟨text, rfl⟩

theorem fileEntry_shows {baseUrl : String} {p : PageContent} {f : SharedFile} (hid : IsHexadecimal f.id)
    (place : Value) :
    Shows ((Environment.ofGlobals (context baseUrl p)).push (.round [(loopName, place), ("file", fileValue f)]))
      fileEntry entryMarkup := by
  let env := (Environment.ofGlobals (context baseUrl p)).push (.round [(loopName, place), ("file", fileValue f)])
  have hurl : evaluate env (plainVariable "url") = some (.text baseUrl.toList) := rfl
  have hfile : evaluate env (field "file" "id") = some (.text f.id.toList) := rfl
  have hdescription : evaluate env (field "file" "description") = some (.ofOption f.description) := rfl
  have hname : evaluate env (field "file" "name") = some (.text f.name.toList) := rfl
  have hsize : evaluate env (field "file" "size") = some (.integer f.size) := rfl
  have htype : evaluate env (field "file" "mime_type") = some (.text f.mediaType.toList) := rfl
  have hyes : (Value.ofOption f.description).isTrue = true → Shows env [escaped (field "file" "description")] [] := by
    intro h
    obtain ⟨text, ht⟩ := text_of_isTrue h
    exact .escaped (ht ▸ hdescription) .nil
  have hno : (Value.ofOption f.description).isTrue = false → Shows env [escaped (field "file" "name")] [] :=
    fun _ => .escaped hname .nil
  refine .of_eq (.text (tag ++ ['<', '"']) (by decide) <| .escaped hurl <| .text [] (by decide) <|
    .verbatim hfile rfl (markup_hexadecimal hid) <| .text ['"', '>'] (by decide) <|
    .branch hdescription hyes hno <| .text (tag ++ tag) (by decide) <|
    .verbatim hsize rfl (markup_render f.size) <| .text [] (by decide) <| .escaped htype <|
    .text (tag ++ tag) (by decide) .nil) ?_
  rw [ite_self]
  rfl

/-- The head of the page has no values of the download. -/
theorem markup_head {first second : String} (h : markup first.toList = tag ++ valueTag ++ tag ++ valueTag)
    (h' : markup second.toList = ['<', '"', '"', '"', '"', '>'] ++ tag) :
    markup (first ++ second).toList = headMarkup := by
  rw [String.toList_append, Text.markup_append, h, h']
  rfl

theorem standardPage_shows (baseUrl : String) {p : PageContent} (hids : ∀ f ∈ p.files, IsHexadecimal f.id) :
    Shows (.ofGlobals (context baseUrl p)) standardPage (pageMarkup (isDescribed p.description) p.files.length) := by
  let env := Environment.ofGlobals (context baseUrl p)
  have htitle : evaluate env (field "download" "title") = some (.text p.title.toList) := rfl
  have hdescription : evaluate env (field "download" "description") = some (.ofOption p.description) := rfl
  have hfiles : evaluate env (field "download" "files") = some (.list (p.files.map fileValue)) := rfl
  have hentries : ∀ place item, item ∈ p.files.map fileValue →
      Shows (env.push (.round [(loopName, place), ("file", item)])) fileEntry entryMarkup := by
    intro place item hitem
    obtain ⟨f, hf, rfl⟩ := List.mem_map.mp hitem
    exact fileEntry_shows (hids f hf) place
  have hparagraph : (Value.ofOption p.description).isTrue = true → Shows env
      [plainText "\n    <p style=\"white-space: pre-line\">", escaped (field "download" "description"),
        plainText "</p>\n    "] (valueTag ++ tag) := by
    intro h
    obtain ⟨text, ht⟩ := text_of_isTrue h
    exact .text valueTag (by decide) <| .escaped (ht ▸ hdescription) <| .text tag (by decide) .nil
  refine .of_eq (.text headMarkup (markup_head (by decide) (by decide)) <| .escaped htitle <|
    .text (tag ++ tag ++ tag ++ tag) (by decide) <| .escaped htitle <| .text tag (by decide) <|
    .branch hdescription hparagraph (fun _ => .nil) <| .text tag (by decide) <| .loop hfiles hentries <|
    .text (tag ++ tag ++ tag) (by decide) .nil) ?_
  rw [isTrue_ofOption, List.length_map]
  simp only [pageMarkup, List.append_assoc, List.append_nil]

theorem renderPage_markup (baseUrl : String) {p : PageContent} (hids : ∀ f ∈ p.files, IsHexadecimal f.id) :
    ∃ page, renderPage none baseUrl p = some page ∧
      markup page.toList = pageMarkup (isDescribed p.description) p.files.length := by
  obtain ⟨text, ht, hm⟩ := standardPage_shows baseUrl hids
  refine ⟨String.ofList text, ?_, by rw [String.toList_ofList, hm]⟩
  show (renderAll (.ofGlobals (context baseUrl p)) standardPage).map String.ofList = _
  rw [ht, Option.map_some]

/-- The page of a folder without a template. -/
theorem convert_markup {c : Converter} {tree : FileTree} {folder : FilePath} {d : Download}
    (h : c.convert tree folder = .ok d) (ht : Converter.ownText tree folder templateName = .ok none) :
    markup d.pageContent.toList = pageMarkup (isDescribed d.description) d.files.length := by
  obtain ⟨relative, files, description, template, page, -, hfiles, -, htemplate, hpage, rfl⟩ :=
    Converter.convert_parts h
  obtain rfl : none = template := Except.ok.inj (ht.symm.trans htemplate)
  obtain ⟨entries, -, hnames⟩ := Converter.files_ok hfiles
  obtain ⟨-, hids⟩ := Converter.paths_of_files hnames
  have hhex : ∀ f ∈ files.map (Converter.describe description), IsHexadecimal f.id := by
    intro f hf
    obtain ⟨f', hf', rfl⟩ := List.mem_map.mp hf
    exact (hids f' hf' ▸ isHexadecimal_stableId f'.sourcePath : IsHexadecimal f'.id)
  obtain ⟨page', hpage', hm⟩ := @renderPage_markup c.baseUrl ⟨stableId folder,
    Converter.titleOf description folder, description.body, files.map (Converter.describe description)⟩ hhex
  obtain rfl : page = page' := Option.some.inj (hpage.symm.trans hpage')
  exact hm

/-- What is escaped has no markup, and can be read back. All pages that are made from the standard template have the
same markup if they have the same number of files and agree on whether there is a description; what is said of the files
does not even matter. So it is with the pages of folders that have no template. -/
theorem page_markup :
    (∀ cs, ∃ out, Formatter.html.format (.text cs) = some out ∧ markup out = [] ∧
      (∀ before after, out = before ++ '&' :: after → ∃ e ∈ Text.entities, e.toList <+: '&' :: after) ∧
      Text.unescape out = cs) ∧
    (∀ baseUrl baseUrl' (p p' : PageContent), p.files.length = p'.files.length →
      isDescribed p.description = isDescribed p'.description →
      (∀ f ∈ p.files ++ p'.files, IsHexadecimal f.id) →
      ∃ page page', renderPage none baseUrl p = some page ∧ renderPage none baseUrl' p' = some page' ∧
        markup page.toList = markup page'.toList) ∧
    ∀ (c c' : Converter) tree tree' folder folder' d d', c.convert tree folder = .ok d →
      c'.convert tree' folder' = .ok d' → Converter.ownText tree folder templateName = .ok none →
      Converter.ownText tree' folder' templateName = .ok none → d.files.length = d'.files.length →
      isDescribed d.description = isDescribed d'.description →
      markup d.pageContent.toList = markup d'.pageContent.toList := by
  refine ⟨fun cs => ⟨_, rfl, Text.markup_escape cs, fun _ _ h => Text.entity_of_split h, Text.unescape_escape cs⟩,
    ?_, ?_⟩
  · intro baseUrl baseUrl' p p' hcount hdescribed hids
    obtain ⟨page, hpage, hm⟩ := renderPage_markup baseUrl fun f hf => hids f (List.mem_append_left _ hf)
    obtain ⟨page', hpage', hm'⟩ := renderPage_markup baseUrl' fun f hf => hids f (List.mem_append_right _ hf)
    exact ⟨page, page', hpage, hpage', by rw [hm, hm', hcount, hdescribed]⟩
  · intro c c' tree tree' folder folder' d d' hd hd' ht ht' hcount hdescribed
    rw [convert_markup hd ht, convert_markup hd' ht', hcount, hdescribed]

/-- Values that look like tags, and values that do not. -/
theorem page_markup_hostile :
    let hostile : SharedFile := ⟨"0a", "</a><b>", some "\">", ⟨"share/a/b"⟩, "/share/a/b", 1, "text/html"⟩
    let harmless : SharedFile := ⟨"ff", "name", none, ⟨"share/c/d"⟩, "/share/c/d", 20, "text/plain"⟩
    ∃ page page', renderPage none "\"><script>" ⟨"", "</title>", some "'&quot;", [hostile]⟩ = some page ∧
      renderPage none "" ⟨"", "title", some "text", [harmless]⟩ = some page' ∧
      markup page.toList = markup page'.toList := by
  have hids : IsHexadecimal "0a" ∧ IsHexadecimal "ff" := by decide
  refine page_markup.2.1 _ _ _ _ rfl (by decide) fun f hf => ?_
  simp only [List.cons_append, List.nil_append, List.mem_cons, List.not_mem_nil, or_false] at hf
  rcases hf with rfl | rfl
  · exact hids.1
  · exact hids.2

end Folder
end ShareIndex
