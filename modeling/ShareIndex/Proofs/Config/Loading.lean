import ShareIndex.Config.Source
import ShareIndex.Proofs.Config.Field
import ShareIndex.Proofs.Config.Variable
import ShareIndex.Proofs.FileTree.Alike
import ShareIndex.Proofs.Json.RoundTrip
import ShareIndex.Proofs.Text.Bytes

/-!
# ShareIndex.Proofs.Config.Loading

Settings are what the highest source says that mentions them.

* `Reads`                 — the tables of the files that must be read, from the lowest to the highest.
* `fileLayers?_eq_ok_iff` — these are the layers of the files.
* `sources`               — the defaults below them, and the variables above them.
* `Decided`               — each setting is what the highest source says that mentions it.
* `load_exact`            — there are settings when the highest sources have fitting values, and these are the settings;
  nothing else that any source says matters.
-/

namespace ShareIndex
namespace Config

/-! ### Files -/

/-- There is a regular file, of whatever content, where the path leads. -/
def Present (files : FileTree) (path : FilePath) : Prop := ∃ entry, files.stat path = .ok entry ∧ entry.size?.isSome

/-- The first of the spots where a file is looked for at which there is one. -/
def Found (files : FileTree) (path spot : FilePath) : Prop :=
  Present files spot ∧ ∃ before after, spots files.here path = before ++ spot :: after ∧
    ∀ other ∈ before, ¬ Present files other

/-- The file can be read as a text, which is one in the format and has the table. -/
def Parses (files : FileTree) (path : FilePath) (format : Format) (d : Datum) : Prop :=
  ∃ text, files.readText path = .ok text ∧ format.read? text = some d

/-- The tables of those of the files in a folder that are found. All of them can be read. -/
inductive Collects (files : FileTree) (folder : FilePath) : List (String × Format) → Layers → Prop where
  | nil : Collects files folder [] []
  | missing {name : String} {format : Format} {rest : List (String × Format)} {layers : Layers} :
      (∀ spot ∈ spots files.here (folder.entry name), ¬ Present files spot) → Collects files folder rest layers →
      Collects files folder ((name, format) :: rest) layers
  | read {name : String} {format : Format} {rest : List (String × Format)} {spot : FilePath} {d : Datum}
      {layers : Layers} : Found files (folder.entry name) spot → Parses files spot format d →
      Collects files folder rest layers → Collects files folder ((name, format) :: rest) (d :: layers)

/-- The extensions that tell the format of a file. -/
def extensions : List (String × Format) := [("toml", .toml), ("yaml", .yaml), ("yml", .yaml), ("json", .json)]

/-- The tables of the files that must be read, from the lowest to the highest: those of the user, if there is a folder
for them, or the one that is named. -/
inductive Reads (files : FileTree) : Option FilePath → Option FilePath → Layers → Prop where
  | homeless : Reads files none none []
  | user {folder : FilePath} {layers : Layers} : Collects files folder userFiles layers →
      Reads files (some folder) none layers
  | named {folder : Option FilePath} {path : FilePath} {extension : String} {format : Format} {d : Datum} :
      path.extension? = some extension → (extension, format) ∈ extensions → Parses files path format d →
      Reads files folder (some path) [d]

variable {files : FileTree} {folder path spot : FilePath} {home named : Option FilePath} {format : Format}
  {layers : Layers}

theorem fileTable?_eq_some_iff {d : Datum} : fileTable? files path format = some d ↔ Parses files path format d := by
  rw [fileTable?, Parses]
  cases files.readText path <;> simp

theorem isFile_iff : isFile files path = true ↔ Present files path := by
  rw [isFile, Present]
  cases files.stat path with
  | error e => simp
  | ok entry => cases entry <;> simp [Entry.size?]

theorem find?_spots : (spots files.here path).find? (isFile files) = some spot ↔ Found files path spot := by
  simp only [List.find?_eq_some_iff_append, Found, isFile_iff, Bool.not_eq_true', ← Bool.not_eq_true]

/-- A path from the root is the only spot. -/
theorem found_absolute (h : path.isAbsolute = true) (hp : Present files path) : Found files path path :=
  ⟨hp, [], [], by rw [spots, if_pos h]; rfl, nofun⟩

theorem ofPath?_eq_some_iff : Format.ofPath? path = some format ↔
    ∃ extension, path.extension? = some extension ∧ (extension, format) ∈ extensions := by
  rw [Format.ofPath?, Option.bind_eq_some_iff]
  refine exists_congr fun extension => and_congr_right fun _ => ?_
  grind [Format.ofExtension?, extensions]

theorem collects_iff {names : List (String × Format)} :
    ((names.filterMap fun file => ((spots files.here (folder.entry file.1)).find? (isFile files)).map (·, file.2)).mapM
      fun file => fileTable? files file.1 file.2) = some layers ↔ Collects files folder names layers := by
  induction names generalizing layers with
  | nil =>
    constructor
    · intro h
      obtain rfl := Option.some.inj h
      exact .nil
    · rintro ⟨⟩
      rfl
  | cons file rest ih =>
    obtain ⟨name, format⟩ := file
    cases hs : (spots files.here (folder.entry name)).find? (isFile files) with
    | some spot =>
      have hfound := find?_spots.mp hs
      rw [List.filterMap_cons_some (by rw [hs]; rfl), List.mapM_cons]
      constructor
      · intro h
        obtain ⟨d, hd, h⟩ := Option.bind_eq_some_iff.mp h
        obtain ⟨layers, hlayers, h⟩ := Option.bind_eq_some_iff.mp h
        obtain rfl := Option.some.inj h
        exact .read hfound (fileTable?_eq_some_iff.mp hd) (ih.mp hlayers)
      · intro h
        cases h with
        | missing hmissing _ => exact absurd hfound.1 (hmissing spot (List.mem_of_find?_eq_some hs))
        | read hother hd hrest =>
          obtain rfl := Option.some.inj (hs.symm.trans (find?_spots.mpr hother))
          rw [fileTable?_eq_some_iff.mpr hd, ih.mpr hrest]
          rfl
    | none =>
      have hmissing : ∀ spot ∈ spots files.here (folder.entry name), ¬ Present files spot := fun spot hm hp =>
        List.find?_eq_none.mp hs spot hm (isFile_iff.mpr hp)
      rw [List.filterMap_cons_none (by rw [hs]; rfl), ih]
      constructor
      · exact .missing hmissing
      · intro h
        cases h with
        | missing _ hrest => exact hrest
        | read hfound _ _ =>
          rw [find?_spots.mpr hfound] at hs
          cases hs

/-- The layers of the files are the tables of the files that must be read. -/
theorem fileLayers?_eq_ok_iff : fileLayers? files home named = .ok layers ↔ Reads files home named layers := by
  cases named with
  | none =>
    -- the equations of `fileLayers?` take long to derive, and are not needed
    have hlayers : fileLayers? files home none = .ok layers ↔ userLayers? files home = some layers := by
      delta fileLayers?
      cases userLayers? files home <;> simp
    rw [hlayers, userLayers?]
    cases home with
    | none =>
      constructor
      · intro h
        obtain rfl := Option.some.inj h
        exact .homeless
      · rintro ⟨⟩
        rfl
    | some folder =>
      rw [foundFiles, collects_iff]
      exact ⟨.user, fun h => by cases h with | user hcollects => exact hcollects⟩
  | some path =>
    have hlayers : fileLayers? files home (some path) = .ok layers ↔
        ∃ format, Format.ofPath? path = some format ∧ ∃ d, fileTable? files path format = some d ∧ layers = [d] := by
      delta fileLayers?
      dsimp only
      cases Format.ofPath? path with
      | none => simp
      | some format => cases hd : fileTable? files path format <;> simp [hd, eq_comm]
    rw [hlayers]
    constructor
    · rintro ⟨format, hformat, d, hd, rfl⟩
      obtain ⟨extension, hextension, hmem⟩ := ofPath?_eq_some_iff.mp hformat
      exact .named hextension hmem (fileTable?_eq_some_iff.mp hd)
    · intro h
      cases h with
      | named hextension hmem hd =>
        exact ⟨_, ofPath?_eq_some_iff.mpr ⟨_, hextension, hmem⟩, _, fileTable?_eq_some_iff.mpr hd, rfl⟩

theorem isTable_of_read {text : String} {d : Datum} (h : format.read? text = some d) : d.IsTable := by
  obtain ⟨parsed, -, hd⟩ := Option.bind_eq_some_iff.mp h
  cases parsed with
  | table entries =>
    obtain ⟨disclosed, -, hd⟩ := Option.bind_eq_some_iff.mp hd
    exact ⟨disclosed, (Option.some.inj hd).symm⟩
  | _ => cases hd

theorem isTable_of_collects {names : List (String × Format)} (h : Collects files folder names layers) :
    ∀ layer ∈ layers, layer.IsTable := by
  induction h with
  | nil => exact nofun
  | missing _ _ ih => exact ih
  | read _ hd _ ih =>
    obtain ⟨text, -, hd⟩ := hd
    exact List.forall_mem_cons.mpr ⟨isTable_of_read hd, ih⟩

theorem isTable_of_reads (h : Reads files home named layers) : ∀ layer ∈ layers, layer.IsTable := by
  cases h with
  | homeless => exact nofun
  | user hcollects => exact isTable_of_collects hcollects
  | named _ _ hd =>
    obtain ⟨text, -, hd⟩ := hd
    exact List.forall_mem_singleton.mpr (isTable_of_read hd)

/-! ### Sources -/

/-- All sources: the defaults, the files, and the variables. -/
def sources (layers : Layers) (values : List (String × String)) : Layers :=
  defaults :: (layers ++ [Variable.table values])

variable {values : List (String × String)} {config : Settings}

/-- Each setting is what the highest source says that mentions it. -/
def Decided (all : Layers) (config : Settings) : Prop :=
  ∀ field : Field, ∃ d, all.Decides field.name d ∧ field.Decodes d (field.get config)

theorem setting?_sources (layers : Layers) (values : List (String × String)) (field : Field) :
    (sources layers values).setting? field.name =
      (Layers.setting? (layers ++ [Variable.table values]) field.name).or
        (some (field.write (field.get .default))) := by
  rw [sources, Layers.setting?_cons, entry?_defaults]

/-- A default counts like an entry of a lowest source. -/
theorem read?_sources (layers : Layers) (values : List (String × String)) (field : Field) :
    (sources layers values).read? field.name field.read? (field.get .default) =
      Layers.read? (layers ++ [Variable.table values]) field.name field.read? (field.get .default) := by
  rw [Layers.read?, Layers.read?, setting?_sources]
  cases Layers.setting? (layers ++ [Variable.table values]) field.name with
  | none => exact Field.read?_eq_some_iff.mpr (decodes_default field)
  | some d => rfl

theorem read?_eq_some_iff {field : Field} {value : field.Value} :
    Layers.read? (layers ++ [Variable.table values]) field.name field.read? (field.get .default) = some value ↔
      ∃ d, (sources layers values).Decides field.name d ∧ field.Decodes d value := by
  simp only [← Layers.setting?_eq_some_iff, ← Field.read?_eq_some_iff]
  rw [← read?_sources, Layers.read?, setting?_sources]
  cases Layers.setting? (layers ++ [Variable.table values]) field.name <;> simp

theorem ofLayers?_eq_some_iff :
    Settings.ofLayers? (layers ++ [Variable.table values]) = some config ↔ Decided (sources layers values) config := by
  rw [Settings.ofLayers?_eq_some_iff]
  exact forall_congr' fun field => read?_eq_some_iff

/-- Reading all settings from one table of all sources does not make a difference. -/
theorem ofLayers?_merged (h : ∀ layer ∈ layers, layer.IsTable) :
    Settings.ofLayers? [(sources layers values).merged] = Settings.ofLayers? (layers ++ [Variable.table values]) := by
  have htables : ∀ layer ∈ sources layers values, layer.IsTable :=
    List.forall_mem_cons.mpr ⟨⟨_, rfl⟩, List.forall_mem_append.mpr ⟨h, List.forall_mem_singleton.mpr ⟨_, rfl⟩⟩⟩
  ext config
  rw [Settings.ofLayers?_eq_some_iff, Settings.ofLayers?_eq_some_iff]
  refine forall_congr' fun field => ?_
  rw [Layers.read?_merged field.read?_table htables, read?_sources]

/-! ### Loading -/

/-- Settings that the program can work with. -/
structure Settings.Workable (s : Settings) : Prop where
  workFolder : s.workFolder.text ≠ ""
  workers : 1 ≤ s.workers
  dumpFile : s.dumpFile.text ≠ ""
  indexTimeout : s.indexTimeout ≠ some 0
  interval : s.interval ≠ some 0

theorem Settings.fault?_eq_none_iff {s : Settings} : s.fault? = none ↔ s.Workable := by
  constructor
  · intro h
    simp only [fault?] at h
    split_ifs at h with hfolder hworkers hdump htimeout hinterval
    exact ⟨hfolder, Nat.one_le_iff_ne_zero.mpr hworkers, hdump, htimeout, hinterval⟩
  · rintro ⟨hfolder, hworkers, hdump, htimeout, hinterval⟩
    rw [fault?, if_neg hfolder, if_neg (Nat.one_le_iff_ne_zero.mp hworkers), if_neg hdump, if_neg htimeout,
      if_neg hinterval]

/-- The settings in the layers, if they can work. -/
def decode (layers : Layers) : Except Error Settings := ofLayers layers >>= Settings.validate

theorem decode_eq_ok_iff : decode layers = .ok config ↔ Settings.ofLayers? layers = some config ∧ config.Workable := by
  rw [decode, ofLayers]
  cases hs : Settings.ofLayers? layers with
  | none => exact ⟨nofun, nofun⟩
  | some s =>
    rw [Option.some.injEq, ← Settings.fault?_eq_none_iff]
    change s.validate = .ok config ↔ _
    rw [Settings.validate]
    cases hfault : s.fault? with
    | none => exact ⟨fun h => by cases h; exact ⟨rfl, hfault⟩, fun h => congrArg _ h.1⟩
    | some subject =>
      refine ⟨nofun, fun h => ?_⟩
      rw [h.1, h.2] at hfault
      cases hfault

theorem load_eq (h : Reads files home named layers) :
    load files home named values = decode (layers ++ [Variable.table values]) := by
  rw [load, fileLayers?_eq_ok_iff.mpr h]
  rfl

theorem load_eq_ok_iff : load files home named values = .ok config ↔ ∃ layers, Reads files home named layers ∧
    Decided (sources layers values) config ∧ config.Workable := by
  constructor
  · intro h
    cases hl : fileLayers? files home named with
    | error e =>
      rw [load, hl] at h
      cases h
    | ok layers =>
      have hreads := fileLayers?_eq_ok_iff.mp hl
      rw [load_eq hreads, decode_eq_ok_iff, ofLayers?_eq_some_iff] at h
      exact ⟨layers, hreads, h⟩
  · rintro ⟨layers, hreads, h⟩
    rwa [load_eq hreads, decode_eq_ok_iff, ofLayers?_eq_some_iff]

theorem isWord_name (field : Field) : Variable.IsWord field.name := by
  cases field <;> exact ⟨by decide, by decide, fun c hc => by cases hc; rfl, fun c hc => by cases hc; rfl⟩

/-- There are settings when all files that must be read can be read, each setting has a fitting value in the highest
source that mentions it, and the settings can work; they are these values. Nothing else in the sources matters, not even
for a failure, and one table of all sources has the same settings in it. -/
theorem load_exact (files : FileTree) (home named : Option FilePath) (values : List (String × String)) :
    (∀ config, load files home named values = .ok config ↔
      ∃ layers, Reads files home named layers ∧ Decided (sources layers values) config ∧ config.Workable) ∧
    (∀ layers, Reads files home named layers →
      load files home named values = decode [(sources layers values).merged] ∧
      ∀ files' home' named' values' layers', Reads files' home' named' layers' →
        (∀ (field : Field) d,
          (sources layers' values').Decides field.name d ↔ (sources layers values).Decides field.name d) →
        load files' home' named' values' = load files home named values) ∧
    ((∀ v ∈ values, Variable.Marked v.1 → '.' ∉ v.1.toList) →
      ∀ field : Field, Variable.Says values field.name (Datum.entry? field.name (Variable.table values))) := by
  refine ⟨fun config => load_eq_ok_iff, fun layers hreads => ⟨?_, ?_⟩,
    fun hd field => Variable.says_table hd (isWord_name field)⟩
  · rw [load_eq hreads, decode, decode, ofLayers, ofLayers, ofLayers?_merged (isTable_of_reads hreads)]
  · intro files' home' named' values' layers' hreads' h
    have hsettings : Settings.ofLayers? (layers' ++ [Variable.table values']) =
        Settings.ofLayers? (layers ++ [Variable.table values]) := by
      ext config
      rw [ofLayers?_eq_some_iff, ofLayers?_eq_some_iff, Decided, Decided]
      simp only [h]
    rw [load_eq hreads', load_eq hreads, decode, decode, ofLayers, ofLayers, hsettings]

/-! ### Files that have been written -/

theorem decodeText_bytes (text : String) : FileTree.decodeText (Text.bytes text) = .ok text := by
  have hbytes : (⟨(Text.bytes text).toArray⟩ : ByteArray) = text.toUTF8 := by rw [Text.bytes, Array.toArray_toList]
  have hvalid : String.fromUTF8? text.toUTF8 = some text := dif_pos text.isValidUTF8
  rw [FileTree.decodeText, hbytes, hvalid]

/-- A file into which a table is written. -/
def written (table : Datum) : Entry := .file (Text.bytes (String.ofList (Json.write table)))

/-- A table can be written, and as settings it is what it was before. -/
structure Writable (table : Datum) : Prop where
  fits : Json.Fits Json.maxDepth table
  settings : Enclosure.settings? true table = some table

section Written

variable {place : Place} {table : Datum}

theorem parses_written (hw : Writable table) (hplace : files.place path = .ok place)
    (hr : (files.rights place).read = true) (he : files.entry? place = some (written table)) :
    Parses files path .json table := by
  refine ⟨String.ofList (Json.write table), ?_, ?_⟩
  · rw [FileTree.readText, FileTree.read_of_place hplace hr he]
    exact decodeText_bytes _
  · rw [Format.read?, String.toList_ofList, Json.read?_write hw.fits]
    exact hw.settings

/-- A table that is written into the highest of the files of the user is read, if the others are missing. -/
theorem reads_written (hw : Writable table)
    (habsolute : ∀ file ∈ userFiles, (folder.entry file.1).isAbsolute = true)
    (hfree : ∀ name ∈ ["fetchtrack.toml", "fetchtrack.yaml"], files.place (folder.entry name) = .error .notFound)
    (hplace : files.place (folder.entry "fetchtrack.json") = .ok place) (hr : (files.rights place).read = true)
    (he : files.entry? place = some (written table)) : Reads files (some folder) none [table] := by
  have hmissing : ∀ file ∈ userFiles, file.1 ∈ ["fetchtrack.toml", "fetchtrack.yaml"] →
      ∀ spot ∈ spots files.here (folder.entry file.1), ¬ Present files spot := by
    rintro file hm hn spot hspot ⟨entry, hstat, -⟩
    rw [spots, if_pos (habsolute file hm)] at hspot
    rw [List.mem_singleton.mp hspot, FileTree.stat, hfree file.1 hn] at hstat
    cases hstat
  have hpresent : Present files (folder.entry "fetchtrack.json") := by
    refine ⟨written table, ?_, rfl⟩
    rw [FileTree.stat, hplace]
    simp only [he]
  exact .user (.missing (hmissing (_, .toml) (by decide) (by decide))
    (.missing (hmissing (_, .yaml) (by decide) (by decide))
      (.read (found_absolute (habsolute (_, .json) (by decide)) hpresent) (parses_written hw hplace hr he) .nil)))

end Written

/-! ### Values that cannot work, below others -/

def userTable (workers : Datum) : Datum :=
  .table [("workers", workers), ("skip_files", .list [.text "a", .text "b"]), ("url", .text "http://h"),
    ("x", .truth true)]

/-- The folder of a user with one file; the program runs elsewhere. -/
def userTree (workers : Datum) : FileTree where
  nodes := [(["srv"], .folder), (["home"], .folder), (["home", "u"], .folder),
    (["home", "u", "fetchtrack.json"], written (userTable workers))]
  nodup := by
    show [["srv"], ["home"], ["home", "u"], ["home", "u", "fetchtrack.json"]].Nodup
    decide
  here := ["srv"]

def userFolder : FilePath := ⟨"/home/u"⟩

def userValues : List (String × String) :=
  [("FETCHTRACK_WORKERS", "2"), ("FETCHTRACK_SKIP_FILES", "[c]"), (" fetchtrack_interval_secs", "300")]

def userSettings : Settings :=
  { Settings.default with workers := 2, url := "http://h", interval := some 300, skipFiles := ["c"] }

section UserFolder

variable {workers : Datum}

theorem place_userTree : (userTree workers).place (userFolder.entry "fetchtrack.json") =
    .ok ["home", "u", "fetchtrack.json"] := FileTree.place_of_steps 5 (by decide) (by decide) rfl

theorem writable_userTable (hw : ∀ depth, Json.Fits depth workers)
    (hd : Enclosure.settings? true (userTable workers) = some (userTable workers)) : Writable (userTable workers) := by
  have hnodup : ["workers", "skip_files", "url", "x"].Nodup := by decide
  refine ⟨?_, hd⟩
  change Json.Fits (125 + 1 + 1) _
  refine .table hnodup (List.forall_mem_cons.mpr ⟨hw _, List.forall_mem_cons.mpr ⟨.list fun d hd => ?_, ?_⟩⟩)
  · obtain ⟨name, -, rfl⟩ := List.mem_map.mp (show d ∈ ["a", "b"].map Datum.text from hd)
    exact .text _ _
  · exact List.forall_mem_cons.mpr ⟨.text _ _, List.forall_mem_cons.mpr ⟨.truth _ _, nofun⟩⟩

theorem reads_userTree (hw : Writable (userTable workers)) :
    Reads (userTree workers) (some userFolder) none [userTable workers] := by
  refine reads_written hw (by decide) (fun name hm => ?_) place_userTree rfl rfl
  simp only [List.mem_cons, List.not_mem_nil, or_false] at hm
  rcases hm with rfl | rfl
  · exact FileTree.place_of_free 5 ["home", "u", "fetchtrack.toml"] (by decide) (by decide) rfl
  · exact FileTree.place_of_free 5 ["home", "u", "fetchtrack.yaml"] (by decide) (by decide) rfl

end UserFolder

/-- The workers in the file do not decide anything. -/
theorem decides_userFolder (workers workers' : Datum) (field : Field) (d : Datum) :
    (sources [userTable workers] userValues).Decides field.name d ↔
      (sources [userTable workers'] userValues).Decides field.name d := by
  have hsetting : ∀ low, (sources [low] userValues).setting? field.name =
      ((Datum.entry? field.name (Variable.table userValues)).or (low.entry? field.name)).or
        (some (field.write (field.get .default))) := by
    intro low
    rw [setting?_sources, Layers.setting?_concat, Layers.setting?_cons]
    rfl
  have hworkers : (Datum.entry? "workers" (Variable.table userValues)).isSome = true := by decide +kernel
  rw [← Layers.setting?_eq_some_iff, ← Layers.setting?_eq_some_iff, hsetting, hsetting]
  cases field with
  | workers =>
    obtain ⟨found, hfound⟩ := Option.isSome_iff_exists.mp hworkers
    rw [Field.name, hfound]
    rfl
  | _ => rfl

/-- Workers that are no number, and none at all, below two: in the folder of the user, and in a file that is named. -/
theorem load_exact_userFolder :
    (Reads (userTree (.text "many")) (some userFolder) none [userTable (.text "many")] ∧
      load (userTree (.text "many")) (some userFolder) none userValues = .ok userSettings) ∧
    load (userTree (.integer 0)) none (some ⟨"/home/u/fetchtrack.json"⟩) userValues = .ok userSettings ∧
    ∃ d, Variable.Says userValues "interval_secs" (some d) ∧ CountsAny d (some 300) := by
  have hmany : Reads (userTree (.text "many")) (some userFolder) none [userTable (.text "many")] :=
    reads_userTree (writable_userTable (fun depth => .text depth _) rfl)
  have hnone : Reads (userTree (.integer 0)) none (some ⟨"/home/u/fetchtrack.json"⟩) [userTable (.integer 0)] :=
    .named (by decide : _ = some "json") (by decide)
      (parses_written (writable_userTable (fun depth => .integer depth ⟨by decide, by decide⟩) rfl) place_userTree
        rfl rfl)
  have hdecided : Decided (sources [userTable (.text "many")] userValues) userSettings :=
    ofLayers?_eq_some_iff.mp (by decide +kernel)
  obtain ⟨hok, hreads, hvalues⟩ := load_exact (userTree (.text "many")) (some userFolder) none userValues
  have hload : load (userTree (.text "many")) (some userFolder) none userValues = .ok userSettings :=
    (hok _).mpr ⟨_, hmany, hdecided, by decide, by decide, by decide, by decide, by decide⟩
  refine ⟨⟨hmany, hload⟩, ?_, ?_⟩
  · rw [(hreads _ hmany).2 _ _ _ _ _ hnone (decides_userFolder _ _), hload]
  · have hdotless : ∀ v ∈ userValues, '.' ∉ v.1.toList := by decide
    have hread : (Datum.entry? "interval_secs" (Variable.table userValues)).bind optionalCount? = some (some 300) := by
      decide +kernel
    obtain ⟨d, hd, hcount⟩ := Option.bind_eq_some_iff.mp hread
    have hsays := hvalues (fun v hv _ => hdotless v hv) .interval
    rw [Field.name, hd] at hsays
    exact ⟨d, hsays, optionalCount?_eq_some_iff.mp hcount⟩

end Config
end ShareIndex
