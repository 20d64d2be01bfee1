import ShareIndex.Config.Settings
import ShareIndex.Proofs.FilePath.Entry
import ShareIndex.Proofs.Text.Blank

/-!
# ShareIndex.Proofs.Config.Field

The settings one by one.

* `Field`              — a setting, with its name, the kind of its values and what reads them.
* `Field.Decodes`      — which value a datum stands for.
* `read?_eq_some_iff`  — that is what is read.
* `ofLayers?_eq_some_iff` — all settings are read from layers, each on its own.
* `defaults`           — the settings that hold where nothing else is said, as a table.
-/

namespace ShareIndex
namespace Config

inductive Field where
  | workFolder
  | workers
  | url
  | store
  | dumpFile
  | indexTimeout
  | interval
  | skipFiles
  deriving DecidableEq, Repr

/-! ### What values are written as -/

/-- A natural number of 64 bits. -/
def Counts (d : Datum) (n : Nat) : Prop := d = .integer n ∧ n < Decimal.wordLimit

/-- A natural number of 64 bits, or nothing. -/
def CountsAny (d : Datum) : Option Nat → Prop
  | none => d = .absent
  | some n => Counts d n

/-- A text that names the place of a store. Blanks around the name do not count, and the path of a database is neither
empty nor ends in a blank. -/
def Locates (text : String) (location : Store.Location) : Prop :=
  ∃ before after, text.toList = before ++ location.render.toList ++ after ∧
    (∀ c ∈ before ++ after, Text.isBlank c = true) ∧
    ∀ path, location = .database path → ∃ last, path.text.toList.getLast? = some last ∧ Text.isBlank last = false

namespace Field

/-- The key of a setting in a table. -/
def name : Field → String
  | workFolder => "work_dir"
  | workers => "workers"
  | url => "url"
  | store => "store"
  | dumpFile => "dump_file"
  | indexTimeout => "index_timeout_secs"
  | interval => "interval_secs"
  | skipFiles => "skip_files"

@[reducible] def Value : Field → Type
  | workFolder | dumpFile => FilePath
  | workers => Nat
  | url => String
  | store => Store.Location
  | indexTimeout | interval => Option Nat
  | skipFiles => List String

def get (s : Settings) : (field : Field) → field.Value
  | workFolder => s.workFolder
  | workers => s.workers
  | url => s.url
  | store => s.store
  | dumpFile => s.dumpFile
  | indexTimeout => s.indexTimeout
  | interval => s.interval
  | skipFiles => s.skipFiles

def read? : (field : Field) → Datum → Option field.Value
  | workFolder | dumpFile => path?
  | workers => count?
  | url => text?
  | store => location?
  | indexTimeout | interval => optionalCount?
  | skipFiles => texts?

/-- The value of a setting that a datum stands for. -/
def Decodes : (field : Field) → Datum → field.Value → Prop
  | workFolder, d, path | dumpFile, d, path => d = .text path.text
  | workers, d, n => Counts d n
  | url, d, s => d = .text s
  | store, d, location => ∃ text, d = .text text ∧ Locates text location
  | indexTimeout, d, n | interval, d, n => CountsAny d n
  | skipFiles, d, names => d = .list (names.map .text)

end Field

/-! ### Reading -/

theorem text?_eq_some_iff {d : Datum} {s : String} : text? d = some s ↔ d = .text s := by
  cases d <;> simp [text?]

theorem path?_eq_some_iff {d : Datum} {path : FilePath} : path? d = some path ↔ d = .text path.text := by
  rw [path?, Option.map_eq_some_iff]
  constructor
  · rintro ⟨s, hs, rfl⟩
    exact text?_eq_some_iff.mp hs
  · exact fun h => ⟨path.text, text?_eq_some_iff.mpr h, rfl⟩

theorem count?_eq_some_iff {d : Datum} {n : Nat} : count? d = some n ↔ Counts d n := by
  cases d with
  | integer m =>
    rw [count?, Counts, Datum.integer.injEq]
    split
    · rename_i h
      rw [Option.some.injEq]
      omega
    · rename_i h
      refine ⟨nofun, fun hn => absurd ?_ h⟩
      omega
  | _ => simp [count?, Counts]

theorem optionalCount?_eq_some_iff {d : Datum} {n : Option Nat} : optionalCount? d = some n ↔ CountsAny d n := by
  cases n with
  | none =>
    cases d with
    | absent => exact ⟨fun _ => rfl, fun _ => rfl⟩
    | _ => simp [optionalCount?, CountsAny]
  | some n =>
    have hcount : optionalCount? d = some (some n) ↔ count? d = some n := by
      cases d <;> simp [optionalCount?, count?]
    exact hcount.trans count?_eq_some_iff

theorem texts?_eq_some_iff {d : Datum} {names : List String} : texts? d = some names ↔ d = .list (names.map .text) := by
  cases d with
  | list items =>
    rw [texts?, Datum.list.injEq]
    induction items generalizing names with
    | nil => cases names <;> simp
    | cons d items ih =>
      rw [List.mapM_cons]
      cases names <;> simp [Option.bind_eq_some_iff, text?_eq_some_iff, ih]
  | _ => simp [texts?]

theorem locates_iff_trim {text : String} {location : Store.Location} : Locates text location ↔
    Text.trim text.toList = location.render.toList ∧ location ≠ .database ⟨""⟩ := by
  rw [Text.trim_eq_iff]
  cases location with
  | memory =>
    have hname : Store.Location.memory.render.toList = ['m', 'e', 'm', 'o', 'r', 'y'] := rfl
    have hfirst : ∀ c, ['m', 'e', 'm', 'o', 'r', 'y'].head? = some c → Text.isBlank c = false := fun c hc => by
      cases hc
      rfl
    have hlast : ∀ c, ['m', 'e', 'm', 'o', 'r', 'y'].getLast? = some c → Text.isBlank c = false := fun c hc => by
      cases hc
      rfl
    rw [Locates, hname]
    constructor
    · rintro ⟨before, after, htext, hblank, -⟩
      exact ⟨⟨hfirst, hlast, before, after, htext, hblank⟩, nofun⟩
    · rintro ⟨⟨-, -, before, after, htext, hblank⟩, -⟩
      exact ⟨before, after, htext, hblank, nofun⟩
  | database path =>
    have hrender : (Store.Location.database path).render.toList = "sqlite:".toList ++ path.text.toList :=
      String.toList_append
    rw [Locates, hrender]
    constructor
    · rintro ⟨before, after, htext, hblank, hpath⟩
      obtain ⟨last, hlast, hnot⟩ := hpath path rfl
      refine ⟨⟨by simp +decide, fun c hc => ?_, before, after, htext, hblank⟩, ?_⟩
      · rw [List.getLast?_append, hlast] at hc
        exact Option.some.inj hc ▸ hnot
      · rintro ⟨⟩
        cases hlast
    · rintro ⟨⟨-, hlast, before, after, htext, hblank⟩, hpath⟩
      refine ⟨before, after, htext, hblank, ?_⟩
      rintro _ ⟨⟩
      cases hend : path.text.toList.getLast? with
      | none =>
        have hempty : path.text = "" := String.toList_eq_nil_iff.mp (List.getLast?_eq_none_iff.mp hend)
        exact absurd (by rw [← hempty]) hpath
      | some last =>
        refine ⟨last, rfl, hlast last ?_⟩
        rw [List.getLast?_append, hend]
        rfl

theorem pathOf?_eq_some_iff {cs : List Char} {path : FilePath} : Store.Location.pathOf? cs = some path.text.toList ↔
    cs = (Store.Location.database path).render.toList := by
  rw [Store.Location.pathOf?, FilePath.afterStart?_eq_some, Store.Location.render, String.toList_append]

theorem parse?_eq_some_iff {text : String} {location : Store.Location} :
    Store.Location.parse? text = some location ↔ Locates text location := by
  rw [locates_iff_trim, Store.Location.parse?]
  cases location with
  | memory =>
    split
    · rename_i h
      exact ⟨fun _ => ⟨h, nofun⟩, fun _ => rfl⟩
    · rename_i h
      refine ⟨fun hsome => ?_, fun htrim => absurd htrim.1 h⟩
      split at hsome <;> cases hsome
  | database path =>
    split
    · rename_i h
      refine ⟨nofun, fun htrim => ?_⟩
      have hfirst := congrArg List.head? (h.symm.trans htrim.1)
      rw [Store.Location.render, String.toList_append] at hfirst
      cases hfirst
    · split
      · rename_i c rest hpath
        constructor
        · rintro ⟨⟩
          refine ⟨pathOf?_eq_some_iff.mp (hpath.trans (by rw [String.toList_ofList])), fun hempty => ?_⟩
          have htext := congrArg (·.text.toList) (Store.Location.database.inj hempty)
          rw [String.toList_ofList] at htext
          cases htext
        · rintro ⟨htrim, -⟩
          rw [pathOf?_eq_some_iff.mpr htrim] at hpath
          rw [← Option.some.inj hpath, String.ofList_toList]
      · rename_i hpath
        refine ⟨nofun, fun ⟨htrim, hne⟩ => ?_⟩
        cases hlist : path.text.toList with
        | nil => exact absurd (String.toList_eq_nil_iff.mp hlist) fun h => hne (by rw [← h])
        | cons c rest => exact absurd ((pathOf?_eq_some_iff.mpr htrim).trans (congrArg some hlist)) (hpath c rest)

namespace Field

/-- What is read is the value that the datum stands for. -/
theorem read?_eq_some_iff {field : Field} {d : Datum} {value : field.Value} :
    field.read? d = some value ↔ field.Decodes d value := by
  cases field with
  | workFolder | dumpFile => exact path?_eq_some_iff
  | workers => exact count?_eq_some_iff
  | url => exact text?_eq_some_iff
  | store =>
    refine Option.bind_eq_some_iff.trans (exists_congr fun text => ?_)
    rw [text?_eq_some_iff, parse?_eq_some_iff]
  | indexTimeout | interval => exact optionalCount?_eq_some_iff
  | skipFiles => exact texts?_eq_some_iff

/-- No setting is a table. -/
theorem read?_table (field : Field) (entries : List (String × Datum)) : field.read? (.table entries) = none := by
  cases field <;> rfl

end Field

theorem Settings.ofLayers?_eq_some_iff {layers : Layers} {s : Settings} : Settings.ofLayers? layers = some s ↔
    ∀ field : Field, layers.read? field.name field.read? (field.get .default) = some (field.get s) := by
  constructor
  · intro h
    simp only [ofLayers?, Option.bind_eq_bind, Option.bind_eq_some_iff, Option.pure_def] at h
    obtain ⟨_, hworkFolder, _, hworkers, _, hurl, _, hstore, _, hdumpFile, _, hindexTimeout, _, hinterval, _,
      hskipFiles, hs⟩ := h
    obtain rfl := Option.some.inj hs
    rintro (_ | _ | _ | _ | _ | _ | _ | _)
    exacts [hworkFolder, hworkers, hurl, hstore, hdumpFile, hindexTimeout, hinterval, hskipFiles]
  · intro h
    have hworkFolder : layers.read? "work_dir" path? default.workFolder = some s.workFolder := h .workFolder
    have hworkers : layers.read? "workers" count? default.workers = some s.workers := h .workers
    have hurl : layers.read? "url" text? default.url = some s.url := h .url
    have hstore : layers.read? "store" location? default.store = some s.store := h .store
    have hdumpFile : layers.read? "dump_file" path? default.dumpFile = some s.dumpFile := h .dumpFile
    have hindexTimeout : layers.read? "index_timeout_secs" optionalCount? default.indexTimeout = some s.indexTimeout :=
      h .indexTimeout
    have hinterval : layers.read? "interval_secs" optionalCount? default.interval = some s.interval := h .interval
    have hskipFiles : layers.read? "skip_files" texts? default.skipFiles = some s.skipFiles := h .skipFiles
    simp only [ofLayers?, hworkFolder, hworkers, hurl, hstore, hdumpFile, hindexTimeout, hinterval, hskipFiles]
    rfl

/-! ### Defaults -/

namespace Field

/-- A value as a datum. -/
def write : (field : Field) → field.Value → Datum
  | workFolder, path | dumpFile, path => .text path.text
  | workers, n => .integer n
  | url, s => .text s
  | store, location => .text location.render
  | indexTimeout, n | interval, n => n.elim .absent fun n => .integer n
  | skipFiles, names => .list (names.map .text)

def all : List Field := [workFolder, workers, url, store, dumpFile, indexTimeout, interval, skipFiles]

end Field

/-- The table of the settings that hold where nothing else is said. -/
def defaults : Datum := .table (Field.all.map fun field => (field.name, field.write (field.get .default)))

theorem entry?_defaults (field : Field) : defaults.entry? field.name = some (field.write (field.get .default)) := by
  cases field <;> rfl

theorem decodes_default (field : Field) : field.Decodes (field.write (field.get .default)) (field.get .default) := by
  cases field with
  | workers => exact ⟨rfl, by decide⟩
  | store => exact ⟨_, rfl, [], [], by simp, by simp, nofun⟩
  | _ => rfl

end Config
end ShareIndex
