import ShareIndex.Proofs.CommandLine.Job
import ShareIndex.Proofs.Config.Loading
import ShareIndex.Proofs.Store.DatabaseFile

/-!
# ShareIndex.Proofs.CommandLine.Course

Runs of the program one after the other, over the file of one database that is empty at first.

* `Over`        — a run that does a job over the file at a place.
* `Starts`      — its session, if the settings can be read; `Starts.closed` says what is in the file afterwards.
* `Course`      — the files after such runs; between them, anything but that file may change.
* `Course.anchored` — the invariant of courses.
* `Tied`        — no counter is without a file of the active generation.
* `counters_tied` — so it is after every run, and every job does to the store what it should.
* `run_host`      — a run on a host with settings in a file, and a database elsewhere.
-/

namespace ShareIndex
namespace CommandLine

open Index (Anchored World host)
open Repository
open Store (Address Backend Database Tables hashOf persist_kept persist_resolved resolve stored? stored?_database
  stored?_file stored?_grown)

/-- The settings name the file at the place. It can be opened, and its tables can be written to. -/
def Opens (place : Place) (files : FileTree) (settings : Config.Settings) : Prop :=
  ∃ path target usage frozen store after, settings.store = .database path ∧
    Address.of? path = some (.file target usage frozen) ∧ openStore files settings.store = (.ok store, after) ∧
    resolve after target = some place ∧ store.access = .writing

/-- A run of the program for a job. If the settings can be read, they name the file at the place. -/
structure Over (place : Place) (e : Environment) (words : List String) (files : FileTree) (config : Option FilePath)
    (job : Job) : Prop where
  parsed : parse words e.configName = .ok ⟨config, .once job⟩
  opens : ∀ settings, Config.load files e.userFolder config e.values = .ok settings → Opens place files settings

/-- The program starts a session for a job. The settings name the file at the place, which can be written to. -/
structure Starts (place : Place) (e : Environment) (words : List String) (files : FileTree) (job : Job) (s : Session) :
    Prop where
  started : ∃ config opened, parse words e.configName = .ok ⟨config, .once job⟩ ∧
    Session.start e config files = (.ok s, opened)
  located : ∃ path target usage frozen, s.settings.store = .database path ∧
    Address.of? path = some (.file target usage frozen) ∧ resolve s.world.files target = some place
  writable : s.world.shared.store.access = .writing

/-! ### Starts and ends -/

section Runs

variable {place : Place} {e : Environment} {words : List String} {files : FileTree} {job : Job} {s : Session}

/-- A session that has started has opened the store, and its holder has followed the pointer. -/
theorem start_ok {config : Option FilePath} {opened : FileTree} (h : Session.start e config files = (.ok s, opened)) :
    ∃ store after, openStore files s.settings.store = (.ok store, after) ∧
      s.world = ⟨after, ⟨store, store.pointer⟩, .free⟩ := by
  unfold Session.start at h
  split at h
  · cases h
  · rename_i settings hsettings
    split at h
    · cases h
    · rename_i store after hopen
      unfold Session.ofStore generation at h
      dsimp only at h
      rcases hrun : refresh.run.run (⟨store, none⟩ : Shared Backend) with ⟨result, shared⟩
      rw [hrun] at h
      cases result with
      | error e => cases h
      | ok active =>
        cases h
        exact ⟨store, after, hopen, by rw [shared_of_refresh hrun]⟩

/-- A session starts with every store that is open and has no hash in the place of the pointer. -/
theorem start_succeeds {config : Option FilePath} {after : FileTree} {settings : Config.Settings} {store : Backend}
    (hload : Config.load files e.userFolder config e.values = .ok settings)
    (hopen : openStore files settings.store = (.ok store, after)) (ha : store.access ≠ .closed)
    (hp : ∀ fields, store.value? Key.active ≠ some (.hash fields)) :
    ∃ opened, Session.start e config files = (.ok ⟨settings, ⟨after, ⟨store, store.pointer⟩, .free⟩⟩, opened) := by
  obtain ⟨active, shared, hrefresh⟩ := refresh_succeeds (s := ⟨store, none⟩) ha hp
  obtain rfl := shared_of_refresh hrefresh
  have hrun : refresh.run.run (⟨store, none⟩ : Shared Backend) = (.ok active, ⟨store, store.pointer⟩) := hrefresh
  unfold Session.start
  simp only [hload, hopen, Session.ofStore, generation, hrun]
  exact ⟨_, rfl⟩

/-- The file at the place is a database with these tables, which may be read. -/
structure Keeps (files : FileTree) (place : Place) (t : Tables) : Prop where
  held : ∃ size, files.entry? place = some (.database t size)
  readable : (files.rights place).read = true

/-- A store that has been opened in the file has the tables that were found there. -/
theorem opened_store {path target : FilePath} {usage : Store.Usage} {frozen : Bool} {store : Backend} {after : FileTree}
    (haddress : Address.of? path = some (.file target usage frozen))
    (hopen : openStore files (.database path) = (.ok store, after)) (hplace : resolve after target = some place)
    (hw : store.access = .writing) :
    ∃ t, stored? files place = some t ∧ store = .database (.ofTables t) ∧ Keeps after place t := by
  unfold openStore at hopen
  dsimp only at hopen
  split at hopen
  · cases hopen
  · rename_i grown hmade
    have hgrown := FileTree.makeFolders_grown (path.parent?.getD ⟨""⟩) (t := files)
    rw [hmade] at hgrown
    split at hopen
    · cases hopen
    · rename_i d connected hconnect
      obtain ⟨hd, rfl⟩ := Prod.mk.inj hopen
      obtain rfl := Except.ok.inj hd
      have haccess : d.access = .writing := hw
      obtain ⟨found, hfound, hread, hopened⟩ := Store.connect_opened haddress hconnect (by rw [haccess]; decide)
      obtain rfl := Option.some.inj (hplace.symm.trans hfound)
      refine ⟨d.tables, stored?_grown hgrown hopened.found, ?_, hopened.held, hread⟩
      rw [Database.ofTables, ← haccess]

/-- What a run over the file starts from. -/
theorem Starts.ready (h : Starts place e words files job s) : ∃ t, stored? files place = some t ∧ Ready t s ∧
    Keeps s.world.files place t := by
  obtain ⟨config, opened, -, hstart⟩ := h.started
  obtain ⟨path, target, usage, frozen, hpath, haddress, hplace⟩ := h.located
  have hwritable := h.writable
  obtain ⟨store, after, hopen, hworld⟩ := start_ok hstart
  rw [hworld] at hplace hwritable
  rw [hpath] at hopen
  obtain ⟨t, ht, rfl, hholds⟩ := opened_store haddress hopen hplace hwritable
  exact ⟨t, ht, by constructor <;> rw [hworld], by rwa [hworld]⟩

theorem Starts.run_eq (h : Starts place e words files job s) :
    run e words files = (.ofResult (s.perform job).1, (s.perform job).2.files) := by
  obtain ⟨config, opened, hparse, hstart⟩ := h.started
  rw [run, launch, hparse]
  dsimp only
  rw [hstart]
  rfl

/-- What the file holds when the session has ended: the tables of the store, or what the job has put in its place. -/
theorem Starts.closed (h : Starts place e words files job s) {t t' : Tables} (hh : Keeps s.world.files place t)
    (hp : Performed s job t t' (s.perform job).1 (s.perform job).2) :
    stored? (s.perform job).2.files place = some t' ∨ s.Replaces job place ∧
      (stored? (s.perform job).2.files place = none ∨ stored? (s.perform job).2.files place = some .empty) := by
  obtain ⟨path, target, usage, frozen, hpath, haddress, hplace⟩ := h.located
  obtain ⟨⟨size, he⟩, hread⟩ := hh
  have hfiles : (s.perform job).2.files = Store.persist (s.perform job).2.world.files path (.ofTables t') := by
    rw [Session.files, hp.settings, hp.store, hpath]
    rfl
  rw [hfiles]
  rcases hp.files with hsame | ⟨rfl, hrights, hothers⟩
  · rw [hsame]
    exact .inl (persist_resolved haddress hplace hread he)
  · rcases hothers place with hsame | ⟨hreplaces, content, hcontent⟩
    · left
      rw [he] at hsame
      rw [persist_kept ?_, stored?_database (hrights ▸ hread) hsame]
      intro t0 size0 h0
      rw [hsame] at h0
      cases h0
      rfl
    · refine .inr ⟨hreplaces, ?_⟩
      rw [persist_kept ?_]
      · exact stored?_file hcontent
      · intro t0 size0 h0
        rw [hcontent] at h0
        cases h0

/-- A run ends at once if its settings cannot be read, and then it changes no files. Otherwise it starts: nothing that
is in the file of a database with anchored counters keeps it from that. -/
theorem Over.cases {config : Option FilePath} (h : Over place e words files config job)
    (ha : ∀ t, stored? files place = some t → Anchored (.database (.ofTables t))) :
    (∃ cause, Config.load files e.userFolder config e.values = .error cause ∧
      run e words files = (.failure (.configuration cause), files)) ∨ ∃ s, Starts place e words files job s := by
  cases hload : Config.load files e.userFolder config e.values with
  | error cause =>
    refine .inl ⟨cause, rfl, ?_⟩
    rw [run, launch, h.parsed]
    dsimp only
    rw [Session.start, hload]
  | ok settings =>
    obtain ⟨path, target, usage, frozen, store, after, hpath, haddress, hopen, hplace, hw⟩ := h.opens settings hload
    obtain ⟨t, ht, rfl, -⟩ := opened_store haddress (hpath ▸ hopen) hplace hw
    obtain ⟨opened, hstart⟩ := start_succeeds hload hopen (by rintro ⟨⟩) (ha t ht).pointer
    exact .inr ⟨_, ⟨config, opened, h.parsed, hstart⟩, ⟨path, target, usage, frozen, hpath, haddress, hplace⟩, hw⟩

end Runs

/-! ### Courses -/

/-- The files after runs over the file at a place. Between two of them the files may change, but not that one. -/
inductive Course (place : Place) : FileTree → Prop where
  | start {files : FileTree} : stored? files place = some .empty → Course place files
  | change {files after : FileTree} : Course place files → stored? after place = stored? files place → Course place after
  | run {e : Environment} {words : List String} {files : FileTree} {config : Option FilePath} {job : Job} :
    Course place files → Over place e words files config job → Course place (run e words files).2

/-- Each counter is an integer, and that of a file of the active generation; while none is active there are no
counters. -/
def Tied (s : Backend) : Prop :=
  Countable s ∧ match s.pointer with
  | none => s.value? Key.counters = none
  | some g => ∀ file, (counterText s file).isSome → ((hashOf (s.value? (Key.files g))).get? file).isSome

theorem tied_of_anchored {s : Backend} (h : Anchored s) : Tied s := by
  refine ⟨h.countable, ?_⟩
  cases hg : s.pointer with
  | none => exact h.inactive hg
  | some g =>
    intro file hcounter
    obtain ⟨batch, hb, hfiles⟩ := h.active g hg
    obtain ⟨url, hurl⟩ := (Index.mem_fileIds hb file).mp (hfiles file (Option.isSome_iff_ne_none.mp hcounter))
    exact Option.isSome_of_eq_some hurl

section Courses

variable {place : Place} {files : FileTree}

/-- The invariant of courses. A run keeps it: the job leaves the counters anchored, and closing the store puts the
tables into the file. -/
theorem Course.anchored (h : Course place files) {t : Tables} (ht : stored? files place = some t) :
    Anchored (.database (.ofTables t)) := by
  induction h generalizing t with
  | start hempty =>
    obtain rfl := Option.some.inj (hempty.symm.trans ht)
    exact Anchored.empty
  | change _ hsame ih => exact ih (hsame.symm.trans ht)
  | @run e words files config job _ hover ih =>
    rcases hover.cases fun _ => ih with ⟨cause, -, hrun⟩ | ⟨s, hstarts⟩
    · rw [hrun] at ht
      exact ih ht
    · obtain ⟨before, hbefore, hready, hholds⟩ := hstarts.ready
      obtain ⟨after, hperformed⟩ := perform_does hready (ih hbefore) job
      rw [hstarts.run_eq] at ht
      rcases hstarts.closed hholds hperformed with hclosed | ⟨-, hnone | hempty⟩
      · obtain rfl := Option.some.inj (hclosed.symm.trans ht)
        exact hperformed.anchored
      · rw [hnone] at ht
        cases ht
      · obtain rfl := Option.some.inj (hempty.symm.trans ht)
        exact Anchored.empty

/-- After every run over the file the counters are tied to the active generation. A run whose settings cannot be read
fails and changes nothing. Any other run finds the tables that are in the file and does to them what its job should do,
and the file holds the tables that come of it, unless the job is a dump that takes its place. -/
theorem counters_tied (h : Course place files) :
    (∀ t, stored? files place = some t → Tied (.database (.ofTables t))) ∧
    ∀ e words config job, Over place e words files config job →
      (∃ cause, Config.load files e.userFolder config e.values = .error cause ∧
        run e words files = (.failure (.configuration cause), files)) ∨
      ∃ s t t', Starts place e words files job s ∧
        stored? files place = some t ∧ s.world.shared.store = .database (.ofTables t) ∧
        run e words files = (.ofResult (s.perform job).1, (s.perform job).2.files) ∧
        (s.perform job).2.world.shared.store = .database (.ofTables t') ∧
        Does (.database (.ofTables t)) (.database (.ofTables t')) (s.perform job).1 job ∧
        Tied (.database (.ofTables t')) ∧
        (stored? (run e words files).2 place = some t' ∨ s.Replaces job place) := by
  refine ⟨fun t ht => tied_of_anchored (h.anchored ht), fun e words config job hover => ?_⟩
  rcases hover.cases fun _ => h.anchored with hfails | ⟨s, hstarts⟩
  · exact .inl hfails
  · obtain ⟨t, ht, hready, hholds⟩ := hstarts.ready
    obtain ⟨t', hperformed⟩ := perform_does hready (h.anchored ht) job
    refine .inr ⟨s, t, t', hstarts, ht, hready.store, hstarts.run_eq, hperformed.store, hperformed.does,
      tied_of_anchored hperformed.anchored, ?_⟩
    rw [hstarts.run_eq]
    exact (hstarts.closed hholds hperformed).imp_right (·.1)

end Courses

/-! ### A host -/

/-- What the user has said: a work folder and a database, by their paths from the root. -/
def hostTable : Datum :=
  .table [("work_dir", .text "/srv/share"), ("url", .text ""), ("store", .text "sqlite:/var/lib/s.db")]

def hostSettings : Config.Settings :=
  { Config.Settings.default with workFolder := ⟨"/srv/share"⟩, url := "", store := .database ⟨"/var/lib/s.db"⟩ }

/-- A host where the user has said so, with what is in the place of the database. -/
def hosting (db : Entry) : FileTree := host db (Config.written hostTable)

def hostPlace : Place := ["var", "lib", "s.db"]

def shell : Environment := ⟨[], some ⟨"/etc"⟩⟩

/-- The session that starts with these tables in the database. -/
def hostSession (t : Tables) (size : Nat) : Session :=
  ⟨hostSettings,
    ⟨hosting (.database t size), ⟨.database (.ofTables t), (Backend.database (.ofTables t)).pointer⟩, .free⟩⟩

section Host

variable {db : Entry} {t : Tables} {size : Nat}

theorem address_host : Address.of? ⟨"/var/lib/s.db"⟩ = some (.file ⟨"/var/lib/s.db"⟩ .create false) := by
  decide +kernel

theorem load_host (db : Entry) :
    Config.load (hosting db) shell.userFolder none shell.values = .ok hostSettings := by
  have hnodup : ["work_dir", "url", "store"].Nodup := by decide
  have hw : Config.Writable hostTable := by
    refine ⟨.table hnodup fun e he => ?_, rfl⟩
    simp only [List.mem_cons, List.not_mem_nil, or_false] at he
    rcases he with rfl | rfl | rfl <;> exact .text _ _
  have hplace : (hosting db).place (FilePath.entry ⟨"/etc"⟩ "fetchtrack.json") = .ok ["etc", "fetchtrack.json"] :=
    FileTree.place_of_steps 4 (by decide) (by decide) rfl
  have hreads : Config.Reads (hosting db) (some ⟨"/etc"⟩) none [hostTable] := by
    refine Config.reads_written hw (by decide) (fun name hm => ?_) hplace rfl rfl
    simp only [List.mem_cons, List.not_mem_nil, or_false] at hm
    rcases hm with rfl | rfl
    · exact FileTree.place_of_free 4 ["etc", "fetchtrack.toml"] (by decide) (by decide) rfl
    · exact FileTree.place_of_free 4 ["etc", "fetchtrack.yaml"] (by decide) (by decide) rfl
  have hdecided : Config.Decided (Config.sources [hostTable] []) hostSettings :=
    Config.ofLayers?_eq_some_iff.mp (by decide +kernel)
  exact Config.load_eq_ok_iff.mpr ⟨_, hreads, hdecided, by decide, by decide, by decide, by decide, by decide⟩

theorem put_host (entry : Entry) : (hosting db).put hostPlace entry = hosting entry := by
  rw [FileTree.put, dif_pos (by simp [hosting, host, hostPlace])]
  rfl

theorem makeFolders_host (db : Entry) :
    (hosting db).makeFolders ((⟨"/var/lib/s.db"⟩ : FilePath).parent?.getD ⟨""⟩) = (.ok (), hosting db) := by
  have hwalk : ∀ follow, ∀ names ∈ [[], ["var"], ["var", "lib"]],
      (hosting db).walk follow FileTree.maxLinks [] ([] :: names.map String.toList) = .ok (.entry names) := by
    intro follow names hm
    simp only [List.mem_cons, List.not_mem_nil, or_false] at hm
    rcases hm with rfl | rfl | rfl <;> cases follow <;> exact FileTree.walk_steps 4
  have hstep : ∀ segment names rest done, names ∈ [[], ["var"], ["var", "lib"]] →
      done ++ [segment] = [] :: names.map String.toList →
      (hosting db).makeFoldersFrom [] done (segment :: rest) =
        (hosting db).makeFoldersFrom [] (done ++ [segment]) rest := by
    intro segment names rest done hm hd
    rw [FileTree.makeFoldersFrom, hd, hwalk false names hm, hwalk true names hm]
    simp only [List.mem_cons, List.not_mem_nil, or_false] at hm
    rcases hm with rfl | rfl | rfl <;> rfl
  rw [show (⟨"/var/lib/s.db"⟩ : FilePath).parent?.getD ⟨""⟩ = ⟨"/var/lib"⟩ by decide +kernel, FileTree.makeFolders,
    if_neg (by decide), if_neg (by decide), show (⟨"/var/lib"⟩ : FilePath).segments = [[], "var".toList, "lib".toList] by
    decide]
  exact (hstep [] [] _ [] (by simp) rfl).trans ((hstep _ ["var"] _ [[]] (by simp) rfl).trans
    (hstep _ ["var", "lib"] _ [[], "var".toList] (by simp) rfl))

theorem resolve_host (hfile : db.size?.isSome) : resolve (hosting db) ⟨"/var/lib/s.db"⟩ = some hostPlace := by
  have hlink : ∀ target, some db ≠ some (.link target) := by
    rintro target he
    rw [Option.some.inj he] at hfile
    cases hfile
  have hinto : ∀ place name rest, (place, name) ∈ [([], "var"), (["var"], "lib"), (["var", "lib"], "s.db")] →
      Store.resolveFrom (hosting db) Store.maxLinks place (name.toList :: rest) =
        Store.resolveFrom (hosting db) Store.maxLinks (place ++ [name]) rest := by
    intro place name rest hm
    simp only [List.mem_cons, List.not_mem_nil, or_false, Prod.mk.injEq] at hm
    rcases hm with ⟨rfl, rfl⟩ | ⟨rfl, rfl⟩ | ⟨rfl, rfl⟩ <;>
      refine Store.resolveFrom_into (by decide) rfl (by decide) (by decide) ?_
    · rintro target ⟨⟩
    · rintro target ⟨⟩
    · exact hlink
  have hwalk : Store.resolveFrom (hosting db) Store.maxLinks [] [[], "var".toList, "lib".toList, "s.db".toList] =
      some hostPlace := by
    rw [Store.resolveFrom_root, hinto [] _ _ (by simp), hinto _ _ _ (by simp), hinto _ _ _ (by simp), Store.resolveFrom]
    rfl
  have hstart : Store.isStart (hosting db) [] = true := rfl
  have hroom : Store.hasRoom hostPlace = true := by decide
  rw [resolve, show (⟨"/var/lib/s.db"⟩ : FilePath).start (hosting db).here = [] from rfl, if_pos hstart,
    show (⟨"/var/lib/s.db"⟩ : FilePath).segments = [[], "var".toList, "lib".toList, "s.db".toList] by decide, hwalk]
  simp only [hroom]
  rfl

/-- What is found in the place of the database is opened. -/
theorem open_host (ht : stored? (hosting db) hostPlace = some t) (hfile : db.size?.isSome) :
    ∃ size, openStore (hosting db) hostSettings.store = (.ok (.database (.ofTables t)), hosting (.database t size)) := by
  obtain ⟨size, hconnect⟩ : ∃ size, Store.connectAt (hosting db) hostPlace .create false =
      (.ok (.ofTables t), hosting (.database t size)) := by
    have hentry : FileTree.entry? (hosting db) hostPlace = some db := rfl
    have hread : ((hosting db).rights hostPlace).read = true := rfl
    rcases Entry.regular_cases hfile with ⟨content, rfl⟩ | ⟨tables, size, rfl⟩
    · match content with
      | [] | [_] =>
        obtain rfl : Tables.empty = t := Option.some.inj ht
        exact ⟨_, congrArg (Prod.mk _) (put_host _)⟩
      | _ :: _ :: _ => cases ht
    · obtain rfl : tables = t := Option.some.inj ht
      exact ⟨size, rfl⟩
  refine ⟨size, ?_⟩
  show openStore (hosting db) (.database ⟨"/var/lib/s.db"⟩) = _
  rw [openStore, makeFolders_host]
  simp only [Store.connect, address_host, resolve_host hfile, hconnect, @resolve_host (.database t size) rfl]
  rfl

theorem over_host {words : List String} {job : Job} (ht : stored? (hosting db) hostPlace = some t)
    (hfile : db.size?.isSome) (hw : parse words shell.configName = .ok ⟨none, .once job⟩) :
    Over hostPlace shell words (hosting db) none job := by
  refine ⟨hw, fun settings hload => ?_⟩
  obtain rfl := Except.ok.inj ((load_host db).symm.trans hload)
  obtain ⟨size, hopen⟩ := open_host ht hfile
  exact ⟨⟨"/var/lib/s.db"⟩, ⟨"/var/lib/s.db"⟩, .create, false, _, _, rfl, address_host, hopen, resolve_host rfl, rfl⟩

theorem persist_host (t t' : Tables) (size : Nat) : ∃ size', Store.persist (hosting (.database t size)) ⟨"/var/lib/s.db"⟩
    (.ofTables t') = hosting (.database t' size') := by
  rw [Store.persist, address_host]
  simp only [@resolve_host (.database t size) rfl, Store.persistAt]
  rw [show FileTree.entry? (hosting (.database t size)) hostPlace = some (.database t size) from rfl]
  simp only
  split
  · rename_i hsame
    exact ⟨size, by rw [hsame]; rfl⟩
  · exact ⟨_, put_host _⟩

/-- A run is that of the session that starts with what is stored. -/
theorem run_host {words : List String} {job : Job} (ht : stored? (hosting db) hostPlace = some t)
    (hfile : db.size?.isSome) (hp : ∀ fields, (Backend.database (.ofTables t)).value? Key.active ≠ some (.hash fields))
    (hw : parse words shell.configName = .ok ⟨none, .once job⟩) : ∃ size, run shell words (hosting db) =
      (.ofResult ((hostSession t size).perform job).1, ((hostSession t size).perform job).2.files) := by
  obtain ⟨size, hopen⟩ := open_host ht hfile
  obtain ⟨opened, hstart⟩ := start_succeeds (load_host db) hopen (by rintro ⟨⟩) hp
  refine ⟨size, ?_⟩
  rw [run, launch, hw]
  dsimp only
  rw [hstart]
  rfl

theorem parse_index : parse ["index"] shell.configName = .ok ⟨none, .once .index⟩ :=
  Index.Scanner.toOption_eq_some.mp (by decide +kernel)

/-- The id of the file in the folder that can be converted. -/
def offeredId : String := Share.stableId ⟨"/srv/share/b/b.txt"⟩

/-- The first index publishes that folder. -/
theorem index_host : ∃ output t size, run shell ["index"] (hosting (.file [])) =
      (.success output, hosting (.database t size)) ∧
    (∃ url, Offers (.database (.ofTables t)) offeredId url) ∧ counterAt (.database (.ofTables t)) offeredId = some 0 := by
  obtain ⟨size, hrun⟩ := @run_host (.file []) .empty _ _ rfl rfl (fun fields h => nomatch h) parse_index
  let sc : Index.Scanner := { Index.plain with workers := 4, pace := ⟨0, none⟩ }
  let w : World Backend := (hostSession .empty size).world
  have hscanner : scannerOf hostSettings = .ok sc := Index.Scanner.toOption_eq_some.mp (by decide +kernel)
  obtain ⟨d, hd, hconverted⟩ := @Index.converted_host (.database .empty size) (Config.written hostTable)
  obtain ⟨batch, hscan, hperm⟩ := sc.scan_of_candidates (Index.candidates_host : _ = _) rfl
  obtain rfl : batch = [d] := List.perm_singleton.mp (hconverted ▸ hperm)
  obtain ⟨infos, shared, hindex, hpublished, -⟩ := Index.index_publishes (w := w) rfl rfl (fun _ => trivial)
    Anchored.empty (List.cons_ne_nil d []) hscan
  obtain ⟨t, ht⟩ := index_database (w := w) rfl rfl sc false
  rw [hindex] at ht
  obtain ⟨size', hpersist⟩ := persist_host .empty t size
  have hfile : offeredId ∈ fileIds [d] := by
    rw [Index.fileIds_b hd]
    exact List.mem_singleton.mpr rfl
  have hperform : (hostSession .empty size).perform .index =
      (.ok (summaryRows infos), ⟨hostSettings, { w with shared }⟩) := by
    show Session.withScanner _ _ = _
    rw [Session.withScanner, show scannerOf (hostSession .empty size).settings = _ from hscanner]
    dsimp only
    rw [Session.index, Session.call, hindex]
    rfl
  refine ⟨summaryRows infos, t, size', ?_, ?_, ?_⟩
  · rw [hrun, hperform]
    refine congrArg (Prod.mk _) ?_
    rw [← hpersist]
    show closeStore w.files hostSettings.store shared.store = _
    rw [show shared.store = _ from ht]
    rfl
  · obtain ⟨url, hurl⟩ := (Index.mem_fileIds hpublished.holds offeredId).mp hfile
    exact ⟨url, _, ht ▸ hpublished.pointer, ht ▸ hurl⟩
  · refine counterAt_of_none ?_
    rw [← show shared.store = _ from ht, hpublished.kept _ hfile]
    rfl

/-- A file that is offered by the first run is counted by the second one. -/
theorem counters_tied_host :
    let first := run shell ["index"] (hosting (.file []))
    let second := run shell ["hit", offeredId] first.2
    Over hostPlace shell ["index"] (hosting (.file [])) none .index ∧ first.1.code = 0 ∧
    Over hostPlace shell ["hit", offeredId] first.2 none (.hit offeredId) ∧
    (∃ url, second.1 = .success (bytes (row url (Decimal.renderWord 1)))) ∧
    ∃ t, stored? second.2 hostPlace = some t ∧ counterAt (.database (.ofTables t)) offeredId = some 1 := by
  have hhit : parse ["hit", offeredId] shell.configName = .ok ⟨none, .once (.hit offeredId)⟩ :=
    Index.Scanner.toOption_eq_some.mp (by decide +kernel)
  obtain ⟨output, t, size, hfirst, hoffers, hzero⟩ := index_host
  have hempty : stored? (hosting (.file [])) hostPlace = some .empty := rfl
  have hstored : stored? (hosting (.database t size)) hostPlace = some t := rfl
  have hover := over_host hempty rfl parse_index
  have hcourse : Course hostPlace (run shell ["index"] (hosting (.file []))).2 := .run (.start hempty) hover
  have hover' := over_host hstored rfl hhit
  dsimp only
  rw [hfirst] at hcourse ⊢
  refine ⟨hover, rfl, hover', ?_⟩
  rcases (counters_tied hcourse).2 _ _ _ _ hover' with ⟨cause, hload, -⟩ |
    ⟨s, before, after, -, hbefore, -, hrun, -, ⟨n, hn, hiff, hdoes⟩, -, hafter⟩
  · cases (load_host _).symm.trans hload
  · obtain rfl := Option.some.inj (hstored.symm.trans hbefore)
    obtain rfl := Option.some.inj (hzero.symm.trans hn)
    obtain ⟨output, hresult⟩ := hiff.mpr ⟨hoffers, by decide⟩
    rw [hresult] at hdoes hrun
    obtain ⟨⟨url, -, rfl⟩, hi, -⟩ := hdoes
    refine ⟨⟨url, by rw [hrun]; rfl⟩, after, ?_, hi.after⟩
    rcases hafter with hafter | ⟨path, found, hpath, -⟩
    · exact hafter
    · cases hpath

end Host

end CommandLine
end ShareIndex
