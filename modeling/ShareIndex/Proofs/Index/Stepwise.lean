import ShareIndex.Proofs.Index.Sink

/-!
# ShareIndex.Proofs.Index.Stepwise

The calls of an indexer as sequences of steps, between which other calls may take theirs.

* `Scene`         — what the steps of a call act on.
* `Body`          — what a call does while it has the slot: it is done, or takes a step and goes on from what that has
  made.
* `Call.body`     — the calls of an indexer; `Call.perform` is a call with nothing in between.
* `Call.run_body` — the steps of a call, one after the other, do what the call does.
-/

namespace ShareIndex
namespace Index

open Repository (Program Shared allCounters)
open Share (DownloadCounters Summary)
open Store (KeyValueStore)

/-- The files, the store and the holder are the same for all calls, the sink is that of one call. -/
structure Scene (S : Type) where
  files : FileTree
  shared : Shared S
  sink : Sink

inductive Body (P α : Type) where
  | done (result : α)
  | step (change : P → P) (next : P → Body P α)

namespace Body

variable {P α β : Type}

def bind : Body P α → (α → Body P β) → Body P β
  | done a, f => f a
  | step change next, f => step change fun x => (next x).bind f

/-- Takes all steps; each goes on from what it has found. -/
def run : Body P α → P → α × P
  | done a, x => (a, x)
  | step change next, x => (next x).run (change x)

theorem run_bind (b : Body P α) (f : α → Body P β) (x : P) : (b.bind f).run x = (f (b.run x).1).run (b.run x).2 := by
  induction b generalizing x with
  | done a => rfl
  | step change next ih => exact ih x (change x)

section Steps

variable {S : Type} [KeyValueStore S]

/-- Each step of a call on the repository is a step. -/
def ofProgram : Program α → Body (Scene S) α
  | .done a => done a
  | .perform effect next =>
    step (fun x => { x with shared := (effect.run x.shared).2 }) fun x => ofProgram (next (effect.run x.shared).1)

theorem run_ofProgram (p : Program α) (x : Scene S) :
    (ofProgram p).run x = ((p.run x.shared).1, { x with shared := (p.run x.shared).2 }) := by
  induction p generalizing x with
  | done a => rfl
  | perform effect next ih => exact ih _ _

/-- Goes on if nothing has failed. -/
def andThen (b next : Body P (Except Error Unit)) : Body P (Except Error Unit) :=
  b.bind fun
    | .error e => done (.error e)
    | .ok () => next

/-- Writes a text to the sink. -/
def write (text : List Char) : Body (Scene S) (Except Error Unit) :=
  step (fun x => { x with sink := (x.sink.writeText text).2 }) fun x => done (x.sink.writeText text).1

def writeItems (cancelled : Cancellation) (failure : Option Repository.Error) :
    Nat → List DownloadCounters → Body (Scene S) (Except Error Unit)
  | written, [] =>
    match failure with
    | none => write listEnd
    | some e => done (.error (if cancelled written then .cancelled none else .dump (some e)))
  | written, c :: rest =>
    if cancelled written then done (.error (.cancelled none))
    else (write (item (written == 0) c)).andThen (writeItems cancelled failure (written + 1) rest)

def writeAll (cancelled : Cancellation) (counters : List DownloadCounters × Option Repository.Error) :
    Body (Scene S) (Except Error Unit) :=
  (write listStart).andThen (writeItems cancelled counters.2 0 counters.1)

/-- All that the steps do is what the function does to the sink. -/
def Writes (b : Body (Scene S) (Except Error Unit)) (f : Sink → Except Error Unit × Sink) : Prop :=
  ∀ x, b.run x = ((f x.sink).1, { x with sink := (f x.sink).2 })

omit [KeyValueStore S] in
theorem Writes.andThen {b next : Body (Scene S) (Except Error Unit)} {f h : Sink → Except Error Unit × Sink}
    (hb : Writes b f) (hn : Writes next h) :
    Writes (b.andThen next) fun s =>
      match f s with
      | (.error e, s) => (.error e, s)
      | (.ok (), s) => h s := by
  intro x
  rw [Body.andThen, run_bind, hb]
  dsimp only
  obtain ⟨result, sink⟩ := f x.sink
  cases result with
  | error e => rfl
  | ok u => exact hn _

omit [KeyValueStore S] in
theorem writes_write (text : List Char) : Writes (write text : Body (Scene S) _) (Sink.writeText · text) := fun _ => rfl

omit [KeyValueStore S] in
theorem writes_writeItems (cancelled : Cancellation) (failure : Option Repository.Error) (written : Nat)
    (l : List DownloadCounters) :
    Writes (writeItems cancelled failure written l : Body (Scene S) _) (Sink.writeItems cancelled failure written l) := by
  induction l generalizing written with
  | nil =>
    intro x
    cases failure <;> rfl
  | cons c rest ih =>
    intro x
    rw [writeItems, Sink.writeItems]
    split
    · rfl
    · exact (writes_write _).andThen (ih _) x

omit [KeyValueStore S] in
theorem writes_writeAll (cancelled : Cancellation) (counters : List DownloadCounters × Option Repository.Error) :
    Writes (writeAll cancelled counters : Body (Scene S) _) (Sink.writeAll cancelled counters) :=
  fun x => (writes_write listStart).andThen (writes_writeItems cancelled counters.2 0 counters.1) x

/-- Reads all counters and writes them. -/
def writeCounters (cancelled : Cancellation) : Body (Scene S) (Except Error Unit) :=
  (ofProgram allCounters).bind (writeAll cancelled)

theorem run_writeCounters (cancelled : Cancellation) (x : Scene S) :
    (writeCounters cancelled).run x =
      ((x.sink.writeAll cancelled (allCounters.run x.shared).1).1,
        { x with
          shared := (allCounters.run x.shared).2
          sink := (x.sink.writeAll cancelled (allCounters.run x.shared).1).2 }) := by
  rw [writeCounters, run_bind, run_ofProgram, writes_writeAll]

/-- A draft that cannot take the place of the file, or is not complete, is removed. -/
def settle (disk : Disk) (draft : Place) (path : FilePath) (result : Except Error Unit) (files : FileTree) :
    Except Error Unit × FileTree :=
  match result.bind fun _ => disk.persist draft path files with
  | .error e => (.error e, files.erase draft)
  | .ok files => (.ok (), files)

end Steps
end Body

/-! ### Calls -/

inductive Call where
  | index (scanner : Scanner) (cancelled : Bool)
  | dump (cancelled : Cancellation) (room : Option Nat)
  | dumpToFile (disk : Disk) (cancelled : Cancellation) (path : FilePath)

inductive Answer where
  | summaries (l : List Summary)
  | dumped

abbrev Result := Except Error Answer

namespace Call

/-- Where a call writes to, before it has written anything; what goes into a file goes into a draft first. -/
def sink : Call → Sink
  | index _ _ => .empty none
  | dump _ room => .empty room
  | dumpToFile disk _ _ => .empty disk.room

variable {S : Type} [KeyValueStore S]

def perform : Call → World S → Result × World S
  | index scanner cancelled, w =>
    let (result, w) := scanner.index cancelled w
    (result.map .summaries, w)
  | dump cancelled room, w =>
    let ((result, _), w) := dumpStream cancelled room w
    (result.map fun _ => .dumped, w)
  | dumpToFile disk cancelled path, w =>
    let (result, w) := Index.dumpToFile disk cancelled path w
    (result.map fun _ => .dumped, w)

/-- What a call does when it has the slot. All folders are scanned in one step. The number of pages that an index
cycle reads of the store is bounded. -/
def body (pages : Nat) : Call → Body (Scene S) Result
  | index scanner cancelled =>
    .step id fun x =>
      (Body.ofProgram (cycle pages (scanner.scan x.files cancelled)).run).bind fun result =>
        .done (result.map .summaries)
  | dump cancelled _ => (Body.writeCounters cancelled).bind fun result => .done (result.map fun _ => .dumped)
  | dumpToFile disk cancelled path =>
    .step id fun x =>
      match disk.draft? x.files path.folder with
      | none => .done (.error (.dump none))
      | some draft =>
        (Body.writeCounters cancelled).bind fun result =>
          .step (fun x => { x with files := x.files.put draft (.file x.sink.received) }) fun _ =>
            .step (fun x => { x with files := (Body.settle disk draft path result x.files).2 }) fun x =>
              .done ((Body.settle disk draft path result x.files).1.map fun _ => .dumped)

theorem perform_taken {w : World S} (hw : w.slot = .taken) (c : Call) : c.perform w = (.error .alreadyRunning, w) := by
  cases c with
  | index scanner cancelled =>
    rw [perform, Scanner.index, World.alone, hw]
    rfl
  | dump cancelled room =>
    rw [perform, dumpStream, World.alone, hw]
    rfl
  | dumpToFile disk cancelled path =>
    rw [perform, Index.dumpToFile, World.alone, hw]
    rfl

/-- The steps of a call that nothing else disturbs, one after the other, do what the call does. -/
theorem run_body {w : World S} (hw : w.slot = .free) (c : Call) :
    c.perform w =
      (((c.body w.pages).run ⟨w.files, w.shared, c.sink⟩).1,
        { files := ((c.body w.pages).run ⟨w.files, w.shared, c.sink⟩).2.files
          shared := ((c.body w.pages).run ⟨w.files, w.shared, c.sink⟩).2.shared
          slot := .free }) := by
  cases c with
  | index scanner cancelled =>
    rw [perform, Scanner.index, alone_free hw, body, Body.run, Body.run_bind, Body.run_ofProgram]
    rfl
  | dump cancelled room =>
    rw [perform, dumpStream, alone_free hw, body, Body.run_bind, Body.run_writeCounters]
    rfl
  | dumpToFile disk cancelled path =>
    rw [perform, Index.dumpToFile, alone_free hw, body, Body.run]
    dsimp only [id]
    cases disk.draft? w.files path.folder with
    | none => rfl
    | some draft =>
      dsimp only
      rw [Body.run_bind, Body.run_writeCounters]
      simp only [Body.run, Body.settle, stream, World.counters, sink]
      obtain ⟨result, sink⟩ := Sink.writeAll cancelled (allCounters.run w.shared).1 (.empty disk.room)
      dsimp only
      cases result.bind fun _ => disk.persist draft path (w.files.put draft (.file sink.received)) <;> rfl

theorem run_body_received {w : World S} (hw : w.slot = .free) (cancelled : Cancellation) (room : Option Nat) :
    (((dump cancelled room).body w.pages).run ⟨w.files, w.shared, .empty room⟩).2.sink.received =
      (dumpStream cancelled room w).1.2 := by
  rw [dumpStream, alone_free hw, body, Body.run_bind, Body.run_writeCounters]
  rfl

end Call
end Index
end ShareIndex
