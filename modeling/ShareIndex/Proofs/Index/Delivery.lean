import ShareIndex.Proofs.FileTree
import ShareIndex.Proofs.Index.Dump

/-!
# ShareIndex.Proofs.Index.Delivery

Dumps that fail: on stores that refuse requests, into sinks and files that do not take everything, and when they are
cancelled.

* `counters_of_dump`  — a dump that succeeds has found all downloads.
* `Undisturbed`       — the store and the holder are as before, and the slot is free.
* `stream_delivers`   — what a sink receives is a beginning of the whole text.
* `dumpToFile_settles` — a dump into a file has written the whole text to the place where the path leads, or nothing.
* `dump_all_or_part` — both, for every store that wraps one from which the dump succeeds.
-/

namespace ShareIndex
namespace Index

open Repository (Found Shared Wraps allCounters allCounters_finds allCounters_shelf runs_wrapped shelf shelved
  wraps_faulty)
open Share (DownloadCounters)
open Store (Backend Faulty KeyValueStore)

/-! ### Sinks -/

theorem writeItems_failed (cancelled : Cancellation) (e : Repository.Error) (written : Nat)
    (found : List DownloadCounters) (s : Sink) : (s.writeItems cancelled (some e) written found).1 ≠ .ok () := by
  induction found generalizing written s with
  | nil => simp [Sink.writeItems]
  | cons c rest ih =>
    rw [Sink.writeItems]
    split
    · simp
    · split
      · simp
      · exact ih _ _

theorem writeAll_failed (cancelled : Cancellation) (e : Repository.Error) (found : List DownloadCounters) (s : Sink) :
    (s.writeAll cancelled (found, some e)).1 ≠ .ok () := by
  rw [Sink.writeAll]
  split
  · simp
  · exact writeItems_failed cancelled e 0 found _

/-- A dump that succeeds has found all downloads, and has written their text. -/
theorem counters_of_dump {w : World Backend} (hslot : w.slot = .free) {text : List UInt8}
    (h : (dump false none w).1 = (.ok (), text)) :
    ∃ listing, (allCounters.run w.shared).1 = (listing, none) ∧ text = textBytes (dumpText listing) := by
  rw [dump, dumpStream, alone_free hslot, stream_eq] at h
  obtain ⟨hok, hreceived⟩ := Prod.mk.inj h
  rcases hrun : (allCounters.run w.shared).1 with ⟨listing, _ | e⟩
  · rw [hrun] at hok hreceived
    obtain ⟨part, hpart, -, hall⟩ :=
      @writeAll_delivers (fun _ => false) listing (listing, none) rfl (Sink.empty none)
    obtain rfl := hall.mp hok
    exact ⟨listing, rfl, hreceived.symm.trans hpart⟩
  · rw [hrun] at hok
    exact absurd hok (writeAll_failed _ e listing _)

section Delivery

variable {W : Type} [KeyValueStore W] {inner : W → Backend} {w : World W} {listing : List DownloadCounters}

/-- The store inside and the holder are as before, and no call has the slot. -/
structure Undisturbed (inner : W → Backend) (w after : World W) : Prop where
  store : inner after.shared.store = inner w.shared.store
  holder : after.shared.holder = w.shared.holder
  slot : after.slot = .free

/-- The store without the wrapper, which refuses nothing. -/
def World.unwrapped (inner : W → Backend) (w : World W) : World Backend :=
  { files := w.files, shared := ⟨inner w.shared.store, w.shared.holder⟩, slot := w.slot }

/-- What a sink receives is a beginning of the text of all there is, whatever is refused. -/
theorem stream_delivers (hinner : Wraps inner)
    (hfree : (allCounters.run (w.unwrapped inner).shared).1 = (listing, none)) (cancelled : Cancellation)
    (room : Option Nat) : ∃ result received shared,
    stream cancelled room w = ((result, received), { w with shared }) ∧
    inner shared.store = inner w.shared.store ∧ shared.holder = w.shared.holder ∧
    received <+: textBytes (dumpText listing) ∧ (result = .ok () ↔ received = textBytes (dumpText listing)) := by
  have hruns := runs_wrapped hinner allCounters w.shared
  obtain ⟨hsame, hfound⟩ := allCounters_finds hruns hfree
  obtain ⟨hstore, hholder⟩ := Shared.mk.inj hsame
  obtain ⟨part, hreceived, hpart, hall⟩ := @writeAll_delivers cancelled _ _ hfound (Sink.empty room)
  rw [show (Sink.empty room).received = [] from rfl, List.nil_append] at hreceived
  refine ⟨_, _, _, stream_eq cancelled room w, hstore, hholder, ?_, ?_⟩
  · rwa [hreceived]
  · rwa [hreceived]

theorem dumpStream_delivers (hinner : Wraps inner) (hslot : w.slot = .free)
    (hfree : (allCounters.run (w.unwrapped inner).shared).1 = (listing, none)) (cancelled : Cancellation)
    (room : Option Nat) : ∃ result received after,
    dumpStream cancelled room w = ((result, received), after) ∧ after.files = w.files ∧ Undisturbed inner w after ∧
    received <+: textBytes (dumpText listing) ∧ (result = .ok () ↔ received = textBytes (dumpText listing)) := by
  obtain ⟨result, received, shared, hstream, hstore, hholder, hpart, hall⟩ :=
    stream_delivers (w := { w with slot := .taken }) hinner hfree cancelled room
  refine ⟨result, received, ⟨w.files, shared, .free⟩, ?_, rfl, ⟨hstore, hholder, rfl⟩, hpart, hall⟩
  rw [dumpStream, alone_free hslot, hstream]

/-! ### Files -/

theorem freePlace?_free {disk : Disk} {files : FileTree} {folder draft : Place} {attempts : Nat}
    (h : disk.freePlace? files folder attempts = some draft) : files.entry? draft = none := by
  induction attempts with
  | zero => cases h
  | succ left ih =>
    rw [Disk.freePlace?] at h
    split at h
    · cases h
      exact Option.isNone_iff_eq_none.mp ‹_›
    · exact ih h

theorem draft?_free {disk : Disk} {files : FileTree} {folder : FilePath} {draft : Place}
    (h : disk.draft? files folder = some draft) : files.entry? draft = none := by
  unfold Disk.draft? at h
  split at h
  · cases h
  · split at h
    · exact freePlace?_free h
    · cases h

theorem rename_of_persist {disk : Disk} {draft : Place} {path : FilePath} {files after : FileTree}
    (h : disk.persist draft path files = .ok after) : files.rename draft path = .ok after := by
  unfold Disk.persist at h
  split at h
  · cases hr : files.rename draft path with
    | error e =>
      rw [hr] at h
      cases h
    | ok files =>
      rw [hr] at h
      exact congrArg Except.ok (Except.ok.inj h)
  · cases h

/-- The file to which a path leads has the content and everything else is as before, or nothing has changed. -/
def Settled (path : FilePath) (content : List UInt8) (before after : FileTree) : Except Error Unit → Prop
  | .ok () => after.rights = before.rights ∧ ∃ target, before.find path false = .ok target ∧
      after.entry? target.place = some (.file content) ∧
      ∀ other, other ≠ target.place → after.entry? other = before.entry? other
  | .error _ => after = before

/-- A draft that does not take the place of the file is gone afterwards. -/
theorem dumpToFile_settles (hinner : Wraps inner) (hslot : w.slot = .free)
    (hfree : (allCounters.run (w.unwrapped inner).shared).1 = (listing, none)) (disk : Disk) (cancelled : Cancellation)
    (path : FilePath) : ∃ result after, dumpToFile disk cancelled path w = (result, after) ∧
    Undisturbed inner w after ∧ Settled path (textBytes (dumpText listing)) w.files after.files result := by
  rw [dumpToFile, alone_free hslot]
  cases hdraft : disk.draft? w.files path.folder with
  | none => exact ⟨_, _, rfl, ⟨rfl, rfl, rfl⟩, rfl⟩
  | some draft =>
    obtain ⟨result, received, shared, hstream, hstore, hholder, -, hall⟩ :=
      stream_delivers (w := { w with slot := .taken }) hinner hfree cancelled disk.room
    simp only [hstream]
    have hplace := draft?_free hdraft
    cases hp : result.bind fun _ => disk.persist draft path (w.files.put draft (.file received)) with
    | error e =>
      simp only
      exact ⟨_, _, rfl, ⟨hstore, hholder, rfl⟩, FileTree.erase_put hplace⟩
    | ok files =>
      obtain rfl : result = .ok () := by
        cases result with
        | ok u => rfl
        | error e => cases hp
      obtain rfl := hall.mp rfl
      exact ⟨_, _, rfl, ⟨hstore, hholder, rfl⟩, FileTree.rename_new hplace (rename_of_persist hp)⟩

/-- Let a dump from the store inside succeed. Whichever requests the wrapper refuses, whenever the call is cancelled and
however many bytes are accepted, a sink receives a beginning of that text, and all of it exactly if the dump succeeds. A
dump into a file puts the text in the place to which the path leads, or changes nothing. -/
theorem dump_all_or_part (hinner : Wraps inner) (hslot : w.slot = .free) {text : List UInt8}
    (hfree : (dump false none (w.unwrapped inner)).1 = (.ok (), text)) :
    (∀ cancelled room, ∃ result received after, dumpStream cancelled room w = ((result, received), after) ∧
      received <+: text ∧ (result = .ok () ↔ received = text) ∧ after.files = w.files ∧ Undisturbed inner w after) ∧
    ∀ disk cancelled path, ∃ result after, dumpToFile disk cancelled path w = (result, after) ∧
      Undisturbed inner w after ∧ Settled path text w.files after.files result := by
  obtain ⟨listing, hlisting, rfl⟩ := counters_of_dump hslot hfree
  constructor
  · intro cancelled room
    obtain ⟨result, received, after, hdump, hfiles, hafter, hpart, hall⟩ :=
      dumpStream_delivers hinner hslot hlisting cancelled room
    exact ⟨result, received, after, hdump, hpart, hall, hfiles, hafter⟩
  · exact dumpToFile_settles hinner hslot hlisting

end Delivery

/-! ### A dump that takes the place of an earlier one -/

/-- A file with an earlier dump, and a link to its folder. -/
def archive : FileTree where
  nodes := [(["var"], .folder), (["var", "dumps"], .folder), (["var", "dumps", "dump.json"], .file [91, 10, 93]),
    (["var", "latest"], .link ⟨"/var/dumps"⟩)]
  nodup := by decide

def shelfWorld (failing : List Store.Operation) : World (Faulty Backend) :=
  ⟨archive, ⟨⟨shelf.store, failing, none⟩, shelf.holder⟩, .free⟩

/-- Where the draft is made, at the first name that is tried. -/
def draftPlace : Place := ["var", "dumps", draftName (Disk.numbered 999999)]

theorem free_draftPlace : archive.entry? draftPlace = none := by decide +kernel

theorem draft?_archive : Disk.draft? .reliable archive ⟨"/var/latest"⟩ = some draftPlace := by
  have hplace : archive.place ⟨"/var/latest"⟩ = .ok ["var", "dumps"] :=
    FileTree.place_of_steps 9 (by decide) (by decide) (by decide +kernel)
  have hlength : (archive.absolute (FilePath.entry ⟨"/var/latest"⟩ (draftName (Disk.numbered 0)))).text.utf8ByteSize ≤
      FileTree.maxPath := by decide +kernel
  have hfree : Disk.freePlace? .reliable archive ["var", "dumps"] (999999 + 1) = some draftPlace := by
    rw [Disk.freePlace?]
    exact if_pos (Option.isNone_iff_eq_none.mpr free_draftPlace)
  rw [Disk.draft?, hplace]
  exact (if_pos ⟨rfl, rfl, hlength⟩).trans hfree

theorem persist_archive (content : List UInt8) :
    Disk.persist .reliable draftPlace ⟨"/var/latest/dump.json"⟩ (archive.put draftPlace (.file content)) =
      .ok (((archive.put draftPlace (.file content)).erase draftPlace).put ["var", "dumps", "dump.json"]
        (.file content)) := by
  have hfound : (archive.put draftPlace (.file content)).find ⟨"/var/latest/dump.json"⟩ false =
      .ok (.entry ["var", "dumps", "dump.json"]) := FileTree.find_of_steps 9 (by decide) (by decide) rfl
  have hfile : (archive.put draftPlace (.file content)).isFolder ["var", "dumps", "dump.json"] = false :=
    FileTree.isFolder_put_file free_draftPlace _
  have hdraft : FileTree.entry? (archive.put draftPlace (.file content)) draftPlace = some (.file content) :=
    FileTree.entry?_put_self (FileTree.ne_root_of_free free_draftPlace)
  rw [Disk.persist, if_pos (by decide), FileTree.rename, hdraft]
  simp only [hfound, FileTree.Found.place, hfile]
  rfl

theorem dumpToFile_served :
    (dumpToFile .reliable (fun _ => false) ⟨"/var/latest/dump.json"⟩ (shelfWorld [])).1 = .ok () := by
  have hdraft : Disk.draft? .reliable (shelfWorld []).files (FilePath.folder ⟨"/var/latest/dump.json"⟩) =
      some draftPlace := by
    rw [show FilePath.folder ⟨"/var/latest/dump.json"⟩ = ⟨"/var/latest"⟩ by decide]
    exact draft?_archive
  have hstream : stream (fun _ => false) none { shelfWorld [] with slot := .taken } =
      ((.ok (), textBytes (dumpText [shelved])), { shelfWorld [] with slot := .taken }) :=
    stream_unlimited (by rfl)
  rw [dumpToFile, alone_free rfl]
  simp only [hdraft, show Disk.reliable.room = none from rfl, hstream, Except.bind]
  rw [show (shelfWorld []).files = archive from rfl, persist_archive]

/-- The counters of the files cannot be read. -/
theorem stream_refused : stream (fun _ => false) none { shelfWorld [.getFields] with slot := .taken } =
    ((.error (.dump (some (.store (.injected .getFields)))), textBytes listStart),
      { shelfWorld [.getFields] with slot := .taken }) := by
  rfl

theorem dumpToFile_refused (path : FilePath) :
    (dumpToFile .reliable (fun _ => false) path (shelfWorld [.getFields])).1 ≠ .ok () := by
  rw [dumpToFile, alone_free rfl]
  split
  · simp
  · rw [show Disk.reliable.room = none from rfl, stream_refused]
    simp [Except.bind]

/-- The path leads along a link from the root. If requests are refused, the failure comes after the start has been
written, and the file is still that of the earlier dump; if none is, it has the new text. -/
theorem dump_all_or_part_archive :
    (∃ after, dumpStream (fun _ => false) none (shelfWorld [.getFields]) =
        ((.error (.dump (some (.store (.injected .getFields)))), textBytes listStart), after) ∧
      textBytes listStart <+: textBytes (dumpText [shelved]) ∧
      Undisturbed Faulty.inner (shelfWorld [.getFields]) after) ∧
    (∃ e after, dumpToFile .reliable (fun _ => false) ⟨"/var/latest/dump.json"⟩ (shelfWorld [.getFields]) =
        (.error e, after) ∧ after.files = archive) ∧
    ∃ after, dumpToFile .reliable (fun _ => false) ⟨"/var/latest/dump.json"⟩ (shelfWorld []) = (.ok (), after) ∧
      after.files.entry? ["var", "dumps", "dump.json"] = some (.file (textBytes (dumpText [shelved]))) ∧
      ∀ other, other ≠ ["var", "dumps", "dump.json"] → after.files.entry? other = archive.entry? other := by
  have hdump : ∀ failing, (dump false none ((shelfWorld failing).unwrapped Faulty.inner)).1 =
      (.ok (), textBytes (dumpText [shelved])) := fun failing =>
    congrArg (·.1) (@dump_unlimited ((shelfWorld failing).unwrapped Faulty.inner) rfl _ allCounters_shelf)
  have hall := fun failing => @dump_all_or_part _ _ _ (shelfWorld failing) wraps_faulty rfl _ (hdump failing)
  refine ⟨?_, ?_, ?_⟩
  · obtain ⟨result, received, after, hdump, hpart, -, -, hafter⟩ := (hall [.getFields]).1 (fun _ => false) none
    have hreceived : (dumpStream (fun _ => false) none (shelfWorld [.getFields])).1 =
        (.error (.dump (some (.store (.injected .getFields)))), textBytes listStart) := by
      rw [dumpStream, alone_free rfl, stream_refused]
    rw [hdump] at hreceived
    obtain ⟨rfl, rfl⟩ := Prod.mk.inj hreceived
    exact ⟨after, hdump, hpart, hafter⟩
  · obtain ⟨result, after, hdump, -, hsettled⟩ :=
      (hall [.getFields]).2 .reliable (fun _ => false) ⟨"/var/latest/dump.json"⟩
    cases result with
    | ok u => exact absurd (congrArg (·.1) hdump) (dumpToFile_refused _)
    | error e => exact ⟨e, after, hdump, hsettled⟩
  · obtain ⟨result, after, hdump, -, hsettled⟩ := (hall []).2 .reliable (fun _ => false) ⟨"/var/latest/dump.json"⟩
    obtain rfl : result = .ok () := (congrArg (·.1) hdump).symm.trans dumpToFile_served
    obtain ⟨-, target, hfound, hfile, hkept⟩ := hsettled
    have hfind : archive.find ⟨"/var/latest/dump.json"⟩ false = .ok (.entry ["var", "dumps", "dump.json"]) :=
      FileTree.find_of_steps 9 (by decide) (by decide) (by decide +kernel)
    obtain rfl : target = .entry ["var", "dumps", "dump.json"] := Except.ok.inj (hfound.symm.trans hfind)
    exact ⟨after, hdump, hfile, hkept⟩

end Index
end ShareIndex
