import ShareIndex.Proofs.Index.Sink
import ShareIndex.Proofs.Json.RoundTrip
import ShareIndex.Proofs.Repository.Listing

/-!
# ShareIndex.Proofs.Index.Dump

The text of a dump: what is read of it as JSON, and its lines.

* `fits_downloadDatum`, `downloadDatum_injective` — the datum of a download has a notation, and no other download has it.
* `read?_dumpText`  — the text of a dump is the list of its downloads.
* `count_lineFeed`  — each download is on a line of its own.
* `Catalogue`       — the listing of all that is active.
* `dump_encodes`    — a dump of a legible state is the text of its listing.
-/

namespace ShareIndex
namespace Index

open Json (Reads Reading Fits Writes Open)
open Repository (Found Legible Shared allCounters counterAt downloadCounters downloadMap fileCounter inRange_counterAt
  listed listed_of_holder urlMap)
open Share (DownloadCounters FileCounter)
open Store (Backend KeyValueStore)

/-! ### Data -/

theorem fits_fileDatum {c : FileCounter} (h : Decimal.InRange c.counter) (depth : Nat) :
    Fits (depth + 1) (fileDatum c) := by
  refine .table (by simp) ?_
  simp only [List.forall_mem_cons]
  exact ⟨.text _ _, .text _ _, .text _ _, .integer _ (Json.numeric_of_inRange h), nofun⟩

theorem fits_downloadDatum {c : DownloadCounters} (h : ∀ f ∈ c.files, Decimal.InRange f.counter) (depth : Nat) :
    Fits (depth + 3) (downloadDatum c) := by
  refine .table (by simp) ?_
  simp only [List.forall_mem_cons]
  refine ⟨.text _ _, .text _ _, .list ?_, nofun⟩
  rw [List.forall_mem_map]
  exact fun f hf => fits_fileDatum (h f hf) depth

theorem fileDatum_injective {c c' : FileCounter} (h : fileDatum c = fileDatum c') : c = c' := by
  cases c
  cases c'
  simpa [fileDatum] using h

theorem downloadDatum_injective {c c' : DownloadCounters} (h : downloadDatum c = downloadDatum c') : c = c' := by
  have hfiles : c.files.map fileDatum = c'.files.map fileDatum := by
    simp only [downloadDatum, Datum.table.injEq, List.cons.injEq, Prod.mk.injEq, Datum.list.injEq] at h
    exact h.2.2.1.2
  have hfiles : c.files = c'.files := List.map_injective_iff.mpr (fun _ _ => fileDatum_injective) hfiles
  cases c
  cases c'
  simp_all [downloadDatum]

/-! ### Text -/

section Text

variable {listing : List DownloadCounters}

/-- After one download come the others, each after a comma, and the end. -/
theorem reads_lines {depth : Nat} (h : ∀ c ∈ listing, Fits depth (downloadDatum c)) (hd : depth < Json.maxDepth)
    (done : List Datum) (value : Datum) :
    Reads (.complete value [.list done]) ('\n' :: (listing.flatMap (item false) ++ listEnd))
      (.complete (.list (done ++ value :: listing.map downloadDatum)) []) := by
  induction listing generalizing done value with
  | nil => exact .blank rfl (.mark (Json.lexeme_closeList []) rfl (.nil _))
  | cons c rest ih =>
    obtain ⟨hc, hrest⟩ := List.forall_mem_cons.mp h
    have hlater := ih hrest (done ++ [value]) (downloadDatum c)
    rw [List.append_assoc] at hlater
    have hline := Json.reads_write hc (Json.expects_awaitValue [.list (done ++ [value])])
      (by simp only [List.length_cons, List.length_nil]; omega) (Json.delimited_cons (by decide) _) hlater
    have htext : (c :: rest).flatMap (item false) ++ listEnd =
        ',' :: (Json.write (downloadDatum c) ++ '\n' :: (rest.flatMap (item false) ++ listEnd)) := by
      simp [item, line]
    rw [htext]
    exact .blank rfl (.mark (Json.lexeme_comma _) rfl hline)

/-- The text of a dump is the list of the data of its downloads. -/
theorem read?_dumpText {depth : Nat} (h : ∀ c ∈ listing, Fits depth (downloadDatum c)) (hd : depth < Json.maxDepth) :
    Json.read? (dumpText listing) = some (.list (listing.map downloadDatum)) := by
  refine Json.read?_of_reads ?_
  have hopen : Reading.step? (.awaitValue []) .openList = some (.firstItem []) := rfl
  cases listing with
  | nil => exact .mark (Json.lexeme_openList _) hopen (.blank rfl (.mark (Json.lexeme_closeList []) rfl (.nil _)))
  | cons c rest =>
    obtain ⟨hc, hrest⟩ := List.forall_mem_cons.mp h
    have hlater := reads_lines hrest hd [] (downloadDatum c)
    have hline := Json.reads_write hc (Json.expects_firstItem [])
      (by simp only [List.length_cons, List.length_nil]; omega) (Json.delimited_cons (by decide) _) hlater
    have htext : dumpText (c :: rest) =
        '[' :: '\n' :: (Json.write (downloadDatum c) ++ '\n' :: (rest.flatMap (item false) ++ listEnd)) := by
      simp [dumpText, listStart, items, item, line]
    rw [htext]
    exact .mark (Json.lexeme_openList _) hopen (.blank rfl hline)

theorem intercalate_lines (first : List Char) (rest : List DownloadCounters) :
    [','].intercalate (first :: rest.map line) = first ++ rest.flatMap (item false) := by
  induction rest generalizing first with
  | nil => simp [List.intercalate]
  | cons c rest ih =>
    have hrest := ih (line c)
    simp only [List.intercalate, List.map_cons, List.intersperse_cons_cons, List.flatten_cons] at hrest ⊢
    rw [hrest]
    simp [item]

/-- Between the lines of the downloads there are commas. -/
theorem items_eq_intercalate (listing : List DownloadCounters) : items listing = [','].intercalate (listing.map line) := by
  cases listing with
  | nil => rfl
  | cons c rest => exact (intercalate_lines (line c) rest).symm

theorem lineFeed_not_mem {depth : Nat} {d : Datum} (h : Fits depth d) : '\n' ∉ Json.write d := fun hm =>
  absurd (Json.printable_write h '\n' hm) (by decide)

theorem count_line {depth : Nat} {c : DownloadCounters} (h : Fits depth (downloadDatum c)) : (line c).count '\n' = 1 := by
  rw [line, List.count_append, List.count_eq_zero_of_not_mem (lineFeed_not_mem h)]
  rfl

theorem count_items {depth : Nat} (h : ∀ c ∈ listing, Fits depth (downloadDatum c)) (written : Nat) :
    (itemsFrom written listing).count '\n' = listing.length := by
  induction listing generalizing written with
  | nil => rfl
  | cons c rest ih =>
    obtain ⟨hc, hrest⟩ := List.forall_mem_cons.mp h
    have hitem : (item (written == 0) c).count '\n' = 1 := by
      cases written with
      | zero => exact count_line hc
      | succ written => exact (List.count_cons_of_ne (by decide)).trans (count_line hc)
    rw [itemsFrom, List.count_append, hitem, ih hrest, List.length_cons, Nat.add_comm]

/-- There is one line feed for each download, and one after the start. -/
theorem count_lineFeed {depth : Nat} (h : ∀ c ∈ listing, Fits depth (downloadDatum c)) :
    (dumpText listing).count '\n' = listing.length + 1 := by
  rw [dumpText, List.count_append, List.count_append, ← itemsFrom_zero, count_items h,
    show listStart.count '\n' = 1 by decide, show listEnd.count '\n' = 0 by decide]
  omega

end Text

/-! ### Dumps -/

/-- Each download of the active generation stands in the listing once, in the order of the ids, and in it each of its
files, with the url and the counter that the store has. -/
structure Catalogue (s : Shared Backend) (listing : List DownloadCounters) : Prop where
  ascending : (listing.map (·.id)).Pairwise (· < ·)
  downloads : ∀ id path, (∃ c ∈ listing, c.id = id ∧ c.path = path) ↔
    ∃ g, s.holder = some g ∧ (downloadMap s.store g).get? id = some path
  filesAscending : ∀ c ∈ listing, (c.files.map (·.id)).Pairwise (· < ·)
  files : ∀ c ∈ listing, ∀ file url, (∃ f ∈ c.files, f.id = file ∧ f.url = url) ↔
    ∃ g, s.holder = some g ∧ (urlMap s.store g c.id).get? file = some url
  counters : ∀ c ∈ listing, ∀ f ∈ c.files, counterAt s.store f.id = some f.counter ∧ f = .ofUrl f.id f.url f.counter

theorem Catalogue.fits {s : Shared Backend} {listing : List DownloadCounters} (h : Catalogue s listing)
    (depth : Nat) : ∀ c ∈ listing, Fits (depth + 3) (downloadDatum c) := fun c hc =>
  fits_downloadDatum (fun f hf => inRange_counterAt (h.counters c hc f hf).1) depth

theorem catalogue_listed {s : Shared Backend} (h : Legible s) : Catalogue s (listed s) := by
  cases hg : s.holder with
  | none =>
    rw [listed, hg]
    exact ⟨.nil, by simp [hg], List.forall_mem_nil _, List.forall_mem_nil _, List.forall_mem_nil _⟩
  | some g =>
    have hfiles : ∀ e : String × String, (downloadCounters s.store g e.1 e.2).files =
        (urlMap s.store g e.1).entries.map fun e => fileCounter s.store e.1 e.2 := fun _ => rfl
    rw [listed_of_holder hg]
    refine ⟨?_, fun id path => ⟨?_, ?_⟩, ?_, ?_, ?_⟩
    · rw [List.map_map]
      exact (downloadMap s.store g).keys_ascending
    · rintro ⟨c, hc, rfl, rfl⟩
      obtain ⟨e, he, rfl⟩ := List.mem_map.mp hc
      exact ⟨g, hg, OrderedMap.get?_eq_some_iff.mpr he⟩
    · rintro ⟨g', hg', hp⟩
      obtain rfl := Option.some.inj (hg.symm.trans hg')
      exact ⟨_, List.mem_map_of_mem (OrderedMap.get?_eq_some_iff.mp hp), rfl, rfl⟩
    · rw [List.forall_mem_map]
      intro e _
      rw [hfiles, List.map_map]
      exact (urlMap s.store g e.1).keys_ascending
    · rw [List.forall_mem_map]
      intro e _ file url
      rw [hfiles]
      constructor
      · rintro ⟨f, hf, rfl, rfl⟩
        obtain ⟨e', he', rfl⟩ := List.mem_map.mp hf
        exact ⟨g, hg, OrderedMap.get?_eq_some_iff.mpr he'⟩
      · rintro ⟨g', hg', hu⟩
        obtain rfl := Option.some.inj (hg.symm.trans hg')
        exact ⟨_, List.mem_map_of_mem (OrderedMap.get?_eq_some_iff.mp hu), rfl, rfl⟩
    · rw [List.forall_mem_map]
      intro e _
      rw [hfiles, List.forall_mem_map]
      exact fun f _ => ⟨h.counted f.1, rfl⟩

/-- Nothing is in the way of what has been found. -/
theorem stream_unlimited {S : Type} [KeyValueStore S] {w : World S} {listing : List DownloadCounters}
    (h : allCounters.run w.shared = ((listing, none), w.shared)) :
    stream (fun _ => false) none w = ((.ok (), textBytes (dumpText listing)), w) := by
  obtain ⟨part, hreceived, -, hall⟩ :=
    @writeAll_delivers (fun _ => false) listing (listing, none) rfl (Sink.empty none)
  have hok := writeAll_unlimited listing
  obtain rfl := hall.mp hok
  rw [stream_eq, h, hok, hreceived]
  rfl

theorem dump_unlimited {w : World Backend} (hslot : w.slot = .free) {listing : List DownloadCounters}
    (h : allCounters.run w.shared = ((listing, none), w.shared)) :
    dump false none w = ((.ok (), textBytes (dumpText listing)), w) := by
  have hstream := @stream_unlimited Backend _ { w with slot := .taken } listing h
  rw [dump, dumpStream, alone_free hslot, hstream, ← hslot]

/-- A dump of a legible state is the text of its listing: the start, the lines of the downloads with commas between
them, and the end. As JSON it is the list of these downloads and of no others. -/
theorem dump_encodes {w : World Backend} (hslot : w.slot = .free) (h : Legible w.shared) : ∃ listing text,
    allCounters.run w.shared = ((listing, none), w.shared) ∧ Catalogue w.shared listing ∧
    dump false none w = ((.ok (), Text.bytes (String.ofList text)), w) ∧
    text = ['[', '\n'] ++ [','].intercalate (listing.map fun c => Json.write (downloadDatum c) ++ ['\n']) ++ [']'] ∧
    (∀ other : List DownloadCounters, Json.read? text = some (.list (other.map downloadDatum)) ↔ other = listing) ∧
    text.count '\n' = listing.length + 1 ∧ ∀ c ∈ listing, '\n' ∉ Json.write (downloadDatum c) := by
  have hrun := Repository.allCounters_run h
  have hcatalogue := catalogue_listed h
  have hfits := hcatalogue.fits 0
  have hread := read?_dumpText hfits (by decide)
  refine ⟨listed w.shared, dumpText (listed w.shared), hrun, hcatalogue, dump_unlimited hslot hrun, ?_, ?_,
    count_lineFeed hfits, fun c hc => lineFeed_not_mem (hfits c hc)⟩
  · rw [dumpText, items_eq_intercalate]
    rfl
  · intro other
    rw [hread]
    simp only [Option.some.injEq, Datum.list.injEq]
    rw [List.map_inj_right (fun _ _ => downloadDatum_injective)]
    exact eq_comm

theorem dump_encodes_shelf : ∃ text,
    dump false none ⟨∅, Repository.shelf, .free⟩ =
      ((.ok (), Text.bytes (String.ofList text)), ⟨∅, Repository.shelf, .free⟩) ∧
    Json.read? text = some (.list [downloadDatum Repository.shelved]) ∧ text.count '\n' = 2 := by
  obtain ⟨listing, text, hrun, -, hdump, -, hread, hcount, -⟩ :=
    @dump_encodes ⟨∅, Repository.shelf, .free⟩ rfl Repository.legible_shelf
  obtain rfl : listing = [Repository.shelved] := congrArg (·.1.1) (hrun.symm.trans Repository.allCounters_shelf)
  exact ⟨text, hdump, (hread [Repository.shelved]).mpr rfl, hcount⟩

end Index
end ShareIndex
