import ShareIndex.Proofs.Repository.History
import ShareIndex.Proofs.Repository.Vacancy

/-!
# ShareIndex.Proofs.Repository.Separation

The layout of the keys as a whole: which of them can be the same, which of them a pattern finds, and what that means
for clearing a generation.

* `Key.shared`           — the keys that do not name a download.
* `Key.matches_children` — in both kinds of stores, the pattern of a group finds the keys below it; in memory these are
  the ones without a line feed.
* `Key.Swept`            — what clearing a generation asks a store to delete.
* `Key.swept_iff`        — that is what the generation owns, as far as scans can find it.
* `clear_swept`          — clearing removes it and nothing else.
* `layout_separates`     — groups, generations and downloads are kept apart.
-/

namespace ShareIndex
namespace Repository

open Store (Backend Command KeyValueStore globMatches)
open Share (Download)

namespace Key

/-- The keys that do not name a download. -/
def shared : List String := [downloads .a, downloads .b, pages .a, pages .b, files .a, files .b, active, counters]

variable {group key : String} {g h : Generation} {s : Backend}

theorem downloadFiles_not_mem_shared (g : Generation) (download : String) : downloadFiles g download ∉ shared := by
  have hgroup : ∀ group ∈ groups, ∀ h, downloadFiles g download ≠ ofGroup group h := fun group hg h =>
    downloadFiles_ne hg g h download
  -- the pointer and the counters have no colon in their keys
  have hplain : ∀ other : String, ':' ∉ other.toList → downloadFiles g download ≠ other := by
    rintro other hother rfl
    rw [downloadFiles, toList_below] at hother
    simp at hother
  simp only [shared, List.mem_cons, List.not_mem_nil, or_false, not_or]
  exact ⟨hgroup _ (by decide) _, hgroup _ (by decide) _, hgroup _ (by decide) _, hgroup _ (by decide) _,
    hgroup _ (by decide) _, hgroup _ (by decide) _, hplain _ (by decide), hplain _ (by decide)⟩

/-! ### Patterns -/

theorem admits_children (hg : group ∈ groups) (hv : Visible s key) :
    s.admits (children group g) key = true ↔ ∃ rest, key = ofGroup group g ++ ":" ++ rest := by
  constructor
  · exact below_of_admits hg
  · rintro ⟨rest, rfl⟩
    exact admits_below hg g rest hv

theorem matches_children (hg : group ∈ groups) (hn : '\n' ∉ key.toList) :
    (children group g).matches key = true ↔ ∃ rest, key = ofGroup group g ++ ":" ++ rest := by
  have hadmits : (Backend.memory .empty).admits (children group g) key = true ↔ _ := admits_children hg hn
  rwa [Backend.admits] at hadmits

theorem globMatches_children (hg : group ∈ groups) :
    globMatches (children group g).bracketed key = true ↔ ∃ rest, key = ofGroup group g ++ ":" ++ rest := by
  have hadmits : (Backend.database .empty).admits (children group g) key = true ↔ _ := admits_children hg trivial
  rwa [Backend.admits] at hadmits

/-! ### Clearing -/

/-- What clearing a generation asks a store to delete: the keys of the groups, and what scans find below them. -/
def Swept (s : Backend) (g : Generation) (key : String) : Prop :=
  ∃ group ∈ groups, key = ofGroup group g ∨ s.admits (children group g) key = true

theorem swept_iff : Swept s g key ↔ Clearable s g key := by
  constructor
  · rintro ⟨group, hg, rfl | hadmits⟩
    · exact ⟨scoped_ofGroup hg g, visible_ofGroup s hg g⟩
    · exact clearable_of_admits hg hadmits
  · rintro ⟨⟨group, hg, hown | ⟨rest, hbelow⟩⟩, hv⟩
    · exact ⟨group, hg, .inl hown⟩
    · exact ⟨group, hg, .inr ((admits_children hg hv).mpr ⟨rest, hbelow⟩)⟩

theorem not_swept_of_scoped (hk : Scoped h key) (hne : h ≠ g) : ¬ Swept s g key := fun hs =>
  hne (scoped_unique hk (swept_iff.mp hs).1)

end Key

section Clearing

variable {g h : Generation} {pages : Nat} {s : Shared Backend} {batch : List Download} {c : Command}

theorem clear_swept (ha : s.store.access = .writing) (hn : KeyValueStore.extent s.store < pages) :
    ∃ n s', (clear pages g).perform s = (.ok n, s') ∧
      (∀ key, Key.Swept s.store g key → s'.store.value? key = none) ∧
      ∀ key, ¬ Key.Swept s.store g key → s'.store.contents key = s.store.contents key := by
  obtain ⟨n, s', hperform⟩ := @clearGroups_succeeds (.clear g) Key.groups g pages s ha
  obtain ⟨events, hr⟩ := runs_perform hperform
  refine ⟨n, s', hperform, fun key hk => ?_, fun key hk => ?_⟩
  · obtain ⟨hscoped, hvisible⟩ := Key.swept_iff.mp hk
    exact clear_all hn hr hscoped fun _ => hvisible
  · exact (clear_tally hr).2 key fun hc => hk (Key.swept_iff.mpr hc)

/-- A batch writes to keys of its generation only. -/
theorem scoped_of_mem_commands (hc : c ∈ commands g batch) : Key.Scoped g c.key := by
  rw [commands_eq] at hc
  obtain ⟨e, he, rfl⟩ := List.mem_map.mp hc
  exact scoped_of_mem_entries he

theorem swept_of_mem_commands (s : Backend) (hids : ∀ d ∈ batch, '\n' ∉ d.id.toList) (hc : c ∈ commands g batch) :
    Key.Swept s g c.key := by
  refine Key.swept_iff.mpr ⟨scoped_of_mem_commands hc, ?_⟩
  rw [commands_eq] at hc
  obtain ⟨e, he, rfl⟩ := List.mem_map.mp hc
  exact visible_of_mem_entries s hids he

end Clearing

/-- The generation and the id can be read off the key of the files of a download, whatever characters the id has, and
no other key is like it. A pattern finds what is below its group: with keys that have no line feed in both kinds of
stores, in databases with all keys. So clearing a generation removes every key that a batch can write there, if no id
has a line feed in it, and none that is written elsewhere. -/
theorem layout_separates :
    (∀ g h d e, Key.downloadFiles g d = Key.downloadFiles h e → g = h ∧ d = e) ∧
    (∀ g d, Key.downloadFiles g d ∉ Key.shared) ∧ Key.shared.Nodup ∧
    (∀ group ∈ Key.groups, ∀ g key,
      ('\n' ∉ key.toList →
        ((Key.children group g).matches key = true ↔ ∃ rest, key = group ++ ":" ++ g.text ++ ":" ++ rest)) ∧
      (globMatches (Key.children group g).bracketed key = true ↔ ∃ rest, key = group ++ ":" ++ g.text ++ ":" ++ rest)) ∧
    (∀ (s : Shared Backend) (g : Generation) (pages : Nat), s.store.access = .writing →
      KeyValueStore.extent s.store < pages →
      ∃ n s', (clear pages g).perform s = (.ok n, s') ∧
        (∀ key, Key.Swept s.store g key → s'.store.value? key = none) ∧
        ∀ key, ¬ Key.Swept s.store g key → s'.store.contents key = s.store.contents key) ∧
    ∀ (s : Backend) (g : Generation) (batch : List Download),
      ((∀ d ∈ batch, '\n' ∉ d.id.toList) → ∀ c ∈ commands g batch, Key.Swept s g c.key) ∧
      (∀ c ∈ commands g.other batch, ¬ Key.Swept s g c.key) ∧
      ¬ Key.Swept s g Key.active ∧ ¬ Key.Swept s g Key.counters := by
  refine ⟨fun g h d e => Key.downloadFiles_inj, Key.downloadFiles_not_mem_shared, by decide, ?_, ?_, ?_⟩
  · intro group hg g key
    exact ⟨Key.matches_children hg, Key.globMatches_children hg⟩
  · intro s g pages ha hn
    exact clear_swept ha hn
  · intro s g batch
    refine ⟨fun hids c hc => swept_of_mem_commands s hids hc, fun c hc => ?_, fun hs => ?_, fun hs => ?_⟩
    · exact Key.not_swept_of_scoped (scoped_of_mem_commands hc) g.other_ne
    · exact Key.not_scoped_active g (Key.swept_iff.mp hs).1
    · exact Key.not_scoped_counters g (Key.swept_iff.mp hs).1

/-- A download whose id looks like the end of a key of the other generation, and like a pattern. -/
def lookalike : Download :=
  ⟨"B:*?", "D", none, true, ⟨"d"⟩, "page", "", [⟨"f", "f", none, ⟨"d/f"⟩, "/d/f", 1, "text/plain"⟩]⟩

/-- Both generations with the files of that download. -/
def lookalikes : Shared Backend :=
  ⟨.memory ⟨.ofList [("dfm:A:B:*?", .text "old"), ("dfm:B:B:*?", .text "new"), ("fs", .text "counters")]⟩, some .b⟩

theorem layout_separates_lookalike :
    Key.downloadFiles .a "B:*?" ≠ Key.downloadFiles .b "*?" ∧
    ('\n' ∉ ("dfm:B:*?" : String).toList ∧ (Key.children "dfm" .b).matches "dfm:B:*?" = true) ∧
    ∃ n s', (clear 9 .a).perform lookalikes = (.ok n, s') ∧
      s'.store.value? "dfm:A:B:*?" = none ∧ s'.store.value? "dfm:B:B:*?" = some (.text "new") ∧
      s'.store.value? "fs" = some (.text "counters") := by
  obtain ⟨hinj, -, -, hpattern, hclear, hwritten⟩ := layout_separates
  have hfound := (hpattern "dfm" (by decide) .b "dfm:B:*?").1 (by decide)
  obtain ⟨n, s', hs, hgone, hkept⟩ := hclear lookalikes .a 9 rfl (by decide)
  obtain ⟨hswept, hother, -, hcounters⟩ := hwritten lookalikes.store .a [lookalike]
  refine ⟨fun h => ?_, ⟨by decide, hfound.mpr ⟨"*?", rfl⟩⟩, n, s', hs, hgone _ ?_, ?_, ?_⟩
  · exact absurd (hinj _ _ _ _ h).1 (by decide)
  · exact hswept (by decide) (.setField "dfm:A:B:*?" "f" "/d/f") (by decide)
  · exact congrArg Store.Contents.value? (hkept _ (hother (.setField "dfm:B:B:*?" "f" "/d/f") (by decide)))
  · exact congrArg Store.Contents.value? (hkept _ hcounters)

end Repository
end ShareIndex
