import ShareIndex.Proofs.Repository.Clear
import ShareIndex.Proofs.Store.Tally

/-!
# ShareIndex.Proofs.Repository.Vacancy

What clearing a generation leaves, to the last key. In a database that is no key of the generation; in memory a scan
does not come to keys with a line feed.

* `Key.Clearable`      — the keys that clearing removes.
* `clearChildren_tally`, `clearGroups_tally` — what has been counted and what is left make up the keys there were, and
  a key that no scan can find is left alone.
* `clear_exact`        — clearing removes and counts the keys that it comes to, and leaves all others alone.
* `clear_incomplete`   — a key of the generation that clearing does not come to.
-/

namespace ShareIndex
namespace Repository

open Store (Backend Keyspace KeyValueStore)

namespace Key

variable {group : String} {g : Generation} {key : String} {s : Backend}

theorem lineFeed_not_mem_below (h : group ∈ groups) (g : Generation) : '\n' ∉ (ofGroup group g ++ ":").toList := by
  simp only [groups, List.mem_cons, List.not_mem_nil, or_false] at h
  rcases h with rfl | rfl | rfl | rfl <;> cases g <;> decide

theorem visible_ofGroup (s : Backend) (h : group ∈ groups) (g : Generation) : Visible s (ofGroup group g) := by
  cases s with
  | memory s =>
    intro hmem
    refine lineFeed_not_mem_below h g ?_
    rw [String.toList_append]
    exact List.mem_append_left _ hmem
  | database d => trivial

/-- What a scan for a group finds has no line feed in memory. -/
theorem visible_of_admits (hg : group ∈ groups) (h : s.admits (children group g) key = true) : Visible s key := by
  cases s with
  | memory s =>
    rw [children_eq] at h
    obtain ⟨rest, hkey, hrest⟩ := (Store.Pattern.matches_below (plain_below hg g) key).mp h
    show '\n' ∉ key.toList
    rw [hkey, List.mem_append, not_or]
    exact ⟨lineFeed_not_mem_below hg g, hrest⟩
  | database d => trivial

instance (g : Generation) : DecidablePred (Scoped g) := fun key =>
  decidable_of_iff (∃ group ∈ groups, key = ofGroup group g ∨ (ofGroup group g ++ ":").toList <+: key.toList) <| by
    refine exists_congr fun group => and_congr_right fun _ => or_congr_right ?_
    constructor
    · rintro ⟨rest, hrest⟩
      refine ⟨String.ofList rest, String.toList_inj.mp ?_⟩
      rw [String.toList_append, String.toList_ofList, hrest]
    · rintro ⟨rest, rfl⟩
      exact ⟨rest.toList, String.toList_append.symm⟩

/-- A key of the generation that clearing removes. -/
def Clearable (s : Backend) (g : Generation) (key : String) : Prop := Scoped g key ∧ Visible s key

instance (s : Backend) (g : Generation) : DecidablePred (Clearable s g) := fun _ => inferInstanceAs (Decidable (_ ∧ _))

theorem clearable_of_admits (hg : group ∈ groups) (h : s.admits (children group g) key = true) : Clearable s g key := by
  obtain ⟨rest, rfl⟩ := below_of_admits hg h
  exact ⟨scoped_below hg g rest, visible_of_admits hg h⟩

end Key

section Runs

variable {raise : Store.Error → Error} {group : String} {g : Generation} {pages : Nat} {cursor : Option String}
  {s s' : Shared Backend} {events : List Event} {n : Nat}

theorem deletePage_tally {keys : List String} (h : Runs (deletePage raise keys).run s events (.ok n) s') :
    n + s'.store.keys.length = s.store.keys.length ∧
      ∀ key, key ∉ keys → s'.store.contents key = s.store.contents key := by
  unfold deletePage at h
  split at h
  · obtain ⟨-, hn, rfl⟩ := runs_pure h
    cases hn
    exact ⟨Nat.zero_add _, fun _ _ => rfl⟩
  · obtain ⟨store, hr, rfl⟩ := runs_request_ok h
    exact ⟨Backend.tally_delete hr.of_ok, fun key hk => hr.contents hk⟩

theorem clearChildren_tally (hg : group ∈ Key.groups)
    (h : Runs (clearChildren raise group g pages cursor).run s events (.ok n) s') :
    n + s'.store.keys.length = s.store.keys.length ∧
      ∀ key, s.store.admits (Key.children group g) key = false → s'.store.contents key = s.store.contents key := by
  induction pages generalizing s s' events n cursor with
  | zero =>
    obtain ⟨-, hn, rfl⟩ := runs_pure h
    cases hn
    exact ⟨Nat.zero_add _, fun _ _ => rfl⟩
  | succ pages ih =>
    rw [clearChildren] at h
    obtain ⟨page, s1, events1, later1, -, h1, h⟩ := runs_action_ok h
    obtain ⟨store, hr, rfl⟩ := runs_request_ok h1
    obtain ⟨rfl, hp⟩ := hr.scanned
    have hlisted : ∀ key ∈ page.items, key ∈ s.store.listed (Key.children group g) := by
      rw [hp page rfl]
      exact fun key hk => (List.mem_filter.mp (List.mem_of_mem_take hk)).1
    obtain ⟨deleted, s2, events2, later2, -, h2, h⟩ := runs_action_ok h
    obtain ⟨hcount, hkept⟩ := deletePage_tally h2
    have hcount : deleted + s2.store.keys.length = s.store.keys.length := hcount
    have hkept : ∀ key, s.store.admits (Key.children group g) key = false →
        s2.store.contents key = s.store.contents key := by
      intro key hadmits
      refine hkept key fun hk => ?_
      rw [(Backend.mem_listed.mp (hlisted key hk)).2] at hadmits
      cases hadmits
    cases hnext : page.next with
    | none =>
      rw [hnext] at h
      obtain ⟨-, hn, rfl⟩ := runs_pure h
      cases hn
      exact ⟨hcount, hkept⟩
    | some next =>
      rw [hnext] at h
      obtain ⟨more, s3, events3, later3, -, h3, h⟩ := runs_action_ok h
      obtain ⟨-, hn, rfl⟩ := runs_pure h
      cases hn
      obtain ⟨hmore, hrest⟩ := ih h3
      have hadmits := (deletePage_cleared (fun key hk => scoped_of_listed hg (hlisted key hk)) h2).admits
      refine ⟨by omega, fun key hk => (hrest key ?_).trans (hkept key hk)⟩
      rw [hadmits]
      exact hk

theorem clearGroups_tally {gs : List String} (hgs : ∀ group ∈ gs, group ∈ Key.groups)
    (h : Runs (clearGroups raise pages g gs).run s events (.ok n) s') :
    n + s'.store.keys.length = s.store.keys.length ∧
      ∀ key, (∀ group ∈ gs, key ≠ Key.ofGroup group g ∧ s.store.admits (Key.children group g) key = false) →
        s'.store.contents key = s.store.contents key := by
  induction gs generalizing s s' events n with
  | nil =>
    obtain ⟨-, hn, rfl⟩ := runs_pure h
    cases hn
    exact ⟨Nat.zero_add _, fun _ _ => rfl⟩
  | cons group rest ih =>
    obtain ⟨hg, hrest⟩ := List.forall_mem_cons.mp hgs
    rw [clearGroups] at h
    obtain ⟨children, s1, events1, later1, -, h1, h⟩ := runs_action_ok h
    obtain ⟨own, s2, events2, later2, -, h2, h⟩ := runs_action_ok h
    obtain ⟨more, s3, events3, later3, -, h3, h⟩ := runs_action_ok h
    obtain ⟨-, hn, rfl⟩ := runs_pure h
    cases hn
    obtain ⟨store, hr, rfl⟩ := runs_request_ok h2
    obtain ⟨hcount1, hkept1⟩ := clearChildren_tally hg h1
    have hcount2 := Backend.tally_delete hr.of_ok
    obtain ⟨hcount3, hkept3⟩ := ih hrest h3
    have hcount3 : more + s'.store.keys.length = store.keys.length := hcount3
    have hadmits : store.admits = s.store.admits :=
      ((clearChildren_cleared hg h1).trans (.of_delete (scoped_own hg g) hr)).admits
    refine ⟨by omega, fun key hkey => ?_⟩
    obtain ⟨⟨hown, hchild⟩, hothers⟩ := List.forall_mem_cons.mp hkey
    calc s'.store.contents key
        = store.contents key := hkept3 key fun other ho => by rw [hadmits]; exact hothers other ho
      _ = s1.store.contents key := hr.contents fun hk => hown (List.mem_singleton.mp hk)
      _ = s.store.contents key := hkept1 key hchild

end Runs

variable {pages : Nat} {g : Generation} {s : Shared Backend}

theorem clear_tally {s' : Shared Backend} {events : List Event} {n : Nat}
    (h : Runs (clear pages g).run s events (.ok n) s') :
    n + s'.store.keys.length = s.store.keys.length ∧
      ∀ key, ¬ Key.Clearable s.store g key → s'.store.contents key = s.store.contents key := by
  obtain ⟨hcount, hkept⟩ := clearGroups_tally (fun _ h => h) h
  refine ⟨hcount, fun key hk => hkept key fun group hg => ⟨?_, ?_⟩⟩
  · rintro rfl
    exact hk ⟨Key.scoped_ofGroup hg g, Key.visible_ofGroup s.store hg g⟩
  · exact Bool.eq_false_iff.mpr fun hadmits => hk (Key.clearable_of_admits hg hadmits)

theorem clear_holder {s' : Shared Backend} {events : List Event} {result : Except Error Nat}
    (h : Runs (clear pages g).run s events result s') : s'.holder = s.holder :=
  (@clearGroups_strict (.clear g) Key.groups g pages (fun _ _ _ => True) (fun _ _ _ => trivial) fun _ _ => trivial).holder
    h

/-- Clearing removes and counts every key of the generation that a scan can find, and leaves every other key alone. -/
theorem clear_exact (ha : s.store.access = .writing) (hn : KeyValueStore.extent s.store < pages) :
    ∃ s', (clear pages g).perform s = (.ok (s.store.keys.countP fun key => decide (Key.Clearable s.store g key)), s') ∧
      (∀ key, Key.Clearable s.store g key → s'.store.value? key = none) ∧
      (∀ key, ¬ Key.Clearable s.store g key → s'.store.contents key = s.store.contents key) ∧ s'.holder = s.holder := by
  obtain ⟨n, s', hperform⟩ := @clearGroups_succeeds (.clear g) Key.groups g pages s ha
  obtain ⟨events, hr⟩ := runs_perform hperform
  obtain ⟨hcount, hkept⟩ := clear_tally hr
  have hgone : ∀ key, Key.Clearable s.store g key → s'.store.value? key = none := fun key hk =>
    clear_all hn hr hk.1 fun _ => hk.2
  have hleft : s'.store.keys = s.store.keys.filter fun key => !decide (Key.Clearable s.store g key) := by
    refine s'.store.keys_ascending.eq_of_mem_iff (s.store.keys_ascending.sublist List.filter_sublist) fun key => ?_
    rw [List.mem_filter, Backend.mem_keys, Backend.mem_keys]
    by_cases hk : Key.Clearable s.store g key
    · simp [hk, hgone key hk]
    · simp [hk, Backend.value?, hkept key hk]
  have hsplit := List.length_eq_length_filter_add (l := s.store.keys) fun key => decide (Key.Clearable s.store g key)
  rw [← List.countP_eq_length_filter, ← hleft] at hsplit
  obtain rfl : n = s.store.keys.countP fun key => decide (Key.Clearable s.store g key) := by omega
  exact ⟨s', hperform, hgone, hkept, clear_holder hr⟩

/-- Two keys of a generation, one of them with a line feed, and a key of the other generation. -/
def scattered : Shared Backend :=
  ⟨.memory ⟨.ofList [("dfm:A:x", .text "old"), ("dm:A:x\ny", .text "old"), ("pc:B", .text "new")]⟩, none⟩

theorem clear_exact_scattered : ∃ s', (clear 9 .a).perform scattered = (.ok 1, s') ∧
    s'.store.value? "dfm:A:x" = none ∧ s'.store.value? "pc:B" = some (.text "new") := by
  obtain ⟨s', hs, hgone, hkept, -⟩ := @clear_exact 9 .a scattered rfl (by decide)
  refine ⟨s', hs, hgone _ (by decide), ?_⟩
  exact congrArg Store.Contents.value? (hkept "pc:B" (by decide))

/-- In memory a key of the generation is left, and not counted. -/
theorem clear_incomplete :
    ¬ ∀ (s : Shared Backend) (g : Generation) (pages : Nat), s.store.access = .writing →
      KeyValueStore.extent s.store < pages → ∃ n s', (clear pages g).perform s = (.ok n, s') ∧
        ∀ key, Key.Scoped g key → s'.store.value? key = none := by
  intro hall
  obtain ⟨n, s', hs, hgone⟩ := hall scattered .a 9 rfl (by decide)
  obtain ⟨events, hr⟩ := runs_perform hs
  have hkept := (clear_tally hr).2 "dm:A:x\ny" (by decide)
  have hvalue : s'.store.value? "dm:A:x\ny" = some (.text "old") := congrArg Store.Contents.value? hkept
  rw [hgone _ (by decide)] at hvalue
  cases hvalue

end Repository
end ShareIndex
