import ShareIndex.Repository.Publish
import ShareIndex.Proofs.Repository.Layout
import ShareIndex.Proofs.Repository.Reply
import Mathlib.Data.List.Perm.Subperm

/-!
# ShareIndex.Proofs.Repository.Clear

Clearing a generation, page by page, on a store that may fail at any request.

* `Cleared`           — what clearing may have done to a store, wherever it has stopped.
* `clear_cleared`     — every run does no more than that.
* `clearChildren_all` — the loop over the pages leaves no key behind that a scan finds.
* `clear_all`         — a run that succeeds leaves no visible key of the generation.
* `clearGroups_succeeds` — on a store that can be written to, clearing succeeds.
-/

namespace ShareIndex
namespace Repository

open Store (Backend Request KeyValueStore Page)

/-- Keys of the generation may have been removed, and nothing else has happened. -/
structure Cleared (g : Generation) (s s' : Backend) : Prop where
  access : s'.access = s.access
  admits : s'.admits = s.admits
  kept : ∀ key, ¬ Key.Scoped g key → s'.contents key = s.contents key
  removed : ∀ key, s'.value? key = s.value? key ∨ s'.value? key = none

namespace Cleared

variable {g : Generation} {s s' s'' : Backend}

theorem refl (g : Generation) (s : Backend) : Cleared g s s := ⟨rfl, rfl, fun _ _ => rfl, fun _ => .inl rfl⟩

theorem trans (h1 : Cleared g s s') (h2 : Cleared g s' s'') : Cleared g s s'' where
  access := h2.access.trans h1.access
  admits := h2.admits.trans h1.admits
  kept key h := (h2.kept key h).trans (h1.kept key h)
  removed key := by
    rcases h2.removed key with h | h
    · rw [h]; exact h1.removed key
    · exact .inr h

theorem none_of_none (h : Cleared g s s') {key : String} (hn : s.value? key = none) : s'.value? key = none := by
  rcases h.removed key with h | h
  · exact h.trans hn
  · exact h

/-- Deleted keys of the generation are removed, if the request is served. -/
theorem of_delete {keys : List String} {answer : Except Store.Error Nat} (hk : ∀ key ∈ keys, Key.Scoped g key)
    (h : Reply s (.delete keys) answer s') : Cleared g s s' := by
  cases h with
  | refused => exact refl g s
  | served =>
    refine ⟨s.access_perform _, s.admits_perform _, fun key hs => ?_, fun key => ?_⟩
    · exact s.contents_perform _ fun hm => hs (hk key hm)
    · rcases s.perform_delete keys with ⟨e, he, -⟩ | ⟨n, s1, he, hv⟩
      · exact .inl (congrArg (·.2.value? key) he)
      · have hs1 : (KeyValueStore.perform s (.delete keys)).2 = s1 := congrArg (·.2) he
        rw [hs1, hv key]
        split
        · exact .inr rfl
        · exact .inl rfl

theorem keys_length_le (h : Cleared g s s') : s'.keys.length ≤ s.keys.length := by
  have hnodup : s'.keys.Nodup := s'.keys_ascending.imp fun hlt => ne_of_lt hlt
  refine (List.subperm_of_subset hnodup fun key hk => ?_).length_le
  rw [Backend.mem_keys] at hk ⊢
  exact fun hn => hk (h.none_of_none hn)

theorem listed_nil (h : Cleared g s s') {pattern : Store.Pattern} (hn : s.listed pattern = []) :
    s'.listed pattern = [] := by
  rw [List.eq_nil_iff_forall_not_mem] at hn ⊢
  intro key hk
  rw [Backend.mem_listed, h.admits] at hk
  exact hn key (Backend.mem_listed.mpr ⟨fun hnone => hk.1 (h.none_of_none hnone), hk.2⟩)

end Cleared

/-! ### Pages -/

section Pages

variable {raise : Store.Error → Error} {group : String} {g : Generation} {pages : Nat} {cursor : Option String}
  {s s' : Shared Backend} {events : List Event}

theorem scoped_of_listed {s : Backend} {key : String} (hg : group ∈ Key.groups)
    (h : key ∈ s.listed (Key.children group g)) : Key.Scoped g key := by
  obtain ⟨rest, rfl⟩ := Key.below_of_admits hg (Backend.mem_listed.mp h).2
  exact Key.scoped_below hg g rest

theorem deletePage_cleared {keys : List String} {result : Except Error Nat} (hk : ∀ key ∈ keys, Key.Scoped g key)
    (h : Runs (deletePage raise keys).run s events result s') :
    Cleared g s.store s'.store := by
  unfold deletePage at h
  split at h
  · obtain ⟨-, -, rfl⟩ := runs_pure h
    exact .refl g _
  · obtain ⟨answer, store, hr, -, -, rfl⟩ := runs_request h
    exact .of_delete hk hr

theorem deletePage_listed {keys : List String} {n : Nat} (pattern : Store.Pattern)
    (h : Runs (deletePage raise keys).run s events (.ok n) s') :
    s'.store.listed pattern = (s.store.listed pattern).filter fun key => !decide (key ∈ keys) := by
  unfold deletePage at h
  split at h
  · rename_i he
    obtain ⟨-, -, rfl⟩ := runs_pure h
    obtain rfl := List.isEmpty_iff.mp he
    exact (List.filter_eq_self.mpr fun _ _ => by simp).symm
  · obtain ⟨store, hr, rfl⟩ := runs_request_ok h
    exact Backend.listed_delete pattern hr.of_ok

theorem clearChildren_cleared {result : Except Error Nat} (hg : group ∈ Key.groups)
    (h : Runs (clearChildren raise group g pages cursor).run s events result s') :
    Cleared g s.store s'.store := by
  induction pages generalizing s s' events result cursor with
  | zero =>
    obtain ⟨-, -, rfl⟩ := runs_pure h
    exact .refl g _
  | succ pages ih =>
    rw [clearChildren] at h
    rcases runs_action h with ⟨e, -, h⟩ | ⟨page, s1, events1, later, -, h1, h⟩
    · obtain ⟨answer, store, hr, -, -, rfl⟩ := runs_request h
      obtain ⟨rfl, -⟩ := hr.scanned
      exact .refl g _
    obtain ⟨answer, store, hr, -, ha, rfl⟩ := runs_request h1
    obtain ⟨rfl, hp⟩ := hr.scanned
    have hk : ∀ key ∈ page.items, Key.Scoped g key := by
      cases answer with
      | error e => cases ha
      | ok p =>
        cases ha
        rw [hp page rfl]
        exact fun key hm => scoped_of_listed hg (List.mem_filter.mp (List.mem_of_mem_take hm)).1
    rcases runs_action h with ⟨e, -, h⟩ | ⟨deleted, s2, events2, later2, -, h2, h⟩
    · exact deletePage_cleared hk h
    have hc2 := deletePage_cleared hk h2
    cases hn : page.next with
    | none =>
      rw [hn] at h
      obtain ⟨-, -, rfl⟩ := runs_pure h
      exact hc2
    | some next =>
      rw [hn] at h
      rcases runs_action h with ⟨e, -, h⟩ | ⟨more, s3, events3, later3, -, h3, h⟩
      · exact hc2.trans (ih h)
      · obtain ⟨-, -, rfl⟩ := runs_pure h
        exact hc2.trans (ih h3)

/-- What is left of a list when the items of its first page are removed. -/
theorem filter_not_mem_take {l : List String} (h : l.Pairwise (· < ·)) (n : Nat) :
    (l.filter fun key => !decide (key ∈ l.take n)) = l.drop n := by
  have hsplit : (l.take n ++ l.drop n).Pairwise (· < ·) := by rwa [List.take_append_drop]
  have hlt := (List.pairwise_append.mp hsplit).2.2
  calc l.filter (fun key => !decide (key ∈ l.take n))
      = (l.take n ++ l.drop n).filter (fun key => !decide (key ∈ l.take n)) := by rw [List.take_append_drop]
    _ = l.drop n := by
      rw [List.filter_append, List.filter_eq_nil_iff.mpr (by simp), List.nil_append, List.filter_eq_self]
      intro key hk
      have : key ∉ l.take n := fun hm => String.lt_irrefl _ (hlt key hm key hk)
      simp [this]

/-- The loop invariant: all keys that a scan finds follow the cursor, and there are fewer of them than pages. -/
theorem clearChildren_all {n : Nat} (hc : ∀ key ∈ s.store.listed (Key.children group g), Backend.follows cursor key = true)
    (hn : (s.store.listed (Key.children group g)).length < pages)
    (h : Runs (clearChildren raise group g pages cursor).run s events (.ok n) s') :
    s'.store.listed (Key.children group g) = [] := by
  induction pages generalizing s s' events n cursor with
  | zero => omega
  | succ pages ih =>
    have hasc := s.store.listed_ascending (Key.children group g)
    rw [clearChildren] at h
    obtain ⟨page, s1, events1, later, -, h1, h⟩ := runs_action_ok h
    obtain ⟨store, hr, rfl⟩ := runs_request_ok h1
    obtain ⟨rfl, hp⟩ := hr.scanned
    have hp := hp page rfl
    rw [List.filter_eq_self.mpr hc] at hp
    obtain ⟨deleted, s2, events2, later2, -, h2, h⟩ := runs_action_ok h
    have hdrop : s2.store.listed (Key.children group g) =
        (s.store.listed (Key.children group g)).drop Key.pageSize := by
      rw [deletePage_listed _ h2, hp]
      exact filter_not_mem_take hasc Key.pageSize
    subst hp
    cases hn' : (Page.ofItems ((s.store.listed (Key.children group g)).take Key.pageSize) Key.pageSize id).next with
    | none =>
      rw [hn'] at h
      obtain ⟨-, -, rfl⟩ := runs_pure h
      exact hdrop.trans (Page.drop_of_last (by decide) hn')
    | some next =>
      rw [hn'] at h
      obtain ⟨more, s3, events3, later3, -, h3, h⟩ := runs_action_ok h
      obtain ⟨-, -, rfl⟩ := runs_pure h
      have hle := (Page.last_of_next hn').1
      refine ih (fun key hk => Page.follows_of_drop hasc hn' (hdrop ▸ hk)) ?_ h3
      have hpos : 0 < Key.pageSize := by decide
      rw [hdrop, List.length_drop]
      omega

theorem clearChildren_strict {cause : Request → Store.Error → Error → Prop}
    (hs : ∀ cursor e, cause (.scan cursor (Key.children group g) Key.pageSize) e (raise e))
    (hd : ∀ keys e, cause (.delete keys) e (raise e)) :
    Strict cause (clearChildren raise group g pages cursor).run := by
  induction pages generalizing cursor with
  | zero => exact strict_pure 0
  | succ pages ih =>
    refine strict_bind (strict_request (hs cursor)) fun page => strict_bind ?_ fun deleted => ?_
    · unfold deletePage
      split
      · exact strict_pure 0
      · exact strict_request (hd _)
    · cases page.next with
      | none => exact strict_pure _
      | some next => exact strict_bind ih fun more => strict_pure _

theorem deletePage_succeeds {keys : List String} (ha : s.store.access = .writing) :
    (deletePage raise keys).Succeeds s := by
  unfold deletePage
  split
  · exact succeeds_pure 0 s
  · rcases s.store.perform_delete keys with ⟨e, -, hn⟩ | ⟨n, s', he, -⟩
    · exact absurd ha hn
    · exact succeeds_request (congrArg (·.1) he)

theorem clearChildren_succeeds (ha : s.store.access = .writing) :
    (clearChildren raise group g pages cursor).Succeeds s := by
  induction pages generalizing s cursor with
  | zero => exact succeeds_pure 0 s
  | succ pages ih =>
    have hscan := s.store.perform_scan cursor (Key.children group g) Key.pageSize
    rw [if_neg (by rw [ha]; decide)] at hscan
    refine succeeds_bind (succeeds_request (congrArg (·.1) hscan)) fun page s1 h1 => ?_
    have ha1 := (access_perform h1).trans ha
    refine succeeds_bind (deletePage_succeeds ha1) fun deleted s2 h2 => ?_
    have ha2 := (access_perform h2).trans ha1
    cases page.next with
    | none => exact succeeds_pure _ s2
    | some next => exact succeeds_bind (ih ha2) fun more s3 _ => succeeds_pure _ s3

end Pages

/-! ### Groups -/

section Groups

variable {raise : Store.Error → Error} {gs : List String} {g : Generation} {pages : Nat} {s s' : Shared Backend}
  {events : List Event}

theorem scoped_own {group : String} (hg : group ∈ Key.groups) (g : Generation) :
    ∀ key ∈ [Key.ofGroup group g], Key.Scoped g key := by
  intro key hk
  obtain rfl := List.mem_singleton.mp hk
  exact Key.scoped_ofGroup hg g

theorem clearGroups_cleared {result : Except Error Nat} (hgs : ∀ group ∈ gs, group ∈ Key.groups)
    (h : Runs (clearGroups raise pages g gs).run s events result s') :
    Cleared g s.store s'.store := by
  induction gs generalizing s s' events result with
  | nil =>
    obtain ⟨-, -, rfl⟩ := runs_pure h
    exact .refl g _
  | cons group rest ih =>
    obtain ⟨hg, hrest⟩ := List.forall_mem_cons.mp hgs
    have hown := scoped_own hg g
    rw [clearGroups] at h
    rcases runs_action h with ⟨e, -, h⟩ | ⟨children, s1, events1, later1, -, h1, h⟩
    · exact clearChildren_cleared hg h
    have hc1 := clearChildren_cleared hg h1
    rcases runs_action h with ⟨e, -, h⟩ | ⟨own, s2, events2, later2, -, h2, h⟩
    · obtain ⟨answer, store, hr, -, -, rfl⟩ := runs_request h
      exact hc1.trans (.of_delete hown hr)
    obtain ⟨answer, store, hr, -, -, rfl⟩ := runs_request h2
    have hc2 := hc1.trans (.of_delete hown hr)
    rcases runs_action h with ⟨e, -, h⟩ | ⟨more, s3, events3, later3, -, h3, h⟩
    · exact hc2.trans (ih hrest h)
    · obtain ⟨-, -, rfl⟩ := runs_pure h
      exact hc2.trans (ih hrest h3)

/-- Neither a key of one of the groups nor a key below it that a scan finds is left. -/
theorem clearGroups_all {n : Nat} (hgs : ∀ group ∈ gs, group ∈ Key.groups) (hn : s.store.keys.length < pages)
    (h : Runs (clearGroups raise pages g gs).run s events (.ok n) s') :
    ∀ group ∈ gs, s'.store.value? (Key.ofGroup group g) = none ∧ s'.store.listed (Key.children group g) = [] := by
  induction gs generalizing s s' events n with
  | nil => simp
  | cons group rest ih =>
    obtain ⟨hg, hrest⟩ := List.forall_mem_cons.mp hgs
    have hown := scoped_own hg g
    rw [clearGroups] at h
    obtain ⟨children, s1, events1, later1, -, h1, h⟩ := runs_action_ok h
    obtain ⟨own, s2, events2, later2, -, h2, h⟩ := runs_action_ok h
    obtain ⟨more, s3, events3, later3, -, h3, h⟩ := runs_action_ok h
    obtain ⟨-, -, rfl⟩ := runs_pure h
    -- the children go first, then the key of the group, and neither comes back
    have hlisted1 : s1.store.listed (Key.children group g) = [] :=
      clearChildren_all (fun _ _ => rfl) (Nat.lt_of_le_of_lt (List.length_filter_le _ _) hn) h1
    obtain ⟨store, hr, rfl⟩ := runs_request_ok h2
    have hc2 := (clearChildren_cleared hg h1).trans (.of_delete hown hr)
    have hc3 := clearGroups_cleared hrest h3
    have hlisted : store.listed (Key.children group g) = [] := by
      rw [Backend.listed_delete _ hr.of_ok, hlisted1]
      rfl
    have hown : store.value? (Key.ofGroup group g) = none := hr.deleted List.mem_cons_self
    refine List.forall_mem_cons.mpr ⟨⟨hc3.none_of_none hown, hc3.listed_nil hlisted⟩, ?_⟩
    exact ih hrest (Nat.lt_of_le_of_lt hc2.keys_length_le hn) h3

theorem clearGroups_strict {cause : Request → Store.Error → Error → Prop}
    (hs : ∀ cursor pattern e, cause (.scan cursor pattern Key.pageSize) e (raise e))
    (hd : ∀ keys e, cause (.delete keys) e (raise e)) : Strict cause (clearGroups raise pages g gs).run := by
  induction gs with
  | nil => exact strict_pure 0
  | cons group rest ih =>
    exact strict_bind (clearChildren_strict (fun cursor => hs cursor _) hd) fun children =>
      strict_bind (strict_request (hd _)) fun own => strict_bind ih fun more => strict_pure _

theorem clearGroups_succeeds (ha : s.store.access = .writing) : (clearGroups raise pages g gs).Succeeds s := by
  induction gs generalizing s with
  | nil => exact succeeds_pure 0 s
  | cons group rest ih =>
    refine succeeds_bind (clearChildren_succeeds ha) fun children s1 h1 => ?_
    have ha1 := (access_perform h1).trans ha
    rcases s1.store.perform_delete [Key.ofGroup group g] with ⟨e, -, hn⟩ | ⟨n, store, he, -⟩
    · exact absurd ha1 hn
    refine succeeds_bind (succeeds_request (congrArg (·.1) he)) fun own s2 h2 => ?_
    exact succeeds_bind (ih ((access_perform h2).trans ha1)) fun more s3 _ => succeeds_pure _ s3

end Groups

/-! ### Generations -/

section Generations

variable {g : Generation} {pages : Nat} {s s' : Shared Backend} {events : List Event}

theorem clear_cleared {result : Except Error Nat} (h : Runs (clear pages g).run s events result s') :
    Cleared g s.store s'.store := clearGroups_cleared (fun _ h => h) h

/-- A key of the generation is left only if no scan can find it. -/
theorem clear_all {n : Nat} (hn : KeyValueStore.extent s.store < pages)
    (h : Runs (clear pages g).run s events (.ok n) s') {key : String} (hk : Key.Scoped g key)
    (hv : s.store.value? key ≠ none → Key.Visible s.store key) : s'.store.value? key = none := by
  have hlt := Nat.lt_of_le_of_lt s.store.keys_length_le_extent hn
  have hall := clearGroups_all (fun _ h => h) hlt h
  have hc := clear_cleared h
  obtain ⟨group, hg, rfl | ⟨rest, rfl⟩⟩ := hk
  · exact (hall group hg).1
  · by_contra hne
    have hv := hv fun hnone => hne (hc.none_of_none hnone)
    have hadmits : s'.store.admits (Key.children group g) (Key.ofGroup group g ++ ":" ++ rest) = true := by
      rw [hc.admits]
      exact Key.admits_below hg g rest hv
    have hmem := Backend.mem_listed.mpr ⟨hne, hadmits⟩
    rw [(hall group hg).2] at hmem
    cases hmem

end Generations
end Repository
end ShareIndex
