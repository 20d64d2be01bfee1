import ShareIndex.Proofs.Repository.Clear
import ShareIndex.Proofs.Repository.Counting
import Mathlib.Data.List.Nodup
import Mathlib.Data.List.Perm.Subperm

/-!
# ShareIndex.Proofs.Repository.Prune

Removing the counters of files outside a batch, page by page. Any request may fail, and between two of them the
counters may change.

* `Sweeps`          — what is left of a call deletes only counters that are not to be kept, and each at most once.
* `Sweeps.step`     — one step of such a call; `pruneAfter_sweeps` says that a prune is one.
* `prune_runs`      — what a prune leaves alone when nothing happens in between.
* `prune_all`       — a prune that succeeds has removed all counters outside the batch.
* `pruneAfter_strict`, `pruneAfter_succeeds` — when it fails.
-/

namespace ShareIndex
namespace Repository

open Store (Backend Request Keyspace KeyValueStore Page Hash Fillable hashOf fillable_stored hashOf_stored)
open Store.Backend (follows follows_trans not_follows_last)
open Share (Download)

/-! ### Pages -/

/-- The fields that an enumeration still comes to after the cursor. -/
def fieldsAfter (hash : Hash) (cursor : Option String) : List String := hash.keys.filter (follows cursor)

/-- A page of the fields after the cursor. -/
def fieldPage (hash : Hash) (cursor : Option String) : Page (String × String) :=
  .ofItems ((hash.after cursor).take Key.pageSize) Key.pageSize (·.1)

theorem fieldsAfter_ascending (hash : Hash) (cursor : Option String) : (fieldsAfter hash cursor).Pairwise (· < ·) :=
  hash.keys_ascending.sublist List.filter_sublist

theorem fieldPage_items (hash : Hash) (cursor : Option String) :
    (fieldPage hash cursor).items.map (·.1) = (fieldsAfter hash cursor).take Key.pageSize := by
  rw [fieldPage, Page.ofItems, List.map_take, Store.Backend.map_after]
  rfl

theorem fieldPage_next (hash : Hash) (cursor : Option String) :
    (fieldPage hash cursor).next =
      (Page.ofItems ((fieldsAfter hash cursor).take Key.pageSize) Key.pageSize id).next := by
  rw [← fieldPage_items, fieldPage, Page.ofItems, Page.ofItems]
  simp only [List.length_map, List.getLast?_map, Option.map_id, id]

/-- The items of a page follow its cursor and do not follow the cursor of the next one, which follows it, too. -/
theorem fieldPage_spec (hash : Hash) (cursor : Option String) :
    (∀ field ∈ (fieldPage hash cursor).items.map (·.1), follows cursor field = true ∧
      ∃ last, ((fieldPage hash cursor).items.map (·.1)).getLast? = some last ∧ follows (some last) field = false) ∧
    ∀ next, (fieldPage hash cursor).next = some next →
      ((fieldPage hash cursor).items.map (·.1)).getLast? = some next ∧ follows cursor next = true := by
  have hasc : ((fieldsAfter hash cursor).take Key.pageSize).Pairwise (· < ·) :=
    (fieldsAfter_ascending hash cursor).sublist (List.take_sublist _ _)
  have hfollows : ∀ field ∈ (fieldsAfter hash cursor).take Key.pageSize, follows cursor field = true :=
    fun field hf => (List.mem_filter.mp (List.mem_of_mem_take hf)).2
  rw [fieldPage_items, fieldPage_next]
  constructor
  · intro field hf
    cases hl : ((fieldsAfter hash cursor).take Key.pageSize).getLast? with
    | none =>
      rw [List.getLast?_eq_none_iff.mp hl] at hf
      cases hf
    | some last => exact ⟨hfollows field hf, last, rfl, not_follows_last hasc hl hf⟩
  · intro next hn
    simp only [Page.ofItems, Option.ite_none_right_eq_some, Option.map_id, id] at hn
    exact ⟨hn.2, hfollows next (List.mem_of_getLast? hn.2)⟩

/-! ### Sweeps -/

/-- The files that are deleted at a time follow the floor, and what is deleted later follows a higher one. -/
inductive Sweeps (keep : List String) : Option String → Program (Except Error Nat) → Prop where
  | done {floor : Option String} (result : Except Error Nat) : Sweeps keep floor (.done result)
  | scan {floor cursor : Option String}
      {next : Except Store.Error (Page (String × String)) → Program (Except Error Nat)} :
    (∀ hash, Sweeps keep floor (next (.ok (fieldPage hash cursor)))) → (∀ e, Sweeps keep floor (next (.error e))) →
    Sweeps keep floor (.perform (.store (.scanFields Key.counters cursor Key.pageSize)) next)
  | delete {floor top : Option String} {stale : List String}
      {next : Except Store.Error Nat → Program (Except Error Nat)} :
    (∀ file ∈ stale, file ∉ keep ∧ follows floor file = true ∧ follows top file = false) →
    (∀ file, follows top file = true → follows floor file = true) → (∀ answer, Sweeps keep top (next answer)) →
    Sweeps keep floor (.perform (.store (.deleteFields Key.counters stale)) next)

section Sweeping

variable {keep : List String} {floor top : Option String} {p p' : Program (Except Error Nat)}

theorem Sweeps.lower (h : Sweeps keep top p) (hf : ∀ file, follows top file = true → follows floor file = true) :
    Sweeps keep floor p := by
  induction h generalizing floor with
  | done result => exact .done result
  | scan _ _ ih he => exact .scan (fun hash => ih hash hf) fun e => he e hf
  | delete hs ht hn _ =>
    refine .delete (fun file hm => ?_) (fun file hfile => hf file (ht file hfile)) hn
    obtain ⟨hk, hfloor, htop⟩ := hs file hm
    exact ⟨hk, hf file hfloor, htop⟩

/-- What is done with the result sends no requests. -/
theorem Sweeps.bind (h : Sweeps keep floor p) {f : Except Error Nat → Program (Except Error Nat)}
    (hf : ∀ result, ∃ result', f result = .done result') : Sweeps keep floor (p.bind f) := by
  induction h with
  | done result =>
    obtain ⟨result', hr⟩ := hf result
    rw [Program.bind, hr]
    exact .done result'
  | scan _ _ ih he => exact .scan ih he
  | delete hs ht _ ih => exact .delete hs ht ih

/-- What follows the deletion of a page. -/
def pruneNext (keep : List String) (pages : Nat) (next : Option String) (deleted : Nat) : Action Nat :=
  match next with
  | none => return deleted
  | some next => do return deleted + (← pruneAfter keep pages (some next))

theorem pruneAfter_succ (keep : List String) (pages : Nat) (cursor : Option String) :
    pruneAfter keep (pages + 1) cursor =
      (request .store (.scanFields Key.counters cursor Key.pageSize) >>= fun page =>
        deleteCounters ((page.items.map (·.1)).filter fun file => !keep.contains file) >>=
          pruneNext keep pages page.next) := by
  rw [pruneAfter]
  refine congrArg _ (funext fun page => congrArg _ (funext fun deleted => ?_))
  cases page.next <;> rfl

theorem pruneAfter_sweeps (keep : List String) (pages : Nat) (cursor : Option String) :
    Sweeps keep cursor (pruneAfter keep pages cursor).run := by
  induction pages generalizing cursor with
  | zero => exact .done _
  | succ pages ih =>
    rw [pruneAfter_succ]
    refine .scan (fun hash => ?_) fun e => .done _
    obtain ⟨hitems, hnext⟩ := fieldPage_spec hash cursor
    show Sweeps keep cursor (deleteCounters (((fieldPage hash cursor).items.map (·.1)).filter _) >>= _).run
    generalize fieldPage hash cursor = page at hitems hnext
    have hrest : ∀ floor deleted, (∀ next, page.next = some next → ∀ file, follows (some next) file = true →
        follows floor file = true) → Sweeps keep floor (pruneNext keep pages page.next deleted).run := by
      intro floor deleted hfloor
      cases hn : page.next with
      | none => exact .done _
      | some next =>
        refine ((ih (some next)).bind fun result => ?_).lower (hfloor next hn)
        cases result with
        | error e => exact ⟨_, rfl⟩
        | ok more => exact ⟨_, rfl⟩
    by_cases hempty : ((page.items.map (·.1)).filter fun file => !keep.contains file).isEmpty = true
    · rw [deleteCounters, if_pos hempty]
      exact hrest cursor 0 fun next hn file hf => follows_trans (hnext next hn).2 hf
    · rw [deleteCounters, if_neg hempty]
      -- the floor rises to the last item of the page
      refine @Sweeps.delete keep cursor (page.items.map (·.1)).getLast? _ _ (fun file hm => ?_) (fun file hf => ?_)
        fun answer => ?_
      · obtain ⟨hmem, hkeep⟩ := List.mem_filter.mp hm
        obtain ⟨hfollows, last, hlast, hnot⟩ := hitems file hmem
        exact ⟨by simpa using hkeep, hfollows, hlast ▸ hnot⟩
      · cases hl : (page.items.map (·.1)).getLast? with
        | none =>
          rw [List.getLast?_eq_none_iff.mp hl] at hempty
          exact absurd rfl hempty
        | some last =>
          rw [hl] at hf
          exact follows_trans (hitems last (List.mem_of_getLast? hl)).1 hf
      · cases answer with
        | error e => exact .done _
        | ok deleted => exact hrest _ deleted fun next hn file hf => (hnext next hn).1 ▸ hf

end Sweeping

/-! ### Replies -/

section Replies

variable {s s' : Backend} {key : String} {fields : List String}

theorem Reply.deleteFields_ok {n : Nat} (h : Reply s (.deleteFields key fields) (.ok n) s') :
    Fillable (s'.value? key) ∧
      ∀ f, (hashOf (s'.value? key)).get? f = if f ∈ fields then none else (hashOf (s.value? key)).get? f := by
  obtain ⟨-, hv⟩ := Backend.deleteFields_ok h.of_ok
  rw [hv, hashOf_stored]
  exact ⟨fillable_stored _, Keyspace.get?_eraseFields _ fields⟩

theorem Reply.scanFields_ok {cursor : Option String} {page : Page (String × String)}
    (h : Reply s (.scanFields key cursor Key.pageSize) (.ok page) s') : page = fieldPage (hashOf (s.value? key)) cursor := by
  have hp := (s.perform_scanFields key cursor Key.pageSize).symm.trans h.of_ok
  have hp := congrArg (·.1) hp
  dsimp only at hp
  split at hp
  · cases hp
  · split at hp
    · exact (Except.ok.inj hp).symm
    · cases hp

end Replies

/-! ### Steps -/

/-- Whether the counter of the file is deleted. -/
def Event.removes (file : String) : Event → Bool
  | ⟨.deleteFields key fields, .ok _⟩ => key == Key.counters && fields.contains file
  | _ => false

/-- What one step of a sweep does to the counters, and where the floor is after it. -/
structure Swept (keep : List String) (floor top : Option String) (e : Event) (s s' : Backend) : Prop where
  rises : ∀ file, follows top file = true → follows floor file = true
  removed : ∀ file, e.removes file = true →
    file ∉ keep ∧ follows floor file = true ∧ follows top file = false ∧ counterText s' file = none
  kept : ∀ file, e.removes file = false → counterText s' file = counterText s file
  fillable : Fillable (s.value? Key.counters) → Fillable (s'.value? Key.counters)

section Steps

variable {keep : List String} {floor : Option String} {p p' : Program (Except Error Nat)} {s s' : Shared Backend}
  {events : List Event}

theorem Sweeps.step (h : Sweeps keep floor p) (hs : p.Step s events p' s') :
    s'.holder = s.holder ∧
      ∃ e top, events = [e] ∧ Sweeps keep top p' ∧ Swept keep floor top e s.store s'.store := by
  cases h with
  | done result => cases hs
  | scan hnext herror =>
    cases hs with
    | @request _ _ _ answer store hr =>
      obtain rfl : store = s.store := hr.read rfl
      refine ⟨rfl, _, floor, rfl, ?_, fun _ hf => hf, fun file hf => ?_, fun _ _ => rfl, fun hf => hf⟩
      · cases answer with
        | error e => exact herror e
        | ok page => exact hr.scanFields_ok ▸ hnext _
      · cases hf
  | @delete floor top stale next hstale hrises hnext =>
    cases hs with
    | @request _ _ _ answer store hr =>
      refine ⟨rfl, _, top, rfl, hnext answer, ?_⟩
      cases answer with
      | error e =>
        obtain rfl := hr.unchanged nofun
        exact ⟨hrises, fun file hf => (by cases hf), fun _ _ => rfl, fun hf => hf⟩
      | ok n =>
        obtain ⟨hf, hfields⟩ := hr.deleteFields_ok
        have hmem : ∀ file, Event.removes file ⟨.deleteFields Key.counters stale, .ok n⟩ = decide (file ∈ stale) := by
          intro file
          simp [Event.removes]
        refine ⟨hrises, fun file he => ?_, fun file he => ?_, fun _ => hf⟩
        · rw [hmem, decide_eq_true_eq] at he
          obtain ⟨hkeep, hfloor, htop⟩ := hstale file he
          exact ⟨hkeep, hfloor, htop, (hfields file).trans (if_pos he)⟩
        · rw [hmem, decide_eq_false_iff_not] at he
          exact (hfields file).trans (if_neg he)

/-- Nothing but counters that are not to be kept goes, and what goes does not come back. -/
theorem Sweeps.reaches (h : Sweeps keep floor p) (hr : Reaches p s events p' s') :
    (∀ file, (counterText s'.store file = counterText s.store file) ∨
      (file ∉ keep ∧ counterText s'.store file = none)) ∧
      (Fillable (s.store.value? Key.counters) → Fillable (s'.store.value? Key.counters)) := by
  induction hr generalizing floor with
  | refl => exact ⟨fun _ => .inl rfl, fun hf => hf⟩
  | step hs _ ih =>
    obtain ⟨-, e, top, -, hp, hswept⟩ := h.step hs
    obtain ⟨htext, hfillable⟩ := ih hp
    refine ⟨fun file => ?_, fun hf => hfillable (hswept.fillable hf)⟩
    rcases htext file with hsame | hgone
    · cases hremoves : e.removes file with
      | false => exact .inl (hsame.trans (hswept.kept file hremoves))
      | true =>
        obtain ⟨hkeep, -, -, hnone⟩ := hswept.removed file hremoves
        exact .inr ⟨hkeep, hsame.trans hnone⟩
    · exact .inr hgone

end Steps

/-! ### Alone -/

section Alone

variable {keep : List String} {pages : Nat} {cursor : Option String} {batch : List Download} {s s' : Shared Backend}
  {events : List Event}

/-- A prune leaves the counters of the files of the batch alone, and each other counter or removes it. -/
theorem prune_runs {result : Except Error Nat} (h : Runs (prune pages batch).run s events result s') :
    (∀ file ∈ fileIds batch, counterText s'.store file = counterText s.store file) ∧
    (∀ file, counterText s'.store file = counterText s.store file ∨ counterText s'.store file = none) ∧
    (Fillable (s.store.value? Key.counters) → Fillable (s'.store.value? Key.counters)) := by
  obtain ⟨htext, hfillable⟩ := (pruneAfter_sweeps (fileIds batch) pages none).reaches h
  refine ⟨fun file hf => ?_, fun file => (htext file).imp_right (·.2), hfillable⟩
  exact (htext file).resolve_right fun hgone => hgone.1 hf

theorem deleteCounters_ok {files : List String} {n : Nat} (h : Runs (deleteCounters files).run s events (.ok n) s') :
    (Fillable (s.store.value? Key.counters) → Fillable (s'.store.value? Key.counters)) ∧
      ∀ file, counterText s'.store file = if file ∈ files then none else counterText s.store file := by
  unfold deleteCounters at h
  split at h
  · rename_i hempty
    obtain ⟨-, -, rfl⟩ := runs_pure h
    refine ⟨fun hf => hf, fun file => ?_⟩
    rw [List.isEmpty_iff.mp hempty, if_neg List.not_mem_nil]
  · obtain ⟨store, hr, rfl⟩ := runs_request_ok h
    obtain ⟨hf, htext⟩ := hr.deleteFields_ok
    exact ⟨fun _ => hf, htext⟩

theorem mem_fieldsAfter {s : Backend} {file : String} (h : counterText s file ≠ none)
    (hf : follows cursor file = true) : file ∈ fieldsAfter (hashOf (s.value? Key.counters)) cursor := by
  refine List.mem_filter.mpr ⟨OrderedMap.mem_keys.mpr ?_, hf⟩
  rwa [OrderedMap.contains, Option.isSome_iff_ne_none]

theorem of_mem_fieldsAfter {s : Backend} {file : String}
    (h : file ∈ fieldsAfter (hashOf (s.value? Key.counters)) cursor) :
    counterText s file ≠ none ∧ follows cursor file = true := by
  obtain ⟨hkey, hf⟩ := List.mem_filter.mp h
  have hkey := OrderedMap.mem_keys.mp hkey
  rw [OrderedMap.contains, Option.isSome_iff_ne_none] at hkey
  exact ⟨hkey, hf⟩

theorem mem_drop_of_not_mem_take {α : Type} {l : List α} {n : Nat} {a : α} (hm : a ∈ l) (ht : a ∉ l.take n) :
    a ∈ l.drop n := by
  rw [← List.take_append_drop n l] at hm
  exact (List.mem_append.mp hm).resolve_left ht

section Page

variable {before after : Backend} {next : String}
  (hafter : ∀ file, counterText after file =
    if file ∈ ((fieldsAfter (hashOf (before.value? Key.counters)) cursor).take Key.pageSize).filter
      (fun file => !keep.contains file) then none else counterText before file)

include hafter

/-- The counters that are not to be kept and are left when a page has been worked off come after that page. -/
theorem mem_drop_of_left (hc : ∀ file, file ∉ keep → follows cursor file = false → counterText before file = none)
    {file : String} (hkeep : file ∉ keep) (hne : counterText after file ≠ none) :
    file ∈ (fieldsAfter (hashOf (before.value? Key.counters)) cursor).drop Key.pageSize := by
  rw [hafter] at hne
  split at hne
  · exact absurd rfl hne
  rename_i hstale
  have hfollows : follows cursor file = true := by
    by_contra hf
    exact hne (hc file hkeep (Bool.eq_false_iff.mpr hf))
  refine mem_drop_of_not_mem_take (mem_fieldsAfter hne hfollows) fun hm => hstale ?_
  exact List.mem_filter.mpr ⟨hm, by simpa using hkeep⟩

/-- All counters that follow the last one of the page come after that page. -/
theorem fieldsAfter_subset_drop (hcursor : follows cursor next = true)
    (hlast : ((fieldsAfter (hashOf (before.value? Key.counters)) cursor).take Key.pageSize).getLast? = some next) :
    fieldsAfter (hashOf (after.value? Key.counters)) (some next) ⊆
      (fieldsAfter (hashOf (before.value? Key.counters)) cursor).drop Key.pageSize := by
  intro file hfile
  obtain ⟨hne, hf⟩ := of_mem_fieldsAfter hfile
  rw [hafter] at hne
  split at hne
  · exact absurd rfl hne
  refine mem_drop_of_not_mem_take (mem_fieldsAfter hne (follows_trans hcursor hf)) fun hm => ?_
  have hasc := (fieldsAfter_ascending (hashOf (before.value? Key.counters)) cursor).sublist
    (List.take_sublist Key.pageSize _)
  rw [not_follows_last hasc hlast hm] at hf
  cases hf

end Page

/-- The loop invariant: counters that are not to be kept all follow the cursor, and of the counters that follow it
there are fewer than pages. -/
theorem pruneAfter_all {n : Nat}
    (hc : ∀ file, file ∉ keep → follows cursor file = false → counterText s.store file = none)
    (hn : (fieldsAfter (hashOf (s.store.value? Key.counters)) cursor).length < pages)
    (h : Runs (pruneAfter keep pages cursor).run s events (.ok n) s') :
    ∀ file, file ∉ keep → counterText s'.store file = none := by
  induction pages generalizing s s' events n cursor with
  | zero => omega
  | succ pages ih =>
    rw [pruneAfter_succ] at h
    obtain ⟨page, s1, events1, later1, -, h1, h⟩ := runs_action_ok h
    obtain ⟨store, hr, rfl⟩ := runs_request_ok h1
    obtain rfl : store = s.store := hr.read rfl
    obtain ⟨deleted, s2, events2, later2, -, h2, h⟩ := runs_action_ok h
    have htext := (deleteCounters_ok h2).2
    rw [hr.scanFields_ok, fieldPage_items] at htext
    rw [hr.scanFields_ok] at h
    have hasc := fieldsAfter_ascending (hashOf (s.store.value? Key.counters)) cursor
    have hnext := fieldPage_next (hashOf (s.store.value? Key.counters)) cursor
    have hspec := (fieldPage_spec (hashOf (s.store.value? Key.counters)) cursor).2
    rw [fieldPage_items] at hspec
    generalize fieldPage (hashOf (s.store.value? Key.counters)) cursor = page' at hnext hspec h
    cases hp : page'.next with
    | none =>
      rw [hp] at h hnext
      obtain ⟨-, -, rfl⟩ := runs_pure h
      intro file hfile
      by_contra hne
      have hmem := mem_drop_of_left htext hc hfile hne
      rw [Page.drop_of_last (by decide) hnext.symm] at hmem
      cases hmem
    | some next =>
      rw [hp] at h hnext
      obtain ⟨more, s3, events3, later3, -, h3, h⟩ := runs_action_ok h
      obtain ⟨-, -, rfl⟩ := runs_pure h
      have hle := (Page.last_of_next hnext.symm).1
      refine ih (fun file hfile hf => ?_) ?_ h3
      · by_contra hne
        have htrue := Page.follows_of_drop hasc hnext.symm (mem_drop_of_left htext hc hfile hne)
        rw [hf] at htrue
        cases htrue
      · obtain ⟨hlast, hcursor⟩ := hspec next hp
        have hnodup : (fieldsAfter (hashOf (s2.store.value? Key.counters)) (some next)).Nodup :=
          (fieldsAfter_ascending _ _).imp fun hlt => ne_of_lt hlt
        have hlength := (List.subperm_of_subset hnodup (fieldsAfter_subset_drop htext hcursor hlast)).length_le
        have hpos : 0 < Key.pageSize := by decide
        rw [List.length_drop] at hlength
        omega

/-- After a prune that succeeds, no counter outside the batch is left. -/
theorem prune_all {n : Nat} (hn : (hashOf (s.store.value? Key.counters)).size < pages)
    (h : Runs (prune pages batch).run s events (.ok n) s') :
    ∀ file, file ∉ fileIds batch → counterText s'.store file = none := by
  have hall : (fieldsAfter (hashOf (s.store.value? Key.counters)) none).length ≤
      (hashOf (s.store.value? Key.counters)).size := (List.length_filter_le _ _).trans_eq (List.length_map _)
  exact pruneAfter_all (fun file _ hf => by cases hf) (Nat.lt_of_le_of_lt hall hn) h

/-- A prune fails only if one of its requests does. -/
inductive PruneFails : Request → Store.Error → Error → Prop where
  | scanning (cursor : Option String) (cause : Store.Error) :
    PruneFails (.scanFields Key.counters cursor Key.pageSize) cause (.store cause)
  | deleting (files : List String) (cause : Store.Error) :
    PruneFails (.deleteFields Key.counters files) cause (.store cause)

theorem pruneAfter_strict : Strict PruneFails (pruneAfter keep pages cursor).run := by
  induction pages generalizing cursor with
  | zero => exact strict_pure 0
  | succ pages ih =>
    rw [pruneAfter_succ]
    refine strict_bind (strict_request fun e => .scanning cursor e) fun page => strict_bind ?_ fun deleted => ?_
    · unfold deleteCounters
      split
      · exact strict_pure 0
      · exact strict_request fun e => .deleting _ e
    · cases page.next with
      | none => exact strict_pure _
      | some next => exact strict_bind ih fun more => strict_pure _

theorem pruneAfter_succeeds (ha : s.store.access = .writing) (hf : Fillable (s.store.value? Key.counters)) :
    (pruneAfter keep pages cursor).Succeeds s := by
  induction pages generalizing s cursor with
  | zero => exact succeeds_pure 0 s
  | succ pages ih =>
    rw [pruneAfter_succ]
    have hscan := s.store.perform_scanFields Key.counters cursor Key.pageSize
    rw [if_neg (by rw [ha]; decide), if_pos hf] at hscan
    refine succeeds_bind (succeeds_request (congrArg (·.1) hscan)) fun page s1 h1 => ?_
    obtain ⟨events, h1⟩ := runs_perform h1
    obtain ⟨store, hr, rfl⟩ := runs_request_ok h1
    obtain rfl : store = s.store := hr.read rfl
    refine succeeds_bind ?_ fun deleted s2 h2 => ?_
    · unfold deleteCounters
      split
      · exact succeeds_pure 0 _
      · rcases s.store.perform_deleteFields Key.counters
          ((page.items.map (·.1)).filter fun file => !keep.contains file) with ⟨e, -, hn⟩ | ⟨s', he, -⟩
        · exact absurd hf (hn ha)
        · exact succeeds_request (congrArg (·.1) he)
    · have ha2 := (access_perform h2).trans ha
      obtain ⟨events2, h2⟩ := runs_perform h2
      have hf2 := (deleteCounters_ok h2).1 hf
      cases page.next with
      | none => exact succeeds_pure _ s2
      | some next => exact succeeds_bind (ih ha2 hf2) fun more s3 _ => succeeds_pure _ s3

end Alone
end Repository
end ShareIndex
