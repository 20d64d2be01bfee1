import ShareIndex.Proofs.Repository.Exact
import ShareIndex.Proofs.Repository.Isolation
import ShareIndex.Proofs.Text.Hexadecimal

/-!
# ShareIndex.Proofs.Repository.History

Calls one after the other, from an empty store on, any of whose requests may fail.

* `Ledger`        — what has been published so far.
* `History`       — the states after each call, with the ledger that goes with them.
* `Sound`         — what holds after each call; each kind of call preserves it.
* `history_sound` — the invariant.
* `refresh_succeeds` — the holder can follow every pointer that is not a hash.
* `history_generations` — the active generation is what was published last, and the other one is left from a single
  batch.
-/

namespace ShareIndex
namespace Repository

open Store (Backend Request KeyValueStore)
open Share (Download stableId)

/-! ### Keys of batches -/

theorem lineFeed_not_mem_stableId (path : FilePath) : '\n' ∉ (stableId path).toList :=
  fun hm => absurd (isHexadecimal_stableId path _ hm) (by decide)

/-- Ids that have no line feed in them, as digests have none, make keys that can be found by scans. -/
theorem visible_of_mem_entries (s : Backend) {g : Generation} {batch : List Download}
    (hn : ∀ d ∈ batch, '\n' ∉ d.id.toList) {e : Store.FieldEntry} (he : e ∈ entries g batch) : Key.Visible s e.key := by
  cases s with
  | database d => trivial
  | memory s =>
    show '\n' ∉ e.key.toList
    rcases mem_entries he with h | h | h | ⟨d, hd, h⟩ <;> rw [h]
    · cases g <;> decide
    · cases g <;> decide
    · cases g <;> decide
    · rw [Key.downloadFiles, Key.toList_below]
      cases g <;> simpa [Key.downloadFileGroup, Key.letter] using hn d hd

theorem visible_of_within {s : Backend} {g : Generation} {batch : List Download} (hw : Within s g batch)
    (hn : ∀ d ∈ batch, '\n' ∉ d.id.toList) {key : String} (hk : Key.Scoped g key)
    (hne : s.value? key ≠ none) : Key.Visible s key := by
  rcases hw key hk with h | ⟨_, -, ⟨e, he, rfl⟩, -⟩
  · exact absurd h hne
  · exact visible_of_mem_entries s hn he

section Congruence

variable {s s' : Backend} {g : Generation} {batch : List Download}

theorem Holds.congr (h : Holds s g batch) (hs : ∀ key, Key.Scoped g key → s'.value? key = s.value? key) :
    Holds s' g batch where
  downloads := hs _ (Key.scoped_downloads g) ▸ h.downloads
  pages := hs _ (Key.scoped_pages g) ▸ h.pages
  files := hs _ (Key.scoped_files g) ▸ h.files
  downloadFiles download := hs _ (Key.scoped_downloadFiles g download) ▸ h.downloadFiles download
  others key hk hd hp hf hdf := (hs key hk).trans (h.others key hk hd hp hf hdf)

theorem Within.shrink (h : Within s g batch)
    (hs : ∀ key, Key.Scoped g key → s'.value? key = s.value? key ∨ s'.value? key = none) : Within s' g batch := by
  intro key hk
  rcases hs key hk with he | he
  · rw [he]
    exact h key hk
  · exact .inl he

end Congruence

/-! ### Calls that leave both generations alone -/

/-- The step neither sets the holder nor writes to another key than that of the counters. -/
def CountersOnly : Effect → Prop
  | .store r => ∀ key ∈ r.writes, key = Key.counters
  | .readHolder => True
  | .writeHolder _ => False

section Quiet

variable {s s' : Shared Backend} {events : List Event}

theorem reaches_countersOnly {α : Type} {p q : Program α} (hp : p.Every CountersOnly)
    (h : Reaches p s events q s') :
    s'.holder = s.holder ∧ ∀ key, key ≠ Key.counters → s'.store.contents key = s.store.contents key := by
  induction h with
  | refl => exact ⟨rfl, fun _ _ => rfl⟩
  | step hs _ ih =>
    cases hs with
    | request hr =>
      obtain ⟨hh, hk⟩ := ih (hp.2 _)
      exact ⟨hh, fun key hne => (hk key hne).trans (hr.contents fun hm => hne (hp.1 key hm))⟩
    | readHolder => exact ih (hp.2 _)
    | writeHolder => exact hp.1.elim

theorem prune_every (pages : Nat) (batch : List Download) : (prune pages batch).run.Every CountersOnly := by
  have hwrites : ∀ cursor count key, key ∈ (Request.scanFields Key.counters cursor count).writes →
      key = Key.counters := fun _ _ _ h => by cases h
  unfold prune
  generalize (none : Option String) = cursor
  induction pages generalizing cursor with
  | zero => trivial
  | succ pages ih =>
    refine Program.every_action (Program.every_request (hwrites cursor _)) fun page =>
      Program.every_action ?_ fun deleted => ?_
    · unfold deleteCounters
      split
      · trivial
      · exact Program.every_request fun key hk => List.mem_singleton.mp hk
    · cases page.next with
      | none => trivial
      | some next => exact Program.every_action (ih (some next)) fun _ => trivial

theorem increment_every (file : String) : (increment file).run.Every CountersOnly :=
  Program.every_request fun _ hk => List.mem_singleton.mp hk

theorem writes_of_reads {r : Request} {key : String} (h : r.reads? = some key) : r.writes = [] := by
  cases r with
  | get | getField | getFields | getAll | scanFields => rfl
  | set | delete | scan | deleteFields | increment | apply => cases h

theorem reader_every (r : Reader) : r.call.Every CountersOnly := by
  obtain ⟨next, hc, hevery⟩ := r.reads
  rw [hc]
  refine ⟨trivial, fun active => (hevery active).mono fun effect he => ?_⟩
  cases effect with
  | store r =>
    obtain ⟨key, hr, -⟩ := he
    show ∀ key ∈ r.writes, key = Key.counters
    rw [writes_of_reads hr]
    simp
  | readHolder => trivial
  | writeHolder => exact he.elim

theorem refresh_runs {result : Except Error (Option Generation)} (h : Runs refresh.run s events result s') :
    s'.store = s.store ∧ match result with
      | .ok _ => s'.holder = s.store.pointer
      | .error _ => s'.holder = s.holder := by
  rcases runs_action h with ⟨e, rfl, hp⟩ | ⟨active, s1, events1, later1, rfl, hp, hw⟩
  · obtain ⟨rfl, -⟩ := storedGeneration_runs hp
    exact ⟨rfl, rfl⟩
  obtain ⟨rfl, rfl, -⟩ := storedGeneration_runs hp
  rcases runs_action hw with ⟨e, -, hf⟩ | ⟨u, s2, events2, later2, rfl, ho, hd⟩
  · cases (runs_writeHolder hf).2.1
  · obtain ⟨rfl, -, rfl⟩ := runs_writeHolder ho
    obtain ⟨rfl, rfl, rfl⟩ := runs_pure hd
    exact ⟨rfl, rfl⟩

theorem shared_of_refresh {active : Option Generation} (h : refresh.perform s = (.ok active, s')) :
    s' = ⟨s.store, s.store.pointer⟩ := by
  obtain ⟨events, hr⟩ := runs_perform h
  obtain ⟨hstore, hholder⟩ := refresh_runs hr
  cases s'
  cases hstore
  cases hholder
  rfl

theorem refresh_succeeds (ha : s.store.access ≠ .closed) (hp : ∀ fields, s.store.value? Key.active ≠ some (.hash fields)) :
    refresh.Succeeds s :=
  succeeds_bind (storedGeneration_succeeds ha hp) fun active _ _ => ⟨active, _, rfl⟩

end Quiet

/-! ### Publications -/

def Event.sendsBatch (e : Event) : Bool := e.1.operation == .apply

section Residue

variable {pages : Nat} {batch : List Download} {g : Generation} {s s' : Shared Backend} {events : List Event}

theorem clear_sendsNoBatch {result : Except Error Nat} (h : Runs (clear pages g).run s events result s') :
    events.any Event.sendsBatch = false := by
  have hs : Strict (fun r _ _ => r.operation ≠ .apply) (clear pages g).run :=
    clearGroups_strict (fun _ _ _ h => by cases h) fun _ _ h => by cases h
  rw [List.any_eq_false]
  intro e he
  obtain ⟨_, _, hne⟩ := hs.events h e he
  simpa [Event.sendsBatch] using hne

/-- What is in the generation that has been written to: if the batch has been sent, only fields of the batch, and
otherwise only what was there before. -/
theorem Ended.residue {result : Except Error Unit} (hn : KeyValueStore.extent s.store < pages)
    (hv : ∀ key, Key.Scoped g key → s.store.value? key ≠ none → Key.Visible s.store key)
    (h : Ended pages batch g s events result s') :
    if events.any Event.sendsBatch then Within s'.store g batch
      else (∀ u, result ≠ .ok u) ∧ ∀ key, s'.store.value? key = s.store.value? key ∨ s'.store.value? key = none := by
  have hfilled : ∀ {s1 : Shared Backend} {before : List Event} {n : Nat} {answer} {store : Backend},
      Runs (clear pages g).run s before (.ok n) s1 → Reply s1.store (.apply (commands g batch)) answer store →
      Within store g batch := by
    intro s1 before n answer store hc hw
    obtain ⟨l, hl, -, hfill⟩ := hw.filled fun key hk => clear_all hn hc hk (hv key hk)
    exact within_filled hl hfill
  have hsent : ∀ (before after : List Event) answer,
      (before ++ ⟨.apply (commands g batch), answer⟩ :: after).any Event.sendsBatch = true := by
    intro before after answer
    rw [List.any_append, List.any_cons]
    simp [Event.sendsBatch, Request.operation]
  cases h with
  | clearing hc =>
    rw [if_neg (by rw [clear_sendsNoBatch hc]; decide)]
    exact ⟨fun u hu => (by cases hu), (clear_cleared hc).removed⟩
  | writing hc hw =>
    rw [if_pos (hsent _ [] _)]
    exact hfilled hc hw
  | swapping hc hw hs =>
    rw [if_pos (hsent _ [_] _)]
    obtain rfl := hs.unchanged nofun
    exact hfilled hc hw
  | swapped hc hw hs =>
    rw [if_pos (hsent _ [_] _)]
    refine (hfilled hc hw).shrink fun key hk => .inl (hs.value? fun hm => ?_)
    exact Key.not_scoped_active g (List.mem_singleton.mp hm ▸ hk)

theorem stage_residue {result : Except Error Generation} (hn : KeyValueStore.extent s.store < pages)
    (hv : ∀ key, Key.Scoped (Generation.standby s.store.pointer) key → s.store.value? key ≠ none →
      Key.Visible s.store key)
    (h : Runs (stage pages batch).run s events result s') :
    if events.any Event.sendsBatch then Within s'.store (Generation.standby s.store.pointer) batch
      else (∀ g, result ≠ .ok g) ∧ ∀ key, s'.store.value? key = s.store.value? key ∨ s'.store.value? key = none := by
  rcases stage_cases h with ⟨cause, rfl, rfl, rfl⟩ | ⟨v, later, ended, rfl, hw, rfl⟩
  · exact ⟨fun g hg => (by cases hg), fun key => .inl rfl⟩
  · have hres := (prepare_ended hw).residue hn hv
    have hany : List.any (⟨.get Key.active, .ok v⟩ :: later) Event.sendsBatch = later.any Event.sendsBatch := rfl
    rw [hany]
    split at hres
    · rename_i hs
      rw [if_pos hs]
      exact hres
    · rename_i hs
      rw [if_neg hs]
      refine ⟨fun g hg => ?_, hres.2⟩
      cases ended with
      | error e => cases hg
      | ok u => exact hres.1 u rfl

end Residue

/-! ### Ledgers -/

/-- How many publications have succeeded, the batch of the last one of them, and for each generation the batch
that was last sent to it. -/
structure Ledger where
  succeeded : Nat
  current : List Download
  sent : Generation → List Download

/-- The generation that is active after a number of publications. -/
def activeAfter (n : Nat) : Option Generation := if n = 0 then none else if n % 2 = 1 then some .a else some .b

theorem activeAfter_succ (n : Nat) : activeAfter (n + 1) = some (Generation.standby (activeAfter n)) := by
  unfold activeAfter
  rw [if_neg (Nat.succ_ne_zero n)]
  by_cases h0 : n = 0
  · subst h0
    rfl
  · rw [if_neg h0]
    by_cases h1 : n % 2 = 1
    · rw [if_pos h1, if_neg (by omega)]
      rfl
    · rw [if_neg h1, if_pos (by omega)]
      rfl

namespace Ledger

def empty : Ledger := ⟨0, [], fun _ => []⟩

/-- After a publication to a generation. -/
def after (l : Ledger) (g : Generation) (batch : List Download) (events : List Event) :
    Except Error Generation → Ledger
  | .ok _ => ⟨l.succeeded + 1, batch, Function.update l.sent g batch⟩
  | .error _ => { l with sent := if events.any Event.sendsBatch then Function.update l.sent g batch else l.sent }

theorem sent_after {l : Ledger} {g : Generation} {batch : List Download} {events : List Event}
    {result : Except Error Generation} (h : events.any Event.sendsBatch = true) :
    (l.after g batch events result).sent = Function.update l.sent g batch := by
  cases result with
  | ok => rfl
  | error => exact if_pos h

end Ledger

/-- The states after each call of a process that starts with an empty store and an empty holder. A call may be
answered by failures at any of its requests. -/
inductive History : Ledger → Shared Backend → Prop where
  | start {store : Backend} : (∀ key, store.value? key = none) → History .empty ⟨store, none⟩
  /-- A new holder that follows the pointer takes the place of the old one, or is dropped. -/
  | load {l : Ledger} {s s' : Shared Backend} {events : List Event} {result : Except Error (Option Generation)}
    {holder : Option Generation} : History l s → Runs refresh.run { s with holder := none } events result s' →
    (holder = s.holder ∨ (∃ active, result = .ok active) ∧ holder = s'.holder) → History l { s' with holder }
  | refresh {l : Ledger} {s s' : Shared Backend} {events : List Event} {result : Except Error (Option Generation)} :
    History l s → Runs refresh.run s events result s' → History l s'
  /-- The downloads have the ids of their paths, as those of `Download.ofPath` do. -/
  | publish {l : Ledger} {s s' : Shared Backend} {pages : Nat} {batch : List Download} {events : List Event}
    {result : Except Error Generation} : History l s → (∀ d ∈ batch, d.id = stableId d.sourcePath) →
    KeyValueStore.extent s.store < pages → Runs (publish pages batch).run s events result s' →
    History (l.after (Generation.standby s.store.pointer) batch events result) s'
  | prune {l : Ledger} {s s' : Shared Backend} {pages : Nat} {batch : List Download} {events : List Event}
    {result : Except Error Nat} : History l s → Runs (prune pages batch).run s events result s' → History l s'
  | increment {l : Ledger} {s s' : Shared Backend} {file : String} {events : List Event}
    {result : Except Error Int} : History l s → Runs (increment file).run s events result s' → History l s'
  | read {l : Ledger} {s s' : Shared Backend} (r : Reader) {events : List Event} {result : r.Result} :
    History l s → Runs r.call s events result s' → History l s'

structure Sound (l : Ledger) (s : Shared Backend) : Prop where
  holder : s.holder = activeAfter l.succeeded
  pointer : s.store.value? Key.active = (activeAfter l.succeeded).map fun g => .text g.text
  active : ∀ g, activeAfter l.succeeded = some g → Holds s.store g l.current
  within : ∀ g, Within s.store g (l.sent g)
  named : ∀ g, ∀ d ∈ l.sent g, d.id = stableId d.sourcePath

namespace Sound

variable {l : Ledger} {s s' : Shared Backend}

theorem pointer_eq (h : Sound l s) : s.store.pointer = activeAfter l.succeeded := by
  rw [Backend.pointer, h.pointer]
  cases activeAfter l.succeeded with
  | none => rfl
  | some g => exact Generation.ofText?_text g

theorem start {store : Backend} (h : ∀ key, store.value? key = none) : Sound .empty ⟨store, none⟩ where
  holder := rfl
  pointer := h Key.active
  active g hg := by cases hg
  within g key _ := .inl (h key)
  named g d hd := by cases hd

/-- Only the counters have changed. -/
theorem quiet (h : Sound l s) (hh : s'.holder = s.holder)
    (hk : ∀ key, key ≠ Key.counters → s'.store.value? key = s.store.value? key) : Sound l s' where
  holder := hh.trans h.holder
  pointer := (hk _ Key.active_ne_counters).trans h.pointer
  active g hg := (h.active g hg).congr fun key hs => hk key fun he => Key.not_scoped_counters g (he ▸ hs)
  within g := (h.within g).shrink fun key hs => .inl (hk key fun he => Key.not_scoped_counters g (he ▸ hs))
  named := h.named

theorem of_every {α : Type} {p : Program α} {events : List Event} {a : α} (h : Sound l s)
    (hp : p.Every CountersOnly) (hr : Runs p s events a s') : Sound l s' := by
  obtain ⟨hh, hk⟩ := reaches_countersOnly hp hr
  exact h.quiet hh fun key hne => congrArg Store.Contents.value? (hk key hne)

/-- The batches of the ledger, after one more has been sent. -/
theorem within_update {g : Generation} {batch : List Download} {store : Backend} (h : Sound l s)
    (hg : Within store g batch)
    (hk : ∀ g', g' ≠ g → ∀ key, Key.Scoped g' key → store.value? key = s.store.value? key) (g' : Generation) :
    Within store g' (Function.update l.sent g batch g') := by
  by_cases he : g' = g
  · subst he
    rwa [Function.update_self]
  · rw [Function.update_of_ne he]
    exact (h.within g').shrink fun key hs => .inl (hk g' he key hs)

theorem named_update {batch : List Download} (h : Sound l s) (hb : ∀ d ∈ batch, d.id = stableId d.sourcePath)
    (g g' : Generation) : ∀ d ∈ Function.update l.sent g batch g', d.id = stableId d.sourcePath := by
  by_cases he : g' = g
  · subst he
    rwa [Function.update_self]
  · rw [Function.update_of_ne he]
    exact h.named g'

theorem active_ne_standby (h : Sound l s) {g : Generation} (hg : activeAfter l.succeeded = some g) :
    g ≠ Generation.standby s.store.pointer := by
  rw [h.pointer_eq, hg]
  exact (Generation.other_ne g).symm

theorem publish {pages : Nat} {batch : List Download} {events : List Event} {result : Except Error Generation}
    (h : Sound l s) (hb : ∀ d ∈ batch, d.id = stableId d.sourcePath) (hn : KeyValueStore.extent s.store < pages)
    (hr : Runs (Repository.publish pages batch).run s events result s') :
    Sound (l.after (Generation.standby s.store.pointer) batch events result) s' := by
  have hv : ∀ key, Key.Scoped (Generation.standby s.store.pointer) key → s.store.value? key ≠ none →
      Key.Visible s.store key := by
    refine fun key hk => visible_of_within (h.within _) (fun d hd => ?_) hk
    rw [h.named _ d hd]
    exact lineFeed_not_mem_stableId d.sourcePath
  -- the keys of the other generation are among those that are left alone
  have hkept : ∀ store : Backend, (∀ key, key ≠ Key.active →
      ¬ Key.Scoped (Generation.standby s.store.pointer) key → store.contents key = s.store.contents key) →
      ∀ g, g ≠ Generation.standby s.store.pointer → ∀ key, Key.Scoped g key →
        store.value? key = s.store.value? key := fun store hk g hne key hs =>
    congrArg Store.Contents.value? (hk key (fun ha => Key.not_scoped_active g (ha ▸ hs))
      fun hs' => hne (Key.scoped_unique hs hs'))
  rcases publish_runs hr with ⟨e, rfl, hs⟩ | ⟨g, s1, rfl, hs, rfl⟩
  · obtain ⟨hh, hk, ha, -⟩ := stage_frame hs
    have hkept := hkept s'.store hk
    have hres := stage_residue hn hv hs
    have hactive : ∀ g, activeAfter l.succeeded = some g → Holds s'.store g l.current := fun g hg =>
      (h.active g hg).congr (hkept g (h.active_ne_standby hg))
    have hpointer := (congrArg Store.Contents.value? ha).trans h.pointer
    by_cases hsent : events.any Event.sendsBatch = true
    · rw [if_pos hsent] at hres
      rw [Ledger.after, if_pos hsent]
      exact ⟨hh.trans h.holder, hpointer, hactive, h.within_update hres hkept, h.named_update hb _⟩
    · rw [if_neg hsent] at hres
      rw [Ledger.after, if_neg hsent]
      exact ⟨hh.trans h.holder, hpointer, hactive, fun g => (h.within g).shrink fun key _ => hres.2 key, h.named⟩
  · obtain ⟨-, hk, rfl, ha, -⟩ := stage_frame hs
    have hkept := hkept s1.store hk
    have hres := stage_residue hn hv hs
    have hnext : activeAfter (l.succeeded + 1) = some (Generation.standby s.store.pointer) := by
      rw [activeAfter_succ, h.pointer_eq]
    split at hres
    · refine ⟨hnext.symm, ?_, fun g hg => ?_, h.within_update hres hkept, h.named_update hb _⟩
      · rw [Ledger.after, hnext]
        exact ha
      · obtain rfl := Option.some.inj (hnext.symm.trans hg)
        show Holds s1.store _ batch
        exact stage_holds hv hn hs
    · exact absurd rfl (hres.1 _)

end Sound

theorem history_sound {l : Ledger} {s : Shared Backend} (h : History l s) : Sound l s := by
  induction h with
  | start h => exact .start h
  | @load l s s' events result holder _ hr hh ih =>
    obtain ⟨hs, hm⟩ := refresh_runs hr
    have hholder : holder = s.holder := by
      rcases hh with hh | ⟨⟨active, rfl⟩, hh⟩
      · exact hh
      · rw [hh, hm, ih.holder]
        exact ih.pointer_eq
    exact ih.quiet hholder fun key _ => by rw [hs]
  | @refresh l s s' events result _ hr ih =>
    obtain ⟨hs, hm⟩ := refresh_runs hr
    refine ih.quiet ?_ fun key _ => by rw [hs]
    cases result with
    | error e => exact hm
    | ok active => exact hm.trans (ih.pointer_eq.trans ih.holder.symm)
  | publish _ hb hn hr ih => exact ih.publish hb hn hr
  | prune _ hr ih => exact ih.of_every (prune_every _ _) hr
  | increment _ hr ih => exact ih.of_every (increment_every _) hr
  | read r _ hr ih => exact ih.of_every (reader_every r) hr

/-- After each call the holder agrees with the pointer, and the pointer with the number of publications that have
succeeded. The active generation is exactly the batch that was published last, and whatever is in a generation, the
standby one included, comes from the batch that was last sent to it. -/
theorem history_generations {l : Ledger} {s : Shared Backend} (h : History l s) :
    s.holder = s.store.pointer ∧
    s.store.value? Key.active = (activeAfter l.succeeded).map (fun g => .text g.text) ∧
    (∀ g, activeAfter l.succeeded = some g → Holds s.store g l.current) ∧
    ∀ g, Within s.store g (l.sent g) := by
  have hs := history_sound h
  exact ⟨hs.holder.trans hs.pointer_eq.symm, hs.pointer, hs.active, hs.within⟩

/-! ### In memory -/

/-- A download with the id of its path, and the same with another page and without its file. -/
def issue : List Download :=
  [⟨"17762fddd969a453925d65717ac3eea21320b66b54342fde15128d6caf21215f", "A", none, true, ⟨"a"⟩, "old page", "",
    [⟨"f", "f", none, ⟨"a/f"⟩, "/a/f", 1, ""⟩]⟩]

def reissue : List Download := issue.map fun d => { d with pageContent := "new page", files := [] }

theorem named_issue : ∀ d ∈ issue, d.id = Share.stableId d.sourcePath := by decide +kernel

theorem named_reissue : ∀ d ∈ reissue, d.id = Share.stableId d.sourcePath := by
  intro d hd
  obtain ⟨d, hs, rfl⟩ := List.mem_map.mp hd
  exact named_issue d hs

/-- The states after a publication, after a fetch of its file, and after a publication that is cut off. -/
def published : Shared Backend := (publishCut none issue ⟨.memory .empty, none⟩).2

def fetched : Shared Backend := ((increment "f").run.run published).2

def interrupted : Shared Backend := (publishCut (some 1) reissue fetched).2

theorem publishCut_issue : (publishCut none issue ⟨.memory .empty, none⟩).1 = .ok .a := by decide +kernel

/-- The publication is cut off after its first command. -/
theorem publishCut_reissue : KeyValueStore.extent fetched.store < 20 ∧
    (publishCut (some 1) reissue fetched).1 = .error (.write .b (.injectedAfter 1)) ∧
    interrupted.store.value? (Key.downloads .b) ≠ none ∧ interrupted.store.value? (Key.pages .b) = none := by
  decide +kernel

/-- One publication has succeeded, and one has been cut off. -/
theorem history_generations_interrupted : ∃ l, History l interrupted ∧ l.succeeded = 1 ∧ l.current = issue ∧
    l.sent .b = reissue ∧ interrupted.store.value? (Key.downloads .b) ≠ none ∧
    interrupted.store.value? (Key.pages .b) = none ∧
    interrupted.holder = interrupted.store.pointer ∧
    interrupted.store.value? Key.active = (activeAfter l.succeeded).map (fun g => .text g.text) ∧
    (∀ g, activeAfter l.succeeded = some g → Holds interrupted.store g l.current) ∧
    ∀ g, Within interrupted.store g (l.sent g) := by
  have hempty : ∀ key, (Backend.memory .empty).value? key = none := fun _ => rfl
  obtain ⟨hextent, hresult, hdownloads, hpages⟩ := publishCut_reissue
  obtain ⟨events1, h1⟩ := runs_publishCut none issue ⟨.memory .empty, none⟩
  rw [publishCut_issue] at h1
  have hpublished := History.publish (.start hempty) named_issue (by decide) h1
  have hfetched : History _ fetched := hpublished.increment (runs_run (increment "f").run published)
  obtain ⟨events2, h2⟩ := runs_publishCut (some 1) reissue fetched
  rw [hresult] at h2
  have hinterrupted : History _ interrupted := .publish hfetched named_reissue hextent h2
  have hpointer : Generation.standby fetched.store.pointer = .b := by decide +kernel
  -- the request that has failed is the one that sends the batch
  have hsent : events2.any Event.sendsBatch = true := by
    obtain ⟨-, -, -, -, -, served, r, cause, rfl, -, hfails⟩ := publish_frame h2
    rw [hpointer] at hfails
    cases hfails
    simp [Event.sendsBatch, Store.Request.operation]
  have hs := history_generations hinterrupted
  refine ⟨_, hinterrupted, rfl, rfl, ?_, hdownloads, hpages, hs⟩
  rw [Ledger.sent_after hsent, hpointer]
  exact Function.update_self ..

end Repository
end ShareIndex
