import ShareIndex.Proofs.Repository.History

/-!
# ShareIndex.Proofs.Repository.Follower

One process publishes, and another one reads with a holder of its own, which it has set once.

* `Event.deletes`  — a publication changes nothing before it is served a deletion (`publish_undeleted`).
* `Attempt`        — what is known of a publication that has ended; `Publishes` is one after the other.
* `latest?`        — the last attempt that has touched a generation.
* `Kept`           — a generation whose latest attempt has succeeded is the batch of that attempt.
* `follower_answers` — so the reader answers for that batch; `follower_misled` is why the attempt must have succeeded.
-/

namespace ShareIndex
namespace Repository

open Store (Backend Request KeyValueStore)
open Share (Download)

/-! ### Publications that change nothing -/

/-- Whether the request deletes keys. -/
def Event.deletes : Event → Bool
  | ⟨.delete _, .ok _⟩ => true
  | _ => false

/-- The step enumerates keys or deletes them. -/
def ScansOrDeletes : Effect → Prop
  | .store (.scan _ _ _) => True
  | .store (.delete _) => True
  | _ => False

section Undeleted

variable {raise : Store.Error → Error} {gs : List String} {g : Generation} {pages : Nat} {batch : List Download}
  {s s' : Shared Backend} {events : List Event}

theorem clearChildren_every (raise : Store.Error → Error) (group : String) (g : Generation) (pages : Nat)
    (cursor : Option String) : (clearChildren raise group g pages cursor).run.Every ScansOrDeletes := by
  induction pages generalizing cursor with
  | zero => trivial
  | succ pages ih =>
    refine Program.every_action (Program.every_request trivial) fun page => Program.every_action ?_ fun deleted => ?_
    · unfold deletePage
      split
      · trivial
      · exact Program.every_request trivial
    · cases page.next with
      | none => trivial
      | some next => exact Program.every_action (ih (some next)) fun _ => trivial

theorem clearGroups_every (raise : Store.Error → Error) (pages : Nat) (g : Generation) (gs : List String) :
    (clearGroups raise pages g gs).run.Every ScansOrDeletes := by
  induction gs with
  | nil => trivial
  | cons group rest ih =>
    exact Program.every_action (clearChildren_every raise group g pages none) fun _ =>
      Program.every_action (Program.every_request trivial) fun _ => Program.every_action ih fun _ => trivial

theorem reaches_undeleted {α : Type} {p q : Program α} (hp : p.Every ScansOrDeletes) (h : Reaches p s events q s')
    (hd : events.any Event.deletes = false) : s' = s := by
  induction h with
  | refl => rfl
  | step hs _ ih =>
    rw [List.any_append, Bool.or_eq_false_iff] at hd
    cases hs with
    | @request _ r _ answer store hr =>
      rw [ih (hp.2 _) hd.2]
      cases r with
      | scan => rw [hr.scanned.1]
      | delete keys =>
        cases answer with
        | ok n => cases hd.1
        | error e => rw [hr.unchanged nofun]
      | get | set | getField | getFields | getAll | scanFields | deleteFields | increment | apply => exact hp.1.elim
    | readHolder => exact hp.1.elim
    | writeHolder => exact hp.1.elim

/-- The keys of the groups are deleted in any case, so a generation is not cleared without a deletion. -/
theorem clear_undeleted {result : Except Error Nat} (h : Runs (clear pages g).run s events result s')
    (hd : events.any Event.deletes = false) : (∃ e, result = .error e) ∧ s' = s := by
  refine ⟨?_, reaches_undeleted (clearGroups_every _ _ _ _) h hd⟩
  cases result with
  | error e => exact ⟨e, rfl⟩
  | ok n =>
    rw [clear, Key.groups, clearGroups] at h
    obtain ⟨children, s1, events1, later1, rfl, -, h⟩ := runs_action_ok h
    obtain ⟨own, s2, events2, later2, rfl, h2, -⟩ := runs_action_ok h
    obtain ⟨answer, store, -, rfl, ha, -⟩ := runs_request h2
    cases answer with
    | error e => cases ha
    | ok n => simp [Event.deletes] at hd

theorem publish_undeleted {result : Except Error Generation} (h : Runs (publish pages batch).run s events result s')
    (hd : events.any Event.deletes = false) : (∃ e, result = .error e) ∧ s' = s := by
  have hstage : ∀ {result : Except Error Generation} {s1 : Shared Backend},
      Runs (stage pages batch).run s events result s1 → (∃ e, result = .error e) ∧ s1 = s := by
    intro result s1 h
    rcases stage_cases h with ⟨cause, rfl, -, rfl⟩ | ⟨v, later, ended, rfl, hw, rfl⟩
    · exact ⟨⟨_, rfl⟩, rfl⟩
    · rw [List.any_cons, Bool.or_eq_false_iff] at hd
      have hclear : ∀ {before : List Event} {n : Nat} {s2 : Shared Backend} {after : List Event},
          later = before ++ after → ¬ Runs (clear pages (Generation.standby s.store.pointer)).run s before (.ok n) s2 := by
        intro before n s2 after hsplit hc
        rw [hsplit, List.any_append, Bool.or_eq_false_iff] at hd
        obtain ⟨⟨e, he⟩, -⟩ := clear_undeleted hc hd.2.1
        cases he
      cases prepare_ended hw with
      | clearing hc => exact ⟨⟨_, rfl⟩, (clear_undeleted hc hd.2).2⟩
      | writing hc => exact absurd hc (hclear rfl)
      | swapping hc => exact absurd hc (hclear rfl)
      | swapped hc => exact absurd hc (hclear rfl)
  rcases publish_runs h with ⟨e, rfl, hs⟩ | ⟨g, s1, rfl, hs, rfl⟩
  · exact hstage hs
  · obtain ⟨⟨e, he⟩, -⟩ := hstage hs
    cases he

end Undeleted

/-! ### Attempts -/

structure Attempt where
  target : Generation
  batch : List Download
  /-- Whether anything of the generation has been deleted. -/
  touched : Bool
  succeeded : Bool

/-- The publication that has run in a state with this pointer. -/
def Attempt.ofRun (pointer : Option Generation) (batch : List Download) (events : List Event)
    (result : Except Error Generation) : Attempt :=
  ⟨Generation.standby pointer, batch, events.any Event.deletes, result.isOk⟩

/-- Publications one after the other, any of whose requests may fail, of downloads whose ids have no line feed. -/
inductive Publishes : Shared Backend → List Attempt → Shared Backend → Prop where
  | refl (s : Shared Backend) : Publishes s [] s
  | tail {s s' s'' : Shared Backend} {attempts : List Attempt} {pages : Nat} {batch : List Download}
      {events : List Event} {result : Except Error Generation} : Publishes s attempts s' →
    (∀ d ∈ batch, '\n' ∉ d.id.toList) → KeyValueStore.extent s'.store < pages →
    Runs (publish pages batch).run s' events result s'' →
    Publishes s (attempts ++ [.ofRun s'.store.pointer batch events result]) s''

/-- The last attempt that has touched the generation. -/
def latest? (g : Generation) (attempts : List Attempt) : Option Attempt :=
  lastWhere? (fun a => a.target = g && a.touched) attempts

theorem latest?_append (g : Generation) (attempts : List Attempt) (a : Attempt) :
    latest? g (attempts ++ [a]) = if a.target = g && a.touched then some a else latest? g attempts := by
  rw [latest?, lastWhere?, List.reverse_append, List.reverse_singleton, List.singleton_append, List.find?_cons]
  cases decide (a.target = g) && a.touched <;> rfl

theorem mem_of_latest? {g : Generation} {attempts : List Attempt} {a : Attempt} (h : latest? g attempts = some a) :
    a ∈ attempts := (mem_of_lastWhere? h).1

theorem Publishes.trans {s s' s'' : Shared Backend} {before after : List Attempt} (h1 : Publishes s before s')
    (h2 : Publishes s' after s'') : Publishes s (before ++ after) s'' := by
  induction h2 with
  | refl => rwa [List.append_nil]
  | tail _ hb hn hr ih => exact List.append_assoc .. ▸ .tail ih hb hn hr

/-- What is known when the attempts have ended. -/
structure Kept (attempts : List Attempt) (s : Backend) : Prop where
  visible : ∀ g key, Key.Scoped g key → s.value? key ≠ none → Key.Visible s key
  holds : ∀ g a, latest? g attempts = some a → a.succeeded = true → Holds s g a.batch
  pointer : (∃ a ∈ attempts, a.succeeded = true) →
    ∃ g a, s.pointer = some g ∧ latest? g attempts = some a ∧ a.succeeded = true

namespace Kept

variable {attempts : List Attempt} {s s' : Backend}

theorem start (h : ∀ g key, Key.Scoped g key → s.value? key ≠ none → Key.Visible s key) : Kept [] s where
  visible := h
  holds g a ha := by cases ha
  pointer h := by
    obtain ⟨a, ha, -⟩ := h
    cases ha

theorem visible_congr {key other : String} (h : s'.contents key = s.contents key) (hv : Key.Visible s other) :
    Key.Visible s' other := by
  cases s with
  | memory s =>
    cases s' with
    | memory s' => exact hv
    | database d => trivial
  | database d =>
    cases s' with
    | memory s' => cases h
    | database d' => trivial

section Publication

variable {pages : Nat} {batch : List Download} {events : List Event} {s s' : Shared Backend}

/-- All keys that a publication leaves behind can be found by scans. -/
theorem publish_visible {result : Except Error Generation}
    (hv : ∀ g key, Key.Scoped g key → s.store.value? key ≠ none → Key.Visible s.store key)
    (hb : ∀ d ∈ batch, '\n' ∉ d.id.toList) (hn : KeyValueStore.extent s.store < pages)
    (h : Runs (publish pages batch).run s events result s') :
    ∀ g key, Key.Scoped g key → s'.store.value? key ≠ none → Key.Visible s'.store key := by
  intro g key hk hne
  have hcounters := publish_leaves_counters h
  by_cases hg : g = Generation.standby s.store.pointer
  · subst hg
    obtain ⟨result', s1, hs, hstore⟩ : ∃ (result' : Except Error Generation) (s1 : Shared Backend),
        Runs (stage pages batch).run s events result' s1 ∧ s1.store = s'.store := by
      rcases publish_runs h with ⟨e, -, hs⟩ | ⟨g, s1, -, hs, rfl⟩
      · exact ⟨_, _, hs, rfl⟩
      · exact ⟨_, _, hs, rfl⟩
    have hres := stage_residue hn (hv _) hs
    rw [hstore] at hres
    split at hres
    · exact visible_of_within hres hb hk hne
    · rcases hres.2 key with hsame | hnone
      · exact visible_congr hcounters (hv _ key hk (hsame ▸ hne))
      · exact absurd hnone hne
  · have hsame := publish_leaves_other h hg hk
    refine visible_congr hsame (hv g key hk ?_)
    rwa [Backend.value?, ← hsame]

variable {result : Except Error Generation}

/-- An attempt that succeeds has touched its generation. -/
theorem touched_of_ok (hr : Runs (Repository.publish pages batch).run s events result s') (hok : result.isOk = true) :
    events.any Event.deletes = true := by
  by_contra hd
  obtain ⟨⟨e, rfl⟩, -⟩ := publish_undeleted hr (Bool.eq_false_iff.mpr hd)
  cases hok

theorem publish_holds (h : Kept attempts s.store) (hn : KeyValueStore.extent s.store < pages)
    (hr : Runs (Repository.publish pages batch).run s events result s') {g : Generation} {a : Attempt}
    (ha : latest? g (attempts ++ [.ofRun s.store.pointer batch events result]) = some a)
    (hok : a.succeeded = true) : Holds s'.store g a.batch := by
  rw [latest?_append] at ha
  split at ha
  · rename_i htarget
    rw [Bool.and_eq_true, decide_eq_true_eq] at htarget
    obtain rfl := Option.some.inj ha
    rcases publish_runs hr with ⟨e, rfl, -⟩ | ⟨g', s1, rfl, hs, rfl⟩
    · cases hok
    · obtain ⟨-, -, hg', -⟩ := stage_frame hs
      obtain rfl : g' = g := hg'.trans htarget.1
      have hholds : Holds s1.store g' batch := stage_holds (h.visible _) hn hs
      exact hholds
  · rename_i htarget
    have hg := h.holds g a ha hok
    by_cases heq : g = Generation.standby s.store.pointer
    · -- the attempt was directed at the generation and has not touched it
      have hd : events.any Event.deletes = false := by
        rw [Bool.and_eq_true, decide_eq_true_eq, not_and] at htarget
        exact Bool.eq_false_iff.mpr (htarget heq.symm)
      rw [(publish_undeleted hr hd).2]
      exact hg
    · exact hg.congr fun key hk => congrArg Store.Contents.value? (publish_leaves_other hr heq hk)

theorem publish_pointer (h : Kept attempts s.store)
    (hr : Runs (Repository.publish pages batch).run s events result s')
    (hsome : ∃ a ∈ attempts ++ [.ofRun s.store.pointer batch events result], a.succeeded = true) :
    ∃ g a, s'.store.pointer = some g ∧
      latest? g (attempts ++ [.ofRun s.store.pointer batch events result]) = some a ∧ a.succeeded = true := by
  have hpointer := (publish_leaves hr).2
  cases result with
  | ok g =>
    obtain ⟨hg, -, hp⟩ := hpointer
    refine ⟨g, .ofRun s.store.pointer batch events (.ok g), hp, ?_, rfl⟩
    rw [latest?_append, if_pos]
    rw [Bool.and_eq_true, decide_eq_true_eq]
    exact ⟨hg.symm, touched_of_ok hr rfl⟩
  | error e =>
    obtain ⟨a, ha, hok⟩ := hsome
    rcases List.mem_append.mp ha with ha | ha
    · obtain ⟨g, a', hg, hlatest, hok'⟩ := h.pointer ⟨a, ha, hok⟩
      refine ⟨g, a', (Backend.pointer_congr hpointer.2).trans hg, ?_, hok'⟩
      have hne : ¬ (Generation.standby s.store.pointer = g) := by
        rw [hg]
        exact Generation.other_ne g
      rw [latest?_append, if_neg]
      · exact hlatest
      · rw [Bool.and_eq_true, decide_eq_true_eq, not_and]
        exact fun htarget => absurd htarget hne
    · rw [List.mem_singleton.mp ha] at hok
      cases hok

theorem publish (h : Kept attempts s.store) (hb : ∀ d ∈ batch, '\n' ∉ d.id.toList)
    (hn : KeyValueStore.extent s.store < pages)
    (hr : Runs (Repository.publish pages batch).run s events result s') :
    Kept (attempts ++ [.ofRun s.store.pointer batch events result]) s'.store where
  visible := publish_visible h.visible hb hn hr
  holds _ _ := h.publish_holds hn hr
  pointer := h.publish_pointer hr

end Publication

end Kept

theorem kept_of_publishes {s s' : Shared Backend} {attempts : List Attempt}
    (hv : ∀ g key, Key.Scoped g key → s.store.value? key ≠ none → Key.Visible s.store key)
    (h : Publishes s attempts s') : Kept attempts s'.store := by
  induction h with
  | refl => exact .start hv
  | tail _ hb hn hr ih => exact ih.publish hb hn hr

theorem access_of_publishes {s s' : Shared Backend} {attempts : List Attempt} (h : Publishes s attempts s') :
    s'.store.access = s.store.access := by
  induction h with
  | refl => rfl
  | tail _ _ _ hr ih => exact (reaches_access hr).trans ih

/-- A reader has set its holder once, when a publication had succeeded. As long as the attempt that has touched its
generation last is one that has succeeded, its answers are those for the batch of that attempt; the attempt can only
be a failed one if it was made after the reader had set its holder. -/
theorem follower_answers {s s1 s2 r : Shared Backend} {before after : List Attempt} {active : Option Generation}
    (hv : ∀ g key, Key.Scoped g key → s.store.value? key ≠ none → Key.Visible s.store key)
    (ha : s.store.access ≠ .closed) (h1 : Publishes s before s1) (hsome : ∃ a ∈ before, a.succeeded = true)
    (hload : refresh.perform ⟨s1.store, none⟩ = (.ok active, r)) (h2 : Publishes s1 after s2) :
    ∃ g a, r.holder = some g ∧ latest? g (before ++ after) = some a ∧ (a.succeeded = true ∨ a ∈ after) ∧
      (a.succeeded = true → Answers a.batch ⟨s2.store, r.holder⟩) := by
  obtain ⟨g, a1, hg, hlatest, hok⟩ := (kept_of_publishes hv h1).pointer hsome
  have hholder : r.holder = some g := by
    obtain ⟨events, hr⟩ := runs_perform hload
    exact (refresh_runs hr).2.trans hg
  have hkept := kept_of_publishes hv (h1.trans h2)
  have hlater : ∃ a, latest? g (before ++ after) = some a ∧ (a = a1 ∨ a ∈ after) := by
    rw [latest?, lastWhere?, List.reverse_append, List.find?_append]
    cases hl : after.reverse.find? fun a => a.target = g && a.touched with
    | none => exact ⟨a1, hlatest, .inl rfl⟩
    | some a => exact ⟨a, rfl, .inr (List.mem_reverse.mp (List.mem_of_find?_eq_some hl))⟩
  obtain ⟨a, hl, hwhich⟩ := hlater
  refine ⟨g, a, hholder, hl, hwhich.imp_left fun h => ?_, fun hsucceeded => ?_⟩
  · rw [h]
    exact hok
  · have haccess : s2.store.access ≠ .closed := by
      rw [access_of_publishes (h1.trans h2)]
      exact ha
    exact answers_holds hholder haccess (hkept.holds g a hl hsucceeded)

/-! ### In memory -/

def offered : List Download := [⟨"d", "D", none, true, ⟨"d"⟩, "page", "", []⟩]

/-- Publishes the same batch again, on a store that refuses some operations. -/
def republish (failing : List Store.Operation) (s : Shared Backend) : Except Error Generation × Shared Backend :=
  let before : Shared (Store.Faulty Backend) := ⟨⟨s.store, failing, none⟩, s.holder⟩
  let (result, after) := (publish 20 offered).run.run before
  (result, ⟨after.store.inner, after.holder⟩)

theorem publishes_republish (failing : List Store.Operation) {s s' : Shared Backend} {attempts : List Attempt}
    (h : Publishes s attempts s') (hn : KeyValueStore.extent s'.store < 20) :
    ∃ events, Publishes s (attempts ++ [.ofRun s'.store.pointer offered events (republish failing s').1])
      (republish failing s').2 := by
  exact ⟨_, h.tail (by decide) hn (runs_faulty (publish 20 offered).run ⟨s'.store, failing, none⟩ s'.holder)⟩

/-- The states after the publication of a batch, after that of another one, and after one that could not be written. -/
def first : Shared Backend := (republish [] ⟨.memory .empty, none⟩).2

def second : Shared Backend := (republish [] first).2

def third : Shared Backend := (republish [.apply] second).2

theorem refresh_first : refresh.perform ⟨first.store, none⟩ = (.ok (some .a), first) := by rfl

theorem publishes_first : ∃ events, Publishes ⟨.memory .empty, none⟩
    [.ofRun (Backend.memory .empty).pointer offered events (.ok .a)] first :=
  publishes_republish [] (.refl ⟨.memory .empty, none⟩) (by decide)

/-- The other generation has been published since. -/
theorem follower_answers_twice : ∃ before after, Publishes ⟨.memory .empty, none⟩ before first ∧
    Publishes first after second ∧ after ≠ [] ∧ Answers offered ⟨second.store, first.holder⟩ := by
  obtain ⟨events1, h1⟩ := publishes_first
  obtain ⟨events2, h2⟩ := publishes_republish [] (.refl first) (by decide)
  obtain ⟨g, a, hg, hlatest, -, hanswers⟩ := @follower_answers ⟨.memory .empty, none⟩ first second first _ _ _
    (fun g key _ hne => absurd rfl hne) (by decide) h1 ⟨_, List.mem_singleton_self _, rfl⟩ refresh_first h2
  have hall : ∀ a ∈ [Attempt.ofRun (Backend.memory .empty).pointer offered events1 (.ok .a)] ++
      ([] ++ [.ofRun first.store.pointer offered events2 (republish [] first).1]),
      a.succeeded = true ∧ a.batch = offered := by
    refine List.forall_mem_cons.mpr ⟨⟨rfl, rfl⟩, List.forall_mem_cons.mpr ⟨⟨rfl, rfl⟩, by simp⟩⟩
  obtain ⟨hsucceeded, hbatch⟩ := hall a (mem_of_latest? hlatest)
  exact ⟨_, _, h1, h2, by simp, hbatch ▸ hanswers hsucceeded⟩

/-- All batches have the download, and the reader does not find it. -/
theorem follower_misled : ∃ before after, Publishes ⟨.memory .empty, none⟩ before first ∧
    (∃ a ∈ before, a.succeeded = true) ∧ refresh.perform ⟨first.store, none⟩ = (.ok (some .a), first) ∧
    Publishes first after third ∧
    (page "d").perform ⟨third.store, first.holder⟩ =
      (.error (.pageNotFound "d"), ⟨third.store, first.holder⟩) ∧
    ∀ a ∈ before ++ after, ¬ Answers a.batch ⟨third.store, first.holder⟩ := by
  obtain ⟨events1, h1⟩ := publishes_first
  obtain ⟨events2, h2⟩ := publishes_republish [] (.refl first) (by decide)
  obtain ⟨events3, h3⟩ := publishes_republish [.apply] h2 (by decide)
  have hpage : (page "d").perform ⟨third.store, first.holder⟩ =
      (.error (.pageNotFound "d"), ⟨third.store, first.holder⟩) := by rfl
  have hbatch : ∀ a ∈ [Attempt.ofRun (Backend.memory .empty).pointer offered events1 (.ok .a)] ++
      ([] ++ [.ofRun first.store.pointer offered events2 (republish [] first).1] ++
        [.ofRun second.store.pointer offered events3 (republish [.apply] second).1]), a.batch = offered :=
    List.forall_mem_cons.mpr ⟨rfl, List.forall_mem_cons.mpr ⟨rfl, List.forall_mem_cons.mpr ⟨rfl, by simp⟩⟩⟩
  refine ⟨_, _, h1, ⟨_, List.mem_singleton_self _, rfl⟩, refresh_first, h3, hpage, fun a ha hanswers => ?_⟩
  have hfound := (hbatch a ha ▸ hanswers).page "d"
  rw [hpage] at hfound
  cases congrArg (·.1) hfound

end Repository
end ShareIndex
