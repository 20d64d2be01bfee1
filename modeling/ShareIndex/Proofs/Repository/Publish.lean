import ShareIndex.Proofs.Repository.Clear
import ShareIndex.Proofs.Repository.Batch

/-!
# ShareIndex.Proofs.Repository.Publish

Publication on a store that may fail at any request.

* `Backend.pointer` — the generation that the stored pointer names.
* `stage`           — a publication up to the move of the pointer; only the holder is left to be set.
* `Ended`           — how far the part after the reading of the pointer has come when it ends.
* `FailsIn`         — what the failure of a request means for a publication.
* `stage_frame`     — what is left alone, wherever a publication stops.
* `publish_frame`   — the same for a whole publication, and `publish_frame_cut` for one that is cut off.
-/

namespace ShareIndex
namespace Store

open Repository (Generation)

/-- The generation that the stored pointer names; a text that names none counts as no pointer. -/
def Backend.pointer (s : Backend) : Option Generation :=
  match s.value? Repository.Key.active with
  | some (.text name) => Generation.ofText? name
  | _ => none

theorem Backend.pointer_congr {s s' : Backend}
    (h : s'.contents Repository.Key.active = s.contents Repository.Key.active) : s'.pointer = s.pointer := by
  rw [pointer, pointer, value?, value?, h]

end Store

namespace Repository

open Store (Backend Faulty Request KeyValueStore fill assignments)
open Share (Download)

/-- Fills a generation anew and lets the pointer name it. -/
def prepare (pages : Nat) (batch : List Download) (g : Generation) : Action Unit := do
  let _ ← clear pages g
  request (.write g) (.apply (commands g batch))
  request (.swap g) (.set Key.active g.text)

def stage (pages : Nat) (batch : List Download) : Action Generation := do
  let standby := Generation.standby (← storedGeneration)
  prepare pages batch standby
  return standby

theorem publish_eq (pages : Nat) (batch : List Download) :
    publish pages batch = stage pages batch >>= fun g => do writeHolder (some g); return g := by
  simp only [publish, stage, prepare, bind_assoc, pure_bind]

section Outcomes

variable {pages : Nat} {batch : List Download} {g : Generation} {s s' : Shared Backend} {events : List Event}

theorem storedGeneration_runs {result : Except Error (Option Generation)}
    (h : Runs storedGeneration.run s events result s') :
    s' = s ∧ match result with
      | .ok active => active = s.store.pointer ∧ ∃ v, events = [⟨.get Key.active, .ok v⟩]
      | .error e => ∃ cause, e = .store cause ∧ events = [⟨.get Key.active, .error cause⟩] := by
  rcases runs_action h with ⟨e, rfl, hg⟩ | ⟨v, s1, events1, later1, rfl, hg, hp⟩
  · obtain ⟨answer, store, hr, rfl, ha, rfl⟩ := runs_request hg
    refine ⟨congrArg (fun store => { s with store }) (hr.read rfl), ?_⟩
    cases answer with
    | ok v => cases ha
    | error cause => cases ha; exact ⟨cause, rfl, rfl⟩
  · obtain ⟨answer, store, hr, rfl, ha, rfl⟩ := runs_request hg
    obtain ⟨rfl, rfl, rfl⟩ := runs_pure hp
    refine ⟨congrArg (fun store => { s with store }) (hr.read rfl), ?_⟩
    cases answer with
    | error cause => cases ha
    | ok w =>
      cases ha
      refine ⟨?_, v, rfl⟩
      rw [Backend.pointer]
      rcases Backend.value?_of_get (congrArg (·.1) hr.of_ok) with ⟨hv, rfl⟩ | hv
      · rw [hv]; rfl
      · rw [hv]
        cases v with
        | none => rfl
        | some name => rfl

/-- How far the part of a publication that writes has come when it ends. -/
inductive Ended (pages : Nat) (batch : List Download) (g : Generation) (s : Shared Backend) :
    List Event → Except Error Unit → Shared Backend → Prop where
  | clearing {events : List Event} {e : Error} {s' : Shared Backend} :
    Runs (clear pages g).run s events (.error e) s' → Ended pages batch g s events (.error e) s'
  | writing {events : List Event} {n : Nat} {s' : Shared Backend} {e : Store.Error} {store : Backend} :
    Runs (clear pages g).run s events (.ok n) s' →
    Reply s'.store (.apply (commands g batch)) (.error e) store →
    Ended pages batch g s (events ++ [⟨.apply (commands g batch), .error e⟩]) (.error (.write g e)) { s' with store }
  | swapping {events : List Event} {n : Nat} {s' : Shared Backend} {e : Store.Error} {store store' : Backend} :
    Runs (clear pages g).run s events (.ok n) s' →
    Reply s'.store (.apply (commands g batch)) (.ok ()) store →
    Reply store (.set Key.active g.text) (.error e) store' →
    Ended pages batch g s
      (events ++ [⟨.apply (commands g batch), .ok ()⟩, ⟨.set Key.active g.text, .error e⟩]) (.error (.swap g e))
      { s' with store := store' }
  | swapped {events : List Event} {n : Nat} {s' : Shared Backend} {store store' : Backend} :
    Runs (clear pages g).run s events (.ok n) s' →
    Reply s'.store (.apply (commands g batch)) (.ok ()) store →
    Reply store (.set Key.active g.text) (.ok ()) store' →
    Ended pages batch g s (events ++ [⟨.apply (commands g batch), .ok ()⟩, ⟨.set Key.active g.text, .ok ()⟩]) (.ok ())
      { s' with store := store' }

theorem prepare_ended {result : Except Error Unit} (h : Runs (prepare pages batch g).run s events result s') :
    Ended pages batch g s events result s' := by
  rcases runs_action h with ⟨e, rfl, hc⟩ | ⟨n, s1, events1, later1, rfl, hc, hw⟩
  · exact .clearing hc
  rcases runs_action hw with ⟨e, rfl, hf⟩ | ⟨u, s2, events2, later2, rfl, ho, hs⟩
  · obtain ⟨answer, store, hr, rfl, ha, rfl⟩ := runs_request hf
    cases answer with
    | ok u => cases ha
    | error cause =>
      cases ha
      exact .writing hc hr
  obtain ⟨answer, store, hr, rfl, ha, rfl⟩ := runs_request ho
  obtain ⟨answer', store', hr', rfl, rfl, rfl⟩ := runs_request hs
  cases answer with
  | error cause => cases ha
  | ok u =>
    cases answer' with
    | error cause => exact (Ended.swapping hc hr hr' :)
    | ok u' => exact (Ended.swapped hc hr hr' :)

theorem scoped_of_writes {key : String} (h : key ∈ (Request.apply (commands g batch)).writes) :
    Key.Scoped g key := by
  rw [Request.writes, commands_eq, List.map_map] at h
  obtain ⟨e, he, rfl⟩ := List.mem_map.mp h
  exact scoped_of_mem_entries he

theorem Ended.frame {result : Except Error Unit} (h : Ended pages batch g s events result s') :
    (∀ key, key ≠ Key.active → ¬ Key.Scoped g key → s'.store.contents key = s.store.contents key) ∧
      match result with
      | .ok _ => s'.store.value? Key.active = some (.text g.text)
      | .error _ => s'.store.contents Key.active = s.store.contents Key.active := by
  have happly : ∀ {s s' : Backend} {answer}, Reply s (.apply (commands g batch)) answer s' → ∀ key,
      ¬ Key.Scoped g key → s'.contents key = s.contents key :=
    fun hr key hk => hr.contents fun hm => hk (scoped_of_writes hm)
  have hset : ∀ {s s' : Backend} {answer}, Reply s (.set Key.active g.text) answer s' → ∀ key,
      key ≠ Key.active → s'.contents key = s.contents key :=
    fun hr key hk => hr.contents fun hm => hk (List.mem_singleton.mp hm)
  cases h with
  | clearing hc =>
    have hc := clear_cleared hc
    exact ⟨fun key _ hk => hc.kept key hk, hc.kept _ (Key.not_scoped_active g)⟩
  | writing hc hw =>
    have hc := clear_cleared hc
    have hk : ∀ key, ¬ Key.Scoped g key → _ := fun key hk => (happly hw key hk).trans (hc.kept key hk)
    exact ⟨fun key _ => hk key, hk _ (Key.not_scoped_active g)⟩
  | swapping hc hw hs =>
    have hc := clear_cleared hc
    have hk : ∀ key, ¬ Key.Scoped g key → _ := fun key hk => (happly hw key hk).trans (hc.kept key hk)
    obtain rfl := hs.unchanged nofun
    exact ⟨fun key _ => hk key, hk _ (Key.not_scoped_active g)⟩
  | swapped hc hw hs =>
    have hc := clear_cleared hc
    refine ⟨fun key ha hk => ?_, hs.set_ok⟩
    exact (hset hs key ha).trans ((happly hw key hk).trans (hc.kept key hk))

/-! ### Failures -/

/-- What the failure of a request means for a publication of a batch to a generation. -/
inductive FailsIn (g : Generation) (batch : List Download) : Request → Store.Error → Error → Prop where
  | reading (cause : Store.Error) : FailsIn g batch (.get Key.active) cause (.store cause)
  | scanning (cursor : Option String) (pattern : Store.Pattern) (count : Nat) (cause : Store.Error) :
    FailsIn g batch (.scan cursor pattern count) cause (.clear g cause)
  | deleting (keys : List String) (cause : Store.Error) : FailsIn g batch (.delete keys) cause (.clear g cause)
  | writing (cause : Store.Error) : FailsIn g batch (.apply (commands g batch)) cause (.write g cause)
  | swapping (cause : Store.Error) : FailsIn g batch (.set Key.active g.text) cause (.swap g cause)

theorem prepare_strict : Strict (FailsIn g batch) (prepare pages batch g).run :=
  strict_bind (clearGroups_strict (fun cursor pattern e => .scanning cursor pattern _ e) .deleting) fun _ =>
    strict_bind (strict_request .writing) fun _ => strict_request .swapping

/-- A publication reads the pointer, and then it writes to the generation that the pointer does not name. -/
theorem stage_cases {result : Except Error Generation} (h : Runs (stage pages batch).run s events result s') :
    (∃ cause, result = .error (.store cause) ∧ events = [⟨.get Key.active, .error cause⟩] ∧ s' = s) ∨
      ∃ v later ended, events = ⟨.get Key.active, .ok v⟩ :: later ∧
        Runs (prepare pages batch (Generation.standby s.store.pointer)).run s later ended s' ∧
        result = ended.map fun _ => Generation.standby s.store.pointer := by
  rcases runs_action h with ⟨e, rfl, hp⟩ | ⟨active, s1, events1, later1, rfl, hp, hw⟩
  · obtain ⟨rfl, cause, rfl, rfl⟩ := storedGeneration_runs hp
    exact .inl ⟨cause, rfl, rfl, rfl⟩
  obtain ⟨rfl, rfl, v, rfl⟩ := storedGeneration_runs hp
  rcases runs_action hw with ⟨e, rfl, hf⟩ | ⟨u, s2, events2, later2, rfl, ho, hd⟩
  · exact .inr ⟨v, _, .error e, rfl, hf, rfl⟩
  · obtain ⟨rfl, rfl, rfl⟩ := runs_pure hd
    exact .inr ⟨v, _, .ok u, rfl, by simpa using ho, rfl⟩

/-- Wherever a publication stops before the holder is set: what it leaves alone, and why it has failed. -/
theorem stage_frame {result : Except Error Generation} (h : Runs (stage pages batch).run s events result s') :
    s'.holder = s.holder ∧
      (∀ key, key ≠ Key.active → ¬ Key.Scoped (Generation.standby s.store.pointer) key →
        s'.store.contents key = s.store.contents key) ∧
      match result with
      | .ok g => g = Generation.standby s.store.pointer ∧ s'.store.value? Key.active = some (.text g.text) ∧
          ∀ e ∈ events, e.Succeeded
      | .error e => s'.store.contents Key.active = s.store.contents Key.active ∧
          ∃ served r cause, events = served ++ [⟨r, .error cause⟩] ∧ (∀ e ∈ served, e.Succeeded) ∧
            FailsIn (Generation.standby s.store.pointer) batch r cause e := by
  rcases stage_cases h with ⟨cause, rfl, rfl, rfl⟩ | ⟨v, later, ended, rfl, hw, rfl⟩
  · exact ⟨rfl, fun _ _ _ => rfl, rfl, [], _, cause, rfl, by simp, .reading cause⟩
  have hread : Event.Succeeded ⟨.get Key.active, .ok v⟩ := ⟨v, rfl⟩
  have hh := prepare_strict.holder hw
  obtain ⟨hk, ha⟩ := (prepare_ended hw).frame
  have hs := prepare_strict.runs hw
  cases ended with
  | error e =>
    obtain ⟨served, r, cause, rfl, hs, hc⟩ := hs
    exact ⟨hh, hk, ha, _ :: served, r, cause, rfl, List.forall_mem_cons.mpr ⟨hread, hs⟩, hc⟩
  | ok u => exact ⟨hh, hk, rfl, ha, List.forall_mem_cons.mpr ⟨hread, hs⟩⟩

/-! ### What is written -/

/-- In an empty generation some fields of the batch are set, and all of them if the request is served. -/
theorem Reply.filled {s s' : Backend} {answer : Except Store.Error Unit}
    (h : Reply s (.apply (commands g batch)) answer s') (hnone : ∀ key, Key.Scoped g key → s.value? key = none) :
    ∃ l, (∀ e ∈ l, e ∈ entries g batch) ∧ (answer = .ok () → l = entries g batch) ∧
      ∀ key, Key.Scoped g key → s'.value? key = fill none (assignments key l) := by
  have hfillable : ∀ l : List Store.FieldEntry, (∀ e ∈ l, e ∈ entries g batch) →
      ∀ e ∈ l, Store.Fillable (s.value? e.key) := by
    intro l hl e he
    rw [hnone _ (scoped_of_mem_entries (hl e he))]
    trivial
  have hsame : ∀ key, Key.Scoped g key → s.value? key = fill none (assignments key []) := hnone
  cases h with
  | refused => exact ⟨[], by simp, fun h => (by cases h), hsame⟩
  | served =>
    have hperform := Backend.perform_entries (hfillable _ fun e he => he)
    rw [← commands_eq] at hperform
    rcases hperform with ⟨e, he, -⟩ | ⟨s1, he, hv⟩
    · refine ⟨[], by simp, fun h => ?_, fun key hk => ?_⟩
      · exact absurd ((congrArg (·.1) he).symm.trans h) (by simp)
      · exact (congrArg (·.2.value? key) he).trans (hsame key hk)
    · refine ⟨entries g batch, fun e he => he, fun _ => rfl, fun key hk => ?_⟩
      refine (congrArg (·.2.value? key) he).trans ?_
      show s1.value? key = _
      rw [hv, hnone key hk]
  | cut _ n e =>
    have hl : ∀ e ∈ (entries g batch).take n, e ∈ entries g batch := fun e he => List.mem_of_mem_take he
    have hperform := Backend.perform_entries (hfillable _ hl)
    rw [List.map_take, ← commands_eq] at hperform
    rcases hperform with ⟨e', he, -⟩ | ⟨s1, he, hv⟩
    · exact ⟨[], by simp, fun h => (by cases h), fun key hk => (congrArg (·.2.value? key) he).trans (hsame key hk)⟩
    · refine ⟨_, hl, fun h => (by cases h), fun key hk => ?_⟩
      refine (congrArg (·.2.value? key) he).trans ?_
      show s1.value? key = _
      rw [hv, hnone key hk]

theorem Ended.holds {u : Unit} (hn : KeyValueStore.extent s.store < pages)
    (hv : ∀ key, Key.Scoped g key → s.store.value? key ≠ none → Key.Visible s.store key)
    (h : Ended pages batch g s events (.ok u) s') : Holds s'.store g batch := by
  cases h with
  | swapped hc hw hs =>
    obtain ⟨l, -, hl, hfill⟩ := hw.filled fun key hk => clear_all hn hc hk (hv key hk)
    obtain rfl := hl rfl
    refine holds_filled fun key hk => ?_
    have hkey : key ≠ Key.active := fun h => Key.not_scoped_active g (h ▸ hk)
    exact (hs.value? fun hm => hkey (List.mem_singleton.mp hm)).trans (hfill key hk)

/-! ### Without faults -/

theorem storedGeneration_succeeds (ha : s.store.access ≠ .closed)
    (hp : ∀ fields, s.store.value? Key.active ≠ some (.hash fields)) : storedGeneration.Succeeds s := by
  obtain ⟨v, hv⟩ := Backend.perform_get ha hp
  exact succeeds_bind (succeeds_request hv) fun pointer s1 _ => succeeds_pure _ s1

theorem prepare_succeeds (ha : s.store.access = .writing) (hn : KeyValueStore.extent s.store < pages)
    (hv : ∀ key, Key.Scoped g key → s.store.value? key ≠ none → Key.Visible s.store key) :
    (prepare pages batch g).Succeeds s := by
  refine succeeds_bind (clearGroups_succeeds ha) fun n s1 h1 => ?_
  have ha1 := (access_perform h1).trans ha
  obtain ⟨events, h1⟩ := runs_perform h1
  have hfillable : ∀ e ∈ entries g batch, Store.Fillable (s1.store.value? e.key) := by
    intro e he
    have hk := scoped_of_mem_entries he
    rw [clear_all hn h1 hk (hv _ hk)]
    trivial
  have hperform := Backend.perform_entries hfillable
  rw [← commands_eq] at hperform
  rcases hperform with ⟨e, -, hne⟩ | ⟨store, he, -⟩
  · exact absurd ha1 hne
  refine succeeds_bind (succeeds_request (congrArg (·.1) he)) fun u s2 h2 => ?_
  rcases s2.store.perform_set Key.active g.text with ⟨e, -, hne⟩ | ⟨store', he', -⟩
  · exact absurd ((access_perform h2).trans ha1) hne
  · exact succeeds_request (congrArg (·.1) he')

/-! ### The holder -/

/-- The holder is set only after everything else has succeeded. -/
theorem publish_runs {result : Except Error Generation} (h : Runs (publish pages batch).run s events result s') :
    (∃ e, result = .error e ∧ Runs (stage pages batch).run s events (.error e) s') ∨
      ∃ g s1, result = .ok g ∧ Runs (stage pages batch).run s events (.ok g) s1 ∧
        s' = { s1 with holder := some g } := by
  rw [publish_eq] at h
  rcases runs_action h with h | ⟨g, s1, events1, later, rfl, h1, h⟩
  · exact .inl h
  rcases runs_action h with ⟨e, -, hw⟩ | ⟨u, s2, events2, later2, rfl, hw, hd⟩
  · cases (runs_writeHolder hw).2.1
  · obtain ⟨rfl, -, rfl⟩ := runs_writeHolder hw
    obtain ⟨rfl, rfl, rfl⟩ := runs_pure hd
    exact .inr ⟨g, s1, rfl, by simpa using h1, rfl⟩

/-- What a publication leaves alone, whether it has succeeded or not. -/
theorem publish_leaves {result : Except Error Generation} (h : Runs (publish pages batch).run s events result s') :
    (∀ key, key ≠ Key.active → ¬ Key.Scoped (Generation.standby s.store.pointer) key →
      s'.store.contents key = s.store.contents key) ∧
    match result with
    | .ok g => g = Generation.standby s.store.pointer ∧ s'.holder = some g ∧ s'.store.pointer = some g
    | .error _ => s'.holder = s.holder ∧ s'.store.contents Key.active = s.store.contents Key.active := by
  rcases publish_runs h with ⟨e, rfl, hs⟩ | ⟨g, s1, rfl, hs, rfl⟩
  · obtain ⟨hh, hk, ha, -⟩ := stage_frame hs
    exact ⟨hk, hh, ha⟩
  · obtain ⟨-, hk, hg, ha, -⟩ := stage_frame hs
    refine ⟨hk, hg, rfl, ?_⟩
    rw [Backend.pointer, show s1.store.value? Key.active = some (.text g.text) from ha]
    exact Generation.ofText?_text g

/-- The keys of the other generation are among those that are left alone. -/
theorem publish_leaves_other {result : Except Error Generation}
    (h : Runs (publish pages batch).run s events result s') {g : Generation}
    (hg : g ≠ Generation.standby s.store.pointer) {key : String} (hk : Key.Scoped g key) :
    s'.store.contents key = s.store.contents key :=
  (publish_leaves h).1 key (fun ha => Key.not_scoped_active g (ha ▸ hk)) fun hs => hg (Key.scoped_unique hk hs)

theorem publish_leaves_counters {result : Except Error Generation}
    (h : Runs (publish pages batch).run s events result s') :
    s'.store.contents Key.counters = s.store.contents Key.counters :=
  (publish_leaves h).1 _ Key.active_ne_counters.symm (Key.not_scoped_counters _)

theorem publish_all_succeeded (h : Runs (publish pages batch).run s events (.ok g) s') : ∀ e ∈ events, e.Succeeded := by
  rcases publish_runs h with ⟨e, he, -⟩ | ⟨g', s1, -, hs, -⟩
  · cases he
  · exact (stage_frame hs).2.2.2.2

/-- A publication touches nothing but the pointer, the holder and the standby generation, and the pointer and the
holder only if it succeeds. It fails as the last of its requests does, the only one that has failed. -/
theorem publish_frame {result : Except Error Generation} (h : Runs (publish pages batch).run s events result s') :
    (∀ key, key ≠ Key.active → ¬ Key.Scoped (Generation.standby s.store.pointer) key →
      s'.store.contents key = s.store.contents key) ∧
    s'.store.contents Key.counters = s.store.contents Key.counters ∧
    (∀ key, Key.Scoped (Generation.standby s.store.pointer).other key →
      s'.store.contents key = s.store.contents key) ∧
    match result with
    | .ok g => g = Generation.standby s.store.pointer ∧ s'.holder = some g ∧
        s'.store.value? Key.active = some (.text g.text) ∧ ∀ e ∈ events, e.Succeeded
    | .error e => s'.holder = s.holder ∧ s'.store.contents Key.active = s.store.contents Key.active ∧
        ∃ served r cause, events = served ++ [⟨r, .error cause⟩] ∧ (∀ e ∈ served, e.Succeeded) ∧
          FailsIn (Generation.standby s.store.pointer) batch r cause e := by
  refine ⟨(publish_leaves h).1, publish_leaves_counters h,
    fun key hk => publish_leaves_other h (Generation.other_ne _) hk, ?_⟩
  rcases publish_runs h with ⟨e, rfl, hs⟩ | ⟨g, s1, rfl, hs, rfl⟩
  · obtain ⟨hh, -, ha, hf⟩ := stage_frame hs
    exact ⟨hh, ha, hf⟩
  · obtain ⟨-, -, hg, ha, hev⟩ := stage_frame hs
    exact ⟨hg, rfl, ha, hev⟩

end Outcomes

/-! ### In memory -/

/-- Generation A is active, one of its two files has been fetched, and B has what an earlier publication has left. -/
def stocked : Shared Backend where
  store := .memory ⟨.ofList [("av", .text "A"), ("dm:A", .hash (.ofList [("d", "share/d")])),
    ("pc:A", .hash (.ofList [("d", "page of d")])),
    ("fm:A", .hash (.ofList [("f", "/share/d/f"), ("g", "/share/d/g")])),
    ("dfm:A:d", .hash (.ofList [("f", "/share/d/f"), ("g", "/share/d/g")])), ("fs", .hash (.ofList [("g", "3")])),
    ("dm:B", .hash (.ofList [("x", "share/x")])), ("dfm:B:x", .hash (.ofList [("y", "/share/x/y")]))]⟩
  holder := some .a

/-- A batch in which the first download has another file than before, and the second download is new. -/
def restocking : List Download :=
  [⟨"d", "D", none, true, ⟨"share/d"⟩, "new page of d", "", [⟨"g", "g", none, ⟨"share/d/g"⟩, "/share/d/g", 1, ""⟩]⟩,
   ⟨"e", "E", none, true, ⟨"share/e"⟩, "page of e", "", []⟩]

/-- Publishes a batch on a store that serves no more than so many commands of it, if there is a limit. -/
def publishCut (limit : Option Nat) (batch : List Download) (s : Shared Backend) :
    Except Error Generation × Shared Backend :=
  let (result, after) := (publish 20 batch).run.run ⟨(⟨s.store, [], limit⟩ : Faulty Backend), s.holder⟩
  (result, ⟨after.store.inner, after.holder⟩)

theorem runs_publishCut (limit : Option Nat) (batch : List Download) (s : Shared Backend) :
    ∃ events, Runs (publish 20 batch).run s events (publishCut limit batch s).1 (publishCut limit batch s).2 :=
  ⟨_, runs_faulty (publish 20 batch).run ⟨s.store, [], limit⟩ s.holder⟩

theorem publishCut_three : (publishCut (some 3) restocking stocked).1 = .error (.write .b (.injectedAfter 3)) := by rfl

theorem publishCut_all : (publishCut none restocking stocked).1 = .ok .b := by rfl

/-- The standby generation has been cleared, and three commands of the batch have been served when the publication
fails. If all are served, it succeeds. Both times the active generation and the counters are left alone. -/
theorem publish_frame_cut :
    (∃ events s', Runs (publish 20 restocking).run stocked events (.error (.write .b (.injectedAfter 3))) s' ∧
      s'.store.value? "dfm:B:x" = none ∧ s'.store.value? "dm:B" = some (.hash (.ofList [("d", "share/d")])) ∧
      (∀ key, key ≠ Key.active → ¬ Key.Scoped .b key → s'.store.contents key = stocked.store.contents key) ∧
      s'.store.contents Key.counters = stocked.store.contents Key.counters ∧
      (∀ key, Key.Scoped .a key → s'.store.contents key = stocked.store.contents key) ∧
      s'.holder = some .a ∧ s'.store.contents Key.active = stocked.store.contents Key.active ∧
      ∃ served r cause, events = served ++ [⟨r, .error cause⟩] ∧ (∀ e ∈ served, e.Succeeded) ∧
        FailsIn .b restocking r cause (.write .b (.injectedAfter 3))) ∧
    ∃ events s', Runs (publish 20 restocking).run stocked events (.ok .b) s' ∧
      s'.store.value? "dm:B" = some (.hash (.ofList [("d", "share/d"), ("e", "share/e")])) ∧
      (∀ key, key ≠ Key.active → ¬ Key.Scoped .b key → s'.store.contents key = stocked.store.contents key) ∧
      s'.store.contents Key.counters = stocked.store.contents Key.counters ∧
      (∀ key, Key.Scoped .a key → s'.store.contents key = stocked.store.contents key) ∧
      s'.holder = some .b ∧ s'.store.value? Key.active = some (.text "B") ∧ ∀ e ∈ events, e.Succeeded := by
  constructor
  · obtain ⟨events, h⟩ := runs_publishCut (some 3) restocking stocked
    rw [publishCut_three] at h
    exact ⟨events, _, h, rfl, rfl, publish_frame h⟩
  · obtain ⟨events, h⟩ := runs_publishCut none restocking stocked
    rw [publishCut_all] at h
    obtain ⟨hkept, hcounters, hother, -, hholder, hactive, hevents⟩ := publish_frame h
    exact ⟨events, _, h, rfl, hkept, hcounters, hother, hholder, hactive, hevents⟩

end Repository
end ShareIndex
