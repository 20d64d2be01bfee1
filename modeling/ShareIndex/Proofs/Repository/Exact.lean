import ShareIndex.Proofs.Repository.Publish
import ShareIndex.Proofs.Repository.Readers

/-!
# ShareIndex.Proofs.Repository.Exact

A publication on a store without faults is exact, whatever the standby generation held before.

* `publish_succeeds` — the publication succeeds.
* `publish_exact`    — the standby generation is then what the batch describes, and the readers answer from it.
-/

namespace ShareIndex
namespace Repository

open Store (Backend KeyValueStore Keyspace Value)
open Share (Download SharedFile)

variable {pages : Nat} {batch : List Download} {s : Shared Backend}

theorem publish_succeeds (ha : s.store.access = .writing)
    (hp : ∀ fields, s.store.value? Key.active ≠ some (.hash fields))
    (hv : ∀ key, Key.Scoped (Generation.standby s.store.pointer) key → s.store.value? key ≠ none →
      Key.Visible s.store key)
    (hn : KeyValueStore.extent s.store < pages) : (publish pages batch).Succeeds s := by
  rw [publish_eq]
  refine succeeds_bind ?_ fun g s1 _ => ⟨g, _, rfl⟩
  refine succeeds_bind (storedGeneration_succeeds (by rw [ha]; decide) hp) fun active s1 h1 => ?_
  obtain ⟨events, h1⟩ := runs_perform h1
  obtain ⟨rfl, rfl, -⟩ := storedGeneration_runs h1
  exact succeeds_bind (prepare_succeeds ha hn hv) fun u s2 _ => succeeds_pure _ s2

theorem stage_holds {g : Generation} {s' : Shared Backend} {events : List Event}
    (hv : ∀ key, Key.Scoped (Generation.standby s.store.pointer) key → s.store.value? key ≠ none →
      Key.Visible s.store key)
    (hn : KeyValueStore.extent s.store < pages) (h : Runs (stage pages batch).run s events (.ok g) s') :
    Holds s'.store g batch := by
  rcases stage_cases h with ⟨cause, hc, -⟩ | ⟨v, later, ended, -, hw, hg⟩
  · cases hc
  cases ended with
  | error e => cases hg
  | ok u =>
    cases hg
    exact (prepare_ended hw).holds hn hv

/-- Only a store that is open can be published to. -/
theorem publish_opened {g : Generation} {s' : Shared Backend} {events : List Event}
    (h : Runs (publish pages batch).run s events (.ok g) s') : s'.store.access ≠ .closed := by
  have hopen : ∀ {s s' : Backend} {v}, Reply s (.get Key.active) (.ok v) s' → s.access ≠ .closed := by
    intro s s' v hr hc
    cases s with
    | memory s => cases hc
    | database d =>
      have hp : (d.query (Store.Database.getText Key.active)).1 = .ok v := congrArg (·.1) hr.of_ok
      rw [Store.Database.query_closed hc] at hp
      cases hp
  rw [reaches_access h]
  obtain ⟨active, s1, events1, later1, -, h1, -⟩ := runs_action_ok h
  obtain ⟨v, s2, events2, later2, -, h2, -⟩ := runs_action_ok h1
  obtain ⟨store, hr, -⟩ := runs_request_ok h2
  exact hopen hr

/-- On a store that can be written to, with a pointer that is missing or a text, and without keys of the standby
generation that no scan can find. -/
theorem publish_exact (ha : s.store.access = .writing)
    (hp : ∀ fields, s.store.value? Key.active ≠ some (.hash fields))
    (hv : ∀ key, Key.Scoped (Generation.standby s.store.pointer) key → s.store.value? key ≠ none →
      Key.Visible s.store key)
    (hn : KeyValueStore.extent s.store < pages) :
    ∃ g s', (publish pages batch).perform s = (.ok g, s') ∧
      g = (match s.store.pointer with
        | none => .a
        | some active => active.other) ∧
      s'.holder = some g ∧ s'.store.value? Key.active = some (.text g.text) ∧ Holds s'.store g batch ∧
      (∀ id, (page id).perform s' =
        (match lastWhere? (fun d => d.id = id) batch with
          | none => .error (.pageNotFound id)
          | some d => .ok d.pageContent, s')) ∧
      (∀ id, (fileUrl id).perform s' =
        (match lastWhere? (fun f => f.id = id) (batch.flatMap (·.files)) with
          | none => .error (.fileNotFound id)
          | some f => .ok f.url, s')) ∧
      ∃ result, info.perform s' = (result, s') ∧ match result with
        | .error e => e = .noDownloads ∧ batch = []
        | .ok l => batch ≠ [] ∧ Lists batch l := by
  obtain ⟨g, s', hs⟩ := @publish_succeeds pages batch s ha hp hv hn
  have haccess : s'.store.access ≠ .closed := by
    rw [access_perform hs, ha]
    decide
  obtain ⟨events, hr⟩ := runs_perform hs
  rcases publish_runs hr with ⟨e, he, -⟩ | ⟨g', s1, hg, hstage, rfl⟩
  · cases he
  cases hg
  obtain ⟨-, -, hg, hactive, -⟩ := stage_frame hstage
  have hb := stage_holds hv hn hstage
  refine ⟨g, _, hs, ?_, rfl, hactive, hb, fun id => page_holds rfl haccess hb id,
    fun id => fileUrl_holds rfl haccess hb id, info_holds rfl haccess hb⟩
  rw [hg]
  cases s.store.pointer <;> rfl

/-- What is left of an earlier batch, with a text where a hash belongs. -/
def leftovers : Keyspace := ⟨.ofList [("dfm:A:x", .hash (.ofList [("f", "/x/f")])), ("pc:A", .text "old")]⟩

/-- A batch with two downloads of one id. -/
def revised : List Download :=
  [⟨"d", "First", none, true, ⟨"d"⟩, "first", "", []⟩, ⟨"d", "Second", none, true, ⟨"d"⟩, "second", "", []⟩]

theorem keys_leftovers : (Backend.memory leftovers).keys = ["dfm:A:x", "pc:A"] := by decide

theorem publish_exact_leftovers : ∃ s', (publish 9 revised).perform ⟨.memory leftovers, none⟩ = (.ok .a, s') ∧
    Holds s'.store .a revised ∧ (page "d").perform s' = (.ok "second", s') := by
  obtain ⟨g, s', h, hg, -, -, hb, hpage, -⟩ :=
    @publish_exact 9 revised ⟨.memory leftovers, none⟩ rfl
      (fun fields h => nomatch (show (none : Option Value) = some (.hash fields) from h))
      (fun key _ hne => by
        have hmem := Backend.mem_keys.mpr hne
        rw [keys_leftovers, List.mem_cons, List.mem_singleton] at hmem
        rcases hmem with rfl | rfl <;> decide)
      (by decide)
  obtain rfl : g = .a := hg
  exact ⟨s', h, hb, hpage "d"⟩

end Repository
end ShareIndex
