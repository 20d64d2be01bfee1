import ShareIndex.Proofs.Repository.History
import ShareIndex.Proofs.Repository.Pruning
import ShareIndex.Proofs.Store.Tally

/-!
# ShareIndex.Proofs.Repository.Residue

What a prune leaves, to the last counter.

* `pruneAfter_stored` — what has been counted and what is left make up the counters there were.
* `prune_exact`       — a prune without faults leaves the counters of the batch and counts all others; a prune with a
  request that fails has removed none but others.
-/

namespace ShareIndex
namespace Repository

open Store (Backend Hash Keyspace stored hashOf fillable_stored hashOf_stored)
open Share (Download)

/-- The entries of a map that a condition selects, and all others. -/
theorem size_filter_add_size_filter {K V : Type} [LT K] (m : OrderedMap K V) (p : K → V → Bool) :
    (m.filter fun k v => !p k v).size + (m.filter p).size = m.size := by
  have hsplit := List.length_eq_length_filter_add (l := m.entries) fun e => p e.1 e.2
  simp only [OrderedMap.size, OrderedMap.filter]
  omega

section Counts

variable {keep : List String} {pages : Nat} {cursor : Option String} {s s' : Shared Backend} {events : List Event}
  {hash : Hash} {n : Nat}

theorem deleteCounters_stored {files : List String} (hc : s.store.value? Key.counters = stored hash)
    (h : Runs (deleteCounters files).run s events (.ok n) s') :
    ∃ left, s'.store.value? Key.counters = stored left ∧ n + left.size = hash.size := by
  unfold deleteCounters at h
  split at h
  · obtain ⟨-, hn, rfl⟩ := runs_pure h
    cases hn
    exact ⟨hash, hc, Nat.zero_add _⟩
  · obtain ⟨store, hr, rfl⟩ := runs_request_ok h
    obtain ⟨-, hleft⟩ := Backend.deleteFields_ok hr.of_ok
    have hcount := Backend.tally_deleteFields hr.of_ok
    rw [hc, hashOf_stored] at hleft hcount
    rw [hleft, hashOf_stored] at hcount
    exact ⟨_, hleft, hcount⟩

/-- What has been counted and what is left make up the counters there were, page after page. -/
theorem pruneAfter_stored (hc : s.store.value? Key.counters = stored hash)
    (h : Runs (pruneAfter keep pages cursor).run s events (.ok n) s') :
    ∃ left, s'.store.value? Key.counters = stored left ∧ n + left.size = hash.size := by
  induction pages generalizing s s' events n cursor hash with
  | zero =>
    obtain ⟨-, hn, rfl⟩ := runs_pure h
    cases hn
    exact ⟨hash, hc, Nat.zero_add _⟩
  | succ pages ih =>
    rw [pruneAfter_succ] at h
    obtain ⟨page, s1, events1, later1, -, h1, h⟩ := runs_action_ok h
    obtain ⟨store, hr, rfl⟩ := runs_request_ok h1
    obtain rfl : store = s.store := hr.read rfl
    obtain ⟨deleted, s2, events2, later2, -, h2, h⟩ := runs_action_ok h
    obtain ⟨left, hleft, hcount⟩ := deleteCounters_stored hc h2
    cases hp : page.next with
    | none =>
      rw [hp] at h
      obtain ⟨-, hn, rfl⟩ := runs_pure h
      cases hn
      exact ⟨left, hleft, hcount⟩
    | some next =>
      rw [hp] at h
      obtain ⟨more, s3, events3, later3, -, h3, h⟩ := runs_action_ok h
      obtain ⟨-, hn, rfl⟩ := runs_pure h
      cases hn
      obtain ⟨rest, hrest, hmore⟩ := ih hleft h3
      exact ⟨rest, hrest, by omega⟩

end Counts

variable {pages : Nat} {batch : List Download} {s : Shared Backend} {hash : Hash}

/-- On a store that can be written to, the counters of the batch are left and all others are counted, however many
there are; without any counters the hash is gone, or has never been there. When a request of a prune fails, the prune
fails, what is gone is not in the batch, and what is left is as it was. -/
theorem prune_exact (hc : s.store.value? Key.counters = stored hash) :
    (s.store.access = .writing → hash.size < pages →
      ∃ s', (prune pages batch).perform s = (.ok (hash.filter fun file _ => !(fileIds batch).contains file).size, s') ∧
        s'.store.value? Key.counters = stored (hash.filter fun file _ => (fileIds batch).contains file) ∧
        s'.holder = s.holder ∧ ∀ key, key ≠ Key.counters → s'.store.contents key = s.store.contents key) ∧
    ∀ events result s', Runs (prune pages batch).run s events result s' → (∃ e ∈ events, ¬ e.Succeeded) →
      (∃ cause, result = .error (.store cause)) ∧
      (∀ file, counterText s'.store file = hash.get? file ∨
        (file ∉ fileIds batch ∧ counterText s'.store file = none)) ∧
      s'.holder = s.holder ∧ ∀ key, key ≠ Key.counters → s'.store.contents key = s.store.contents key := by
  have htext : ∀ file, counterText s.store file = hash.get? file := fun file => by
    rw [counterText, hc, hashOf_stored]
  constructor
  · intro ha hn
    have hf : Store.Fillable (s.store.value? Key.counters) := hc ▸ fillable_stored hash
    obtain ⟨n, s', hperform⟩ := @pruneAfter_succeeds (fileIds batch) pages none s ha hf
    obtain ⟨events, hr⟩ := runs_perform hperform
    obtain ⟨left, hleft, hcount⟩ := pruneAfter_stored hc hr
    have hkept := (prune_runs hr).1
    have hpages : (hashOf (s.store.value? Key.counters)).size < pages := by
      rw [hc, hashOf_stored]
      exact hn
    have hgone := prune_all hpages hr
    obtain ⟨hholder, hothers⟩ := reaches_countersOnly (prune_every pages batch) hr
    have hfilter : left = hash.filter fun file _ => (fileIds batch).contains file := by
      apply OrderedMap.ext_get?
      intro file
      have hfile : counterText s'.store file = left.get? file := by rw [counterText, hleft, hashOf_stored]
      rw [OrderedMap.get?_filter, ← hfile, ← htext]
      by_cases hm : file ∈ fileIds batch
      · rw [hkept file hm]
        cases counterText s.store file <;> simp [Option.filter, hm]
      · rw [hgone file hm]
        cases counterText s.store file <;> simp [Option.filter, hm]
    have hsize := size_filter_add_size_filter hash fun file _ => (fileIds batch).contains file
    rw [hfilter] at hleft hcount
    obtain rfl : n = (hash.filter fun file _ => !(fileIds batch).contains file).size := by omega
    exact ⟨s', hperform, hleft, hholder, hothers⟩
  · intro events result s' hr hfailed
    obtain ⟨hholder, hothers⟩ := reaches_countersOnly (prune_every pages batch) hr
    refine ⟨?_, fun file => ?_, hholder, hothers⟩
    · have hstrict := (@pruneAfter_strict (fileIds batch) pages none).runs hr
      cases result with
      | ok n =>
        obtain ⟨e, he, hno⟩ := hfailed
        exact absurd (hstrict e he) hno
      | error e =>
        obtain ⟨served, r, failure, -, -, hcause⟩ := hstrict
        cases hcause with
        | scanning cursor cause => exact ⟨_, rfl⟩
        | deleting files cause => exact ⟨_, rfl⟩
    · rw [← htext]
      exact ((pruneAfter_sweeps (fileIds batch) pages none).reaches hr).1 file

/-- Of two counters one is in the batch, and the other one is removed, unless its deletion is refused. -/
theorem prune_exact_offering :
    (∃ s', (prune 9 Pruning.offering).perform Pruning.busy = (.ok 1, s') ∧
      s'.store.value? Key.counters = some (.hash (.ofList [("a", "3")]))) ∧
    ∃ events result s', Runs (prune 9 Pruning.offering).run Pruning.busy events result s' ∧ events.length = 2 ∧
      (∃ cause, result = .error (.store cause)) ∧ counterText s'.store "a" = some "3" := by
  have hc : Pruning.busy.store.value? Key.counters = stored (.ofList [("a", "3"), ("b", "5")]) := rfl
  obtain ⟨halone, hfaulty⟩ := @prune_exact 9 Pruning.offering Pruning.busy _ hc
  constructor
  · obtain ⟨s', hs, hleft, -⟩ := halone rfl (by decide)
    exact ⟨s', hs, hleft⟩
  · obtain ⟨events, result, s', hr, hlength, hfailed⟩ : ∃ events result s',
        Runs (prune 9 Pruning.offering).run Pruning.busy events result s' ∧ events.length = 2 ∧
          ∃ e ∈ events, ¬ e.Succeeded := by
      refine ⟨_, _, _, .step (.request (.served _)) (.step (.request (.refused _ .database)) (.refl _ _)), rfl, ?_⟩
      exact ⟨_, List.mem_cons_of_mem _ List.mem_cons_self, fun ⟨a, ha⟩ => nomatch ha⟩
    obtain ⟨hresult, htext, -⟩ := hfaulty events result s' hr hfailed
    refine ⟨events, result, s', hr, hlength, hresult, ?_⟩
    exact (htext "a").resolve_right fun hgone => hgone.1 (by decide)

end Repository
end ShareIndex
