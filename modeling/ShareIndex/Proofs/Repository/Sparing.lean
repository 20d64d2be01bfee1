import ShareIndex.Proofs.Repository.History
import ShareIndex.Proofs.Repository.Prune

/-!
# ShareIndex.Proofs.Repository.Sparing

Calls that leave the counter of a file alone, whatever happens to the store between two of their steps.

* `Spared`         — what a request and its reply do to the counter, namely nothing.
* `Spares`         — calls all of whose requests, after replies that a store can give, are of that kind.
* `Spares.step`    — what one step of such a call leaves alone, and that the rest is such a call.
* `publish_spares`, `prune_spares`, `info_spares` — publications spare every counter, and prunes those of their batch.
-/

namespace ShareIndex
namespace Repository

open Store (Backend Request Fillable)
open Share (Download)

structure Spared (file : String) (e : Event) (s s' : Backend) : Prop where
  removes : e.removes file = false
  text : counterText s' file = counterText s file
  fillable : Fillable (s.value? Key.counters) → Fillable (s'.value? Key.counters)

/-- Each reply may come from another store. -/
def Spares {α : Type} (file : String) : Program α → Prop
  | .done _ => True
  | .perform (.store r) next => ∀ (s : Backend) (answer : Except Store.Error r.Answer) (s' : Backend),
      Reply s r answer s' → Spared file ⟨r, answer⟩ s s' ∧ Spares file (next answer)
  | .perform .readHolder next => ∀ active, Spares file (next active)
  | .perform (.writeHolder _) next => Spares file (next ())

section Sparing

variable {α β ε : Type} {file : String}

theorem Spares.step {p p' : Program α} {s s' : Shared Backend} {events : List Event} (h : Spares file p)
    (hs : p.Step s events p' s') :
    Spares file p' ∧ (∀ e ∈ events, e.removes file = false) ∧ counterText s'.store file = counterText s.store file ∧
      (Fillable (s.store.value? Key.counters) → Fillable (s'.store.value? Key.counters)) := by
  cases hs with
  | request hr =>
    obtain ⟨hspared, hnext⟩ := h _ _ _ hr
    exact ⟨hnext, by simpa using hspared.removes, hspared.text, hspared.fillable⟩
  | readHolder => exact ⟨h _, by simp, rfl, fun hf => hf⟩
  | writeHolder => exact ⟨h, by simp, rfl, fun hf => hf⟩

theorem spares_bind {p : Program α} {f : α → Program β} (hp : Spares file p) (hf : ∀ a, Spares file (f a)) :
    Spares file (p.bind f) := by
  induction p with
  | done a => exact hf a
  | perform effect next ih =>
    cases effect with
    | store r =>
      intro s answer s' hr
      obtain ⟨hspared, hnext⟩ := hp s answer s' hr
      exact ⟨hspared, ih answer hnext⟩
    | readHolder => exact fun active => ih active (hp active)
    | writeHolder active => exact ih () hp

theorem spares_action {x : ExceptT ε Program α} {f : α → ExceptT ε Program β} (hx : Spares file x.run)
    (hf : ∀ a, Spares file (f a).run) : Spares file (x >>= f).run :=
  spares_bind hx fun
    | .ok a => hf a
    | .error _ => trivial

/-- A reply to a request that does not write to the counters. -/
theorem spared_of_writes {s s' : Backend} {r : Request} {answer : Except Store.Error r.Answer}
    (hw : Key.counters ∉ r.writes) (hr : Reply s r answer s') : Spared file ⟨r, answer⟩ s s' := by
  have hsame := hr.value? hw
  refine ⟨?_, by rw [counterText, counterText, hsame], fun hf => hsame ▸ hf⟩
  cases r with
  | deleteFields key fields =>
    have hne : key ≠ Key.counters := fun h => hw (h ▸ List.mem_singleton_self _)
    cases answer with
    | error e => rfl
    | ok n => simp [Event.removes, hne]
  | _ => rfl

theorem spares_every {p : Program α} (hp : p.Every fun effect => ∀ r, effect = .store r → Key.counters ∉ r.writes) :
    Spares file p := by
  induction p with
  | done a => trivial
  | perform effect next ih =>
    cases effect with
    | store r =>
      intro s answer s' hr
      exact ⟨spared_of_writes (hp.1 r rfl) hr, ih answer (hp.2 answer)⟩
    | readHolder => exact fun active => ih active (hp.2 active)
    | writeHolder active => exact ih () (hp.2 ())

theorem spares_request {raise : Store.Error → Error} {r : Request} (hw : Key.counters ∉ r.writes) :
    Spares file (request raise r).run := fun _ _ _ hr => ⟨spared_of_writes hw hr, trivial⟩

/-! ### Publications -/

section Publication

variable {raise : Store.Error → Error} {pages : Nat} {g : Generation}

theorem not_counters_of_scoped {keys : List String} (hk : ∀ key ∈ keys, Key.Scoped g key) : Key.counters ∉ keys :=
  fun hm => Key.not_scoped_counters g (hk _ hm)

/-- What is deleted has been found by a scan for the keys of the generation. -/
theorem clearChildren_spares {group : String} (hg : group ∈ Key.groups) (cursor : Option String) :
    Spares file (clearChildren raise group g pages cursor).run := by
  induction pages generalizing cursor with
  | zero => trivial
  | succ pages ih =>
    rw [clearChildren]
    intro s answer s' hr
    refine ⟨spared_of_writes (by simp [Request.writes]) hr, ?_⟩
    cases answer with
    | error e => trivial
    | ok page =>
      have hk : ∀ key ∈ page.items, Key.Scoped g key := by
        intro key hm
        rw [hr.scanned.2 page rfl] at hm
        exact scoped_of_listed hg (List.mem_filter.mp (List.mem_of_mem_take hm)).1
      refine spares_action (x := deletePage raise page.items) ?_ fun deleted => ?_
      · unfold deletePage
        split
        · trivial
        · exact spares_request (not_counters_of_scoped hk)
      · cases page.next with
        | none => trivial
        | some next => exact spares_action (ih (some next)) fun _ => trivial

theorem clearGroups_spares {gs : List String} (hgs : ∀ group ∈ gs, group ∈ Key.groups) :
    Spares file (clearGroups raise pages g gs).run := by
  induction gs with
  | nil => trivial
  | cons group rest ih =>
    obtain ⟨hg, hrest⟩ := List.forall_mem_cons.mp hgs
    refine spares_action (clearChildren_spares hg none) fun children => spares_action (spares_request ?_) fun own =>
      spares_action (ih hrest) fun _ => trivial
    exact not_counters_of_scoped (List.forall_mem_singleton.mpr (Key.scoped_ofGroup hg g))

theorem publish_spares (file : String) (pages : Nat) (batch : List Download) :
    Spares file (publish pages batch).run := by
  have hget : Spares file storedGeneration.run := by
    refine spares_action (spares_request (by simp [Request.writes])) fun _ => trivial
  refine spares_action hget fun active => ?_
  refine spares_action (clearGroups_spares fun _ hg => hg) fun _ => ?_
  refine spares_action (spares_request (not_counters_of_scoped fun _ => scoped_of_writes)) fun _ => ?_
  refine spares_action (spares_request ?_) fun _ => trivial
  exact fun hm => Key.active_ne_counters (List.mem_singleton.mp hm).symm

end Publication

/-! ### Prunes and summaries -/

theorem Sweeps.spares {keep : List String} {floor : Option String} {p : Program (Except Error Nat)}
    (h : Sweeps keep floor p) (hf : file ∈ keep) : Spares file p := by
  have hspared : ∀ {floor top : Option String} {e : Event} {s s' : Backend}, Swept keep floor top e s s' →
      Spared file e s s' := by
    intro floor top e s s' hs
    have hremoves : e.removes file = false := by
      cases he : e.removes file with
      | false => rfl
      | true => exact absurd hf (hs.removed file he).1
    exact ⟨hremoves, hs.kept file hremoves, hs.fillable⟩
  induction h with
  | done result => trivial
  | scan hnext herror ih ihe =>
    intro s answer s' hr
    refine ⟨spared_of_writes (by simp [Request.writes]) hr, ?_⟩
    cases answer with
    | error e => exact ihe e
    | ok page => exact hr.scanFields_ok ▸ ih _
  | delete hstale hrises hnext ih =>
    intro s answer s' hr
    obtain ⟨-, e, top, he, -, hswept⟩ := (Sweeps.delete hstale hrises hnext).step (s := ⟨s, none⟩) (.request hr)
    obtain rfl := (List.cons.inj he).1
    exact ⟨hspared hswept, ih answer⟩

theorem prune_spares {batch : List Download} (hf : file ∈ fileIds batch) (pages : Nat) :
    Spares file (prune pages batch).run := (pruneAfter_sweeps (fileIds batch) pages none).spares hf

theorem info_spares (file : String) : Spares file info.run := by
  obtain ⟨next, hc, hevery⟩ := Reader.info.reads
  have hc : info.run = .perform .readHolder next := hc
  rw [hc]
  refine fun active => spares_every ((hevery active).mono fun effect he r heffect => ?_)
  subst heffect
  obtain ⟨key, hr, -⟩ := he
  rw [writes_of_reads hr]
  exact List.not_mem_nil

end Sparing
end Repository
end ShareIndex
