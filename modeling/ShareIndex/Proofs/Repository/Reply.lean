import ShareIndex.Proofs.Repository.Run
import ShareIndex.Proofs.Store.Effect

/-!
# ShareIndex.Proofs.Repository.Reply

What replies of the two backends do and say.

* `Reply.contents`, `Reply.access` — what a request leaves alone, whether it is served or not.
* `Reply.unchanged` — a request that fails changes nothing, unless it applies commands.
* `Reply.scanned`, `Reply.deleted`, `Reply.set_ok` — what a reply to one request means.
* `access_perform`, `perform_read` — calls without faults.
-/

namespace ShareIndex
namespace Repository

open Store (Backend Request KeyValueStore Page)

section Replies

variable {s s' : Backend} {r : Request} {answer : Except Store.Error r.Answer}

theorem Reply.contents (h : Reply s r answer s') {key : String} (hk : key ∉ r.writes) :
    s'.contents key = s.contents key := by
  cases h with
  | served => exact s.contents_perform r hk
  | refused => rfl
  | cut commands n e =>
    refine s.contents_perform _ fun hm => hk ?_
    rw [Request.writes, List.map_take] at hm
    exact List.mem_of_mem_take hm

theorem Reply.value? (h : Reply s r answer s') {key : String} (hk : key ∉ r.writes) : s'.value? key = s.value? key :=
  congrArg Store.Contents.value? (h.contents hk)

theorem Reply.read (h : Reply s r answer s') {key : String} (hr : r.reads? = some key) : s' = s := by
  cases h with
  | served => exact s.perform_read hr
  | refused => rfl
  | cut => cases hr

theorem Reply.access (h : Reply s r answer s') : s'.access = s.access := by
  cases h with
  | served => exact s.access_perform r
  | refused => rfl
  | cut commands n e => exact s.access_perform _

theorem Reply.unchanged {e : Store.Error} (h : Reply s r (.error e) s') (hr : r.operation ≠ .apply) : s' = s :=
  h.of_error hr fun _ he => Backend.perform_error hr he

theorem Reply.set_ok {key text : String} (h : Reply s (.set key text) (.ok ()) s') :
    s'.value? key = some (.text text) := by
  rcases s.perform_set key text with ⟨e, he, -⟩ | ⟨s1, he, hv⟩
  · exact absurd (he.symm.trans h.of_ok) (by simp)
  · obtain rfl : s1 = s' := congrArg (·.2) (he.symm.trans h.of_ok)
    exact hv

theorem Reply.deleted {keys : List String} {n : Nat} (h : Reply s (.delete keys) (.ok n) s')
    {key : String} (hk : key ∈ keys) : s'.value? key = none := by
  rcases s.perform_delete keys with ⟨e, he, -⟩ | ⟨m, s1, he, hv⟩
  · exact absurd (he.symm.trans h.of_ok) (by simp)
  · obtain rfl : s1 = s' := congrArg (·.2) (he.symm.trans h.of_ok)
    exact (hv key).trans (if_pos hk)

/-- A scan changes nothing, and a page of it has the next keys in order. -/
theorem Reply.scanned {cursor : Option String} {count : Nat} {answer : Except Store.Error (Page String)}
    {pattern : Store.Pattern} (h : Reply s (.scan cursor pattern count) answer s') :
    s' = s ∧ ∀ page, answer = .ok page →
      page = .ofItems (((s.listed pattern).filter (Backend.follows cursor)).take count) count id := by
  cases h with
  | refused => exact ⟨rfl, fun page hp => by cases hp⟩
  | served =>
    have hs := s.perform_scan cursor pattern count
    refine ⟨congrArg (·.2) hs, fun page hp => ?_⟩
    have hp : (s.perform (.scan cursor pattern count)).1 = .ok page := hp
    rw [hs] at hp
    dsimp only at hp
    split at hp
    · cases hp
    · exact (Except.ok.inj hp).symm

end Replies

/-! ### Calls -/

section Calls

variable {α : Type} {s s' : Shared Backend}

theorem reaches_access {p q : Program α} {events : List Event} (h : Reaches p s events q s') :
    s'.store.access = s.store.access := by
  induction h with
  | refl => rfl
  | step hs _ ih =>
    cases hs with
    | request hr => exact ih.trans hr.access
    | readHolder => exact ih
    | writeHolder => exact ih

theorem access_perform {x : Action α} {result : Except Error α} (h : x.perform s = (result, s')) :
    s'.store.access = s.store.access := by
  obtain ⟨events, hr⟩ := runs_perform h
  exact reaches_access hr

theorem perform_read {raise : Store.Error → Error} {r : Request} {key : String} {a : r.Answer}
    (hr : r.reads? = some key) (ha : (s.store.perform r).1 = .ok a) : (request raise r).perform s = (.ok a, s) := by
  have hs : (s.store.perform r).2 = s.store := s.store.perform_read hr
  show ((s.store.perform r).1.mapError raise, { s with store := (s.store.perform r).2 }) = (.ok a, s)
  rw [ha, hs]
  rfl

end Calls

end Repository
end ShareIndex
