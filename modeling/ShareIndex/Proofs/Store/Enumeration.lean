import ShareIndex.Proofs.Store.Fields
import ShareIndex.Proofs.Text.Bytes

/-!
# ShareIndex.Proofs.Store.Enumeration

Enumerations, page by page, with writes between the pages, for both backends at once.

* `Listing`    — what is enumerated: `Listing.keys` for a pattern, `Listing.fields` of a hash.
* `enumerate`  — an enumeration, together with what is written before each further call.
* `Spares`     — writes that delete nothing but items that have been returned.
* `enumeration_exact` — an enumeration neither skips nor repeats, and it ends with the first page that is not full.
-/

namespace ShareIndex
namespace Store

open Backend (follows follows_trans not_follows_last)

variable {α : Type}

/-! ### Listings -/

/-- Items that a store can be asked for page by page, in the order of their names. -/
structure Listing (α : Type) where
  read : Backend → Option String → Nat → Except Error (Page α)
  items : Backend → List α
  name : α → String
  ascending : ∀ s, (items s).Pairwise fun a b => name a < name b
  page : ∀ {s cursor count p}, read s cursor count = .ok p →
    p = .ofItems (((items s).filter fun a => follows cursor (name a)).take count) count name

/-- A call of an enumeration: the store as the call finds it, and what the call returns. -/
structure Visit (α : Type) where
  store : Backend
  items : List α

namespace Listing

def keys (pattern : Pattern) : Listing String where
  read s cursor count := (s.perform (.scan cursor pattern count)).1
  items s := s.listed pattern
  name := id
  ascending s := s.listed_ascending pattern
  page {s cursor count p} h := by
    rw [s.perform_scan] at h
    split at h
    · cases h
    · exact (Except.ok.inj h).symm

def fields (key : String) : Listing (String × String) where
  read s cursor count := (s.perform (.scanFields key cursor count)).1
  items s := (hashOf (s.value? key)).entries
  name := Prod.fst
  ascending s := (hashOf (s.value? key)).ascending
  page {s cursor count p} h := by
    have hafter : (hashOf (s.value? key)).after cursor =
        (hashOf (s.value? key)).entries.filter fun e => follows cursor e.1 := by
      cases cursor with
      | none => exact (List.filter_eq_self.mpr fun _ _ => rfl).symm
      | some c => rfl
    rw [s.perform_scanFields] at h
    split at h
    · cases h
    · split at h
      · rw [← hafter]
        exact (Except.ok.inj h).symm
      · cases h

variable (l : Listing α) {count : Nat} {gaps : List (List Request)} {s s' : Backend} {cursor last : Option String}
  {visits : List (Visit α)}

/-- Reads one page after the other. The writes of the first gap come before the second call, and so on; without a next
page, or without a gap, there is no further call. -/
def enumerate (count : Nat) :
    List (List Request) → Backend → Option String → Except Error (List (Visit α) × Option String)
  | [], s, cursor => do
    let page ← l.read s cursor count
    return ([⟨s, page.items⟩], page.next)
  | writes :: gaps, s, cursor => do
    let page ← l.read s cursor count
    match page.next with
    | none => return ([⟨s, page.items⟩], none)
    | some next =>
      let (visits, last) ← enumerate count gaps (writes.foldl (fun s r => (s.perform r).2) s) (some next)
      return (⟨s, page.items⟩ :: visits, last)

/-- The items that an enumeration still comes to. -/
def ahead (s : Backend) (cursor : Option String) : List α := (l.items s).filter fun a => follows cursor (l.name a)

/-- The page of those items. -/
def pageAt (count : Nat) (s : Backend) (cursor : Option String) : Page α :=
  .ofItems ((l.ahead s cursor).take count) count l.name

/-- All items that have been returned, in the order of the calls. -/
def returned (visits : List (Visit α)) : List α := visits.flatMap (·.items)

theorem mem_ahead {s : Backend} {cursor : Option String} {a : α} :
    a ∈ l.ahead s cursor ↔ a ∈ l.items s ∧ follows cursor (l.name a) = true := List.mem_filter

theorem ahead_ascending (s : Backend) (cursor : Option String) :
    (l.ahead s cursor).Pairwise fun a b => l.name a < l.name b := (l.ascending s).sublist List.filter_sublist

theorem ahead_none (s : Backend) : l.ahead s none = l.items s := List.filter_eq_self.mpr fun _ _ => rfl

/-- The next page starts with an item of this one. -/
theorem follows_next {next : String} (h : (l.pageAt count s cursor).next = some next) : follows cursor next = true := by
  obtain ⟨a, ha, rfl⟩ := List.mem_map.mp (List.mem_of_getLast? (Page.last_of_next h).2)
  exact (l.mem_ahead.mp (List.mem_of_mem_take ha)).2

/-- The calls of an enumeration that has come to no error, one by one. -/
inductive Enumerates (count : Nat) :
    List (List Request) → Backend → Option String → List (Visit α) → Option String → Prop where
  | stop {gaps : List (List Request)} {s : Backend} {cursor : Option String} :
    (l.pageAt count s cursor).next = none ∨ gaps = [] →
    Enumerates count gaps s cursor [⟨s, (l.ahead s cursor).take count⟩] (l.pageAt count s cursor).next
  | next {writes : List Request} {gaps : List (List Request)} {s : Backend} {cursor last : Option String} {next : String}
    {visits : List (Visit α)} :
    (l.pageAt count s cursor).next = some next →
    Enumerates count gaps (writes.foldl (fun s r => (s.perform r).2) s) (some next) visits last →
    Enumerates count (writes :: gaps) s cursor (⟨s, (l.ahead s cursor).take count⟩ :: visits) last

theorem enumerates_of_ok (h : l.enumerate count gaps s cursor = .ok (visits, last)) :
    l.Enumerates count gaps s cursor visits last := by
  induction gaps generalizing s cursor visits with
  | nil =>
    cases hread : l.read s cursor count with
    | error e => simp [enumerate, hread, bind, Except.bind] at h
    | ok page =>
      obtain rfl : page = l.pageAt count s cursor := l.page hread
      simp only [enumerate, hread, bind, Except.bind, pure, Except.pure] at h
      cases h
      exact .stop (.inr rfl)
  | cons writes rest ih =>
    cases hread : l.read s cursor count with
    | error e => simp [enumerate, hread, bind, Except.bind] at h
    | ok page =>
      obtain rfl : page = l.pageAt count s cursor := l.page hread
      simp only [enumerate, hread, bind, Except.bind, pure, Except.pure] at h
      cases hnext : (l.pageAt count s cursor).next with
      | none =>
        rw [hnext] at h
        cases h
        rw [← hnext]
        exact .stop (.inl hnext)
      | some next =>
        rw [hnext] at h
        cases hrest : l.enumerate count rest (writes.foldl (fun s r => (s.perform r).2) s) (some next) with
        | error e => simp [hrest] at h
        | ok result =>
          simp only [hrest] at h
          cases h
          exact .next hnext (ih hrest)

namespace Enumerates

variable {l}

/-- The items of a page were there when it was read, and they follow the cursor of the enumeration. -/
theorem mem_ahead (h : l.Enumerates count gaps s cursor visits last) :
    ∀ v ∈ visits, ∀ a ∈ v.items, a ∈ l.items v.store ∧ follows cursor (l.name a) = true := by
  induction h with
  | stop =>
    intro v hv a ha
    obtain rfl := List.mem_singleton.mp hv
    exact l.mem_ahead.mp (List.mem_of_mem_take ha)
  | next hnext _ ih =>
    intro v hv a ha
    rcases List.mem_cons.mp hv with rfl | hv
    · exact l.mem_ahead.mp (List.mem_of_mem_take ha)
    · obtain ⟨hitem, hfollows⟩ := ih v hv a ha
      exact ⟨hitem, follows_trans (l.follows_next hnext) hfollows⟩

theorem ascending (h : l.Enumerates count gaps s cursor visits last) :
    (returned visits).Pairwise fun a b => l.name a < l.name b := by
  induction h with
  | @stop gaps s cursor =>
    rw [returned, List.flatMap_singleton]
    exact (l.ahead_ascending s cursor).sublist (List.take_sublist _ _)
  | @next writes gaps s cursor last next visits hnext hrest ih =>
    rw [returned, List.flatMap_cons]
    refine List.pairwise_append.mpr ⟨(l.ahead_ascending s cursor).sublist (List.take_sublist _ _), ih, ?_⟩
    intro a ha b hb
    -- the cursor stands between the pages
    obtain ⟨v, hv, hb⟩ := List.mem_flatMap.mp hb
    have hlater : next < l.name b := of_decide_eq_true (hrest.mem_ahead v hv b hb).2
    have hearlier := Page.not_follows_of_take (l.ahead_ascending s cursor) hnext ha
    exact lt_of_le_of_lt (not_lt.mp (of_decide_eq_false hearlier)) hlater

/-- What is there at every call is returned, unless the enumeration starts after it. -/
theorem complete (hcount : 0 < count) (h : l.Enumerates count gaps s cursor visits none) {name : String}
    (hname : follows cursor name = true) (hthere : ∀ v ∈ visits, name ∈ (l.items v.store).map l.name) :
    name ∈ (returned visits).map l.name := by
  generalize hlast : none = last at h
  induction h with
  | @stop gaps s cursor =>
    obtain ⟨a, ha, rfl⟩ := List.mem_map.mp (hthere _ List.mem_cons_self)
    have hall : (l.ahead s cursor).take count = l.ahead s cursor := by
      have hsplit := List.take_append_drop count (l.ahead s cursor)
      rwa [Page.drop_of_last hcount hlast.symm, List.append_nil] at hsplit
    rw [returned, List.flatMap_singleton, hall]
    exact List.mem_map_of_mem (l.mem_ahead.mpr ⟨ha, hname⟩)
  | @next writes gaps s cursor last next visits hnext hrest ih =>
    obtain ⟨hhere, hlater⟩ := List.forall_mem_cons.mp hthere
    obtain ⟨a, ha, rfl⟩ := List.mem_map.mp hhere
    have hahead := l.mem_ahead.mpr ⟨ha, hname⟩
    rw [returned, List.flatMap_cons, List.map_append, List.mem_append]
    -- it is on this page, or the cursor of the next one stands before it
    rw [← List.take_append_drop count (l.ahead s cursor)] at hahead
    rcases List.mem_append.mp hahead with htake | hdrop
    · exact .inl (List.mem_map_of_mem htake)
    · exact .inr (ih (Page.follows_of_drop (l.ahead_ascending s cursor) hnext hdrop) hlater hlast)

end Enumerates

/-! ### Deletions -/

/-- Nothing has been added, and only items that have been returned are gone. -/
def Spares (returned : List α) (before after : Backend) : Prop :=
  (∀ a ∈ l.items after, a ∈ l.items before) ∧ ∀ a ∈ l.items before, a ∉ returned → a ∈ l.items after

theorem Spares.refl (gone : List α) (s : Backend) : l.Spares gone s s := ⟨fun _ ha => ha, fun _ ha _ => ha⟩

theorem Spares.trans {gone : List α} {s s' s'' : Backend} (h : l.Spares gone s s') (h' : l.Spares gone s' s'') :
    l.Spares gone s s'' := by
  refine ⟨fun a ha => h.1 a (h'.1 a ha), fun a ha hn => ?_⟩
  exact h'.2 a (h.2 a ha hn) hn

theorem keys_spares {pattern : Pattern} {gone names : List String} (h : ∀ key ∈ names, key ∈ gone) (s : Backend) :
    (keys pattern).Spares gone s (s.perform (.delete names)).2 := by
  rcases s.perform_delete names with ⟨e, he, -⟩ | ⟨n, s', he, -⟩
  · rw [he]
    exact .refl (keys pattern) gone s
  · have hlisted := Backend.listed_delete pattern he
    have hmem : ∀ key, key ∈ s'.listed pattern ↔ key ∈ s.listed pattern ∧ key ∉ names := by
      intro key
      rw [hlisted]
      simp
    rw [he]
    refine ⟨fun key hkey => ((hmem key).mp hkey).1, fun key hkey hgone => ?_⟩
    exact (hmem key).mpr ⟨hkey, fun hname => hgone (h key hname)⟩

theorem fields_spares {key : String} {gone : List (String × String)} {names : List String} {s : Backend}
    (h : ∀ e ∈ (fields key).items s, e.1 ∈ names → e ∈ gone) :
    (fields key).Spares gone s (s.perform (.deleteFields key names)).2 := by
  rcases s.perform_deleteFields key names with ⟨e, he, -⟩ | ⟨s', he, hv⟩
  · rw [he]
    exact .refl (fields key) gone s
  · have hmem : ∀ e, e ∈ (fields key).items s' ↔ e ∈ (fields key).items s ∧ e.1 ∉ names := by
      intro ⟨field, value⟩
      show (field, value) ∈ (hashOf (s'.value? key)).entries ↔ (field, value) ∈ (hashOf (s.value? key)).entries ∧ _
      rw [← OrderedMap.get?_eq_some_iff, ← OrderedMap.get?_eq_some_iff, hv, hashOf_stored,
        Keyspace.get?_eraseFields]
      by_cases hname : field ∈ names <;> simp [hname]
    rw [he]
    refine ⟨fun e hentry => ((hmem e).mp hentry).1, fun e hentry hgone => ?_⟩
    exact (hmem e).mpr ⟨hentry, fun hname => hgone (h e hentry hname)⟩

/-- Between any two calls, nothing is written but deletions of items that have been returned. -/
def Spared (returned : List α) : List (Visit α) → Prop
  | [] => True
  | [_] => True
  | v :: w :: visits => l.Spares (returned ++ v.items) v.store w.store ∧ Spared (returned ++ v.items) (w :: visits)

/-- Then what a page leaves over is what the rest of the enumeration comes to. -/
theorem ahead_of_spares {next : String} {gone : List α} (h : l.Spares gone s s')
    (hnext : (l.pageAt count s cursor).next = some next) (hgone : ∀ a ∈ gone, follows (some next) (l.name a) = false) :
    l.ahead s' (some next) = (l.ahead s cursor).drop count := by
  have : Std.Irrefl fun a b : α => l.name a < l.name b := ⟨fun a => String.lt_irrefl _⟩
  have : Std.Antisymm fun a b : α => l.name a < l.name b :=
    ⟨fun a b hab hba => absurd (String.lt_trans hab hba) (String.lt_irrefl _)⟩
  have hasc := l.ahead_ascending s cursor
  refine (l.ahead_ascending s' (some next)).eq_of_mem_iff (hasc.sublist (List.drop_sublist _ _)) fun a => ?_
  rw [l.mem_ahead]
  constructor
  · intro ⟨hitem, hfollows⟩
    have hahead := l.mem_ahead.mpr ⟨h.1 a hitem, follows_trans (l.follows_next hnext) hfollows⟩
    rw [← List.take_append_drop count (l.ahead s cursor)] at hahead
    refine (List.mem_append.mp hahead).resolve_left fun htake => ?_
    rw [Page.not_follows_of_take hasc hnext htake] at hfollows
    cases hfollows
  · intro hdrop
    have hfollows := Page.follows_of_drop hasc hnext hdrop
    refine ⟨h.2 a (l.mem_ahead.mp (List.mem_of_mem_drop hdrop)).1 fun hm => ?_, hfollows⟩
    rw [hgone a hm] at hfollows
    cases hfollows

namespace Enumerates

variable {l}

theorem head (h : l.Enumerates count gaps s cursor visits last) :
    ∃ later, visits = ⟨s, (l.ahead s cursor).take count⟩ :: later := by
  cases h with
  | stop => exact ⟨_, rfl⟩
  | next => exact ⟨_, rfl⟩

/-- Every page but the last one is full, and all of them together have what there was at the beginning. -/
theorem spared (hcount : 0 < count) (h : l.Enumerates count gaps s cursor visits last) {gone : List α}
    (hs : l.Spared gone visits) (hgone : ∀ a ∈ gone, follows cursor (l.name a) = false)
    (hgaps : (l.ahead s cursor).length / count ≤ gaps.length) :
    last = none ∧ visits.length = (l.ahead s cursor).length / count + 1 ∧ returned visits = l.ahead s cursor := by
  induction h generalizing gone with
  | @stop gaps s cursor hstop =>
    have hlt : (l.ahead s cursor).length < count := by
      rcases hstop with hnone | rfl
      · exact (Page.next_eq_none_iff hcount).mp hnone
      · simp only [List.length_nil, Nat.le_zero] at hgaps
        exact (Nat.div_eq_zero_iff.mp hgaps).resolve_left (by omega)
    refine ⟨(Page.next_eq_none_iff hcount).mpr hlt, ?_, ?_⟩
    · rw [Nat.div_eq_of_lt hlt]
      rfl
    · rw [returned, List.flatMap_singleton]
      exact List.take_of_length_le (Nat.le_of_lt hlt)
  | @next writes gaps s cursor last next visits hnext hrest ih =>
    have hle := (Page.last_of_next hnext).1
    have hdiv := Nat.div_eq_sub_div hcount hle
    obtain ⟨later, rfl⟩ := hrest.head
    obtain ⟨hspares, hlater⟩ := hs
    have hgone' : ∀ a ∈ gone ++ (l.ahead s cursor).take count, follows (some next) (l.name a) = false := by
      intro a ha
      rcases List.mem_append.mp ha with ha | ha
      · by_contra hfollows
        have htrans := follows_trans (l.follows_next hnext) (Bool.not_eq_false _ ▸ hfollows)
        rw [hgone a ha] at htrans
        cases htrans
      · exact Page.not_follows_of_take (l.ahead_ascending s cursor) hnext ha
    have hahead := l.ahead_of_spares hspares hnext hgone'
    have hlength : ((l.ahead s cursor).drop count).length = (l.ahead s cursor).length - count := List.length_drop
    obtain ⟨hlast, hvisits, hreturned⟩ := ih hlater hgone' (by
      rw [hahead, hlength]
      simp only [List.length_cons] at hgaps
      omega)
    refine ⟨hlast, ?_, ?_⟩
    · rw [List.length_cons, hvisits, hahead, hlength, hdiv]
    · rw [returned, List.flatMap_cons]
      rw [returned] at hreturned
      rw [hreturned, hahead, List.take_append_drop]

end Enumerates

/-- What holds of every enumeration in pages of this size, whatever is written between its calls. The first page that
is not full is the last one; if only returned items are deleted meanwhile, there are no more pages than it takes. -/
structure Exact (count : Nat) : Prop where
  ascending : ∀ {gaps s visits last}, l.enumerate count gaps s none = .ok (visits, last) →
    (returned visits).Pairwise fun a b => Text.bytes (l.name a) < Text.bytes (l.name b)
  present : ∀ {gaps s visits last}, l.enumerate count gaps s none = .ok (visits, last) →
    ∀ v ∈ visits, ∀ a ∈ v.items, a ∈ l.items v.store
  complete : ∀ {gaps s visits}, l.enumerate count gaps s none = .ok (visits, none) →
    ∀ name, (∀ v ∈ visits, name ∈ (l.items v.store).map l.name) → ((returned visits).map l.name).count name = 1
  ends : ∀ {gaps s visits last}, l.enumerate count gaps s none = .ok (visits, last) → l.Spared [] visits →
    (l.items s).length / count ≤ gaps.length →
    last = none ∧ visits.length = (l.items s).length / count + 1 ∧ returned visits = l.items s

theorem exact_of_pos (hcount : 0 < count) : l.Exact count where
  ascending h := (l.enumerates_of_ok h).ascending.imp Text.bytes_lt_iff.mpr
  present h v hv a ha := ((l.enumerates_of_ok h).mem_ahead v hv a ha).1
  complete h name hthere := by
    have hrun := l.enumerates_of_ok h
    have hnodup : ((returned _).map l.name).Nodup :=
      List.pairwise_map.mpr (hrun.ascending.imp fun hlt => ne_of_lt hlt)
    exact List.count_eq_one_of_mem hnodup (hrun.complete hcount rfl hthere)
  ends {gaps s visits last} h hspared hgaps := by
    rw [← l.ahead_none s] at hgaps ⊢
    exact (l.enumerates_of_ok h).spared hcount hspared (fun a ha => absurd ha List.not_mem_nil) hgaps

end Listing

/-- Enumerations of keys and of the fields of a hash neither skip nor repeat what is there all the time, and they end
with all of it. -/
theorem enumeration_exact {count : Nat} (hcount : 0 < count) (pattern : Pattern) (key : String) :
    (Listing.keys pattern).Exact count ∧ (Listing.fields key).Exact count :=
  ⟨Listing.exact_of_pos _ hcount, Listing.exact_of_pos _ hcount⟩

/-- Four keys in memory in pages of two, and two fields in a database in pages of one, all of them deleted after they
have been returned. -/
theorem enumeration_exact_deleting :
    let s := Backend.memory ⟨.ofList [("k1", .text "v"), ("k2", .text "v"), ("k3", .text "v"), ("k4", .text "v"),
      ("other", .text "v")]⟩
    let d := ((Backend.database .empty).perform (.apply [.setField "h" "a" "1", .setField "h" "b" "2"])).2
    0 < 2 ∧ (∃ visits, (Listing.keys ⟨"k*"⟩).enumerate 2 [[.delete ["k1"]], [.delete ["k2"], .delete ["k3", "k4"]]] s none =
      .ok (visits, none) ∧ visits.length = 3 ∧ Listing.returned visits = ["k1", "k2", "k3", "k4"]) ∧
    0 < 1 ∧ ∃ visits, (Listing.fields "h").enumerate 1 [[.deleteFields "h" ["a"]], [.deleteFields "h" ["b"]]] d none =
      .ok (visits, none) ∧ visits.length = 3 ∧ Listing.returned visits = [("a", "1"), ("b", "2")] := by
  intro s d
  refine ⟨by decide, ?_, by decide, ?_⟩
  · have hexact := (enumeration_exact (show 0 < 2 by decide) ⟨"k*"⟩ "h").1
    have hitems : (Listing.keys ⟨"k*"⟩).items s = ["k1", "k2", "k3", "k4"] := rfl
    have hfirst : ∀ key ∈ ["k1"], key ∈ ["k1", "k2"] := by decide
    have hsecond : ∀ key ∈ ["k2"], key ∈ ["k1", "k2", "k3", "k4"] := by decide
    have hthird : ∀ key ∈ ["k3", "k4"], key ∈ ["k1", "k2", "k3", "k4"] := by decide
    obtain ⟨visits, last, hrun, hspared⟩ : ∃ visits last, (Listing.keys ⟨"k*"⟩).enumerate 2
        [[.delete ["k1"]], [.delete ["k2"], .delete ["k3", "k4"]]] s none = .ok (visits, last) ∧
        (Listing.keys ⟨"k*"⟩).Spared [] visits := by
      refine ⟨_, _, rfl, ?_, ?_, trivial⟩
      · exact Listing.keys_spares hfirst s
      · exact (Listing.keys_spares hsecond _).trans _ (Listing.keys_spares hthird _)
    obtain ⟨rfl, hlength, hreturned⟩ := hexact.ends hrun hspared (by decide)
    rw [hitems] at hlength hreturned
    exact ⟨visits, hrun, hlength, hreturned⟩
  · have hexact := (enumeration_exact (show 0 < 1 by decide) ⟨"k*"⟩ "h").2
    have hitems : (Listing.fields "h").items d = [("a", "1"), ("b", "2")] := rfl
    have hfirst : ∀ e ∈ [("a", "1"), ("b", "2")], e.1 ∈ ["a"] → e ∈ [("a", "1")] := by decide
    have hsecond : ∀ e ∈ [("b", "2")], e.1 ∈ ["b"] → e ∈ [("a", "1"), ("b", "2")] := by decide
    obtain ⟨visits, last, hrun, hspared⟩ : ∃ visits last, (Listing.fields "h").enumerate 1
        [[.deleteFields "h" ["a"]], [.deleteFields "h" ["b"]]] d none = .ok (visits, last) ∧
        (Listing.fields "h").Spared [] visits := by
      refine ⟨_, _, rfl, ?_, ?_, trivial⟩
      · exact Listing.fields_spares hfirst
      · exact Listing.fields_spares hsecond
    obtain ⟨rfl, hlength, hreturned⟩ := hexact.ends hrun hspared (by decide)
    rw [hitems] at hlength hreturned
    exact ⟨visits, hrun, hlength, hreturned⟩

end Store
end ShareIndex
