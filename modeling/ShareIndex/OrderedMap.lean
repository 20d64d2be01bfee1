/-!
# ShareIndex.OrderedMap

Finite maps whose entries stand in the order of their keys.

* `StrictOrder`       — a decidable order in which any two different keys are comparable.
* `OrderedMap`        — a list of entries with strictly ascending keys.
* `OrderedMap.get?`   — the view of a map: each operation is described by what it does to it.
* `OrderedMap.after`  — the entries that follow a cursor, which is what a page of a scan begins with.
* `OrderedMap.ext_get?` — two maps with the same view are equal.
-/

namespace ShareIndex

class StrictOrder (K : Type) [LT K] : Prop where
  irrefl : ∀ a : K, ¬ a < a
  trans : ∀ {a b c : K}, a < b → b < c → a < c
  connected : ∀ {a b : K}, ¬ a < b → ¬ b < a → a = b

instance : StrictOrder String where
  irrefl := String.lt_irrefl
  trans := String.lt_trans
  connected := fun h1 h2 => String.le_antisymm (String.not_lt.mp h2) (String.not_lt.mp h1)

/-- Keys ascend strictly from the front to the back. -/
def Ascending {K V : Type} [LT K] (entries : List (K × V)) : Prop :=
  entries.Pairwise fun a b => a.1 < b.1

structure OrderedMap (K V : Type) [LT K] where
  entries : List (K × V)
  ascending : Ascending entries

namespace OrderedMap

variable {K V : Type} [LT K]

section Entries

variable [DecidableLT K]

def insertEntry (k : K) (v : V) : List (K × V) → List (K × V)
  | [] => [(k, v)]
  | e :: rest =>
    if k < e.1 then (k, v) :: e :: rest
    else if e.1 < k then e :: insertEntry k v rest
    else (k, v) :: rest

theorem mem_insertEntry {k : K} {v : V} {e : K × V} :
    ∀ {l : List (K × V)}, e ∈ insertEntry k v l → e = (k, v) ∨ e ∈ l := by
  intro l
  induction l with
  | nil => simp [insertEntry]
  | cons a l ih =>
    simp only [insertEntry]
    split
    · simp
    · split
      · simp only [List.mem_cons]; rintro (h | h)
        · exact .inr (.inl h)
        · rcases ih h with h | h
          · exact .inl h
          · exact .inr (.inr h)
      · simp only [List.mem_cons]; rintro (h | h)
        · exact .inl h
        · exact .inr (.inr h)

theorem ascending_insertEntry [StrictOrder K] {k : K} {v : V} {l : List (K × V)} (h : Ascending l) :
    Ascending (insertEntry k v l) := by
  induction l with
  | nil => simp [insertEntry, Ascending]
  | cons a l ih =>
    simp only [Ascending, List.pairwise_cons] at h ⊢
    simp only [insertEntry]
    split
    · rename_i hk
      refine List.pairwise_cons.mpr ⟨fun b hb => ?_, List.pairwise_cons.mpr h⟩
      rcases List.mem_cons.mp hb with rfl | hb
      · exact hk
      · exact StrictOrder.trans hk (h.1 b hb)
    · split
      · rename_i hk
        refine List.pairwise_cons.mpr ⟨fun b hb => ?_, ih h.2⟩
        rcases mem_insertEntry hb with rfl | hb
        · exact hk
        · exact h.1 b hb
      · rename_i h1 h2
        have := StrictOrder.connected h1 h2
        subst this
        exact List.pairwise_cons.mpr h

end Entries

def lookup [DecidableEq K] (k : K) : List (K × V) → Option V
  | [] => none
  | e :: rest => if k = e.1 then some e.2 else lookup k rest

def empty : OrderedMap K V := ⟨[], List.Pairwise.nil⟩

instance : EmptyCollection (OrderedMap K V) := ⟨empty⟩
instance : Inhabited (OrderedMap K V) := ⟨empty⟩

def isEmpty (m : OrderedMap K V) : Bool := m.entries.isEmpty

def size (m : OrderedMap K V) : Nat := m.entries.length

def keys (m : OrderedMap K V) : List K := m.entries.map (·.1)

def get? [DecidableEq K] (m : OrderedMap K V) (k : K) : Option V := lookup k m.entries

def contains [DecidableEq K] (m : OrderedMap K V) (k : K) : Bool := (m.get? k).isSome

def insert [DecidableLT K] [StrictOrder K] (m : OrderedMap K V) (k : K) (v : V) : OrderedMap K V :=
  ⟨insertEntry k v m.entries, ascending_insertEntry m.ascending⟩

/-- The entries that satisfy `p`. -/
def filter (m : OrderedMap K V) (p : K → V → Bool) : OrderedMap K V :=
  ⟨m.entries.filter fun e => p e.1 e.2, List.Pairwise.sublist List.filter_sublist m.ascending⟩

def erase [DecidableEq K] (m : OrderedMap K V) (k : K) : OrderedMap K V := m.filter fun k' _ => k' ≠ k

/-- Later entries of the list replace earlier ones with the same key. -/
def ofList [DecidableLT K] [StrictOrder K] (l : List (K × V)) : OrderedMap K V :=
  l.foldl (fun m e => m.insert e.1 e.2) empty

/-- The entries that follow the cursor; all entries without one. -/
def after [DecidableLT K] (m : OrderedMap K V) : Option K → List (K × V)
  | none => m.entries
  | some cursor => m.entries.filter fun e => decide (cursor < e.1)

section Lookup

variable [DecidableEq K]

omit [LT K] in
theorem mem_of_lookup {k : K} {v : V} {l : List (K × V)} (h : lookup k l = some v) : (k, v) ∈ l := by
  induction l with
  | nil => simp [lookup] at h
  | cons a l ih =>
    simp only [lookup] at h
    split at h
    · rename_i hk; cases h; subst hk; exact List.mem_cons_self
    · exact List.mem_cons_of_mem _ (ih h)

theorem lookup_of_mem [StrictOrder K] {k : K} {v : V} {l : List (K × V)} (hs : Ascending l)
    (h : (k, v) ∈ l) : lookup k l = some v := by
  induction l with
  | nil => simp at h
  | cons a l ih =>
    simp only [Ascending, List.pairwise_cons] at hs
    simp only [lookup]
    rcases List.mem_cons.mp h with rfl | h
    · simp
    · split
      · rename_i hk
        have := hs.1 _ h
        simp only [hk] at this
        exact absurd this (StrictOrder.irrefl _)
      · exact ih hs.2 h

theorem lookup_eq_some_iff [StrictOrder K] {k : K} {v : V} {l : List (K × V)} (hs : Ascending l) :
    lookup k l = some v ↔ (k, v) ∈ l := ⟨mem_of_lookup, lookup_of_mem hs⟩

theorem lookup_insertEntry [DecidableLT K] [StrictOrder K] (k : K) (v : V) (k' : K) (l : List (K × V)) :
    lookup k' (insertEntry k v l) = if k' = k then some v else lookup k' l := by
  induction l with
  | nil => simp [insertEntry, lookup]
  | cons a l ih =>
    simp only [insertEntry]
    split
    · simp [lookup]
    · rename_i h1
      split
      · rename_i h2
        simp only [lookup, ih]
        by_cases hk : k' = k
        · subst hk
          have : k' ≠ a.1 := by rintro rfl; exact StrictOrder.irrefl _ h2
          simp [this]
        · simp [hk]
      · rename_i h2
        have := StrictOrder.connected h1 h2
        by_cases hk : k' = k
        · simp [lookup, hk]
        · simp [lookup, hk, this ▸ hk]

theorem lookup_filter (p : K → V → Bool) (k : K) {l : List (K × V)} [StrictOrder K] (hs : Ascending l) :
    lookup k (l.filter fun e => p e.1 e.2) = (lookup k l).filter (p k) := by
  induction l with
  | nil => simp [lookup]
  | cons a l ih =>
    simp only [Ascending, List.pairwise_cons] at hs
    rw [List.filter_cons]
    split
    · rename_i hp
      simp only [lookup]
      split
      · rename_i hk; subst hk; simp [Option.filter, hp]
      · exact ih hs.2
    · rename_i hp
      rw [ih hs.2]
      simp only [lookup]
      split
      · rename_i hk
        subst hk
        have : lookup a.1 l = none := by
          cases hl : lookup a.1 l with
          | none => rfl
          | some v => exact absurd (hs.1 _ (mem_of_lookup hl)) (StrictOrder.irrefl _)
        simp [this, Option.filter, hp]
      · rfl

end Lookup

theorem keys_ascending (m : OrderedMap K V) : m.keys.Pairwise (· < ·) := List.pairwise_map.mpr m.ascending

section View

variable [DecidableEq K]

theorem get?_empty (k : K) : (empty : OrderedMap K V).get? k = none := rfl

theorem contains_iff {m : OrderedMap K V} {k : K} : m.contains k = true ↔ ∃ v, m.get? k = some v := by
  rw [contains, Option.isSome_iff_exists]

theorem get?_insert [DecidableLT K] [StrictOrder K] (m : OrderedMap K V) (k : K) (v : V) (k' : K) :
    (m.insert k v).get? k' = if k' = k then some v else m.get? k' :=
  lookup_insertEntry k v k' m.entries

theorem get?_filter [StrictOrder K] (m : OrderedMap K V) (p : K → V → Bool) (k : K) :
    (m.filter p).get? k = (m.get? k).filter (p k) := lookup_filter p k m.ascending

theorem get?_erase [StrictOrder K] (m : OrderedMap K V) (k k' : K) :
    (m.erase k).get? k' = if k' = k then none else m.get? k' := by
  rw [erase, get?_filter]
  by_cases h : k' = k
  · simp [h, Option.filter]; split <;> rfl
  · simp only [h, if_false]
    cases m.get? k' <;> simp [Option.filter, h]

theorem get?_eq_some_iff [StrictOrder K] {m : OrderedMap K V} {k : K} {v : V} :
    m.get? k = some v ↔ (k, v) ∈ m.entries := lookup_eq_some_iff m.ascending

theorem contains_insert [DecidableLT K] [StrictOrder K] (m : OrderedMap K V) (k : K) (v : V) (k' : K) :
    (m.insert k v).contains k' = (decide (k' = k) || m.contains k') := by
  simp only [contains, get?_insert]
  split <;> simp [*]

theorem contains_erase [StrictOrder K] (m : OrderedMap K V) (k k' : K) :
    (m.erase k).contains k' = (decide (k' ≠ k) && m.contains k') := by
  simp only [contains, get?_erase]
  split <;> simp [*]

theorem contains_of_filter [StrictOrder K] {m : OrderedMap K V} {p : K → V → Bool} {k : K}
    (h : (m.filter p).contains k = true) : m.contains k = true ∧ ∃ v, p k v = true := by
  rw [contains, get?_filter] at h
  cases hv : m.get? k with
  | none => rw [hv] at h; simp at h
  | some v => rw [hv] at h; exact ⟨by simp [contains, hv], v, by simpa [Option.filter] using h⟩

theorem mem_keys [StrictOrder K] {m : OrderedMap K V} {k : K} : k ∈ m.keys ↔ m.contains k = true := by
  rw [contains_iff, keys, List.mem_map]
  constructor
  · rintro ⟨e, he, rfl⟩
    exact ⟨e.2, get?_eq_some_iff.mpr he⟩
  · rintro ⟨v, hv⟩
    exact ⟨(k, v), get?_eq_some_iff.mp hv, rfl⟩

theorem entries_eq_of_lookup_eq [StrictOrder K] :
    ∀ {l l' : List (K × V)}, Ascending l → Ascending l' → (∀ k, lookup k l = lookup k l') → l = l' := by
  intro l
  induction l with
  | nil =>
    intro l' _ _ h
    cases l' with
    | nil => rfl
    | cons b l' => have := h b.1; simp [lookup] at this
  | cons a l ih =>
    intro l' hs hs' h
    cases l' with
    | nil => have := h a.1; simp [lookup] at this
    | cons b l' =>
      simp only [Ascending, List.pairwise_cons] at hs hs'
      have hab : a.1 = b.1 := by
        apply StrictOrder.connected
        · intro hlt
          have := h a.1
          simp only [lookup, if_true] at this
          split at this
          · rename_i he; rw [he] at hlt; exact StrictOrder.irrefl _ hlt
          · have := hs'.1 _ (mem_of_lookup this.symm)
            exact StrictOrder.irrefl _ (StrictOrder.trans hlt this)
        · intro hlt
          have := h b.1
          simp only [lookup, if_true] at this
          split at this
          · rename_i he; rw [he] at hlt; exact StrictOrder.irrefl _ hlt
          · have := hs.1 _ (mem_of_lookup this)
            exact StrictOrder.irrefl _ (StrictOrder.trans hlt this)
      have hv : a.2 = b.2 := by
        have := h a.1
        simpa [lookup, hab] using this
      have htail : l = l' := by
        apply ih hs.2 hs'.2
        intro k
        by_cases hk : k = a.1
        · subst hk
          have h1 : lookup a.1 l = none := by
            cases hl : lookup a.1 l with
            | none => rfl
            | some v => exact absurd (hs.1 _ (mem_of_lookup hl)) (StrictOrder.irrefl _)
          have h2 : lookup a.1 l' = none := by
            cases hl : lookup a.1 l' with
            | none => rfl
            | some v =>
              have := hs'.1 _ (mem_of_lookup hl)
              rw [hab] at this
              exact absurd this (StrictOrder.irrefl _)
          rw [h1, h2]
        · have := h k
          simpa [lookup, hk, hab ▸ hk] using this
      have : a = b := Prod.ext hab hv
      rw [this, htail]

/-- Maps are equal when they hold the same value under each key. -/
theorem ext_get? [StrictOrder K] {m m' : OrderedMap K V} (h : ∀ k, m.get? k = m'.get? k) : m = m' := by
  obtain ⟨l, hl⟩ := m
  obtain ⟨l', hl'⟩ := m'
  have := entries_eq_of_lookup_eq hl hl' h
  subst this
  rfl

theorem isEmpty_iff_get? [StrictOrder K] {m : OrderedMap K V} :
    m.isEmpty = true ↔ ∀ k, m.get? k = none := by
  obtain ⟨l, hl⟩ := m
  cases l with
  | nil => simp [isEmpty, get?, lookup]
  | cons a l =>
    simp only [isEmpty, List.isEmpty_cons, Bool.false_eq_true, false_iff]
    intro h
    have := h a.1
    simp [get?, lookup] at this

end View

instance [DecidableEq K] [DecidableEq V] : DecidableEq (OrderedMap K V) := fun m m' =>
  decidable_of_iff (m.entries = m'.entries)
    ⟨fun h => by cases m; cases m'; simp_all, fun h => by rw [h]⟩

end OrderedMap
end ShareIndex
