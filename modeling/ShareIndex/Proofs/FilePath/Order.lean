import ShareIndex.FilePath
import ShareIndex.OrderedMap
import Mathlib.Data.List.Nodup

/-!
# ShareIndex.Proofs.FilePath.Order

The order of paths is a total order of their components, and sorting by it keeps paths with the same components in
the order in which they were.

* `Component.precedes_trans`, `FilePath.precedesList_trans` — the orders are transitive; no two different lists of
  components are incomparable.
* `FilePath.atMost_trans`, `FilePath.atMost_total` — what sorting relies on.
* `pairwise_mergeSort_ties` — in a list that has been sorted, items that compare equal stand as they stood before.
* `mem_take_of_countP` — what stands among the first of a sorted list.
-/

namespace ShareIndex

namespace Component

theorem precedes_iff {a b : Component} :
    a.precedes b = true ↔ a.rank < b.rank ∨ ∃ x y, a = normal x ∧ b = normal y ∧ x < y := by
  cases a <;> cases b <;> simp [precedes, rank]

theorem eq_of_rank {a b : Component} (h : a.rank = b.rank) : a = b ∨ ∃ x y, a = normal x ∧ b = normal y := by
  cases a <;> cases b <;> simp [rank] at h ⊢

theorem precedes_irrefl (a : Component) : a.precedes a = false := by
  cases a with
  | normal name => exact decide_eq_false (StrictOrder.irrefl name)
  | root | current | parent => rfl

theorem precedes_trans {a b c : Component} (h1 : a.precedes b = true) (h2 : b.precedes c = true) :
    a.precedes c = true := by
  rw [precedes_iff] at *
  rcases h1 with h1 | ⟨x, y, rfl, rfl, h1⟩ <;> rcases h2 with h2 | ⟨x', y', hx, rfl, h2⟩
  · exact .inl (Nat.lt_trans h1 h2)
  · subst hx; exact .inl h1
  · exact .inl h2
  · cases hx; exact .inr ⟨x, y', rfl, rfl, StrictOrder.trans h1 h2⟩

theorem precedes_connected {a b : Component} (h1 : a.precedes b = false) (h2 : b.precedes a = false) : a = b := by
  rw [Bool.eq_false_iff, ne_eq, precedes_iff, not_or] at h1 h2
  have hrank : a.rank = b.rank := by omega
  rcases eq_of_rank hrank with h | ⟨x, y, rfl, rfl⟩
  · exact h
  · rw [StrictOrder.connected (fun h => h1.2 ⟨x, y, rfl, rfl, h⟩) fun h => h2.2 ⟨y, x, rfl, rfl, h⟩]

end Component

namespace FilePath

theorem precedesList_irrefl (as : List Component) : precedesList as as = false := by
  induction as with
  | nil => rfl
  | cons a as ih => rw [precedesList, if_pos rfl, ih]

theorem precedesList_trans {as bs cs : List Component} (h1 : precedesList as bs = true)
    (h2 : precedesList bs cs = true) : precedesList as cs = true := by
  induction as generalizing bs cs with
  | nil =>
    cases cs with
    | nil => cases bs <;> cases h2
    | cons c cs => rfl
  | cons a as ih =>
    cases bs with
    | nil => cases h1
    | cons b bs =>
      cases cs with
      | nil => cases h2
      | cons c cs =>
        rw [precedesList] at h1 h2 ⊢
        by_cases hab : a = b
        · subst hab
          rw [if_pos rfl] at h1
          by_cases hac : a = c
          · rw [if_pos hac] at h2 ⊢
            exact ih h1 h2
          · rw [if_neg hac] at h2 ⊢
            exact h2
        · rw [if_neg hab] at h1
          by_cases hbc : b = c
          · rw [if_neg (hbc ▸ hab)]
            exact hbc ▸ h1
          · rw [if_neg hbc] at h2
            have hac := Component.precedes_trans h1 h2
            rw [if_neg fun h => by rw [h, Component.precedes_irrefl] at hac; cases hac]
            exact hac

theorem precedesList_connected {as bs : List Component} (h1 : precedesList as bs = false)
    (h2 : precedesList bs as = false) : as = bs := by
  induction as generalizing bs with
  | nil =>
    cases bs with
    | nil => rfl
    | cons b bs => cases h1
  | cons a as ih =>
    cases bs with
    | nil => cases h2
    | cons b bs =>
      rw [precedesList] at h1 h2
      by_cases hab : a = b
      · rw [if_pos hab] at h1
        rw [if_pos hab.symm] at h2
        rw [hab, ih h1 h2]
      · rw [if_neg hab] at h1
        rw [if_neg fun h => hab h.symm] at h2
        exact absurd (Component.precedes_connected h1 h2) hab

theorem atMost_iff {p q : FilePath} :
    p.atMost q = true ↔ p.precedes q = true ∨ p.components = q.components := by
  rw [atMost, Bool.not_eq_true', precedes, precedes]
  constructor
  · intro h
    by_cases hp : precedesList p.components q.components = true
    · exact .inl hp
    · exact .inr (precedesList_connected (Bool.eq_false_iff.mpr hp) h)
  · rintro (h | h)
    · rw [Bool.eq_false_iff]
      intro hq
      have := precedesList_trans h hq
      rw [precedesList_irrefl] at this
      cases this
    · rw [h, precedesList_irrefl]

theorem atMost_trans {p q r : FilePath} (h1 : p.atMost q = true) (h2 : q.atMost r = true) : p.atMost r = true := by
  rw [atMost_iff] at *
  rcases h1 with h1 | h1
  · rcases h2 with h2 | h2
    · exact .inl (precedesList_trans h1 h2)
    · exact .inl (by rw [precedes, ← h2]; exact h1)
  · rcases h2 with h2 | h2
    · exact .inl (by rw [precedes, h1]; exact h2)
    · exact .inr (h1.trans h2)

theorem atMost_total (p q : FilePath) : (p.atMost q || q.atMost p) = true := by
  rw [Bool.or_eq_true, atMost_iff, atMost_iff]
  by_cases h : q.precedes p = true
  · exact .inr (.inl h)
  · rcases atMost_iff.mp (show p.atMost q = true by rw [atMost, Bool.eq_false_iff.mpr h]; rfl) with h | h
    · exact .inl (.inl h)
    · exact .inl (.inr h)

end FilePath

section Sorting

variable {α : Type} {le : α → α → Bool} {R : α → α → Prop} {l : List α}

theorem not_sublist_pair {a b : α} (hl : l.Nodup) (h : [a, b].Sublist l) : ¬ [b, a].Sublist l := by
  induction l with
  | nil => cases h
  | cons c l ih =>
    obtain ⟨hc, hl⟩ := List.nodup_cons.mp hl
    intro h'
    rw [List.cons_sublist_cons'] at h h'
    rcases h with h | ⟨rfl, h⟩ <;> rcases h' with h' | ⟨hb, h'⟩
    · exact ih hl h h'
    · exact hc (hb ▸ h.subset (by simp))
    · exact hc (h'.subset (by simp))
    · exact hc (List.singleton_sublist.mp h')

theorem sublist_pair_or {a b : α} (ha : a ∈ l) (hb : b ∈ l) (hne : a ≠ b) : [a, b].Sublist l ∨ [b, a].Sublist l := by
  induction l with
  | nil => cases ha
  | cons c l ih =>
    rcases List.mem_cons.mp ha with rfl | hal
    · rcases List.mem_cons.mp hb with hb | hb
      · exact absurd hb.symm hne
      · exact .inl ((List.singleton_sublist.mpr hb).cons_cons a)
    · rcases List.mem_cons.mp hb with rfl | hb
      · exact .inr ((List.singleton_sublist.mpr hal).cons_cons b)
      · exact (ih hal hb).imp (·.cons c) (·.cons c)

/-- Items that compare equal stand in a sorted list as they stood before. -/
theorem pairwise_mergeSort_ties (trans : ∀ a b c, le a b = true → le b c = true → le a c = true)
    (total : ∀ a b, (le a b || le b a) = true) (hn : l.Nodup) (hl : l.Pairwise R) :
    (l.mergeSort le).Pairwise fun a b => le a b = true ∧ (le b a = true → R a b) := by
  have hsorted := List.pairwise_mergeSort trans total l
  have hnodup : (l.mergeSort le).Nodup := (List.mergeSort_perm l le).nodup_iff.mpr hn
  rw [List.pairwise_iff_forall_sublist] at hsorted hl ⊢
  intro a b hab
  refine ⟨hsorted hab, fun hba => hl ?_⟩
  have hmem : ∀ c ∈ [a, b], c ∈ l := fun c hc => List.mem_mergeSort.mp (hab.subset hc)
  have hne : a ≠ b := by
    rintro rfl
    exact not_sublist_pair hnodup hab hab
  rcases sublist_pair_or (hmem a (by simp)) (hmem b (by simp)) hne with h | h
  · exact h
  · exact absurd (List.pair_sublist_mergeSort trans total hba h) (not_sublist_pair hnodup hab)

/-- What has fewer than `n` others before it in a sorted list is among the first `n`. -/
theorem mem_take_of_countP [DecidableEq α] {a : α} {n : Nat} (hl : l.Pairwise fun x y => le x y = true) (ha : a ∈ l)
    (hn : l.countP (fun b => decide (b ≠ a) && le b a) < n) : a ∈ l.take n := by
  obtain ⟨front, back, rfl, hfront⟩ := List.eq_append_cons_of_mem ha
  have hbefore : ∀ b ∈ front, (decide (b ≠ a) && le b a) = true := by
    intro b hb
    have hle := (List.pairwise_append.mp hl).2.2 b hb a List.mem_cons_self
    have hne : b ≠ a := fun h => hfront (h ▸ hb)
    simp [hne, hle]
  have hlength : front.length < n := by
    rw [List.countP_append, List.countP_eq_length.mpr hbefore] at hn
    omega
  rw [List.take_append, List.mem_append]
  right
  obtain ⟨m, hm⟩ := Nat.exists_eq_succ_of_ne_zero (Nat.sub_ne_zero_of_lt hlength)
  rw [hm]
  exact List.mem_cons_self

end Sorting
end ShareIndex
