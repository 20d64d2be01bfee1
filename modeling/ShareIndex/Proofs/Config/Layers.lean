import ShareIndex.Config.Settings
import Mathlib.Data.List.Induction

/-!
# ShareIndex.Proofs.Config.Layers

Which layer decides what a setting is, and that one table made of all layers says the same.

* `Decides`           — the value of a setting in the highest layer that mentions it.
* `Datum.merge`       — one datum over another: tables are merged key by key, and all else is replaced.
* `Layers.merged`     — the layers merged into one table, from the lowest on.
* `read?_merged`      — reading a setting from that table is reading it from the layers.
-/

namespace ShareIndex

/-- What is found first from the end is found there and nowhere after it. -/
theorem findSome?_reverse_eq_some_iff {α β : Type} {f : α → Option β} {xs : List α} {b : β} :
    xs.reverse.findSome? f = some b ↔
      ∃ before x after, xs = before ++ x :: after ∧ f x = some b ∧ ∀ y ∈ after, f y = none := by
  rw [List.findSome?_eq_some_iff]
  constructor
  · rintro ⟨after, x, before, hxs, hx, hafter⟩
    refine ⟨before.reverse, x, after.reverse, ?_, hx, fun y hy => hafter y (List.mem_reverse.mp hy)⟩
    rw [← List.reverse_reverse xs, hxs]
    simp
  · rintro ⟨before, x, after, rfl, hx, hafter⟩
    exact ⟨after.reverse, x, before.reverse, by simp, hx, fun y hy => hafter y (List.mem_reverse.mp hy)⟩

/-! ### Merging -/

namespace Datum

def IsTable (d : Datum) : Prop := ∃ entries, d = .table entries

mutual

/-- One datum over another. Two tables are merged; all else replaces what is below it. -/
def merge : (low high : Datum) → Datum
  | .table low, .table high => .table (mergeEach low high ++ high.filter fun e => (low.lookup e.1).isNone)
  | _, high => high

/-- The entries of the lower table, with those of the same keys over them. -/
def mergeEach : (low high : List (String × Datum)) → List (String × Datum)
  | [], _ => []
  | (key, d) :: low, high => (key, match high.lookup key with
    | none => d
    | some upper => merge d upper) :: mergeEach low high

end

theorem lookup_mergeEach (low high : List (String × Datum)) (key : String) :
    (mergeEach low high).lookup key = (low.lookup key).map fun d => match high.lookup key with
      | none => d
      | some upper => merge d upper := by
  induction low with
  | nil => rfl
  | cons e low ih =>
    obtain ⟨own, d⟩ := e
    rw [mergeEach, List.lookup_cons, List.lookup_cons]
    split
    · rename_i h
      rw [eq_of_beq h]
      rfl
    · exact ih

theorem merge_cases (low high : Datum) : merge low high = high ∨ IsTable (merge low high) ∧ IsTable high := by
  unfold merge
  split
  · exact .inr ⟨⟨_, rfl⟩, ⟨_, rfl⟩⟩
  · exact .inl rfl

theorem isTable_merge {low high : Datum} (h : IsTable high) : IsTable (merge low high) := by
  rcases merge_cases low high with heq | hboth
  · rwa [heq]
  · exact hboth.1

theorem lookup_filter (p : String → Bool) (entries : List (String × Datum)) (key : String) :
    (entries.filter fun e => p e.1).lookup key = if p key then entries.lookup key else none := by
  induction entries with
  | nil => simp
  | cons e entries ih =>
    obtain ⟨own, d⟩ := e
    rw [List.filter_cons, List.lookup_cons]
    by_cases hkey : key = own
    · subst hkey
      cases hp : p key with
      | true => simp
      | false => simpa [hp] using ih
    · rw [beq_false_of_ne hkey]
      split
      · rw [List.lookup_cons, beq_false_of_ne hkey]
        exact ih
      · exact ih

theorem lookup_put (own : String) (d : Datum) (entries : List (String × Datum)) (key : String) :
    (put own d entries).lookup key = if own = key then some d else entries.lookup key := by
  rw [put, List.lookup_append, lookup_filter (· != own)]
  by_cases h : own = key
  · subst h
    simp
  · rw [if_neg h, if_pos (bne_iff_ne.mpr (Ne.symm h)), List.lookup_cons, beq_false_of_ne (Ne.symm h)]
    exact Option.or_none

/-- An entry of merged tables: what only one of them has, or the one over the other. -/
theorem entry?_merge {low high : Datum} (hl : IsTable low) (hh : IsTable high) (key : String) :
    entry? key (merge low high) = match high.entry? key with
      | none => low.entry? key
      | some upper => some (match low.entry? key with
        | none => upper
        | some d => merge d upper) := by
  obtain ⟨low, rfl⟩ := hl
  obtain ⟨high, rfl⟩ := hh
  simp only [merge, entry?, List.lookup_append, lookup_mergeEach]
  cases hlow : low.lookup key with
  | none =>
    rw [Option.map_none, Option.none_or, lookup_filter fun own => (low.lookup own).isNone, hlow]
    cases high.lookup key <;> rfl
  | some d => cases high.lookup key <;> rfl

end Datum

namespace Config
namespace Layers

/-! ### The layer that decides -/

/-- The value of a setting in the highest layer that mentions it. -/
def Decides (layers : Layers) (key : String) (d : Datum) : Prop :=
  ∃ lower layer higher, layers = lower ++ layer :: higher ∧ layer.entry? key = some d ∧
    ∀ other ∈ higher, other.entry? key = none

theorem setting?_eq_some_iff {layers : Layers} {key : String} {d : Datum} :
    layers.setting? key = some d ↔ layers.Decides key d := findSome?_reverse_eq_some_iff

theorem setting?_concat (layers : Layers) (high : Datum) (key : String) :
    setting? (layers ++ [high]) key = (high.entry? key).or (layers.setting? key) := by
  rw [setting?, List.reverse_append, List.findSome?_append, List.reverse_singleton, List.findSome?_singleton]
  rfl

theorem setting?_cons (low : Datum) (layers : Layers) (key : String) :
    setting? (low :: layers) key = (layers.setting? key).or (low.entry? key) := by
  rw [setting?, List.reverse_cons, List.findSome?_append, List.findSome?_singleton]
  rfl

/-! ### One table of all layers -/

def merged (layers : Layers) : Datum := layers.foldl Datum.merge (.table [])

variable {layers : Layers}

theorem isTable_merged (h : ∀ layer ∈ layers, layer.IsTable) : layers.merged.IsTable := by
  induction layers using List.reverseRecOn with
  | nil => exact ⟨[], rfl⟩
  | append_singleton layers high ih =>
    rw [merged, List.foldl_append]
    exact Datum.isTable_merge (h high (by simp))

/-- The merged table says of a setting what the layers say, unless that is a table. -/
theorem entry?_merged (h : ∀ layer ∈ layers, layer.IsTable) (key : String) :
    layers.merged.entry? key = layers.setting? key ∨
      ∃ d d', layers.merged.entry? key = some d ∧ layers.setting? key = some d' ∧ d.IsTable ∧ d'.IsTable := by
  induction layers using List.reverseRecOn with
  | nil => exact .inl rfl
  | append_singleton layers high ih =>
    have hlower : ∀ layer ∈ layers, layer.IsTable := fun layer hm => h layer (by simp [hm])
    have hmerged : merged (layers ++ [high]) = (merged layers).merge high := by rw [merged, List.foldl_append]; rfl
    rw [hmerged, setting?_concat, Datum.entry?_merge (isTable_merged hlower) (h high (by simp))]
    cases high.entry? key with
    | none => exact ih hlower
    | some upper =>
      rw [Option.some_or]
      dsimp only
      cases Datum.entry? key (merged layers) with
      | none => exact .inl rfl
      | some d =>
        rcases d.merge_cases upper with heq | ⟨hd, hupper⟩
        · exact .inl (congrArg some heq)
        · exact .inr ⟨_, _, rfl, rfl, hd, hupper⟩

/-- What refuses tables reads the same in the merged table as in the layers. -/
theorem read?_merged {α : Type} {read : Datum → Option α} (hread : ∀ entries, read (.table entries) = none)
    (h : ∀ layer ∈ layers, layer.IsTable) (key : String) (default : α) :
    read? [layers.merged] key read default = layers.read? key read default := by
  have hsetting : setting? [layers.merged] key = layers.merged.entry? key := by
    rw [setting?, List.reverse_singleton, List.findSome?_singleton]
  rw [read?, read?, hsetting]
  rcases entry?_merged h key with heq | ⟨d, d', hd, hd', ⟨entries, rfl⟩, ⟨entries', rfl⟩⟩
  · rw [heq]
  · rw [hd, hd']
    exact (hread entries).trans (hread entries').symm

end Layers
end Config
end ShareIndex
