import ShareIndex.Repository.Key
import ShareIndex.Proofs.Store.Effect
import ShareIndex.Proofs.Store.Prefix
import Mathlib.Data.List.Basic

/-!
# ShareIndex.Proofs.Repository.Layout

The keys of the two generations, and what keeps them apart: every key of a generation is the name of a group, a
colon and the letter of the generation, alone or followed by another colon. No name of a group has a colon in it.

* `Key.Scoped`          — the keys of a generation.
* `Key.scoped_unique`   — a key belongs to one generation only, and neither the pointer nor the counters to any.
* `Key.downloadFiles_inj`, `Key.downloadFiles_ne` — different downloads have different keys, which no group has.
* `Key.admits_below`    — the pattern of a group finds the keys below it, in memory those without a line feed.
-/

namespace ShareIndex
namespace Repository
namespace Key

open Store (Backend)

def letter : Generation → Char
  | .a => 'A'
  | .b => 'B'

theorem letter_inj {g h : Generation} (e : letter g = letter h) : g = h := by
  cases g <;> cases h <;> first | rfl | exact absurd e (by decide)

/-- The key of a group in a generation, or a key below it. -/
def Scoped (g : Generation) (key : String) : Prop :=
  ∃ group ∈ groups, key = ofGroup group g ∨ ∃ rest, key = ofGroup group g ++ ":" ++ rest

theorem colon_not_mem_group {group : String} (h : group ∈ groups) : ':' ∉ group.toList := by
  simp only [groups, List.mem_cons, List.not_mem_nil, or_false] at h
  rcases h with rfl | rfl | rfl | rfl <;> decide

theorem toList_ofGroup (group : String) (g : Generation) : (ofGroup group g).toList = group.toList ++ ':' :: [letter g] := by
  cases g <;> simp [ofGroup, Generation.text, letter]

theorem toList_below (group : String) (g : Generation) (rest : String) :
    (ofGroup group g ++ ":" ++ rest).toList = group.toList ++ ':' :: letter g :: ':' :: rest.toList := by
  simp [toList_ofGroup]

/-- What stands before the first colon and what follows it are determined by the text. -/
theorem split_unique {l l' x y : List Char} (hl : ':' ∉ l) (hl' : ':' ∉ l') (h : l ++ ':' :: x = l' ++ ':' :: y) :
    l = l' ∧ x = y := by
  induction l generalizing l' with
  | nil =>
    cases l' with
    | nil => exact ⟨rfl, (List.cons.inj h).2⟩
    | cons c l' => exact absurd ((List.cons.inj h).1 ▸ List.mem_cons_self) hl'
  | cons c l ih =>
    cases l' with
    | nil => exact absurd ((List.cons.inj h).1 ▸ List.mem_cons_self) hl
    | cons c' l' =>
      obtain ⟨rfl, ht⟩ := List.cons.inj h
      obtain ⟨rfl, hx⟩ := ih (fun hm => hl (.tail _ hm)) (fun hm => hl' (.tail _ hm)) ht
      exact ⟨rfl, hx⟩

theorem group_unique {group group' : String} {x y : List Char} (hg : group ∈ groups) (hg' : group' ∈ groups)
    (h : group.toList ++ ':' :: x = group'.toList ++ ':' :: y) : group = group' ∧ x = y := by
  obtain ⟨h1, h2⟩ := split_unique (colon_not_mem_group hg) (colon_not_mem_group hg') h
  exact ⟨String.toList_inj.mp h1, h2⟩

theorem Scoped.toList {g : Generation} {key : String} (h : Scoped g key) :
    ∃ group ∈ groups, ∃ rest, key.toList = group.toList ++ ':' :: letter g :: rest := by
  obtain ⟨group, hg, rfl | ⟨rest, rfl⟩⟩ := h
  · exact ⟨group, hg, [], toList_ofGroup group g⟩
  · exact ⟨group, hg, _, toList_below group g rest⟩

theorem scoped_unique {g h : Generation} {key : String} (hg : Scoped g key) (hh : Scoped h key) : g = h := by
  obtain ⟨group, hm, rest, e⟩ := hg.toList
  obtain ⟨group', hm', rest', e'⟩ := hh.toList
  have := (group_unique hm hm' (e.symm.trans e')).2
  exact letter_inj (List.cons.inj this).1

theorem not_scoped_of_colon {g : Generation} {key : String} (h : ':' ∉ key.toList) : ¬ Scoped g key := by
  intro hs
  obtain ⟨group, -, rest, e⟩ := hs.toList
  rw [e] at h
  simp at h

theorem not_scoped_active (g : Generation) : ¬ Scoped g active := not_scoped_of_colon (by decide)

theorem not_scoped_counters (g : Generation) : ¬ Scoped g counters := not_scoped_of_colon (by decide)

theorem active_ne_counters : active ≠ counters := by decide

/-! ### Places -/

theorem scoped_ofGroup {group : String} (h : group ∈ groups) (g : Generation) : Scoped g (ofGroup group g) :=
  ⟨group, h, .inl rfl⟩

theorem scoped_below {group : String} (h : group ∈ groups) (g : Generation) (rest : String) :
    Scoped g (ofGroup group g ++ ":" ++ rest) := ⟨group, h, .inr ⟨rest, rfl⟩⟩

theorem scoped_downloads (g : Generation) : Scoped g (downloads g) := scoped_ofGroup (by decide) g

theorem scoped_pages (g : Generation) : Scoped g (pages g) := scoped_ofGroup (by decide) g

theorem scoped_files (g : Generation) : Scoped g (files g) := scoped_ofGroup (by decide) g

theorem scoped_downloadFiles (g : Generation) (download : String) : Scoped g (downloadFiles g download) :=
  scoped_below (by decide) g download

theorem downloadFiles_inj {g h : Generation} {d e : String} (heq : downloadFiles g d = downloadFiles h e) :
    g = h ∧ d = e := by
  have := congrArg String.toList heq
  rw [downloadFiles, downloadFiles, toList_below, toList_below] at this
  have hg : downloadFileGroup ∈ groups := by decide
  obtain ⟨hl, hr⟩ := List.cons.inj (group_unique hg hg this).2
  exact ⟨letter_inj hl, String.toList_inj.mp (List.cons.inj hr).2⟩

theorem downloadFiles_ne {group : String} (hg : group ∈ groups) (g h : Generation) (d : String) :
    downloadFiles g d ≠ ofGroup group h := by
  intro e
  have := congrArg String.toList e
  rw [downloadFiles, toList_below, toList_ofGroup] at this
  have hf : downloadFileGroup ∈ groups := by decide
  have := (group_unique hf hg this).2
  cases (List.cons.inj this).2

/-! ### Patterns -/

theorem plain_below {group : String} (h : group ∈ groups) (g : Generation) :
    ∀ c ∈ (ofGroup group g ++ ":").toList, Store.Plain c := by
  have hall : ((ofGroup group g ++ ":").toList.all fun c => decide (Store.Plain c)) = true := by
    simp only [groups, List.mem_cons, List.not_mem_nil, or_false] at h
    rcases h with rfl | rfl | rfl | rfl <;> cases g <;> decide
  exact fun c hc => of_decide_eq_true (List.all_eq_true.mp hall c hc)

theorem children_eq (group : String) (g : Generation) : children group g = ⟨ofGroup group g ++ ":" ++ "*"⟩ := by
  rw [children, childrenOfGroup, String.append_assoc]
  rfl

/-- Whether a scan can find the key. -/
def Visible : Backend → String → Prop
  | .memory _, key => '\n' ∉ key.toList
  | .database _, _ => True

instance (s : Backend) (key : String) : Decidable (Visible s key) :=
  match s with
  | .memory _ => inferInstanceAs (Decidable ('\n' ∉ key.toList))
  | .database _ => inferInstanceAs (Decidable True)

theorem below_of_admits {s : Backend} {group : String} {g : Generation} {key : String} (hg : group ∈ groups)
    (h : s.admits (children group g) key = true) : ∃ rest, key = ofGroup group g ++ ":" ++ rest := by
  have : ∃ rest, key.toList = (ofGroup group g ++ ":").toList ++ rest := by
    rw [children_eq] at h
    cases s with
    | memory s =>
      obtain ⟨rest, hr, -⟩ := (Store.Pattern.matches_below (plain_below hg g) key).mp h
      exact ⟨rest, hr⟩
    | database d => exact (Store.Pattern.globMatches_below (plain_below hg g) key).mp h
  obtain ⟨rest, hr⟩ := this
  exact ⟨String.ofList rest, String.toList_inj.mp (by rw [String.toList_append, String.toList_ofList, hr])⟩

theorem admits_below {s : Backend} {group : String} (hg : group ∈ groups) (g : Generation) (rest : String)
    (h : Visible s (ofGroup group g ++ ":" ++ rest)) :
    s.admits (children group g) (ofGroup group g ++ ":" ++ rest) = true := by
  have hl : (ofGroup group g ++ ":" ++ rest).toList = (ofGroup group g ++ ":").toList ++ rest.toList :=
    String.toList_append
  rw [children_eq]
  cases s with
  | memory s =>
    have hn : '\n' ∉ rest.toList := fun hn => by
      have hv : '\n' ∉ (ofGroup group g ++ ":" ++ rest).toList := h
      rw [hl] at hv
      exact hv (List.mem_append_right _ hn)
    rw [Backend.admits, Store.Pattern.matches_below (plain_below hg g)]
    exact ⟨rest.toList, hl, hn⟩
  | database d =>
    rw [Backend.admits, Store.Pattern.globMatches_below (plain_below hg g)]
    exact ⟨rest.toList, hl⟩

end Key
end Repository
end ShareIndex
