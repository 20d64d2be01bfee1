import ShareIndex.Text.Blank
import Mathlib.Data.List.TakeWhile

/-!
# ShareIndex.Proofs.Text.Blank

What is left of a text without the blanks at its ends.

* `IsTrimmed`      — a text between blanks, whose own ends are not blank; or nothing, of a text of blanks only.
* `isTrimmed_trim` — trimming leaves such a text.
* `trim_eq_iff`    — and no other one.
* `isBlank_toLower` — capitals do not matter for it.
-/

namespace ShareIndex
namespace Text

variable {p : Char → Bool} {cs : List Char}

theorem dropEndWhile_append (p : Char → Bool) (cs : List Char) :
    dropEndWhile p cs ++ (cs.reverse.takeWhile p).reverse = cs := by
  rw [dropEndWhile, ← List.reverse_append, List.takeWhile_append_dropWhile, List.reverse_reverse]

theorem satisfies_of_mem_dropped {c : Char} (h : c ∈ (cs.reverse.takeWhile p).reverse) : p c = true :=
  List.mem_takeWhile_imp (List.mem_reverse.mp h)

theorem getLast?_dropEndWhile {c : Char} (h : (dropEndWhile p cs).getLast? = some c) : p c = false := by
  rw [dropEndWhile, List.getLast?_reverse] at h
  have hnot := List.head?_dropWhile_not p cs.reverse
  rwa [h] at hnot

/-- What is left of a text without the blanks at its ends, unless it is blank: its ends are not blank. -/
def IsTrimmed (cs : List Char) : Option String → Prop
  | none => ∀ c ∈ cs, isBlank c = true
  | some text => ∃ before after, cs = before ++ text.toList ++ after ∧ (∀ c ∈ before ++ after, isBlank c = true) ∧
      (∃ c, text.toList.head? = some c ∧ isBlank c = false) ∧ ∃ c, text.toList.getLast? = some c ∧ isBlank c = false

theorem blank_of_trim (h : trim cs = []) : ∀ c ∈ cs, isBlank c = true := by
  intro c hc
  have hrest := dropEndWhile_append isBlank (cs.dropWhile isBlank)
  rw [show dropEndWhile isBlank (cs.dropWhile isBlank) = [] from h, List.nil_append] at hrest
  rw [← List.takeWhile_append_dropWhile (p := isBlank) (l := cs), List.mem_append] at hc
  rcases hc with hc | hc
  · exact List.mem_takeWhile_imp hc
  · rw [← hrest] at hc
    exact satisfies_of_mem_dropped hc

theorem isTrimmed_trim (h : trim cs ≠ []) : IsTrimmed cs (some (String.ofList (trim cs))) := by
  let start := cs.takeWhile isBlank
  let middle := cs.dropWhile isBlank
  have hcs : start ++ middle = cs := List.takeWhile_append_dropWhile
  have hmiddle : trim cs ++ (middle.reverse.takeWhile isBlank).reverse = middle := dropEndWhile_append isBlank middle
  obtain ⟨first, rest, htrim⟩ := List.exists_cons_of_ne_nil h
  have hfirst : isBlank first = false := by
    have hnot := List.head?_dropWhile_not isBlank cs
    rwa [show cs.dropWhile isBlank = middle from rfl, ← hmiddle, htrim, List.cons_append, List.head?_cons] at hnot
  refine ⟨start, (middle.reverse.takeWhile isBlank).reverse, ?_, fun c hc => ?_, ⟨first, ?_, hfirst⟩, ?_⟩
  · rw [String.toList_ofList, List.append_assoc, hmiddle, hcs]
  · rcases List.mem_append.mp hc with hc | hc
    · exact List.mem_takeWhile_imp hc
    · exact satisfies_of_mem_dropped hc
  · rw [String.toList_ofList, htrim, List.head?_cons]
  · rw [String.toList_ofList]
    exact ⟨_, List.getLast?_eq_some_getLast h, getLast?_dropEndWhile (List.getLast?_eq_some_getLast h)⟩

/-! ### Texts between blanks -/

theorem dropWhile_of_head? (h : ∀ c, cs.head? = some c → p c = false) : cs.dropWhile p = cs := by
  cases cs with
  | nil => rfl
  | cons c cs => exact List.dropWhile_cons_of_neg (by simp [h c rfl])

theorem dropEndWhile_between {after : List Char} (ha : ∀ c ∈ after, p c = true)
    (hlast : ∀ c, cs.getLast? = some c → p c = false) : dropEndWhile p (cs ++ after) = cs := by
  rw [dropEndWhile, List.reverse_append, List.dropWhile_append_of_pos (by simpa using ha),
    dropWhile_of_head? (by simpa using hlast), List.reverse_reverse]

theorem trim_between {before text after : List Char} (hb : ∀ c ∈ before ++ after, isBlank c = true)
    (hfirst : ∀ c, text.head? = some c → isBlank c = false) (hlast : ∀ c, text.getLast? = some c → isBlank c = false) :
    trim (before ++ text ++ after) = text := by
  have hbefore : ∀ c ∈ before, isBlank c = true := fun c hc => hb c (List.mem_append_left _ hc)
  have hafter : ∀ c ∈ after, isBlank c = true := fun c hc => hb c (List.mem_append_right _ hc)
  rw [trim, List.append_assoc, List.dropWhile_append_of_pos hbefore]
  cases text with
  | nil => rw [List.nil_append, List.dropWhile_eq_nil_iff.mpr hafter]; rfl
  | cons c text =>
    rw [dropWhile_of_head? (by simpa using hfirst)]
    exact dropEndWhile_between hafter hlast

/-- Trimming leaves the text between blanks whose own ends are not blank. -/
theorem trim_eq_iff {text : List Char} : trim cs = text ↔
    (∀ c, text.head? = some c → isBlank c = false) ∧ (∀ c, text.getLast? = some c → isBlank c = false) ∧
      ∃ before after, cs = before ++ text ++ after ∧ ∀ c ∈ before ++ after, isBlank c = true := by
  constructor
  · rintro rfl
    by_cases h : trim cs = []
    · rw [h]
      exact ⟨nofun, nofun, cs, [], by simp, by simpa using blank_of_trim h⟩
    · obtain ⟨before, after, hcs, hblank, ⟨first, hfirst, hf⟩, last, hlast, hl⟩ := isTrimmed_trim h
      rw [String.toList_ofList] at hcs hfirst hlast
      exact ⟨fun c hc => Option.some.inj (hfirst.symm.trans hc) ▸ hf,
        fun c hc => Option.some.inj (hlast.symm.trans hc) ▸ hl, before, after, hcs, hblank⟩
  · rintro ⟨hfirst, hlast, before, after, rfl, hblank⟩
    exact trim_between hblank hfirst hlast

theorem trim_map {f : Char → Char} (hf : ∀ c, isBlank (f c) = isBlank c) (cs : List Char) :
    trim (cs.map f) = (trim cs).map f := by
  have hp : isBlank ∘ f = isBlank := funext hf
  rw [trim, dropEndWhile, List.dropWhile_map, hp, ← List.map_reverse, List.dropWhile_map, hp, ← List.map_reverse]
  rfl

/-! ### Capitals -/

theorem toLower_cases (c : Char) :
    c.toLower = c ∨ 65 ≤ c.toNat ∧ c.toNat ≤ 90 ∧ c.toLower.toNat = c.toNat + 32 := by
  unfold Char.toLower
  split
  · rename_i h
    have hc : 65 ≤ c.toNat ∧ c.toNat ≤ 90 := h
    refine .inr ⟨hc.1, hc.2, ?_⟩
    change (c.val + ('a'.val - 'A'.val)).toNat = c.toNat + 32
    rw [UInt32.toNat_add, show ('a'.val - 'A'.val).toNat = 32 from rfl]
    exact Nat.mod_eq_of_lt (by change c.toNat + 32 < 2 ^ 32; omega)
  · exact .inl rfl

/-- No character from `A` to `z` is blank. -/
theorem isBlank_of_letter {c : Char} (h : 65 ≤ c.toNat ∧ c.toNat ≤ 122) : isBlank c = false := by
  simp only [isBlank, Bool.or_eq_false_iff, Bool.and_eq_false_imp, decide_eq_true_eq, beq_eq_false_iff_ne]
  grind

theorem isBlank_toLower (c : Char) : isBlank c.toLower = isBlank c := by
  rcases toLower_cases c with h | ⟨hl, hu, h⟩
  · rw [h]
  · rw [isBlank_of_letter ⟨hl, by omega⟩, isBlank_of_letter (by omega)]

theorem eq_dot_of_toLower {c : Char} (h : c.toLower = '.') : c = '.' := by
  rcases toLower_cases c with hc | ⟨hl, -, hc⟩
  · exact hc.symm.trans h
  · rw [h] at hc
    exact absurd hc (by change ¬46 = c.toNat + 32; omega)

end Text

end ShareIndex
