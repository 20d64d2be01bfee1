import ShareIndex.Text.Markup
import Mathlib.Data.List.Basic

/-!
# ShareIndex.Proofs.Text.Markup

What escaping leaves of a text.

* `markup`          — the characters of a page that make up its tags.
* `unescape`        — a text with its entities replaced, from its start on.
* `markup_escape`   — none of these characters is left in a text that has been escaped.
* `entity_of_split` — an ampersand in it starts an entity.
* `unescape_escape` — nothing is lost.
-/

namespace ShareIndex
namespace Text

def isMarkup (c : Char) : Bool := ['<', '>', '"', '\''].contains c

def markup (cs : List Char) : List Char := cs.filter isMarkup

@[simp] theorem markup_nil : markup [] = [] := rfl

@[simp] theorem markup_append (cs ds : List Char) : markup (cs ++ ds) = markup cs ++ markup ds := List.filter_append ..

theorem markup_eq_nil_iff {cs : List Char} : markup cs = [] ↔ ∀ c ∈ cs, isMarkup c = false := by
  simp [markup]

/-- What stands for the special characters in a text that has been escaped. -/
def entities : List String := ["&amp;", "&lt;", "&gt;", "&quot;", "&#39;"]

/-- A text with its entities replaced by what they stand for. -/
def unescape : List Char → List Char
  | '&' :: 'a' :: 'm' :: 'p' :: ';' :: rest => '&' :: unescape rest
  | '&' :: 'l' :: 't' :: ';' :: rest => '<' :: unescape rest
  | '&' :: 'g' :: 't' :: ';' :: rest => '>' :: unescape rest
  | '&' :: 'q' :: 'u' :: 'o' :: 't' :: ';' :: rest => '"' :: unescape rest
  | '&' :: '#' :: '3' :: '9' :: ';' :: rest => '\'' :: unescape rest
  | c :: rest => c :: unescape rest
  | [] => []

/-- A character is written as itself, or as an entity that stands for it. -/
theorem escapeChar_cases (c : Char) : (escapeChar c = [c] ∧ c ≠ '&' ∧ isMarkup c = false) ∨
    ∃ e ∈ entities, escapeChar c = e.toList ∧ ∀ rest, unescape (e.toList ++ rest) = c :: unescape rest := by
  unfold escapeChar entity?
  split
  · rename_i e he
    right
    split at he
    · exact Option.some.inj he ▸ ⟨"&amp;", by decide, rfl, fun _ => rfl⟩
    · exact Option.some.inj he ▸ ⟨"&lt;", by decide, rfl, fun _ => rfl⟩
    · exact Option.some.inj he ▸ ⟨"&gt;", by decide, rfl, fun _ => rfl⟩
    · exact Option.some.inj he ▸ ⟨"&quot;", by decide, rfl, fun _ => rfl⟩
    · exact Option.some.inj he ▸ ⟨"&#39;", by decide, rfl, fun _ => rfl⟩
    · cases he
  · rename_i he
    left
    split at he
    any_goals cases he
    simp_all [isMarkup]

theorem unescape_cons {c : Char} (h : c ≠ '&') (rest : List Char) : unescape (c :: rest) = c :: unescape rest := by
  conv_lhs => unfold unescape
  split <;> simp_all

/-- Each entity is an ampersand and characters that are neither an ampersand nor part of the markup. -/
theorem entities_plain : ∀ e ∈ entities, ∃ tail, e.toList = '&' :: tail ∧ '&' ∉ tail ∧ markup e.toList = [] := by
  intro e he
  refine ⟨e.toList.tail, ?_⟩
  revert e
  decide

@[simp] theorem escape_cons (c : Char) (cs : List Char) : escape (c :: cs) = escapeChar c ++ escape cs :=
  List.flatMap_cons

@[simp] theorem markup_escape (cs : List Char) : markup (escape cs) = [] := by
  induction cs with
  | nil => rfl
  | cons c cs ih =>
    rw [escape_cons, markup_append, ih, List.append_nil]
    rcases escapeChar_cases c with ⟨he, -, hc⟩ | ⟨e, hmem, he, -⟩
    · rw [he, markup, List.filter_cons_of_neg (by simp [hc]), List.filter_nil]
    · obtain ⟨-, -, -, hmarkup⟩ := entities_plain e hmem
      rw [he, hmarkup]

theorem unescape_escape (cs : List Char) : unescape (escape cs) = cs := by
  induction cs with
  | nil => rfl
  | cons c cs ih =>
    rw [escape_cons]
    rcases escapeChar_cases c with ⟨he, hc, -⟩ | ⟨e, -, he, hunescape⟩
    · rw [he, List.singleton_append, unescape_cons hc, ih]
    · rw [he, hunescape, ih]

/-- By induction on the text: the ampersand is in what the first character is written as, where it comes first, or
in what follows. -/
theorem entity_of_split {cs before after : List Char} (h : escape cs = before ++ '&' :: after) :
    ∃ e ∈ entities, e.toList <+: '&' :: after := by
  induction cs generalizing before with
  | nil => cases before <;> cases h
  | cons c cs ih =>
    rw [escape_cons, List.append_eq_append_iff] at h
    rcases h with ⟨middle, -, hrest⟩ | ⟨middle, hchar, hrest⟩
    · exact ih hrest
    · cases middle with
      | nil => exact @ih [] hrest.symm
      | cons d middle =>
        obtain ⟨rfl, rfl⟩ := List.cons.inj hrest
        rcases escapeChar_cases c with ⟨he, hc, -⟩ | ⟨e, hmem, he, -⟩
        · have hsingle := he.symm.trans hchar
          cases before with
          | nil => exact absurd (List.cons.inj hsingle).1 hc
          | cons b before => simp at hsingle
        · obtain ⟨tail, htail, hplain, -⟩ := entities_plain e hmem
          have hsame := (he.symm.trans hchar).symm.trans htail
          cases before with
          | nil => exact ⟨e, hmem, escape cs, by rw [← he, hchar]; rfl⟩
          | cons b before =>
            obtain ⟨-, rfl⟩ := List.cons.inj hsame
            simp at hplain

end Text
end ShareIndex
