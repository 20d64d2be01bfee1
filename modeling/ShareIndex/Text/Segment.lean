/-!
# ShareIndex.Text.Segment

A text as the list of the segments between the occurrences of a separator.

* `segments`     — the segments; a text without the separator is its own only segment.
* `joinSegments` — the inverse.
* `lastSegment`  — what follows the last separator.
-/

namespace ShareIndex
namespace Text

def segments (sep : Char) : List Char → List (List Char)
  | [] => [[]]
  | c :: cs =>
    if c = sep then [] :: segments sep cs
    else
      match segments sep cs with
      | [] => [[c]]
      | s :: rest => (c :: s) :: rest

def joinSegments (sep : Char) : List (List Char) → List Char
  | [] => []
  | [s] => s
  | s :: rest => s ++ sep :: joinSegments sep rest

def lastSegment (sep : Char) (cs : List Char) : List Char := (segments sep cs).getLastD []

theorem segments_ne_nil (sep : Char) (cs : List Char) : segments sep cs ≠ [] := by
  cases cs with
  | nil => simp [segments]
  | cons c cs =>
    simp only [segments]
    split
    · simp
    · split <;> simp

/-- Joining the segments gives the text back. -/
theorem joinSegments_segments (sep : Char) (cs : List Char) : joinSegments sep (segments sep cs) = cs := by
  induction cs with
  | nil => rfl
  | cons c cs ih =>
    simp only [segments]
    split
    · rename_i h
      subst h
      cases hs : segments c cs with
      | nil => exact absurd hs (segments_ne_nil c cs)
      | cons s rest => rw [hs] at ih; simp [joinSegments, ih]
    · split
      · rename_i hs; exact absurd hs (segments_ne_nil sep cs)
      · rename_i s rest hs
        rw [hs] at ih
        cases rest with
        | nil => simp [joinSegments] at ih ⊢; exact ih
        | cons t rest => simp [joinSegments] at ih ⊢; exact ih

/-- No segment contains the separator. -/
theorem not_mem_of_mem_segments {sep : Char} {cs s : List Char} (h : s ∈ segments sep cs) : sep ∉ s := by
  induction cs generalizing s with
  | nil => simp [segments] at h; simp [h]
  | cons c cs ih =>
    simp only [segments] at h
    split at h
    · rcases List.mem_cons.mp h with rfl | h
      · simp
      · exact ih h
    · rename_i hc
      split at h
      · simp at h; subst h; simpa using Ne.symm hc
      · rename_i t rest hs
        rcases List.mem_cons.mp h with rfl | h
        · have := ih (s := t) (by rw [hs]; simp)
          simp only [List.mem_cons, not_or]
          exact ⟨Ne.symm hc, this⟩
        · exact ih (by rw [hs]; exact List.mem_cons_of_mem _ h)

end Text
end ShareIndex
