import ShareIndex.Proofs.Store.Matching

/-!
# ShareIndex.Proofs.Store.Splitting

What a pattern means: a key that matches can be cut into pieces, one for each character of the pattern.

* `Splits`              — such a cut, for any notion of the characters that wildcards take and of those that are alike.
* `verdicts`            — what a matcher computes for the same two notions; both matchers are of this kind.
* `verdicts_iff_splits` — it computes whether there is a cut.
* `matches_iff_splits`, `globMatches_iff_splits` — the cuts that the matcher in memory finds, and that of the database.
* `matching_agrees`     — so they find the same cuts, unless the database takes a character for another.
-/

namespace ShareIndex
namespace Store

/-- A key is cut into pieces that the characters of a pattern take, in their order: `*` takes any number of free
characters, `?` takes one, and every other character takes one that is like it. -/
inductive Splits (free : Char → Prop) (alike : Char → Char → Prop) : List Char → List Char → Prop where
  | nothing : Splits free alike [] []
  | run {glob taken rest : List Char} : (∀ c ∈ taken, free c) → Splits free alike glob rest →
    Splits free alike ('*' :: glob) (taken ++ rest)
  | one {c : Char} {glob rest : List Char} : free c → Splits free alike glob rest →
    Splits free alike ('?' :: glob) (c :: rest)
  | exactly {c d : Char} {glob rest : List Char} : c ≠ '*' → c ≠ '?' → alike c d → Splits free alike glob rest →
    Splits free alike (c :: glob) (d :: rest)

namespace Splits

variable {free : Char → Prop} {alike : Char → Char → Prop} {c : Char} {glob key : List Char}

theorem nil_iff : Splits free alike [] key ↔ key = [] := by
  constructor
  · intro h
    cases h
    rfl
  · rintro rfl
    exact .nothing

theorem run_iff : Splits free alike ('*' :: glob) key ↔
    ∃ taken rest, key = taken ++ rest ∧ (∀ c ∈ taken, free c) ∧ Splits free alike glob rest := by
  constructor
  · intro h
    cases h with
    | run hfree hrest => exact ⟨_, _, rfl, hfree, hrest⟩
    | exactly hrun => exact absurd rfl hrun
  · rintro ⟨taken, rest, rfl, hfree, hrest⟩
    exact .run hfree hrest

theorem one_iff : Splits free alike ('?' :: glob) key ↔
    ∃ d rest, key = d :: rest ∧ free d ∧ Splits free alike glob rest := by
  constructor
  · intro h
    cases h with
    | one hfree hrest => exact ⟨_, _, rfl, hfree, hrest⟩
    | exactly _ hone => exact absurd rfl hone
  · rintro ⟨d, rest, rfl, hfree, hrest⟩
    exact .one hfree hrest

theorem exactly_iff (hrun : c ≠ '*') (hone : c ≠ '?') : Splits free alike (c :: glob) key ↔
    ∃ d rest, key = d :: rest ∧ alike c d ∧ Splits free alike glob rest := by
  constructor
  · intro h
    cases h with
    | run => exact absurd rfl hrun
    | one => exact absurd rfl hone
    | exactly _ _ halike hrest => exact ⟨_, _, rfl, halike, hrest⟩
  · rintro ⟨d, rest, rfl, halike, hrest⟩
    exact .exactly hrun hone halike hrest

end Splits

/-! ### Verdicts -/

/-- The verdicts on a text of a matcher whose wildcards take the characters that `free` admits. -/
def verdicts (free : Char → Bool) (alike : Char → Char → Bool) (text : List Char) : List Piece → List Bool
  | [] => endVerdicts text
  | .run :: rest => runThen free text (verdicts free alike text rest)
  | .one :: rest => oneThen free text (verdicts free alike text rest)
  | .exactly c :: rest => oneThen (alike c) text (verdicts free alike text rest)

/-- A run that follows a run takes nothing that it could not take itself. -/
theorem runThen_runThen (free : Char → Bool) (text : List Char) (vs : List Bool) :
    runThen free text (runThen free text vs) = runThen free text vs := by
  induction text generalizing vs with
  | nil => rfl
  | cons c text ih =>
    cases vs with
    | nil => rfl
    | cons v vs =>
      simp only [runThen, ih]
      cases v <;> cases free c <;> simp

section Verdicts

variable {free : Char → Bool} {alike : Char → Char → Bool}

/-- The verdicts are the same whether runs that follow a run are kept or not. -/
theorem verdicts_ofGlob (text glob : List Char) :
    verdicts free alike text (Piece.ofGlob glob) = verdicts free alike text (glob.map Piece.ofChar) := by
  induction glob with
  | nil => rfl
  | cons c glob ih =>
    rw [List.map_cons, Piece.ofGlob]
    split
    · rename_i rest hc hglob
      rw [hglob, verdicts] at ih
      rw [hc, verdicts, verdicts, ← ih, runThen_runThen]
    · cases Piece.ofChar c <;> rw [verdicts, verdicts, ih]

/-- The verdicts on the tail of a text are the tail of the verdicts. -/
theorem verdicts_cons (c : Char) (text : List Char) (pieces : List Piece) :
    ∃ v, verdicts free alike (c :: text) pieces = v :: verdicts free alike text pieces := by
  induction pieces with
  | nil => exact ⟨false, rfl⟩
  | cons piece rest ih =>
    obtain ⟨v, hv⟩ := ih
    cases piece <;> exact ⟨_, by rw [verdicts, hv]; rfl⟩

theorem endVerdicts_iff (text : List Char) : (endVerdicts text).headD false = true ↔ text = [] := by
  cases text <;> simp [endVerdicts]

theorem oneThen_iff (p : Char → Bool) (text : List Char) (pieces : List Piece) :
    (oneThen p text (verdicts free alike text pieces)).headD false = true ↔
      ∃ d rest, text = d :: rest ∧ p d = true ∧ (verdicts free alike rest pieces).headD false = true := by
  cases text with
  | nil => simp [oneThen]
  | cons d rest =>
    obtain ⟨v, hv⟩ := @verdicts_cons free alike d rest pieces
    rw [hv, oneThen_cons, List.headD_cons, Bool.and_eq_true]
    constructor
    · exact fun h => ⟨d, rest, rfl, h⟩
    · rintro ⟨d', rest', htext, h⟩
      obtain ⟨rfl, rfl⟩ := List.cons.inj htext
      exact h

theorem runThen_iff (text : List Char) (pieces : List Piece) :
    (runThen free text (verdicts free alike text pieces)).headD false = true ↔
      ∃ taken rest, text = taken ++ rest ∧ (∀ c ∈ taken, free c = true) ∧
        (verdicts free alike rest pieces).headD false = true := by
  induction text with
  | nil =>
    constructor
    · exact fun h => ⟨[], [], rfl, nofun, h⟩
    · rintro ⟨taken, rest, htext, -, h⟩
      obtain ⟨-, rfl⟩ := List.append_eq_nil_iff.mp htext.symm
      exact h
  | cons c text ih =>
    obtain ⟨v, hv⟩ := @verdicts_cons free alike c text pieces
    have hhead : (verdicts free alike (c :: text) pieces).headD false = v := by rw [hv]; rfl
    rw [hv, runThen]
    simp only [List.headD_cons, Bool.or_eq_true, Bool.and_eq_true, ih]
    constructor
    · rintro (h | ⟨hc, taken, rest, rfl, hfree, h⟩)
      · exact ⟨[], c :: text, rfl, nofun, hhead.trans h⟩
      · exact ⟨c :: taken, rest, rfl, List.forall_mem_cons.mpr ⟨hc, hfree⟩, h⟩
    · rintro ⟨taken, rest, htext, hfree, h⟩
      cases taken with
      | nil =>
        obtain rfl : c :: text = rest := htext
        exact .inl (hhead.symm.trans h)
      | cons d taken =>
        obtain ⟨rfl, rfl⟩ := List.cons.inj htext
        obtain ⟨hc, hfree⟩ := List.forall_mem_cons.mp hfree
        exact .inr ⟨hc, taken, rest, rfl, hfree, h⟩

/-- A matcher finds a cut exactly when there is one. -/
theorem verdicts_iff_splits (glob key : List Char) :
    (verdicts free alike key (Piece.ofGlob glob)).headD false = true ↔
      Splits (free · = true) (alike · · = true) glob key := by
  rw [verdicts_ofGlob]
  induction glob generalizing key with
  | nil => rw [List.map_nil, verdicts, endVerdicts_iff, Splits.nil_iff]
  | cons c glob ih =>
    rw [List.map_cons]
    by_cases hrun : c = '*'
    · subst hrun
      have hpiece : Piece.ofChar '*' = .run := rfl
      rw [hpiece, verdicts, runThen_iff, Splits.run_iff]
      simp only [ih]
    by_cases hone : c = '?'
    · subst hone
      have hpiece : Piece.ofChar '?' = .one := rfl
      rw [hpiece, verdicts, oneThen_iff, Splits.one_iff]
      simp only [ih]
    · have hpiece : Piece.ofChar c = .exactly c := by simp [Piece.ofChar, hrun, hone]
      rw [hpiece, verdicts, oneThen_iff, Splits.exactly_iff hrun hone]
      simp only [ih]

end Verdicts

/-! ### The two matchers -/

/-- In memory, wildcards take no line feed, and only the same characters are alike. -/
theorem pieceVerdicts_eq (text : List Char) (pieces : List Piece) :
    pieceVerdicts text pieces = verdicts (!Piece.isLineFeed ·) (fun c d => d == c) text pieces := by
  induction pieces with
  | nil => rfl
  | cons piece rest ih => cases piece <;> rw [pieceVerdicts, verdicts, ih]

/-- In a database, wildcards take every character, and those are alike that are read as the same one. -/
theorem tokenVerdicts_read {read : Char → Char} (hread : Transparent read) (text : List Char) (pieces : List Piece) :
    tokenVerdicts (text.map read) (pieces.map (Token.ofPiece read)) =
      verdicts (fun _ => true) (fun c d => read d == read c) text pieces := by
  induction pieces with
  | nil => exact endVerdicts_map read text
  | cons piece rest ih =>
    cases piece with
    | run =>
      rw [List.map_cons, Token.ofPiece, tokenVerdicts, ih, verdicts]
      exact runThen_map (fun _ _ => rfl) _
    | one =>
      rw [List.map_cons, Token.ofPiece, tokenVerdicts, ih, verdicts]
      exact oneThen_map (fun _ _ => rfl) _
    | exactly c =>
      rw [List.map_cons, Token.ofPiece, verdicts]
      split
      · rename_i hc
        subst hc
        rw [tokenVerdicts, ih]
        refine oneThen_map (fun d _ => ?_) _
        have hself : read '[' = '[' := (hread '[' '[' (by simp)).mpr rfl
        rw [inBracket_iff hread, hself, Bool.eq_iff_iff, beq_iff_eq, beq_iff_eq, hread d '[' (by simp)]
      · rw [tokenVerdicts, ih]
        exact oneThen_map (fun _ _ => rfl) _

/-- A bracket that stands for itself starts with a bracket. -/
theorem literalStart_bracketed (glob : List Char) :
    literalStart (glob.flatMap Pattern.bracketedChar) = literalStart glob := by
  induction glob with
  | nil => rfl
  | cons c glob ih =>
    by_cases hbracket : c = '['
    · subst hbracket
      rfl
    · have hchar : Pattern.bracketedChar c = [c] := if_neg hbracket
      rw [literalStart, literalStart] at ih ⊢
      rw [List.flatMap_cons, hchar, List.singleton_append, List.takeWhile_cons, List.takeWhile_cons, ih]

namespace Pattern

variable {p : Pattern} {key : String}

theorem matches_iff_splits : p.matches key = true ↔ Splits (· ≠ '\n') (· = ·) p.glob.toList key.toList := by
  have hfree : (fun c => (!Piece.isLineFeed c) = true) = (· ≠ '\n') := by
    funext c
    simp [Piece.isLineFeed]
  have halike : (fun c d : Char => (d == c) = true) = (· = ·) := by
    funext c d
    exact propext (beq_iff_eq.trans eq_comm)
  rw [Pattern.matches, matchesPieces, pieceVerdicts_eq, pieces, verdicts_iff_splits, hfree, halike]

/-- The database also looks for the keys by what the pattern starts with, compared as it is. -/
theorem globMatches_iff_splits (hp : '\x00' ∉ p.glob.toList) (hk : '\x00' ∉ key.toList) :
    globMatches p.bracketed key = true ↔
      literalStart p.glob.toList <+: key.toList ∧
        Splits (fun _ => True) (fun c d => known c = known d) p.glob.toList key.toList := by
  have halike : (fun c d : Char => (known d == known c) = true) = fun c d => known c = known d := by
    funext c d
    exact propext (beq_iff_eq.trans eq_comm)
  rw [globMatches, bracketed, String.toList_ofList, untilNul_eq_self (nul_not_mem_bracketed hp), untilNul_eq_self hk,
    literalStart_bracketed, matchesTokens, Token.ofGlob_bracketed transparent_known, tokenVerdicts_read transparent_known,
    Bool.and_eq_true, verdicts_iff_splits, List.isPrefixOf_iff_prefix, halike]
  simp only

end Pattern

/-- A key matches in memory exactly when it can be cut into pieces that the pattern takes, no wildcard taking a line
feed. Without line feeds this is what the database is documented to do with the bracketed pattern. What it does is to cut
the key with some characters read as others, and to compare what the pattern starts with; so it admits the same keys
if none of their characters is read as a different one of the pattern. -/
theorem matching_agrees (p : Pattern) (key : String) :
    (p.matches key = true ↔ Splits (· ≠ '\n') (· = ·) p.glob.toList key.toList) ∧
    ('\n' ∉ key.toList → documentedMatches p.bracketed key = p.matches key) ∧
    ('\x00' ∉ p.glob.toList → '\x00' ∉ key.toList →
      (globMatches p.bracketed key = true ↔ literalStart p.glob.toList <+: key.toList ∧
        Splits (fun _ => True) (fun c d => known c = known d) p.glob.toList key.toList) ∧
      ('\n' ∉ key.toList → Distinguishes p.glob.toList key.toList →
        globMatches p.bracketed key = p.matches key)) := by
  refine ⟨Pattern.matches_iff_splits, Pattern.documentedMatches_bracketed, fun hp hk => ⟨?_, fun hn hd => ?_⟩⟩
  · exact Pattern.globMatches_iff_splits hp hk
  · exact (Pattern.globMatches_documented hp hk hn hd).trans (Pattern.documentedMatches_bracketed hn)

/-- Brackets and other characters that mean something elsewhere, and a run that has to be tried twice. -/
theorem matching_agrees_brackets :
    let p : Pattern := ⟨"k[?]*.^$\\"⟩
    let key := "k[.]..^.^$\\"
    ('\n' ∉ key.toList ∧ '\x00' ∉ p.glob.toList ∧ '\x00' ∉ key.toList ∧ Distinguishes p.glob.toList key.toList) ∧
      globMatches p.bracketed key = true ∧ documentedMatches p.bracketed key = true ∧
      Splits (· ≠ '\n') (· = ·) p.glob.toList key.toList := by
  intro p key
  have hchars : '\n' ∉ key.toList ∧ '\x00' ∉ p.glob.toList ∧ '\x00' ∉ key.toList ∧
      Distinguishes p.glob.toList key.toList := by decide +kernel
  have hmatches : p.matches key = true := by decide +kernel
  obtain ⟨hsplits, hdocumented, hdatabase⟩ := matching_agrees p key
  obtain ⟨hn, hp, hk, hd⟩ := hchars
  obtain ⟨-, hsame⟩ := hdatabase hp hk
  exact ⟨⟨hn, hp, hk, hd⟩, (hsame hn hd).trans hmatches, (hdocumented hn).trans hmatches, hsplits.mp hmatches⟩

/-- The last character of the first plane is taken for the replacement character, so that the database finds a key that
does not match in memory. -/
theorem matching_differs :
    ¬ ∀ (p : Pattern) (key : String), ('\n' ∉ p.glob.toList ∧ '\x00' ∉ p.glob.toList) →
      ('\n' ∉ key.toList ∧ '\x00' ∉ key.toList) → (globMatches p.bracketed key = true ↔ p.matches key = true) := by
  intro h
  have hdatabase : globMatches (Pattern.bracketed ⟨"*\ufffd"⟩) "a\uffff" = true := by decide +kernel
  have hmemory : Pattern.matches ⟨"*\ufffd"⟩ "a\uffff" = false := by decide +kernel
  have hsame := (h ⟨"*\ufffd"⟩ "a\uffff" (by decide) (by decide)).mp hdatabase
  rw [hmemory] at hsame
  cases hsame

end Store
end ShareIndex
