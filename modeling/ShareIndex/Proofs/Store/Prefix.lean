import ShareIndex.Store.Glob

/-!
# ShareIndex.Proofs.Store.Prefix

Patterns that end in their only wildcard: a literal text, then `*`. Both matchers take them for a question
about the beginning of the key.

* `prefixVerdicts`            — what both matchers compute for such a pattern.
* `Pattern.matches_below`     — a key matches when it has the literal as a prefix and no line feed after it.
* `Pattern.globMatches_below` — for the matcher of the database the prefix alone decides.
-/

namespace ShareIndex
namespace Store

/-- A character that stands for itself in both kinds of patterns and in what they are compared with. -/
def Plain (c : Char) : Prop :=
  c ≠ '*' ∧ c ≠ '?' ∧ c ≠ '[' ∧ c ≠ '\x00' ∧ c ≠ '\ufffe' ∧ c ≠ '\uffff'

instance : DecidablePred Plain := fun _ => inferInstanceAs (Decidable (_ ∧ _))

/-- The verdicts on a text of a literal that is followed by a run of characters that `skippable` admits. -/
def prefixVerdicts (skippable : Char → Bool) (text : List Char) : List Char → List Bool
  | [] => runThen skippable text (endVerdicts text)
  | c :: literal => oneThen (· == c) text (prefixVerdicts skippable text literal)

/-- The verdicts on the tail of a text are the tail of the verdicts. -/
theorem prefixVerdicts_cons (skippable : Char → Bool) (c : Char) (text literal : List Char) :
    ∃ v, prefixVerdicts skippable (c :: text) literal = v :: prefixVerdicts skippable text literal := by
  induction literal with
  | nil => exact ⟨_, rfl⟩
  | cons d literal ih =>
    obtain ⟨v, hv⟩ := ih
    exact ⟨_, by rw [prefixVerdicts, hv]; rfl⟩

theorem prefixVerdicts_nil (skippable : Char → Bool) (text : List Char) :
    (prefixVerdicts skippable text []).headD false = text.all skippable := by
  induction text with
  | nil => rfl
  | cons c text ih =>
    simp only [prefixVerdicts] at ih
    rw [List.all_cons, ← ih]
    simp only [prefixVerdicts, endVerdicts, runThen, List.headD_cons, Bool.false_or]

theorem prefixVerdicts_iff (skippable : Char → Bool) (text literal : List Char) :
    (prefixVerdicts skippable text literal).headD false = true ↔
      ∃ rest, text = literal ++ rest ∧ rest.all skippable = true := by
  induction literal generalizing text with
  | nil =>
    rw [prefixVerdicts_nil]
    exact ⟨fun h => ⟨text, rfl, h⟩, by rintro ⟨rest, rfl, h⟩; exact h⟩
  | cons c literal ih =>
    cases text with
    | nil => simp [prefixVerdicts, oneThen]
    | cons d text =>
      obtain ⟨v, hv⟩ := prefixVerdicts_cons skippable d text literal
      simp only [prefixVerdicts, hv, oneThen, List.headD_cons, Bool.and_eq_true, beq_iff_eq, ih,
        List.cons_append, List.cons.injEq]
      constructor
      · rintro ⟨rfl, rest, rfl, h⟩
        exact ⟨rest, ⟨rfl, rfl⟩, h⟩
      · rintro ⟨rest, ⟨rfl, rfl⟩, h⟩
        exact ⟨rfl, rest, rfl, h⟩

/-! ### The two matchers -/

theorem pieceVerdicts_literal (text literal : List Char) :
    pieceVerdicts text (literal.map .exactly ++ [.run]) = prefixVerdicts (!Piece.isLineFeed ·) text literal := by
  induction literal with
  | nil => rfl
  | cons c literal ih => simp only [List.map_cons, List.cons_append, pieceVerdicts, prefixVerdicts, ih]

theorem tokenVerdicts_literal (text literal : List Char) :
    tokenVerdicts text (literal.map .exactly ++ [.run]) = prefixVerdicts (fun _ => true) text literal := by
  induction literal with
  | nil => rfl
  | cons c literal ih => simp only [List.map_cons, List.cons_append, tokenVerdicts, prefixVerdicts, ih]

theorem Piece.ofGlob_literal {literal : List Char} (h : ∀ c ∈ literal, Plain c) :
    Piece.ofGlob (literal ++ ['*']) = literal.map .exactly ++ [.run] := by
  induction literal with
  | nil => rfl
  | cons c literal ih =>
    obtain ⟨hc, hl⟩ := List.forall_mem_cons.mp h
    have hp : Piece.ofChar c = .exactly c := by simp [Piece.ofChar, hc.1, hc.2.1]
    simp [Piece.ofGlob, hp, ih hl]

theorem Token.ofGlob_literal {literal : List Char} (h : ∀ c ∈ literal, Plain c) :
    Token.ofGlob (literal ++ ['*']) = literal.map .exactly ++ [.run] := by
  induction literal with
  | nil => simp [Token.ofGlob]
  | cons c literal ih =>
    obtain ⟨hc, hl⟩ := List.forall_mem_cons.mp h
    rw [List.cons_append, Token.ofGlob, ih hl, List.map_cons, List.cons_append]
    · exact fun h => hc.1 h
    · exact fun h => hc.2.1 h
    · exact fun h => hc.2.2.1 h

theorem bracketed_literal {literal : List Char} (h : ∀ c ∈ literal, Plain c) :
    (literal ++ ['*']).flatMap Pattern.bracketedChar = literal ++ ['*'] := by
  induction literal with
  | nil => rfl
  | cons c literal ih =>
    obtain ⟨hc, hl⟩ := List.forall_mem_cons.mp h
    have hb : Pattern.bracketedChar c = [c] := by simp [Pattern.bracketedChar, hc.2.2.1]
    simp [List.cons_append, List.flatMap_cons, hb, ih hl]

theorem map_known_literal {literal : List Char} (h : ∀ c ∈ literal, Plain c) : literal.map known = literal := by
  refine (List.map_congr_left fun c hc => ?_).trans (List.map_id literal)
  simp [known, (h c hc).2.2.2.2.1, (h c hc).2.2.2.2.2]

theorem untilNul_literal {literal : List Char} (h : ∀ c ∈ literal, Plain c) (rest : List Char) :
    untilNul (literal ++ rest) = literal ++ untilNul rest :=
  List.takeWhile_append_of_pos fun c hc => by simpa using (h c hc).2.2.2.1

theorem literalStart_literal {literal : List Char} (h : ∀ c ∈ literal, Plain c) :
    literalStart (literal ++ ['*']) = literal := by
  rw [literalStart, List.takeWhile_append_of_pos]
  · simp
  · intro c hc
    simp [(h c hc).1, (h c hc).2.1, (h c hc).2.2.1]

namespace Pattern

theorem matches_below {literal : String} (h : ∀ c ∈ literal.toList, Plain c) (key : String) :
    Pattern.matches ⟨literal ++ "*"⟩ key = true ↔
      ∃ rest, key.toList = literal.toList ++ rest ∧ '\n' ∉ rest := by
  have hg : (literal ++ "*").toList = literal.toList ++ ['*'] := by simp
  rw [Pattern.matches, pieces, matchesPieces, hg, Piece.ofGlob_literal h, pieceVerdicts_literal,
    prefixVerdicts_iff]
  simp [Piece.isLineFeed, List.forall_mem_ne']

theorem globMatches_below {literal : String} (h : ∀ c ∈ literal.toList, Plain c) (key : String) :
    globMatches (Pattern.bracketed ⟨literal ++ "*"⟩) key = true ↔ ∃ rest, key.toList = literal.toList ++ rest := by
  have hg : (literal ++ "*").toList = literal.toList ++ ['*'] := by simp
  have hu : untilNul (literal.toList ++ ['*']) = literal.toList ++ ['*'] := by
    rw [untilNul_literal h]; rfl
  have hm : (literal.toList ++ ['*']).map known = literal.toList ++ ['*'] := by
    rw [List.map_append, map_known_literal h]; rfl
  rw [globMatches, bracketed, hg, bracketed_literal h, String.toList_ofList, hu, hm, literalStart_literal h,
    Bool.and_eq_true, matchesTokens, Token.ofGlob_literal h, tokenVerdicts_literal, prefixVerdicts_iff,
    List.isPrefixOf_iff_prefix]
  constructor
  · rintro ⟨⟨rest, hr⟩, -⟩
    exact ⟨rest, hr.symm⟩
  · rintro ⟨rest, hr⟩
    refine ⟨⟨rest, hr.symm⟩, (untilNul rest).map known, ?_, by simp⟩
    rw [hr, untilNul_literal h, List.map_append, map_known_literal h]

end Pattern
end Store
end ShareIndex
