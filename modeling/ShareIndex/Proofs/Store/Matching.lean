import ShareIndex.Proofs.Store.Prefix

/-!
# ShareIndex.Proofs.Store.Matching

The two matchers on the same pattern. The database is documented to read every character as what it is. In truth it
ends a text at its first NUL and takes some characters for others, and it looks keys up by what a pattern starts with.

* `Token.ofGlob_bracketed` — the two ways to take a pattern apart come to the same, even if characters are taken for
  others.
* `tokenVerdicts_eq`       — so do the verdicts, if no character of the key is taken for one of the pattern.
* `documentedMatches`      — the matcher of the database as it is documented.
* `documentedMatches_bracketed` — it admits the same keys as the matcher in memory, line feeds aside.
* `globMatches_documented` — the matcher of the database does what is documented, but for NULs and the characters that
  it takes for others.
-/

namespace ShareIndex
namespace Store

/-! ### Verdicts -/

theorem endVerdicts_map (f : Char → Char) (text : List Char) : endVerdicts (text.map f) = endVerdicts text := by
  induction text with
  | nil => rfl
  | cons c text ih => rw [List.map_cons, endVerdicts, endVerdicts, ih]

theorem oneThen_map {p q : Char → Bool} {f : Char → Char} {text : List Char} (h : ∀ c ∈ text, p (f c) = q c)
    (verdicts : List Bool) : oneThen p (text.map f) verdicts = oneThen q text verdicts := by
  induction text generalizing verdicts with
  | nil => rfl
  | cons c text ih =>
    obtain ⟨hc, ht⟩ := List.forall_mem_cons.mp h
    cases verdicts with
    | nil => rfl
    | cons v verdicts => rw [List.map_cons, oneThen, oneThen, hc, ih ht]

theorem runThen_map {p q : Char → Bool} {f : Char → Char} {text : List Char} (h : ∀ c ∈ text, p (f c) = q c)
    (verdicts : List Bool) : runThen p (text.map f) verdicts = runThen q text verdicts := by
  induction text generalizing verdicts with
  | nil => rfl
  | cons c text ih =>
    obtain ⟨hc, ht⟩ := List.forall_mem_cons.mp h
    cases verdicts with
    | nil => rfl
    | cons v verdicts => simp only [List.map_cons, runThen, hc, ih ht]

theorem oneThen_cons (p : Char → Bool) (c : Char) (text : List Char) {v : Bool} {verdicts : List Bool} :
    oneThen p (c :: text) (v :: verdicts) = (p c && verdicts.headD false) :: oneThen p text verdicts := rfl

/-- The verdicts on the tail of a text are the tail of the verdicts. -/
theorem pieceVerdicts_cons (c : Char) (text : List Char) (pieces : List Piece) :
    ∃ v, pieceVerdicts (c :: text) pieces = v :: pieceVerdicts text pieces := by
  induction pieces with
  | nil => exact ⟨false, rfl⟩
  | cons piece rest ih =>
    obtain ⟨v, hv⟩ := ih
    cases piece <;> exact ⟨_, by rw [pieceVerdicts, hv]; rfl⟩

/-! ### Patterns -/

/-- A way to read characters that leaves alone those that mean something in a pattern. -/
def Transparent (read : Char → Char) : Prop :=
  ∀ c d, d = '*' ∨ d = '?' ∨ d = '[' ∨ d = ']' → (read c = d ↔ c = d)

theorem transparent_id : Transparent id := fun _ _ _ => Iff.rfl

theorem transparent_known : Transparent known := by
  intro c d hd
  have hne : d ≠ '\ufffd' ∧ d ≠ '\ufffe' ∧ d ≠ '\uffff' := by
    rcases hd with rfl | rfl | rfl | rfl <;> decide
  unfold known
  split
  · rename_i hc
    constructor
    · rintro rfl
      exact absurd rfl hne.1
    · rintro rfl
      exact absurd hc (by simp [hne])
  · exact Iff.rfl

/-- What the database makes of a piece: a bracket is a class of its own, and other characters stand for what they are
read as. -/
def Token.ofPiece (read : Char → Char) : Piece → Token
  | .run => .run
  | .one => .one
  | .exactly c => if c = '[' then .oneOf false [('[', '[')] else .exactly (read c)

/-- A class of a single bracket. -/
theorem classToken_bracket (rest : List Char) :
    classToken ('[' :: ']' :: rest) = some (.oneOf false [('[', '[')], rest) := by
  simp [classToken, classMembers, classRanges]

theorem Token.ofGlob_exactly {c : Char} (h : c ≠ '*' ∧ c ≠ '?' ∧ c ≠ '[') (cs : List Char) :
    Token.ofGlob (c :: cs) = .exactly c :: Token.ofGlob cs := by
  rw [Token.ofGlob]
  · exact fun hc => h.1 hc
  · exact fun hc => h.2.1 hc
  · exact fun hc => h.2.2 hc

theorem Token.ofGlob_bracket (cs : List Char) :
    Token.ofGlob ('[' :: '[' :: ']' :: cs) = .oneOf false [('[', '[')] :: Token.ofGlob cs := by
  rw [Token.ofGlob]
  split
  · rename_i token rest h
    rw [classToken_bracket] at h
    obtain ⟨rfl, rfl⟩ := Prod.mk.inj (Option.some.inj h)
    rfl
  · rename_i h
    rw [classToken_bracket] at h
    cases h

section Reading

variable {read : Char → Char} (hread : Transparent read)

include hread

theorem Token.ofGlob_bracketed (glob : List Char) :
    Token.ofGlob ((glob.flatMap Pattern.bracketedChar).map read) = (Piece.ofGlob glob).map (Token.ofPiece read) := by
  have hself : ∀ d, d = '*' ∨ d = '?' ∨ d = '[' ∨ d = ']' → read d = d := fun d hd => (hread d d hd).mpr rfl
  induction glob with
  | nil => simp [Token.ofGlob, Piece.ofGlob]
  | cons c glob ih =>
    by_cases hbracket : c = '['
    · subst hbracket
      have hc : Pattern.bracketedChar '[' = ['[', '[', ']'] := rfl
      rw [List.flatMap_cons, hc, List.map_append, List.map_cons, List.map_cons, List.map_singleton,
        hself '[' (by simp), hself ']' (by simp), List.cons_append, List.cons_append, List.singleton_append,
        Token.ofGlob_bracket, ih]
      rfl
    have hc : Pattern.bracketedChar c = [c] := if_neg hbracket
    rw [List.flatMap_cons, hc, List.map_append, List.map_singleton, List.singleton_append]
    by_cases hrun : c = '*'
    · -- a run that follows a run adds nothing, to either
      subst hrun
      rw [hself '*' (by simp), Token.ofGlob, ih]
      cases hg : Piece.ofGlob glob with
      | nil => simp [Piece.ofGlob, Piece.ofChar, hg, Token.ofPiece]
      | cons piece rest =>
        cases piece with
        | run | one => simp [Piece.ofGlob, Piece.ofChar, hg, Token.ofPiece]
        | exactly d => by_cases hd : d = '[' <;> simp [Piece.ofGlob, Piece.ofChar, hg, Token.ofPiece, hd]
    by_cases hone : c = '?'
    · subst hone
      rw [hself '?' (by simp), Token.ofGlob, ih]
      simp [Piece.ofGlob, Piece.ofChar, Token.ofPiece]
    · have hplain : read c ≠ '*' ∧ read c ≠ '?' ∧ read c ≠ '[' := by
        refine ⟨?_, ?_, ?_⟩ <;> rw [Ne, hread c _ (by simp)] <;> assumption
      have hpiece : Piece.ofChar c = .exactly c := by simp [Piece.ofChar, hrun, hone]
      rw [Token.ofGlob_exactly hplain, ih]
      simp [Piece.ofGlob, hpiece, Token.ofPiece, hbracket]

/-- The class of a bracket holds the bracket only. -/
theorem inBracket_iff (c : Char) : ([('[', '[')].any (inRange (read c)) != false) = (c == '[') := by
  have hrange : inRange (read c) ('[', '[') = true ↔ read c = '[' := by
    simp only [inRange, Bool.and_eq_true, decide_eq_true_eq]
    constructor
    · intro ⟨hlow, hhigh⟩
      exact Char.le_antisymm hhigh hlow
    · intro h
      rw [h]
      exact ⟨Char.le_refl _, Char.le_refl _⟩
  rw [Bool.eq_iff_iff, beq_iff_eq, ← hread c '[' (by simp), ← hrange]
  simp

/-- Both matchers compute the same verdicts on a key without line feeds. -/
theorem tokenVerdicts_eq {key : List Char} {pieces : List Piece} (hn : '\n' ∉ key)
    (hd : ∀ c, .exactly c ∈ pieces → ∀ d ∈ key, read c = read d → c = d) :
    tokenVerdicts (key.map read) (pieces.map (Token.ofPiece read)) = pieceVerdicts key pieces := by
  have hfeed : ∀ c ∈ key, true = !Piece.isLineFeed c := by
    intro c hc
    have hne : c ≠ '\n' := fun he => hn (he ▸ hc)
    simp [Piece.isLineFeed, hne]
  induction pieces with
  | nil => exact endVerdicts_map read key
  | cons piece rest ih =>
    have hrest := ih fun c hc => hd c (List.mem_cons_of_mem _ hc)
    cases piece with
    | run =>
      rw [List.map_cons, Token.ofPiece, tokenVerdicts, hrest, pieceVerdicts]
      exact runThen_map hfeed _
    | one =>
      rw [List.map_cons, Token.ofPiece, tokenVerdicts, hrest, pieceVerdicts]
      exact oneThen_map hfeed _
    | exactly c =>
      rw [List.map_cons, Token.ofPiece, pieceVerdicts]
      split
      · rename_i hc
        rw [tokenVerdicts, hrest]
        refine oneThen_map (fun d _ => ?_) _
        subst hc
        exact inBracket_iff hread d
      · rw [tokenVerdicts, hrest]
        refine oneThen_map (fun d hm => ?_) _
        rw [Bool.eq_iff_iff, beq_iff_eq, beq_iff_eq]
        constructor
        · exact fun he => (hd c List.mem_cons_self d hm he.symm).symm
        · rintro rfl
          rfl

end Reading

/-! ### Keys -/

theorem untilNul_eq_self {text : List Char} (h : '\x00' ∉ text) : untilNul text = text := by
  induction text with
  | nil => rfl
  | cons c text ih =>
    rw [List.mem_cons, not_or] at h
    have hc : (c != '\x00') = true := by simpa using Ne.symm h.1
    show List.takeWhile _ (c :: text) = _
    rw [List.takeWhile_cons, hc]
    exact congrArg (c :: ·) (ih h.2)

theorem mem_of_exactly_mem {c : Char} {glob : List Char} (h : .exactly c ∈ Piece.ofGlob glob) : c ∈ glob := by
  induction glob with
  | nil => cases h
  | cons d glob ih =>
    have hsplit : .exactly c = Piece.ofChar d ∨ .exactly c ∈ Piece.ofGlob glob := by
      rw [Piece.ofGlob] at h
      split at h
      · rename_i rest _ hg
        rw [hg]
        rcases List.mem_cons.mp h with h | h
        · cases h
        · exact .inr (List.mem_cons_of_mem _ h)
      · exact List.mem_cons.mp h
    rcases hsplit with h | h
    · unfold Piece.ofChar at h
      split at h
      · cases h
      · split at h
        · cases h
        · obtain rfl := Piece.exactly.inj h
          exact List.mem_cons_self
    · exact List.mem_cons_of_mem _ (ih h)

/-- What matches begins with what the pattern begins with. -/
theorem literalStart_isPrefixOf {glob key : List Char} (h : (pieceVerdicts key (Piece.ofGlob glob)).headD false = true) :
    (literalStart (glob.flatMap Pattern.bracketedChar)).isPrefixOf key = true := by
  induction glob generalizing key with
  | nil => rfl
  | cons c glob ih =>
    by_cases hspecial : c = '*' ∨ c = '?' ∨ c = '['
    · have hnil : literalStart ((c :: glob).flatMap Pattern.bracketedChar) = [] := by
        rcases hspecial with rfl | rfl | rfl <;> rfl
      rw [hnil]
      rfl
    · rw [not_or, not_or] at hspecial
      obtain ⟨hrun, hone, hbracket⟩ := hspecial
      have hchar : Pattern.bracketedChar c = [c] := if_neg hbracket
      have hpiece : Piece.ofGlob (c :: glob) = .exactly c :: Piece.ofGlob glob := by
        simp [Piece.ofGlob, Piece.ofChar, hrun, hone]
      have hstart : literalStart ((c :: glob).flatMap Pattern.bracketedChar) =
          c :: literalStart (glob.flatMap Pattern.bracketedChar) := by
        simp [literalStart, hchar, hrun, hone, hbracket]
      rw [hpiece, pieceVerdicts] at h
      cases key with
      | nil => cases h
      | cons d key =>
        obtain ⟨v, hv⟩ := pieceVerdicts_cons d key (Piece.ofGlob glob)
        rw [hv, oneThen_cons, List.headD_cons, Bool.and_eq_true, beq_iff_eq] at h
        rw [hstart, List.isPrefixOf_cons_cons, ih h.2, Bool.and_true, beq_iff_eq]
        exact h.1.symm

/-- The matcher of the database as it is documented: every character is compared as it is, in all of the text. -/
def documentedMatches (glob text : String) : Bool := matchesTokens (Token.ofGlob glob.toList) text.toList

/-- No character of the key is taken for a different one of the pattern. -/
def Distinguishes (glob key : List Char) : Prop := ∀ c ∈ glob, ∀ d ∈ key, known c = known d → c = d

instance (glob key : List Char) : Decidable (Distinguishes glob key) :=
  decidable_of_iff (glob.all fun c => key.all fun d => known c != known d || c == d) <| by
    simp [Distinguishes, Decidable.imp_iff_not_or]

namespace Pattern

variable {p : Pattern} {key : String}

theorem matchesTokens_bracketed {read : Char → Char} (hread : Transparent read) (hn : '\n' ∉ key.toList)
    (hd : ∀ c ∈ p.glob.toList, ∀ d ∈ key.toList, read c = read d → c = d) :
    matchesTokens (Token.ofGlob ((p.glob.toList.flatMap bracketedChar).map read)) (key.toList.map read) =
      p.matches key := by
  rw [matchesTokens, Token.ofGlob_bracketed hread, tokenVerdicts_eq hread hn fun c hc => hd c (mem_of_exactly_mem hc)]
  rfl

/-- A run does not reach over a line feed in memory; other keys are admitted by both matchers or by neither. -/
theorem documentedMatches_bracketed (hn : '\n' ∉ key.toList) : documentedMatches p.bracketed key = p.matches key := by
  have h := matchesTokens_bracketed (p := p) transparent_id hn fun c _ d _ he => he
  rw [List.map_id, List.map_id] at h
  rw [documentedMatches, bracketed, String.toList_ofList, h]

theorem nul_not_mem_bracketed (hp : '\x00' ∉ p.glob.toList) : '\x00' ∉ p.glob.toList.flatMap bracketedChar := by
  intro hm
  obtain ⟨c, hc, hm⟩ := List.mem_flatMap.mp hm
  unfold bracketedChar at hm
  split at hm
  · simp at hm
  · obtain rfl := List.mem_singleton.mp hm
    exact hp hc

/-- Without NULs, the matcher of the database does what is documented unless it takes a character for another. -/
theorem globMatches_documented (hp : '\x00' ∉ p.glob.toList) (hk : '\x00' ∉ key.toList) (hn : '\n' ∉ key.toList)
    (hd : Distinguishes p.glob.toList key.toList) : globMatches p.bracketed key = documentedMatches p.bracketed key := by
  have hverdict := matchesTokens_bracketed transparent_known hn hd
  rw [documentedMatches_bracketed hn, globMatches, bracketed, String.toList_ofList,
    untilNul_eq_self (nul_not_mem_bracketed hp), untilNul_eq_self hk, hverdict]
  cases hm : p.matches key with
  | false => exact Bool.and_false _
  | true => rw [literalStart_isPrefixOf hm]; rfl

end Pattern

-- the last character of the first plane is taken for the replacement character
example : globMatches "*\ufffd" "a\uffff" = true ∧ documentedMatches "*\ufffd" "a\uffff" = false := by decide +kernel

end Store
end ShareIndex
