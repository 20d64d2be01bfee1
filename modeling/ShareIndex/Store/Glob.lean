import ShareIndex.Store.Pattern

/-!
# ShareIndex.Store.Glob

The matcher of the database for the operator `GLOB`: `*` stands for any run of characters, `?` for any
character, and `[...]` for one character of a class. A class may start with `^` (all other characters),
then with `]` (the bracket itself), and may hold ranges `a-z`. Both texts end at their first NUL.

* `Token.ofGlob` — the tokens of a pattern; an unclosed class matches nothing.
* `known`        — the character as which the matcher reads a character.
* `literalStart` — what every match starts with, character by character.
* `globMatches`  — whether a text matches a pattern.
-/

namespace ShareIndex
namespace Store

inductive Token where
  | run
  | one
  | exactly (c : Char)
  | oneOf (inverted : Bool) (ranges : List (Char × Char))
  | unclosed
  deriving DecidableEq, Repr

/--
The members of a class as ranges, and what follows the closing bracket. `prior` is the last member, if a
range may start with it: a `-` after it that is not the last character of the class makes a range.
-/
def classRanges (prior : Option Char) : List Char → Option (List (Char × Char) × List Char)
  | [] => none
  | ']' :: rest => some ([], rest)
  | '-' :: last :: rest =>
    if prior.isSome ∧ last ≠ ']' then
      (classRanges none rest).map fun r => ((prior.getD '-', last) :: r.1, r.2)
    else (classRanges (some '-') (last :: rest)).map fun r => (('-', '-') :: r.1, r.2)
  | c :: rest => (classRanges (some c) rest).map fun r => ((c, c) :: r.1, r.2)
termination_by cs => cs.length

/-- A closing bracket at the start of a class is a member of it. -/
def classMembers : List Char → Option (List (Char × Char) × List Char)
  | ']' :: rest => (classRanges none rest).map fun r => ((']', ']') :: r.1, r.2)
  | cs => classRanges none cs

def classToken : List Char → Option (Token × List Char)
  | '^' :: cs => (classMembers cs).map fun r => (.oneOf true r.1, r.2)
  | cs => (classMembers cs).map fun r => (.oneOf false r.1, r.2)

theorem classRanges_shorter {prior : Option Char} {cs : List Char} {r : List (Char × Char) × List Char}
    (h : classRanges prior cs = some r) : r.2.length < cs.length := by
  fun_induction classRanges prior cs generalizing r with
  | case1 => simp at h
  | case2 => simp at h; subst h; simp
  | case3 prior last rest _ ih =>
    obtain ⟨q, hq, rfl⟩ := Option.map_eq_some_iff.mp h
    have := ih hq
    simp only [List.length_cons]; omega
  | case4 prior last rest _ ih =>
    obtain ⟨q, hq, rfl⟩ := Option.map_eq_some_iff.mp h
    have := ih hq
    simp only [List.length_cons] at this ⊢; omega
  | case5 prior c rest _ _ ih =>
    obtain ⟨q, hq, rfl⟩ := Option.map_eq_some_iff.mp h
    have := ih hq
    simp only [List.length_cons]; omega

theorem classMembers_shorter {cs : List Char} {r : List (Char × Char) × List Char}
    (h : classMembers cs = some r) : r.2.length < cs.length := by
  unfold classMembers at h
  split at h
  · obtain ⟨q, hq, rfl⟩ := Option.map_eq_some_iff.mp h
    have := classRanges_shorter hq
    simp only [List.length_cons]; omega
  · exact classRanges_shorter h

theorem classToken_shorter {cs : List Char} {r : Token × List Char} (h : classToken cs = some r) :
    r.2.length < cs.length := by
  unfold classToken at h
  split at h
  · obtain ⟨q, hq, rfl⟩ := Option.map_eq_some_iff.mp h
    have := classMembers_shorter hq
    simp only [List.length_cons]; omega
  · obtain ⟨q, hq, rfl⟩ := Option.map_eq_some_iff.mp h
    exact classMembers_shorter hq

/-- The tokens of a pattern; an unclosed class ends them. -/
def Token.ofGlob : List Char → List Token
  | [] => []
  | '*' :: cs =>
    match Token.ofGlob cs with
    | .run :: rest => .run :: rest
    | rest => .run :: rest
  | '?' :: cs => .one :: Token.ofGlob cs
  | '[' :: cs =>
    match _ : classToken cs with
    | some (token, rest) => token :: Token.ofGlob rest
    | none => [.unclosed]
  | c :: cs => .exactly c :: Token.ofGlob cs
termination_by cs => cs.length
decreasing_by
  all_goals simp only [List.length_cons]
  all_goals first
    | omega
    | (rename_i h; have := classToken_shorter h; simp only at this; omega)

def inRange (c : Char) (range : Char × Char) : Bool := range.1 ≤ c && c ≤ range.2

def tokenVerdicts (text : List Char) : List Token → List Bool
  | [] => endVerdicts text
  | .run :: rest => runThen (fun _ => true) text (tokenVerdicts text rest)
  | .one :: rest => oneThen (fun _ => true) text (tokenVerdicts text rest)
  | .exactly c :: rest => oneThen (· == c) text (tokenVerdicts text rest)
  | .oneOf inverted ranges :: rest =>
    oneThen (fun c => ranges.any (inRange c) != inverted) text (tokenVerdicts text rest)
  | .unclosed :: _ => []

def matchesTokens (tokens : List Token) (text : List Char) : Bool := (tokenVerdicts text tokens).headD false

/-- What a text is for the matcher: it ends at the first NUL. -/
def untilNul (cs : List Char) : List Char := cs.takeWhile (· != '\x00')

/-- The two last characters of the first plane are read as the replacement character. -/
def known (c : Char) : Char := if c = '\ufffe' || c = '\uffff' then '\ufffd' else c

/-- What a pattern starts with before anything that stands for other characters. -/
def literalStart (glob : List Char) : List Char := glob.takeWhile fun c => c != '*' && c != '?' && c != '['

/-- The keys are looked up by the literal start of the pattern, so that it is compared exactly, and the matcher reads
only the keys that are found. -/
def globMatches (glob text : String) : Bool :=
  let glob := untilNul glob.toList
  (literalStart glob).isPrefixOf text.toList &&
    matchesTokens (Token.ofGlob (glob.map known)) ((untilNul text.toList).map known)

end Store
end ShareIndex
