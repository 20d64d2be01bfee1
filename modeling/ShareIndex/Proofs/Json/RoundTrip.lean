import ShareIndex.Json.Reader
import ShareIndex.Proofs.Json.Token

/-!
# ShareIndex.Proofs.Json.RoundTrip

Data that are written are read back.

* `Reads`       — what a text does to the stack of the reader, token by token.
* `read?_of_reads` — a text that leaves a datum and no open container has that datum.
* `Fits`        — data that have a notation of their own and are not nested too deeply.
* `reads_write` — wherever a value may stand, a datum that is written is that value.
* `read?_write` — a whole text.
* `printable_write` — no control character is written.
-/

namespace ShareIndex
namespace Json

/-! ### Readings -/

/-- The text takes the first reading to the second one. -/
inductive Reads : Reading → List Char → Reading → Prop where
  | nil (r : Reading) : Reads r [] r
  | blank {c : Char} {cs : List Char} {r r' : Reading} : isBlank c = true → Reads r cs r' → Reads r (c :: cs) r'
  | token {text rest : List Char} {t : Token} {r r1 r' : Reading} : Lexeme text t rest → r.step? t = some r1 →
      Reads r1 rest r' → Reads r (text ++ rest) r'

theorem tokensWithin?_lexeme {text rest : List Char} {t : Token} (h : Lexeme text t rest) (fuel : Nat) :
    tokensWithin? (fuel + 1) (text ++ rest) = (tokensWithin? fuel rest).map (t :: ·) := by
  obtain ⟨c, cs, rfl, hb⟩ := h.solid
  have htoken : token? (c :: (cs ++ rest)) = some (t, rest) := h.token
  simp only [List.cons_append, tokensWithin?, hb, Bool.false_eq_true, if_false, htoken]

/-- The tokens of the text, which are no more than its characters, take the first reading to the second one. -/
theorem Reads.tokens {r r' : Reading} {cs : List Char} (h : Reads r cs r') :
    ∀ fuel, cs.length ≤ fuel → ∃ ts, tokensWithin? fuel cs = some ts ∧ ts.foldlM Reading.step? r = some r' := by
  induction h with
  | nil r =>
    intro fuel _
    refine ⟨[], ?_, rfl⟩
    cases fuel <;> rfl
  | @blank c cs r r' hb _ ih =>
    intro fuel hf
    obtain ⟨fuel, rfl⟩ : ∃ m, fuel = m + 1 := ⟨fuel - 1, by simp only [List.length_cons] at hf; omega⟩
    obtain ⟨ts, ht, hs⟩ := ih fuel (by simpa using hf)
    refine ⟨ts, ?_, hs⟩
    simpa only [tokensWithin?, hb, if_true] using ht
  | @token text rest t r r1 r' hl hstep _ ih =>
    intro fuel hf
    have hpos : 0 < text.length := by
      obtain ⟨c, cs, rfl, -⟩ := hl.solid
      simp
    rw [List.length_append] at hf
    obtain ⟨fuel, rfl⟩ : ∃ m, fuel = m + 1 := ⟨fuel - 1, by omega⟩
    obtain ⟨ts, ht, hs⟩ := ih fuel (by omega)
    refine ⟨t :: ts, ?_, ?_⟩
    · rw [tokensWithin?_lexeme hl, ht]
      rfl
    · rw [List.foldlM_cons, hstep]
      exact hs

theorem read?_of_reads {d : Datum} {cs : List Char} (h : Reads (.awaitValue []) cs (.complete d [])) :
    read? cs = some d := by
  obtain ⟨ts, ht, hs⟩ := h.tokens cs.length (Nat.le_refl _)
  have ht : tokens? cs = some ts := ht
  simp [read?, ht, hs]

/-- A mark that stands for a token by itself. -/
theorem Reads.mark {c : Char} {cs : List Char} {t : Token} {r r1 r' : Reading} (hl : Lexeme [c] t cs)
    (hstep : r.step? t = some r1) (h : Reads r1 cs r') : Reads r (c :: cs) r' :=
  show Reads r ([c] ++ cs) r' from .token hl hstep h

section Marks

variable (rest : List Char)

theorem lexeme_openList : Lexeme ['['] .openList rest := ⟨⟨'[', [], rfl, rfl⟩, rfl⟩

theorem lexeme_closeList : Lexeme [']'] .closeList rest := ⟨⟨']', [], rfl, rfl⟩, rfl⟩

theorem lexeme_openTable : Lexeme ['{'] .openTable rest := ⟨⟨'{', [], rfl, rfl⟩, rfl⟩

theorem lexeme_closeTable : Lexeme ['}'] .closeTable rest := ⟨⟨'}', [], rfl, rfl⟩, rfl⟩

theorem lexeme_comma : Lexeme [','] .comma rest := ⟨⟨',', [], rfl, rfl⟩, rfl⟩

theorem lexeme_colon : Lexeme [':'] .colon rest := ⟨⟨':', [], rfl, rfl⟩, rfl⟩

end Marks

/-! ### Data -/

/-- A datum that is nested at most so deeply, whose integers have 64 bits and whose tables have each key once. -/
inductive Fits : Nat → Datum → Prop where
  | absent (depth : Nat) : Fits depth .absent
  | truth (depth : Nat) (value : Bool) : Fits depth (.truth value)
  | integer (depth : Nat) {n : Int} : Numeric n → Fits depth (.integer n)
  | text (depth : Nat) (s : String) : Fits depth (.text s)
  | list {depth : Nat} {items : List Datum} : (∀ d ∈ items, Fits depth d) → Fits (depth + 1) (.list items)
  | table {depth : Nat} {entries : List (String × Datum)} : (entries.map (·.1)).Nodup →
      (∀ e ∈ entries, Fits depth e.2) → Fits (depth + 1) (.table entries)

/-- A value may come next; a list that was just opened may also be closed. -/
def Expects (r : Reading) (stack : List Open) : Prop :=
  ∀ t, t ≠ .closeList → r.step? t = Reading.startValue? stack t

theorem expects_awaitValue (stack : List Open) : Expects (.awaitValue stack) stack := fun _ _ => rfl

theorem expects_firstItem (stack : List Open) : Expects (.firstItem stack) (.list [] :: stack) := by
  intro t ht
  cases t with
  | closeList => exact absurd rfl ht
  | openList | openTable | closeTable | comma | colon | scalar => rfl

/-- Wherever a value is expected, the text of the datum is that value. -/
def Writes (depth : Nat) (d : Datum) : Prop :=
  ∀ {r r' : Reading} {stack : List Open} {rest : List Char}, Expects r stack → stack.length + depth ≤ maxDepth →
    Delimited rest → Reads (.complete d stack) rest r' → Reads r (write d ++ rest) r'

section Values

variable {r r' : Reading} {stack : List Open} {rest : List Char}

theorem reads_scalar {text : List Char} {d : Datum} (hl : Lexeme text (.scalar d) rest) (he : Expects r stack)
    (h : Reads (.complete d stack) rest r') : Reads r (text ++ rest) r' := .token hl (he _ nofun) h

theorem delimited_writeItems (items : List Datum) (rest : List Char) : Delimited (writeItems items ++ rest) := by
  cases items with
  | nil => exact delimited_cons (by decide) rest
  | cons item items =>
    rw [writeItems, List.cons_append]
    exact delimited_cons (by decide) _

theorem delimited_writeEntries (entries : List (String × Datum)) (rest : List Char) :
    Delimited (writeEntries entries ++ rest) := by
  cases entries with
  | nil => exact delimited_cons (by decide) rest
  | cons e entries =>
    rw [writeEntries, List.cons_append]
    exact delimited_cons (by decide) _

/-- After some items of a list come the others, and its end. -/
theorem reads_writeItems {depth : Nat} {items : List Datum} (hi : ∀ d ∈ items, Writes depth d) {done : List Datum}
    {value : Datum} (hd : stack.length + (depth + 1) ≤ maxDepth)
    (h : Reads (.complete (.list (done ++ value :: items)) stack) rest r') :
    Reads (.complete value (.list done :: stack)) (writeItems items ++ rest) r' := by
  induction items generalizing done value with
  | nil => exact .mark (lexeme_closeList rest) rfl h
  | cons item items ih =>
    obtain ⟨hitem, hitems⟩ := List.forall_mem_cons.mp hi
    have hmoved : (done ++ [value]) ++ item :: items = done ++ value :: item :: items := by simp
    have hlater := ih hitems (hmoved ▸ h)
    have htext := hitem (expects_awaitValue (.list (done ++ [value]) :: stack))
      (by simp only [List.length_cons]; omega) (delimited_writeItems items rest) hlater
    simp only [writeItems, List.cons_append, List.append_assoc]
    exact .mark (lexeme_comma _) rfl htext

theorem put_eq {key : String} {value : Datum} {entries : List (String × Datum)} (h : key ∉ entries.map (·.1)) :
    Datum.put key value entries = entries ++ [(key, value)] := by
  rw [Datum.put, List.filter_eq_self.mpr]
  intro e he
  rw [bne_iff_ne]
  rintro rfl
  exact h (List.mem_map_of_mem he)

/-- A key with its value. -/
theorem reads_entry {depth : Nat} {key : String} {value : Datum} (hv : Writes depth value)
    {done : List (String × Datum)} (hstep : r.step? (.scalar (.text key)) = some (.awaitColon done key stack))
    (hd : stack.length + (depth + 1) ≤ maxDepth) (hr : Delimited rest)
    (h : Reads (.complete value (.table done key :: stack)) rest r') :
    Reads r (quote key ++ ':' :: (write value ++ rest)) r' := by
  have hvalue := hv (expects_awaitValue (.table done key :: stack)) (by simp only [List.length_cons]; omega) hr h
  exact .token (lexeme_quote key _) hstep (.mark (lexeme_colon _) rfl hvalue)

/-- After some entries of a table come the others, and its end. -/
theorem reads_writeEntries {depth : Nat} {entries : List (String × Datum)} (hi : ∀ e ∈ entries, Writes depth e.2)
    {done : List (String × Datum)} {key : String} {value : Datum} (hd : stack.length + (depth + 1) ≤ maxDepth)
    (hk : ((done ++ (key, value) :: entries).map (·.1)).Nodup)
    (h : Reads (.complete (.table (done ++ (key, value) :: entries)) stack) rest r') :
    Reads (.complete value (.table done key :: stack)) (writeEntries entries ++ rest) r' := by
  have hfree : key ∉ done.map (·.1) := by
    rw [List.map_append, List.map_cons, List.nodup_append] at hk
    exact fun hm => hk.2.2 key hm key List.mem_cons_self rfl
  induction entries generalizing done key value with
  | nil => exact .mark (lexeme_closeTable rest) (by rw [Reading.step?, Reading.continueAfter?, put_eq hfree]) h
  | cons e entries ih =>
    obtain ⟨he, hentries⟩ := List.forall_mem_cons.mp hi
    have hmoved : (done ++ [(key, value)]) ++ (e.1, e.2) :: entries = done ++ (key, value) :: e :: entries := by simp
    rw [← hmoved] at hk h
    have hnext : e.1 ∉ (done ++ [(key, value)]).map (·.1) := by
      rw [List.map_append, List.map_cons, List.nodup_append] at hk
      exact fun hm => hk.2.2 e.1 hm e.1 List.mem_cons_self rfl
    have hlater := ih hentries hk h hnext
    have htext := reads_entry he (r := .awaitKey (Datum.put key value done) stack) rfl hd
      (delimited_writeEntries entries rest) ((put_eq hfree).symm ▸ hlater)
    simp only [writeEntries, List.cons_append, List.append_assoc]
    exact .mark (lexeme_comma _) rfl htext

end Values

/-- By induction on the datum: its text is the value that is expected. -/
theorem reads_write {depth : Nat} {d : Datum} (hf : Fits depth d) : Writes depth d := by
  induction hf with
  | absent => exact fun he _ _ h => reads_scalar ⟨⟨'n', _, rfl, rfl⟩, rfl⟩ he h
  | truth _ value =>
    cases value with
    | true => exact fun he _ _ h => reads_scalar ⟨⟨'t', _, rfl, rfl⟩, rfl⟩ he h
    | false => exact fun he _ _ h => reads_scalar ⟨⟨'f', _, rfl, rfl⟩, rfl⟩ he h
  | integer _ hn => exact fun he _ hr h => reads_scalar (lexeme_render hn hr) he h
  | text _ s => exact fun he _ _ h => reads_scalar (lexeme_quote s _) he h
  | @list depth items _ ih =>
    intro r r' stack rest he hd hr h
    have hopen : r.step? .openList = some (.firstItem stack) := by
      rw [he .openList nofun, Reading.startValue?, if_pos (by omega)]
    cases items with
    | nil => exact .mark (lexeme_openList _) hopen (.mark (lexeme_closeList rest) rfl h)
    | cons item items =>
      obtain ⟨hitem, hitems⟩ := List.forall_mem_cons.mp ih
      have hlater : Reads (.complete item (.list [] :: stack)) (writeItems items ++ rest) r' :=
        reads_writeItems hitems hd h
      have htext := hitem (expects_firstItem stack) (by simp only [List.length_cons]; omega)
        (delimited_writeItems items rest) hlater
      simp only [write, List.cons_append, List.append_assoc]
      exact .mark (lexeme_openList _) hopen htext
  | @table depth entries hk _ ih =>
    intro r r' stack rest he hd hr h
    have hopen : r.step? .openTable = some (.firstKey stack) := by
      rw [he .openTable nofun, Reading.startValue?, if_pos (by omega)]
    cases entries with
    | nil => exact .mark (lexeme_openTable _) hopen (.mark (lexeme_closeTable rest) rfl h)
    | cons e entries =>
      obtain ⟨hentry, hentries⟩ := List.forall_mem_cons.mp ih
      have hlater : Reads (.complete e.2 (.table [] e.1 :: stack)) (writeEntries entries ++ rest) r' :=
        reads_writeEntries hentries hd hk h
      have htext := reads_entry hentry (r := .firstKey stack) rfl hd (delimited_writeEntries entries rest) hlater
      simp only [write, List.cons_append, List.append_assoc]
      exact .mark (lexeme_openTable _) hopen htext

/-- A datum is read as it was written. -/
theorem read?_write {d : Datum} (h : Fits maxDepth d) : read? (write d) = some d := by
  refine read?_of_reads ?_
  have hreads := reads_write h (expects_awaitValue []) (by simp) delimited_nil (.nil _)
  rwa [List.append_nil] at hreads

/-! ### Lines -/

/-- Not a control character. -/
def Printable (c : Char) : Prop := 32 ≤ c.toNat

instance : DecidablePred Printable := fun c => inferInstanceAs (Decidable (32 ≤ c.toNat))

theorem printable_of_all {cs : List Char} (h : cs.all fun c => decide (Printable c)) : ∀ c ∈ cs, Printable c :=
  fun c hc => of_decide_eq_true (List.all_eq_true.mp h c hc)

theorem printable_hexadecimal : ∀ n < 16, Printable (Hexadecimal.digitChar n) := by decide

theorem printable_escapeChar (c : Char) : ∀ d ∈ escapeChar c, Printable d := by
  unfold escapeChar
  split_ifs with h1 h2 h3 h4 h5 h6 h7 h8
  · exact printable_of_all rfl
  · exact printable_of_all rfl
  · exact printable_of_all rfl
  · exact printable_of_all rfl
  · exact printable_of_all rfl
  · exact printable_of_all rfl
  · exact printable_of_all rfl
  · have hhigh := printable_hexadecimal (c.toNat / 16) (by omega)
    have hlow := printable_hexadecimal (c.toNat % 16) (by omega)
    simp only [List.forall_mem_cons, hhigh, hlow, true_and]
    exact ⟨by decide, by decide, by decide, by decide, nofun⟩
  · exact List.forall_mem_singleton.mpr (Nat.not_lt.mp h8)

theorem printable_quote (s : String) : ∀ c ∈ quote s, Printable c := by
  intro c hc
  simp only [quote, List.cons_append, List.mem_cons, List.mem_append, escape, List.mem_flatMap, List.not_mem_nil,
    or_false] at hc
  rcases hc with rfl | ⟨d, -, hc⟩ | rfl
  · decide
  · exact printable_escapeChar d c hc
  · decide

theorem printable_digit {c : Char} (h : Decimal.isDigit c = true) : Printable c := by
  have hle : '0' ≤ c := of_decide_eq_true (Bool.and_eq_true_iff.mp h).1
  exact Nat.le_trans (by decide) (show '0'.toNat ≤ c.toNat from hle)

theorem printable_render (n : Int) : ∀ c ∈ Decimal.render n, Printable c := by
  cases n with
  | ofNat n => exact fun c hc => printable_digit (Decimal.isDigit_of_mem_digits hc)
  | negSucc n =>
    exact List.forall_mem_cons.mpr ⟨by decide, fun c hc => printable_digit (Decimal.isDigit_of_mem_digits hc)⟩

theorem printable_writeItems {items : List Datum} (h : ∀ d ∈ items, ∀ c ∈ write d, Printable c) :
    ∀ c ∈ writeItems items, Printable c := by
  induction items with
  | nil => exact printable_of_all rfl
  | cons item items ih =>
    obtain ⟨hitem, hitems⟩ := List.forall_mem_cons.mp h
    rw [writeItems, List.cons_append, List.forall_mem_cons, List.forall_mem_append]
    exact ⟨by decide, hitem, ih hitems⟩

theorem printable_writeEntries {entries : List (String × Datum)} (h : ∀ e ∈ entries, ∀ c ∈ write e.2, Printable c) :
    ∀ c ∈ writeEntries entries, Printable c := by
  induction entries with
  | nil => exact printable_of_all rfl
  | cons e entries ih =>
    obtain ⟨he, hentries⟩ := List.forall_mem_cons.mp h
    simp only [writeEntries, List.cons_append, List.append_assoc, List.forall_mem_cons, List.forall_mem_append]
    exact ⟨by decide, printable_quote e.1, by decide, he, ih hentries⟩

/-- So there is no line feed in the text of a datum. -/
theorem printable_write {depth : Nat} {d : Datum} (hf : Fits depth d) : ∀ c ∈ write d, Printable c := by
  induction hf with
  | absent => exact printable_of_all rfl
  | truth _ value => cases value <;> exact printable_of_all rfl
  | integer _ _ => exact printable_render _
  | text _ s => exact printable_quote s
  | @list depth items _ ih =>
    cases items with
    | nil => exact printable_of_all rfl
    | cons item items =>
      obtain ⟨hitem, hitems⟩ := List.forall_mem_cons.mp ih
      rw [write, List.cons_append, List.forall_mem_cons, List.forall_mem_append]
      exact ⟨by decide, hitem, printable_writeItems hitems⟩
  | @table depth entries _ _ ih =>
    cases entries with
    | nil => exact printable_of_all rfl
    | cons e entries =>
      obtain ⟨he, hentries⟩ := List.forall_mem_cons.mp ih
      simp only [write, List.cons_append, List.append_assoc, List.forall_mem_cons, List.forall_mem_append]
      exact ⟨by decide, printable_quote e.1, by decide, he, printable_writeEntries hentries⟩

end Json
end ShareIndex
