import ShareIndex.Folder.Description
import ShareIndex.Proofs.Text.Blank

/-!
# ShareIndex.Proofs.Folder.FrontMatter

What a description looks like that has settings before its text.

* `Framing`                  — such a description in its parts; `Framing.text` is the whole.
* `lines_induction`          — a text line by line.
* `splitFrontMatter_text`    — of a text with these parts, the settings and what follows them are found.
* `framing_of_split`         — nothing else is ever found.
* `Framing.text_injective`   — no text has such parts in two ways.
* `splitFrontMatter_exact`   — all of it, and what it means for the body of a description.
-/

namespace ShareIndex

namespace Folder

/-! ### Parts -/

/-- A text between whose parts stand two fences. The lines of the settings are without their line feeds, and none of
them is a fence itself. -/
structure Framing where
  /-- Whether a carriage return stands before the line feed of the first fence. -/
  returned : Bool
  lines : List (List Char)
  /-- How many carriage returns follow the second fence. -/
  returns : Nat
  /-- What follows the line feed of the second fence, which may lack it at the end of the text. -/
  rest : Option (List Char)
  feedless : ∀ line ∈ lines, '\n' ∉ line
  unfenced : ∀ line ∈ lines, ∀ n, line ≠ fence ++ List.replicate n '\r'

namespace Framing

def opening (f : Framing) : List Char := fence ++ if f.returned then ['\r', '\n'] else ['\n']

def front (f : Framing) : List Char := f.lines.flatMap (· ++ ['\n'])

def closing (f : Framing) : List Char := fence ++ List.replicate f.returns '\r'

/-- The line feed of a fence and what follows it. -/
def remainder : Option (List Char) → List Char
  | none => []
  | some body => '\n' :: body

def body (f : Framing) : List Char := f.rest.getD []

/-- What follows the first fence. -/
def block (f : Framing) : List Char := f.front ++ (f.closing ++ remainder f.rest)

def text (f : Framing) : List Char := f.opening ++ f.block

end Framing

/-! ### Lines -/

variable {line rest front body : List Char}

/-- A text is a line without an end, or a line with one and a text. -/
theorem lines_induction {P : List Char → Prop} (last : ∀ line, '\n' ∉ line → P line)
    (next : ∀ line rest, '\n' ∉ line → P rest → P (line ++ '\n' :: rest)) (cs : List Char) : P cs := by
  induction hn : cs.length using Nat.strongRecOn generalizing cs with
  | ind n ih =>
    by_cases h : '\n' ∈ cs
    · obtain ⟨line, rest, rfl, hline⟩ := List.eq_append_cons_of_mem h
      refine next line rest hline (ih rest.length ?_ rest rfl)
      simp only [List.length_append, List.length_cons] at hn
      omega
    · exact last cs h

theorem inclusiveLines_append (h : '\n' ∉ line) :
    inclusiveLines (line ++ '\n' :: rest) = (line ++ ['\n']) :: inclusiveLines rest := by
  induction line with
  | nil => rfl
  | cons c line ih =>
    rw [List.mem_cons, not_or] at h
    rw [List.cons_append, inclusiveLines, if_neg (Ne.symm h.1), ih h.2]
    rfl

theorem inclusiveLines_last (h : '\n' ∉ line) (hne : line ≠ []) : inclusiveLines line = [line] := by
  induction line with
  | nil => exact absurd rfl hne
  | cons c line ih =>
    rw [List.mem_cons, not_or] at h
    rw [inclusiveLines, if_neg (Ne.symm h.1)]
    cases line with
    | nil => rfl
    | cons d line => rw [ih h.2 (List.cons_ne_nil _ _)]

theorem flatten_inclusiveLines (cs : List Char) : (inclusiveLines cs).flatten = cs := by
  induction cs using lines_induction with
  | last line h =>
    by_cases hne : line = []
    · rw [hne]
      rfl
    · rw [inclusiveLines_last h hne, List.flatten_singleton]
  | next line rest h ih =>
    rw [inclusiveLines_append h, List.flatten_cons, ih, List.append_assoc, List.singleton_append]

/-! ### Fences -/

theorem isFence_iff (h : '\n' ∉ line) : isFence line = true ↔ ∃ n, line = fence ++ List.replicate n '\r' := by
  rw [isFence, beq_iff_eq]
  constructor
  · intro he
    have hline := Text.dropEndWhile_append isLineEnd line
    rw [he] at hline
    have hends : ∀ c ∈ (line.reverse.takeWhile isLineEnd).reverse, c = '\r' := by
      intro c hc
      have hend := Text.satisfies_of_mem_dropped hc
      have hmem : c ∈ line := hline ▸ List.mem_append_right fence hc
      rw [isLineEnd, Bool.or_eq_true, beq_iff_eq, beq_iff_eq] at hend
      exact hend.resolve_right fun hfeed => h (hfeed ▸ hmem)
    exact ⟨_, hline.symm.trans (congrArg (fence ++ ·) (List.eq_replicate_of_mem hends))⟩
  · rintro ⟨n, rfl⟩
    have hreturns : ∀ c ∈ List.replicate n '\r', isLineEnd c = true := by
      intro c hc
      rw [List.eq_of_mem_replicate hc]
      rfl
    rw [Text.dropEndWhile, List.reverse_append, List.reverse_replicate, List.dropWhile_append_of_pos hreturns]
    rfl

/-- The line feed of a line does not matter. -/
theorem isFence_feed (line : List Char) : isFence (line ++ ['\n']) = isFence line := by
  rw [isFence, isFence, Text.dropEndWhile, Text.dropEndWhile, List.reverse_append, List.reverse_singleton,
    List.singleton_append, List.dropWhile_cons_of_pos rfl]

theorem feedless_fence (n : Nat) : '\n' ∉ fence ++ List.replicate n '\r' := by
  rw [List.mem_append, not_or]
  exact ⟨by decide, fun h => absurd (List.eq_of_mem_replicate h) (by decide)⟩

/-- What is found line by line. -/
theorem untilFence_append (h : '\n' ∉ line) :
    untilFence (inclusiveLines (line ++ '\n' :: rest)) =
      if isFence line then some ([], rest)
      else (untilFence (inclusiveLines rest)).map fun found => (line ++ ['\n'] ++ found.1, found.2) := by
  rw [inclusiveLines_append h, untilFence, isFence_feed, flatten_inclusiveLines]

theorem untilFence_last (h : '\n' ∉ line) :
    untilFence (inclusiveLines line) = if isFence line then some ([], []) else none := by
  by_cases hne : line = []
  · rw [hne]
    rfl
  · rw [inclusiveLines_last h hne, untilFence]
    rfl

theorem afterOpeningFence?_eq_some {text : List Char} : afterOpeningFence? text = some rest ↔
    ∃ returned : Bool, text = fence ++ (if returned then ['\r', '\n'] else ['\n']) ++ rest := by
  constructor
  · intro h
    unfold afterOpeningFence? at h
    split at h
    · obtain rfl := Option.some.inj h
      exact ⟨true, rfl⟩
    · obtain rfl := Option.some.inj h
      exact ⟨false, rfl⟩
    · cases h
  · rintro ⟨returned, rfl⟩
    cases returned <;> rfl

/-! ### Splitting -/

theorem untilFence_lines {lines : List (List Char)} (hfeedless : ∀ line ∈ lines, '\n' ∉ line)
    (hunfenced : ∀ line ∈ lines, ∀ n, line ≠ fence ++ List.replicate n '\r') (cs : List Char) :
    untilFence (inclusiveLines (lines.flatMap (· ++ ['\n']) ++ cs)) =
      (untilFence (inclusiveLines cs)).map fun found => (lines.flatMap (· ++ ['\n']) ++ found.1, found.2) := by
  induction lines with
  | nil => exact (Option.map_id_apply).symm
  | cons line lines ih =>
    obtain ⟨hline, hlines⟩ := List.forall_mem_cons.mp hfeedless
    obtain ⟨hfence, hfences⟩ := List.forall_mem_cons.mp hunfenced
    have hno : ¬ isFence line = true := fun h => let ⟨n, hn⟩ := (isFence_iff hline).mp h; hfence n hn
    rw [List.flatMap_cons, List.append_assoc, List.append_assoc, List.singleton_append, untilFence_append hline,
      if_neg hno, ih hlines hfences, Option.map_map]
    simp only [Function.comp_def, List.append_assoc]

theorem untilFence_closing (n : Nat) (rest : Option (List Char)) :
    untilFence (inclusiveLines (fence ++ List.replicate n '\r' ++ Framing.remainder rest)) =
      some ([], rest.getD []) := by
  have hfeed := feedless_fence n
  have hfence := (isFence_iff hfeed).mpr ⟨n, rfl⟩
  cases rest with
  | none => rw [Framing.remainder, List.append_nil, untilFence_last hfeed, if_pos hfence, Option.getD_none]
  | some body => rw [Framing.remainder, untilFence_append hfeed, if_pos hfence, Option.getD_some]

theorem splitFrontMatter_text (f : Framing) : splitFrontMatter f.text = (some f.front, f.body) := by
  have hopening : afterOpeningFence? f.text = some f.block := afterOpeningFence?_eq_some.mpr ⟨f.returned, rfl⟩
  have hblock : untilFence (inclusiveLines f.block) = some (f.front, f.body) := by
    rw [Framing.block, Framing.front, untilFence_lines f.feedless f.unfenced, Framing.closing, untilFence_closing]
    exact congrArg (fun front => some (front, f.body)) (List.append_nil _)
  rw [splitFrontMatter, hopening, Option.bind_some, hblock]

/-- By induction on the lines: the first fence among them ends the settings. -/
theorem framing_of_untilFence (returned : Bool) {cs : List Char}
    (h : untilFence (inclusiveLines cs) = some (front, body)) :
    ∃ f : Framing, f.returned = returned ∧ f.block = cs ∧ f.front = front ∧ f.body = body := by
  induction cs using lines_induction generalizing front with
  | last line hline =>
    rw [untilFence_last hline] at h
    split at h
    · rename_i hfence
      obtain ⟨n, rfl⟩ := (isFence_iff hline).mp hfence
      cases h
      exact ⟨⟨returned, [], n, none, by simp, by simp⟩, rfl, List.append_nil _, rfl, rfl⟩
    · cases h
  | next line rest hline ih =>
    rw [untilFence_append hline] at h
    split at h
    · rename_i hfence
      obtain ⟨n, rfl⟩ := (isFence_iff hline).mp hfence
      cases h
      exact ⟨⟨returned, [], n, some _, by simp, by simp⟩, rfl, rfl, rfl, rfl⟩
    · rename_i hno
      obtain ⟨⟨front, body⟩, hfound, he⟩ := Option.map_eq_some_iff.mp h
      cases he
      obtain ⟨f, hreturned, rfl, rfl, rfl⟩ := ih hfound
      have hunfenced : ∀ n, line ≠ fence ++ List.replicate n '\r' := fun n hn =>
        hno ((isFence_iff hline).mpr ⟨n, hn⟩)
      refine ⟨⟨returned, line :: f.lines, f.returns, f.rest, List.forall_mem_cons.mpr ⟨hline, f.feedless⟩,
        List.forall_mem_cons.mpr ⟨hunfenced, f.unfenced⟩⟩, rfl, ?_, rfl, rfl⟩
      simp [Framing.block, Framing.front, Framing.closing]

theorem framing_of_split {text : List Char} (h : splitFrontMatter text = (some front, body)) :
    ∃ f : Framing, f.text = text ∧ f.front = front ∧ f.body = body := by
  unfold splitFrontMatter at h
  split at h
  · rename_i front' body' hfound
    cases h
    obtain ⟨rest, hrest, huntil⟩ := Option.bind_eq_some_iff.mp hfound
    obtain ⟨returned, rfl⟩ := afterOpeningFence?_eq_some.mp hrest
    obtain ⟨f, rfl, rfl, hfront, hbody⟩ := framing_of_untilFence returned huntil
    exact ⟨f, rfl, hfront, hbody⟩
  · cases h

theorem splitFrontMatter_of_none {text : List Char} (h : (splitFrontMatter text).1 = none) :
    splitFrontMatter text = (none, text) := by
  unfold splitFrontMatter at h ⊢
  split at h
  · cases h
  · rfl

/-! ### Uniqueness -/

theorem inclusiveLines_lines {lines : List (List Char)} (h : ∀ line ∈ lines, '\n' ∉ line) :
    inclusiveLines (lines.flatMap (· ++ ['\n'])) = lines.map (· ++ ['\n']) := by
  induction lines with
  | nil => rfl
  | cons line lines ih =>
    obtain ⟨hline, hlines⟩ := List.forall_mem_cons.mp h
    rw [List.flatMap_cons, List.map_cons, ← ih hlines, List.append_assoc, List.singleton_append,
      inclusiveLines_append hline]

theorem takeWhile_returns (n : Nat) (rest : Option (List Char)) :
    (List.replicate n '\r' ++ Framing.remainder rest).takeWhile (· == '\r') = List.replicate n '\r' := by
  have hreturns : ∀ c ∈ List.replicate n '\r', (c == '\r') = true := fun c hc =>
    beq_iff_eq.mpr (List.eq_of_mem_replicate hc)
  rw [List.takeWhile_append_of_pos hreturns]
  cases rest <;> simp [Framing.remainder]

theorem Framing.text_injective : Function.Injective Framing.text := by
  intro f g h
  have hsplit := (splitFrontMatter_text f).symm.trans (h ▸ splitFrontMatter_text g)
  have hfront : f.front = g.front := by simpa using congrArg Prod.fst hsplit
  obtain ⟨returned, lines, returns, rest, hfeedless, hunfenced⟩ := f
  obtain ⟨returned', lines', returns', rest', hfeedless', hunfenced'⟩ := g
  have hlines : lines = lines' := by
    have he := congrArg inclusiveLines hfront
    rw [Framing.front, Framing.front, inclusiveLines_lines hfeedless, inclusiveLines_lines hfeedless'] at he
    exact (List.map_inj_right fun _ _ => List.append_cancel_right).mp he
  subst hlines
  have hreturned : returned = returned' := by
    cases returned <;> cases returned' <;> simp [Framing.text, Framing.opening] at h <;> rfl
  subst hreturned
  have hclosing : List.replicate returns '\r' ++ remainder rest = List.replicate returns' '\r' ++ remainder rest' := by
    simpa [Framing.text, Framing.opening, Framing.block, Framing.front, Framing.closing] using h
  have hreturns : returns = returns' := by
    have he := congrArg (List.takeWhile (· == '\r')) hclosing
    rw [takeWhile_returns, takeWhile_returns] at he
    simpa using congrArg List.length he
  subst hreturns
  have hrest : rest = rest' := by
    rw [List.append_cancel_left_eq] at hclosing
    cases rest <;> cases rest' <;> simp_all [Framing.remainder]
  subst hrest
  rfl

/-! ### Descriptions -/

/-- A source is a text, before which the mark of the order of its bytes may stand once. -/
def Marks (source text : List Char) : Prop :=
  source = '\ufeff' :: text ∨ source = text ∧ text.head? ≠ some '\ufeff'

namespace Description

theorem dropByteOrderMark_eq {source text : List Char} (h : Marks source text) : dropByteOrderMark source = text := by
  rcases h with rfl | ⟨rfl, h⟩
  · rfl
  · exact if_neg h

theorem isTrimmed_bodyOf (body : List Char) : Text.IsTrimmed body (bodyOf body) := by
  unfold bodyOf
  split
  · rename_i h
    exact Text.blank_of_trim h
  · rename_i h
    exact Text.isTrimmed_trim h

/-- The body does not depend on the settings, and without settings there is a description. -/
theorem parse?_cases {source : String} {text : List Char} (h : Marks source.toList text) :
    (∀ d, parse? source = some d → d.body = bodyOf (splitFrontMatter text).2) ∧
      ((splitFrontMatter text).1.all Text.isBlankText = true →
        parse? source = some ⟨.default, bodyOf (splitFrontMatter text).2⟩) := by
  rw [parse?, dropByteOrderMark_eq h]
  obtain ⟨front, body⟩ := splitFrontMatter text
  constructor
  · intro d hd
    cases front with
    | none => exact (Option.some.inj hd) ▸ rfl
    | some front =>
      obtain ⟨settings, -, hd⟩ := Option.bind_eq_some_iff.mp hd
      exact (Option.some.inj hd) ▸ rfl
  · intro hblank
    cases front with
    | none => rfl
    | some front =>
      have hfront : frontMatter? front = some .default := if_pos hblank
      simp only [hfront]
      rfl

end Description

/-- Splitting finds the parts of a text that has them, which it has in one way only, and leaves every other text whole.
The body of a description is what follows the settings, trimmed; only settings can spoil a description. -/
theorem splitFrontMatter_exact (text : List Char) :
    (∀ f g : Framing, f.text = text → g.text = text → f = g) ∧
    (∀ front body, splitFrontMatter text = (some front, body) ↔
      ∃ f : Framing, f.text = text ∧ f.front = front ∧ f.body = body) ∧
    ((∀ f : Framing, f.text ≠ text) → splitFrontMatter text = (none, text)) ∧
    ∀ source : String, Marks source.toList text →
      (∀ d, Description.parse? source = some d → Text.IsTrimmed (splitFrontMatter text).2 d.body) ∧
      ((splitFrontMatter text).1.all Text.isBlankText = true → ∃ d, Description.parse? source = some d) := by
  refine ⟨fun f g hf hg => Framing.text_injective (hf.trans hg.symm), fun front body => ⟨framing_of_split, ?_⟩,
    fun hnone => ?_, fun source hs => ?_⟩
  · rintro ⟨f, rfl, rfl, rfl⟩
    exact splitFrontMatter_text f
  · refine splitFrontMatter_of_none (Option.eq_none_iff_forall_ne_some.mpr fun front hfront => ?_)
    obtain ⟨f, hf, -⟩ := framing_of_split (Prod.ext hfront rfl)
    exact hnone f hf
  · obtain ⟨hbody, hblank⟩ := Description.parse?_cases hs
    refine ⟨fun d hd => ?_, fun hsettings => ⟨_, hblank hsettings⟩⟩
    rw [hbody d hd]
    exact Description.isTrimmed_bodyOf _

/-- Settings with another fence in a line of theirs, between fences of both kinds, and a fence in what follows. -/
def twiceFenced : Framing where
  returned := true
  lines := ["a: ---".toList, "----\r".toList]
  returns := 2
  rest := some " b\n---\n".toList
  feedless := by decide
  unfenced := by
    intro own hm n hn
    have hfourth : own[3]? = some '\r' ∨ own.length = 3 := by
      rw [hn]
      cases n with
      | zero => exact .inr rfl
      | succ n => exact .inl rfl
    clear hn
    revert own
    decide

theorem splitFrontMatter_exact_twiceFenced :
    splitFrontMatter "---\r\na: ---\n----\r\n---\r\r\n b\n---\n".toList =
        (some "a: ---\n----\r\n".toList, " b\n---\n".toList) ∧
      ∀ f : Framing, f.text = twiceFenced.text → f = twiceFenced := by
  obtain ⟨hunique, hsplit, -, -⟩ := splitFrontMatter_exact twiceFenced.text
  exact ⟨(hsplit _ _).mpr ⟨twiceFenced, rfl, rfl, rfl⟩, fun f hf => hunique f twiceFenced hf rfl⟩

end Folder
end ShareIndex
