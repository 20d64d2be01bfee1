import ShareIndex.Proofs.FilePath.Order

/-!
# ShareIndex.Proofs.FilePath.Entry

The paths of the entries of one folder.

* `entry_injective`  — different names have different paths.
* `components_entry` — the path of an entry has one component more, if the name is one.
* `atMost_entry`     — these paths are in the order of the names.
* `fileName_of_mem`, `names_below` — names that are components, and what is left of a path below another one.
-/

namespace ShareIndex

namespace Text

theorem segments_append (sep : Char) (cs ds : List Char) :
    segments sep (cs ++ sep :: ds) = segments sep cs ++ segments sep ds := by
  induction cs with
  | nil => simp [segments]
  | cons c cs ih =>
    rw [List.cons_append, segments, segments, ih]
    split
    · rfl
    · cases hs : segments sep cs with
      | nil => exact absurd hs (segments_ne_nil sep cs)
      | cons s rest => rfl

theorem segments_of_not_mem {sep : Char} {cs : List Char} (h : sep ∉ cs) : segments sep cs = [cs] := by
  induction cs with
  | nil => rfl
  | cons c cs ih =>
    rw [List.mem_cons, not_or] at h
    rw [segments, if_neg (Ne.symm h.1), ih h.2]

theorem segments_joinSegments {sep : Char} {pieces : List (List Char)} (hne : pieces ≠ [])
    (h : ∀ piece ∈ pieces, sep ∉ piece) : segments sep (joinSegments sep pieces) = pieces := by
  induction pieces with
  | nil => exact absurd rfl hne
  | cons piece rest ih =>
    obtain ⟨hpiece, hrest⟩ := List.forall_mem_cons.mp h
    cases rest with
    | nil => exact segments_of_not_mem hpiece
    | cons next rest =>
      rw [joinSegments, segments_append, segments_of_not_mem hpiece, ih (List.cons_ne_nil _ _) hrest]
      · rfl
      · simp

end Text

namespace FilePath

open Text (segments_ne_nil segments_append segments_of_not_mem)

/-- A name that an entry of a folder can have. -/
def FileName (name : String) : Prop := separator ∉ name.toList ∧ name ∉ ["", ".", ".."]

instance (name : String) : Decidable (FileName name) := inferInstanceAs (Decidable (_ ∧ _))

theorem entry_cases (p : FilePath) (name : String) :
    (p.text.toList = [] ∧ p.entry name = ⟨name⟩) ∨
      (∃ front, p.text.toList = front ++ [separator] ∧ (p.entry name).text = p.text ++ name) ∨
      (p.text.toList ≠ [] ∧ (p.entry name).text = p.text ++ separator.toString ++ name) := by
  rw [entry]
  cases hl : p.text.toList.getLast? with
  | none => exact .inl ⟨List.getLast?_eq_none_iff.mp hl, rfl⟩
  | some c =>
    obtain ⟨front, hfront⟩ := List.getLast?_eq_some_iff.mp hl
    by_cases hc : c = separator
    · subst hc
      exact .inr (.inl ⟨front, hfront, by simp⟩)
    · refine .inr (.inr ⟨by simp [hfront], ?_⟩)
      simp only [if_neg hc]

theorem entry_injective (p : FilePath) {a b : String} (h : p.entry a = p.entry b) : a = b := by
  have htext : (p.entry a).text.toList = (p.entry b).text.toList := by rw [h]
  rw [entry, entry] at htext
  cases hl : p.text.toList.getLast? with
  | none =>
    rw [hl] at htext
    exact String.toList_inj.mp htext
  | some c =>
    rw [hl] at htext
    dsimp only at htext
    split at htext <;>
    · simp only [String.toList_append] at htext
      exact String.toList_inj.mp (List.append_cancel_left htext)

/-- What a path begins with is decided by its first segment, unless that one is empty and the only one. -/
theorem anchor_congr {p q : FilePath} {s : List Char} {t u : List (List Char)} (hp : p.segments = s :: t)
    (hq : q.segments = s :: u) (h : s = [] → t ≠ [] ∧ u ≠ []) : p.anchor = q.anchor := by
  rw [anchor, anchor, hp, hq]
  cases s with
  | nil =>
    obtain ⟨ht, hu⟩ := h rfl
    cases t with
    | nil => exact absurd rfl ht
    | cons t ts =>
      cases u with
      | nil => exact absurd rfl hu
      | cons u us => rfl
  | cons c cs => split <;> split <;> simp_all

theorem FileName.segment_ne {name : String} (h : FileName name) :
    ¬ (name.toList = [] ∨ name.toList = ['.']) ∧ name.toList ≠ ['.', '.'] := by
  have hne : ∀ other, other ∈ ["", ".", ".."] → name.toList ≠ other.toList := by
    rintro other ho he
    exact h.2 (String.toList_inj.mp he ▸ ho)
  exact ⟨not_or.mpr ⟨hne "" (by decide), hne "." (by decide)⟩, hne ".." (by decide)⟩

theorem ofSegment?_fileName {name : String} (h : FileName name) :
    Component.ofSegment? name.toList = some (.normal name) := by
  rw [Component.ofSegment?, if_neg h.segment_ne.1, if_neg h.segment_ne.2, String.ofList_toList]

/-- The segment of the name comes last, after all others; a trailing separator does not count. -/
theorem segments_entry (p : FilePath) {name : String} (h : FileName name) :
    (p.segments = [[]] ∧ (p.entry name).segments = [name.toList]) ∨
      ∃ s t u, p.segments = s :: t ∧ (p.entry name).segments = s :: u ++ [name.toList] ∧ (s = [] → t ≠ []) ∧
        (t = u ∨ t = u ++ [[]]) := by
  have hname : Text.segments separator name.toList = [name.toList] := segments_of_not_mem h.1
  rcases entry_cases p name with ⟨hp, he⟩ | ⟨front, hp, he⟩ | ⟨hp, he⟩
  · refine .inl ⟨?_, ?_⟩
    · rw [FilePath.segments, hp]
      rfl
    · rw [he]
      exact hname
  · obtain ⟨s, t, hs⟩ := List.exists_cons_of_ne_nil (segments_ne_nil separator front)
    have hpath : p.segments = s :: (t ++ [[]]) := by
      rw [FilePath.segments, hp, segments_append, hs]
      rfl
    have hentry : (p.entry name).segments = s :: t ++ [name.toList] := by
      rw [FilePath.segments, he, String.toList_append, hp, List.append_assoc, List.singleton_append, segments_append, hs,
        hname]
    exact .inr ⟨s, t ++ [[]], t, hpath, hentry, by simp, .inr rfl⟩
  · obtain ⟨s, t, hs⟩ := List.exists_cons_of_ne_nil (segments_ne_nil separator p.text.toList)
    have hentry : (p.entry name).segments = s :: t ++ [name.toList] := by
      have hsep : separator.toString.toList = [separator] := rfl
      rw [FilePath.segments, he, String.toList_append, String.toList_append, hsep, List.append_assoc,
        List.singleton_append, segments_append, hs, hname]
    refine .inr ⟨s, t, t, hs, hentry, ?_, .inl rfl⟩
    rintro rfl rfl
    have hjoin := Text.joinSegments_segments separator p.text.toList
    rw [hs] at hjoin
    exact hp hjoin.symm

theorem text_of_segments {p : FilePath} (h : p.segments = [[]]) : p.text = "" := by
  have hjoin := Text.joinSegments_segments separator p.text.toList
  rw [show Text.segments separator p.text.toList = [[]] from h] at hjoin
  exact String.toList_inj.mp hjoin.symm

theorem anchor_entry {p : FilePath} {name : String} (h : FileName name) (hp : p.text ≠ "") :
    (p.entry name).anchor = p.anchor := by
  rcases segments_entry p h with ⟨hs, -⟩ | ⟨s, t, u, hs, he, hne, -⟩
  · exact absurd (text_of_segments hs) hp
  · exact anchor_congr (by rw [he, List.cons_append]) hs fun h => ⟨by simp, hne h⟩

theorem components_entry (p : FilePath) {name : String} (h : FileName name) :
    (p.entry name).components = p.components ++ [.normal name] := by
  have hlast : [name.toList].filterMap Component.ofSegment? = [.normal name] := by
    rw [List.filterMap_cons, ofSegment?_fileName h]
    rfl
  rcases segments_entry p h with ⟨hp, he⟩ | ⟨s, t, u, hp, he, hne, hsame⟩
  · have hanchor : (p.entry name).anchor = [] := by
      have h1 : name.toList ≠ [] := fun h1 => by rw [h1] at hlast; cases hlast
      have h2 : name.toList ≠ ['.'] := fun h2 => by rw [h2] at hlast; cases hlast
      rw [anchor, he]
      split <;> simp_all
    rw [components, components, hanchor, he, hlast, anchor, hp]
    rfl
  · have hanchor : (p.entry name).anchor = p.anchor :=
      anchor_congr (by rw [he, List.cons_append]) hp fun hs => ⟨by simp, hne hs⟩
    -- What stands for no component may be left out.
    have hsilent : (s :: t).filterMap Component.ofSegment? = (s :: u).filterMap Component.ofSegment? := by
      rcases hsame with rfl | rfl
      · rfl
      · rw [← List.cons_append, List.filterMap_append]
        exact List.append_nil _
    rw [components, components, hanchor, he, hp, hsilent, List.filterMap_append, hlast, List.append_assoc]

theorem nameOrEmpty_entry (p : FilePath) {name : String} (h : FileName name) : (p.entry name).nameOrEmpty = name := by
  rw [nameOrEmpty, name?, components_entry p h, List.getLast?_concat]
  rfl

theorem precedesList_append (front : List Component) (a b : String) :
    precedesList (front ++ [.normal a]) (front ++ [.normal b]) = decide (a < b) := by
  induction front with
  | nil =>
    rw [List.nil_append, List.nil_append, precedesList]
    split
    · rename_i hab
      rw [Component.normal.inj hab]
      exact (decide_eq_false (StrictOrder.irrefl b)).symm
    · rfl
  | cons first front ih => rw [List.cons_append, List.cons_append, precedesList, if_pos rfl, ih]

/-- The paths of the entries of a folder are in the order of the names. -/
theorem atMost_entry (p : FilePath) {a b : String} (ha : FileName a) (hb : FileName b) :
    (p.entry a).atMost (p.entry b) = decide (¬ b < a) := by
  rw [atMost, precedes, components_entry p ha, components_entry p hb, precedesList_append, decide_not]

/-! ### Components -/

theorem fileName_of_ofSegment? {segment : List Char} {name : String} (hs : separator ∉ segment)
    (h : Component.ofSegment? segment = some (.normal name)) : FileName name := by
  unfold Component.ofSegment? at h
  split at h
  · cases h
  · rename_i hsilent
    split at h
    · cases h
    · rename_i hparent
      obtain rfl := Component.normal.inj (Option.some.inj h)
      rw [not_or] at hsilent
      refine ⟨by rwa [String.toList_ofList], fun hm => ?_⟩
      simp only [List.mem_cons, List.not_mem_nil, or_false] at hm
      rcases hm with hm | hm | hm <;> have hm := congrArg String.toList hm <;> rw [String.toList_ofList] at hm
      · exact hsilent.1 hm
      · exact hsilent.2 hm
      · exact hparent hm

theorem not_mem_anchor (p : FilePath) (name : String) : .normal name ∉ p.anchor := by
  unfold anchor
  split <;> simp

/-- All that follows the first component is a name or a `..`. -/
theorem mem_tail {p : FilePath} {first : Component} {rest : List Component} (h : p.components = first :: rest)
    {component : Component} (hc : component ∈ rest) : component = .parent ∨ ∃ name, component = .normal name := by
  have hsegment : component ∈ p.segments.filterMap Component.ofSegment? := by
    rw [components] at h
    unfold anchor at h
    split at h
    · rw [List.singleton_append, List.cons.injEq] at h
      exact h.2 ▸ hc
    · rw [List.singleton_append, List.cons.injEq] at h
      exact h.2 ▸ hc
    · rw [List.nil_append] at h
      exact h ▸ List.mem_cons_of_mem first hc
  obtain ⟨segment, -, hsegment⟩ := List.mem_filterMap.mp hsegment
  unfold Component.ofSegment? at hsegment
  split at hsegment
  · cases hsegment
  · split at hsegment
    · exact .inl (Option.some.inj hsegment).symm
    · exact .inr ⟨_, (Option.some.inj hsegment).symm⟩

theorem fileName_of_mem {p : FilePath} {name : String} (h : .normal name ∈ p.components) : FileName name := by
  rcases List.mem_append.mp h with h | h
  · exact absurd h (p.not_mem_anchor name)
  · obtain ⟨segment, hm, hs⟩ := List.mem_filterMap.mp h
    exact fileName_of_ofSegment? (Text.not_mem_of_mem_segments hm) hs

/-- What is left of a path without `..` below another one is names. -/
theorem names_below {p : FilePath} {base relative : List Component} (hp : .parent ∉ p.components) (hb : base ≠ [])
    (h : p.components = base ++ relative) :
    ∃ names : List String, relative = names.map .normal ∧ ∀ name ∈ names, FileName name := by
  obtain ⟨first, base, rfl⟩ := List.exists_cons_of_ne_nil hb
  have hnormal : ∀ component ∈ relative, ∃ name, component = .normal name := by
    intro component hc
    refine (mem_tail h (List.mem_append_right base hc)).resolve_left ?_
    rintro rfl
    exact hp (h ▸ List.mem_append_right _ hc)
  have hnames : relative = (relative.filterMap Component.name?).map .normal := by
    clear h
    induction relative with
    | nil => rfl
    | cons component relative ih =>
      obtain ⟨⟨name, rfl⟩, hrest⟩ := List.forall_mem_cons.mp hnormal
      conv_lhs => rw [ih hrest]
      rfl
  refine ⟨_, hnames, fun name hname => fileName_of_mem (p := p) ?_⟩
  rw [h, hnames]
  exact List.mem_append_right _ (List.mem_map_of_mem hname)

/-! ### Beginnings -/

theorem afterStart?_eq_some {α : Type} [DecidableEq α] {start list rest : List α} :
    afterStart? start list = some rest ↔ list = start ++ rest := by
  induction start generalizing list with
  | nil => simp [afterStart?]
  | cons a start ih =>
    cases list with
    | nil => simp [afterStart?]
    | cons b list =>
      rw [afterStart?, List.cons_append, List.cons.injEq]
      split
      · rename_i hab
        rw [ih, hab]
        exact ⟨fun h => ⟨rfl, h⟩, And.right⟩
      · rename_i hab
        exact ⟨fun h => (nomatch h), fun h => absurd h.1.symm hab⟩

end FilePath
end ShareIndex
