import ShareIndex.Config.Variable
import ShareIndex.Proofs.Config.Layers
import ShareIndex.Proofs.FilePath.Entry
import ShareIndex.Proofs.Text.Blank

/-!
# ShareIndex.Proofs.Config.Variable

Which variable says what a setting is.

* `Names`          — a variable is meant for a setting; `Marked` are all that can be meant for any.
* `keys?_of_names` — the key that is found in a name is that of the setting it is meant for.
* `Says`           — the value of a setting that the last variable for it has.
* `says_table`     — that value is in the table of the variables.
-/

namespace ShareIndex
namespace Config
namespace Variable

/-- The name is the start of all names and a key, but for capitals and for blanks around the two. -/
def Names (name key : String) : Prop :=
  ∃ before between after,
    name.toList.map Char.toLower = before ++ (nameStart.toList ++ (between ++ key.toList)) ++ after ∧
      ∀ c ∈ before ++ between ++ after, Text.isBlank c = true

/-- The name starts as those of variables do, but for capitals and for blanks before it. -/
def Marked (name : String) : Prop :=
  ∃ before rest, name.toList.map Char.toLower = before ++ nameStart.toList ++ rest ∧
    ∀ c ∈ before, Text.isBlank c = true

/-- A key that a name can have: there is no dot in it and no blank at its ends. -/
structure IsWord (key : String) : Prop where
  dotless : '.' ∉ key.toList
  nonempty : key.toList ≠ []
  first : ∀ c, key.toList.head? = some c → Text.isBlank c = false
  last : ∀ c, key.toList.getLast? = some c → Text.isBlank c = false

variable {name key : String}

/-! ### Names -/

/-- A name in small letters, without the blanks at its ends. -/
def core (name : String) : List Char := (Text.trim name.toList).map Char.toLower

theorem core_eq_iff {cs : List Char} : core name = cs ↔
    (∀ c, cs.head? = some c → Text.isBlank c = false) ∧ (∀ c, cs.getLast? = some c → Text.isBlank c = false) ∧
      ∃ before after, name.toList.map Char.toLower = before ++ cs ++ after ∧
        ∀ c ∈ before ++ after, Text.isBlank c = true := by
  rw [core, ← Text.trim_map Text.isBlank_toLower, Text.trim_eq_iff]

/-- The keys are the pieces of what follows the start of the name. -/
theorem keys?_eq_some_iff {keys : List String} : keys? name = some keys ↔ ∃ rest, core name = nameStart.toList ++ rest ∧
    [] ∉ Text.segments '.' (Text.trim rest) ∧ keys = (Text.segments '.' (Text.trim rest)).map String.ofList := by
  have hempty : ∀ pieces : List (List Char), pieces.any List.isEmpty = true ↔ [] ∈ pieces := by simp
  have hkeys : keys? name = if (core name).take nameStart.length != nameStart.toList then none else
      let keys := Text.segments '.' (Text.trim ((core name).drop nameStart.length))
      if keys.any List.isEmpty then none else some (keys.map String.ofList) := rfl
  rw [hkeys, ← String.length_toList]
  constructor
  · intro h
    split at h
    · cases h
    · rename_i hstart
      have htake : (core name).take nameStart.toList.length = nameStart.toList := by simpa using hstart
      dsimp only at h
      split at h
      · cases h
      · rename_i hany
        rw [hempty] at hany
        refine ⟨(core name).drop nameStart.toList.length, ?_, hany, (Option.some.inj h).symm⟩
        exact (htake ▸ List.take_append_drop nameStart.toList.length (core name)).symm
  · rintro ⟨rest, hcore, hpieces, rfl⟩
    rw [hcore, List.take_left, List.drop_left, if_neg (by simp)]
    exact if_neg fun hany => hpieces ((hempty _).mp hany)

/-- A name that is meant for a setting has that one key. -/
theorem keys?_of_names (hk : IsWord key) (h : Names name key) : keys? name = some [key] := by
  obtain ⟨before, between, after, hname, hblank⟩ := h
  have hcore : core name = nameStart.toList ++ (between ++ key.toList) := by
    refine core_eq_iff.mpr ⟨by simp +decide [nameStart], fun c hc => ?_, before, after, hname, fun c hc => ?_⟩
    · rw [← List.append_assoc, List.getLast?_append_of_ne_nil _ hk.nonempty] at hc
      exact hk.last c hc
    · simp only [List.mem_append] at hc hblank
      exact hblank c (by tauto)
  have htrim : Text.trim (between ++ key.toList) = key.toList :=
    Text.trim_eq_iff.mpr ⟨hk.first, hk.last, between, [], by simp, fun c hc => hblank c (by simp at hc ⊢; tauto)⟩
  refine keys?_eq_some_iff.mpr ⟨_, hcore, ?_, ?_⟩
  · rw [htrim, Text.segments_of_not_mem hk.dotless, List.mem_singleton]
    exact hk.nonempty.symm
  · rw [htrim, Text.segments_of_not_mem hk.dotless, List.map_singleton, String.ofList_toList]

/-- A name without dots is meant for its first key. -/
theorem names_of_keys? (hd : Marked name → '.' ∉ name.toList) {rest : List String}
    (h : keys? name = some (key :: rest)) : Names name key := by
  obtain ⟨follow, hcore, -, hkeys⟩ := keys?_eq_some_iff.mp h
  obtain ⟨-, -, before, after, hname, hblank⟩ := core_eq_iff.mp hcore
  have hmarked : Marked name := ⟨before, follow ++ after, by rw [hname]; simp, fun c hc => hblank c (by simp [hc])⟩
  obtain ⟨-, -, between, behind, hfollow, hblank'⟩ := Text.trim_eq_iff.mp (Eq.refl (Text.trim follow))
  -- capitals do not hide a dot
  have hdotless : '.' ∉ Text.trim follow := fun hdot => hd hmarked <| by
    have hlower : '.' ∈ name.toList.map Char.toLower := by
      rw [hname, hfollow]
      simp [hdot]
    obtain ⟨c, hc, heq⟩ := List.mem_map.mp hlower
    exact Text.eq_dot_of_toLower heq ▸ hc
  rw [Text.segments_of_not_mem hdotless, List.map_singleton] at hkeys
  obtain ⟨rfl, -⟩ := List.cons.inj hkeys
  refine ⟨before, between, behind ++ after, ?_, fun c hc => ?_⟩
  · rw [hname, String.toList_ofList]
    conv_lhs => rw [hfollow]
    simp
  · simp only [List.mem_append] at hc hblank hblank'
    rcases hc with (hc | hc) | hc | hc
    exacts [hblank c (.inl hc), hblank' c (.inl hc), hblank' c (.inr hc), hblank c (.inr hc)]

/-! ### The table -/

/-- The value of a setting in a variable. -/
def meant? (key : String) (v : String × String) : Option Datum :=
  (setting? v.1 v.2).bind fun setting => if setting.1 = key then some setting.2 else none

theorem meant?_of_names {v : String × String} (hk : IsWord key) (h : Names v.1 key) :
    meant? key v = some (value v.2) := by
  rw [meant?, setting?, keys?_of_names hk h]
  exact if_pos rfl

theorem meant?_of_not_names {v : String × String} (hd : Marked v.1 → '.' ∉ v.1.toList) (h : ¬ Names v.1 key) :
    meant? key v = none := by
  rw [meant?, setting?]
  split
  · rename_i own rest hkeys
    refine if_neg fun hown => h ?_
    dsimp only at hown
    exact names_of_keys? hd (hown ▸ hkeys)
  · rfl

theorem lookup_table_concat (values : List (String × String)) (v : String × String) (key : String) :
    Datum.entry? key (table (values ++ [v])) = (meant? key v).or (Datum.entry? key (table values)) := by
  rw [table, List.foldl_append, List.foldl_cons, List.foldl_nil, meant?]
  dsimp only
  cases setting? v.1 v.2 with
  | none => rfl
  | some setting =>
    obtain ⟨own, d⟩ := setting
    rw [Datum.entry?, Datum.lookup_put]
    by_cases h : own = key
    · simp [h]
    · simp only [Option.bind_some, if_neg h, Option.none_or]
      rfl

/-- The last variable for a setting counts. -/
theorem lookup_table (values : List (String × String)) (key : String) :
    Datum.entry? key (table values) = values.reverse.findSome? (meant? key) := by
  induction values using List.reverseRecOn with
  | nil => rfl
  | append_singleton values v ih =>
    rw [lookup_table_concat, ih, List.reverse_append, List.findSome?_append, List.reverse_singleton,
      List.findSome?_singleton]

/-- What the variables say of a setting: the value of the last one that is meant for it, or nothing. -/
def Says (values : List (String × String)) (key : String) : Option Datum → Prop
  | some d => ∃ before name text after, values = before ++ (name, text) :: after ∧ Names name key ∧ d = value text ∧
      ∀ v ∈ after, ¬ Names v.1 key
  | none => ∀ v ∈ values, ¬ Names v.1 key

theorem says_table {values : List (String × String)} (hd : ∀ v ∈ values, Marked v.1 → '.' ∉ v.1.toList)
    (hk : IsWord key) : Says values key (Datum.entry? key (table values)) := by
  have hnone : ∀ v ∈ values, meant? key v = none → ¬ Names v.1 key := fun v hv h hnames => by
    rw [meant?_of_names hk hnames] at h
    cases h
  rw [lookup_table]
  cases hfind : values.reverse.findSome? (meant? key) with
  | none => exact fun v hv => hnone v hv (List.findSome?_eq_none_iff.mp hfind v (List.mem_reverse.mpr hv))
  | some d =>
    obtain ⟨before, ⟨name, text⟩, after, rfl, hsome, hafter⟩ := findSome?_reverse_eq_some_iff.mp hfind
    have hnames : Names name key := by
      by_contra h
      rw [@meant?_of_not_names key (name, text) (hd _ (by simp)) h] at hsome
      cases hsome
    rw [@meant?_of_names key (name, text) hk hnames] at hsome
    exact ⟨before, name, text, after, rfl, hnames, (Option.some.inj hsome).symm,
      fun v hv => hnone v (by simp [hv]) (hafter v hv)⟩

end Variable
end Config
end ShareIndex
