import ShareIndex.FileTree
import Mathlib.Data.List.Basic

/-!
# ShareIndex.Proofs.FileTree

What changes of single entries do to a tree of files, and to where paths lead in it.

* `entry?_put_self`, `entry?_put_of_ne` — the entries after one has been put.
* `erase_put`       — an entry that was put in a free place and is erased again leaves no trace.
* `walk_next`, `walk_into` and the like — a walk, one step at a time.
* `walk_steps`      — a walk, by so many steps that they can be counted; `find_of_steps` takes a path to its end so.
* `walk_of_put`     — a file in a free place is in no way: a path that leads somewhere has led to the same place before.
* `rename_new`      — a new file that is renamed takes the place to which the path has led, and nothing else changes.
* `makeFolders_grown` — folders are made in free places only.
-/

namespace ShareIndex
namespace FileTree

variable {t : FileTree} {place other : Place} {entry : Entry}

theorem not_mem_of_free (h : t.entry? place = none) : place ∉ t.nodes.map (·.1) := by
  intro hm
  obtain ⟨node, hn, rfl⟩ := List.mem_map.mp hm
  unfold entry? at h
  split at h
  · cases h
  · exact absurd (List.lookup_eq_none_iff.mp h node hn) (by simp)

theorem ne_root_of_entry? (h : t.entry? place ≠ some .folder) : place ≠ [] := by
  rintro rfl
  exact h rfl

theorem ne_root_of_free (h : t.entry? place = none) : place ≠ [] := ne_root_of_entry? fun he => by cases h.symm.trans he

theorem isFolder_iff : t.isFolder place = true ↔ t.entry? place = some .folder := by
  rw [FileTree.isFolder]
  split
  · rename_i he
    simp [he]
  · rename_i hne
    exact ⟨fun h => (nomatch h), fun h => absurd h hne⟩

theorem ne_root_of_not_folder (h : t.isFolder place = false) : place ≠ [] :=
  ne_root_of_entry? fun he => by rw [isFolder_iff.mpr he] at h; cases h

/-! ### Entries -/

@[simp]
theorem here_put : (t.put place entry).here = t.here := by
  unfold put
  split <;> rfl

@[simp]
theorem rights_put : (t.put place entry).rights = t.rights := by
  unfold put
  split <;> rfl

@[simp]
theorem databaseSize_put : (t.put place entry).databaseSize = t.databaseSize := by
  unfold put
  split <;> rfl

theorem nodes_put_of_free (h : t.entry? place = none) : (t.put place entry).nodes = (place, entry) :: t.nodes := by
  rw [put, dif_neg (not_mem_of_free h)]

theorem entry?_put_of_ne (h : other ≠ place) : entry? (t.put place entry) other = t.entry? other := by
  have hbeq : (other == place) = false := beq_false_of_ne h
  unfold entry? put
  split
  · rfl
  · split
    · show (t.nodes.map _).lookup other = _
      induction t.nodes with
      | nil => rfl
      | cons node rest ih =>
        rw [List.map_cons, List.lookup_cons, List.lookup_cons, ih]
        by_cases hn : node.1 = place
        · simp [hn, hbeq]
        · simp [hn]
    · show ((place, entry) :: t.nodes).lookup other = _
      rw [List.lookup_cons, hbeq]

theorem entry?_put_self (h : place ≠ []) : entry? (t.put place entry) place = some entry := by
  have hlookup : ∀ nodes : List (Place × Entry), place ∈ nodes.map (·.1) →
      (nodes.map fun node => if node.1 = place then (place, entry) else node).lookup place = some entry := by
    intro nodes hm
    induction nodes with
    | nil => cases hm
    | cons node rest ih =>
      rw [List.map_cons, List.lookup_cons]
      by_cases hn : node.1 = place
      · simp [hn]
      · have hne : (place == node.1) = false := beq_false_of_ne fun he => hn he.symm
        simp only [hn, if_false, hne]
        exact ih ((List.mem_cons.mp hm).resolve_left fun he => hn he.symm)
  unfold entry? put
  rw [if_neg h]
  split
  · exact hlookup t.nodes ‹_›
  · show ((place, entry) :: t.nodes).lookup place = _
    rw [List.lookup_cons, BEq.rfl]

/-- What was put in a free place and is erased leaves no trace. -/
theorem erase_put (h : t.entry? place = none) : (t.put place entry).erase place = t := by
  refine FileTree.ext ?_ here_put rights_put databaseSize_put
  show (t.put place entry).nodes.filter _ = t.nodes
  rw [nodes_put_of_free h, List.filter_cons_of_neg (by simp)]
  refine List.filter_eq_self.mpr fun node hn => ?_
  have hne : node.1 ≠ place := fun he => not_mem_of_free h (he ▸ List.mem_map_of_mem hn)
  simpa using hne

/-! ### Steps -/

section Steps

variable {follow : Bool} {links left : Nat} {start there : Place} {segment : List Char}
  {rest segments : List (List Char)} {found : Found} {e : Failure}

theorem walk_nil : t.walk follow links start [] = .ok (.entry start) := by rw [walk]

theorem walk_failed (h : t.step follow links start segment rest = .failed e) :
    t.walk follow links start (segment :: rest) = .error e := by
  rw [walk]
  split <;> simp_all

theorem walk_ended (h : t.step follow links start segment rest = .ended found) :
    t.walk follow links start (segment :: rest) = .ok found := by
  rw [walk]
  split <;> simp_all

theorem walk_next (h : t.step follow links start segment rest = .next left there segments) :
    t.walk follow links start (segment :: rest) = t.walk follow left there segments := by
  rw [walk]
  split <;> simp_all

/-- A segment that is the name of an entry, or of none. -/
structure Proceeds (t : FileTree) (start : Place) (segment : List Char) : Prop where
  passes : t.obstacle? start segment = none
  nonempty : segment ≠ []
  notHere : segment ≠ ['.']
  notUp : segment ≠ ['.', '.']

theorem step_blocked (h : t.obstacle? start segment = some e) :
    t.step follow links start segment rest = .failed e := by
  simp only [step, h]

theorem step_silent (hp : t.obstacle? start segment = none) (hs : segment = [] ∨ segment = ['.']) :
    t.step follow links start segment rest = .next links start rest := by
  simp only [step, hp, if_pos hs]

theorem step_up (hp : t.obstacle? start ['.', '.'] = none) :
    t.step follow links start ['.', '.'] rest = .next links start.up rest := by
  simp only [step, hp]
  rfl

theorem step_name (hp : t.Proceeds start segment) : t.step follow links start segment rest =
    t.stepName follow links start (String.ofList segment) rest := by
  simp only [step, hp.passes, if_neg (not_or.mpr ⟨hp.nonempty, hp.notHere⟩), if_neg hp.notUp]

/-- What a segment can be. -/
theorem segment_cases (t : FileTree) (start : Place) (segment : List Char) :
    (∃ e, t.obstacle? start segment = some e) ∨
      t.obstacle? start segment = none ∧ (segment = [] ∨ segment = ['.']) ∨
      t.obstacle? start segment = none ∧ segment = ['.', '.'] ∨ t.Proceeds start segment := by
  cases hp : t.obstacle? start segment with
  | some e => exact .inl ⟨e, rfl⟩
  | none =>
    by_cases hs : segment = [] ∨ segment = ['.']
    · exact .inr (.inl ⟨rfl, hs⟩)
    by_cases hu : segment = ['.', '.']
    · exact .inr (.inr (.inl ⟨rfl, hu⟩))
    rw [not_or] at hs
    exact .inr (.inr (.inr ⟨hp, hs.1, hs.2, hu⟩))

/-- A step into an entry that is not a link. -/
theorem walk_into (hp : t.Proceeds start segment) (he : t.entry? (start ++ [String.ofList segment]) = some entry)
    (hlink : ∀ target, entry ≠ .link target) :
    t.walk follow links start (segment :: rest) = t.walk follow links (start ++ [String.ofList segment]) rest := by
  refine walk_next ?_
  rw [step_name hp, stepName, he]
  cases entry with
  | link target => exact absurd rfl (hlink target)
  | file | folder | database | special => rfl

/-- A step to a name that is free. -/
theorem walk_past (hp : t.Proceeds start segment) (he : t.entry? (start ++ [String.ofList segment]) = none) :
    t.walk follow links start (segment :: rest) =
      if rest = [] then .ok (.free (start ++ [String.ofList segment])) else .error .notFound := by
  have hstep : t.step follow links start segment rest =
      if rest = [] then .ended (.free (start ++ [String.ofList segment])) else .failed .notFound := by
    rw [step_name hp, stepName, he]
  split_ifs with hr
  · rw [if_pos hr] at hstep
    exact walk_ended hstep
  · rw [if_neg hr] at hstep
    exact walk_failed hstep

/-- What has become of a walk after so many steps. -/
def steps (t : FileTree) (follow : Bool) : Nat → Nat → Place → List (List Char) → Step
  | _, _, place, [] => .ended (.entry place)
  | 0, links, place, segment :: rest => .next links place (segment :: rest)
  | n + 1, links, place, segment :: rest =>
    match t.step follow links place segment rest with
    | .next links place segments => t.steps follow n links place segments
    | .failed e => .failed e
    | .ended found => .ended found

/-- A walk goes on from where some steps have led. -/
theorem walk_steps (n : Nat) : t.walk follow links start segments =
    match t.steps follow n links start segments with
    | .failed e => .error e
    | .ended found => .ok found
    | .next links place segments => t.walk follow links place segments := by
  induction n generalizing links start segments with
  | zero =>
    cases segments with
    | nil => exact walk_nil
    | cons segment rest => rfl
  | succ n ih =>
    cases segments with
    | nil => exact walk_nil
    | cons segment rest =>
      rw [steps]
      cases hstep : t.step follow links start segment rest with
      | failed e => exact walk_failed hstep
      | ended found => exact walk_ended hstep
      | next left there segments => rw [walk_next hstep, ih]

/-- A path leads where some steps come to an end. -/
theorem find_of_steps {path : FilePath} (n : Nat) (hl : path.text.utf8ByteSize ≤ maxPath) (hne : path.text ≠ "")
    (h : t.steps follow n maxLinks (path.start t.here) path.segments = .ended found) :
    t.find path follow = .ok found := by
  rw [find, if_neg (Nat.not_lt.mpr hl), if_neg hne, walk_steps n, h]

theorem place_of_steps {path : FilePath} (n : Nat) (hl : path.text.utf8ByteSize ≤ maxPath) (hne : path.text ≠ "")
    (h : t.steps true n maxLinks (path.start t.here) path.segments = .ended (.entry place)) :
    t.place path = .ok place := by
  rw [FileTree.place, find_of_steps n hl hne h]

theorem place_of_free {path : FilePath} (n : Nat) (place : Place) (hl : path.text.utf8ByteSize ≤ maxPath)
    (hne : path.text ≠ "") (h : t.steps true n maxLinks (path.start t.here) path.segments = .ended (.free place)) :
    t.place path = .error .notFound := by
  rw [FileTree.place, find_of_steps n hl hne h]

end Steps

/-! ### Paths -/

section Paths

variable {content : List UInt8}

theorem isFolder_put_file (h : t.entry? place = none) (other : Place) :
    (t.put place (.file content)).isFolder other = t.isFolder other := by
  by_cases ho : other = place
  · subst ho
    rw [isFolder, isFolder, entry?_put_self (ne_root_of_free h), h]
  · rw [isFolder, isFolder, entry?_put_of_ne ho]

theorem obstacle?_put (h : other ≠ place) (segment : List Char) :
    (t.put place entry).obstacle? other segment = t.obstacle? other segment := by
  rw [obstacle?, obstacle?, entry?_put_of_ne h, rights_put]

/-- There is no way through a file. -/
theorem ne_of_walk {follow : Bool} {links : Nat} {start : Place} {segment : List Char} {rest : List (List Char)}
    {found : Found} (h : t.entry? place = some (.file content))
    (hw : t.walk follow links start (segment :: rest) = .ok found) : start ≠ place := by
  rintro rfl
  rw [walk_failed (step_blocked (by rw [obstacle?, h]))] at hw
  cases hw

/-- A step is the same with a new file, unless it is the one that comes to this file. -/
theorem step_put (h : t.entry? place = none) {follow : Bool} {links : Nat} {start : Place} {segment : List Char}
    {rest : List (List Char)} (hs : start ≠ place) :
    (t.put place (.file content)).step follow links start segment rest = t.step follow links start segment rest ∨
      t.Proceeds start segment ∧ start ++ [String.ofList segment] = place ∧
        (t.put place (.file content)).step follow links start segment rest = .next links place rest := by
  have hobstacle : (t.put place (.file content)).obstacle? start segment = t.obstacle? start segment :=
    obstacle?_put hs segment
  rcases t.segment_cases start segment with ⟨e, he⟩ | ⟨hp, hsilent⟩ | ⟨hp, rfl⟩ | hp
  · rw [step_blocked he, step_blocked (hobstacle.trans he)]
    exact .inl rfl
  · rw [step_silent hp hsilent, step_silent (hobstacle.trans hp) hsilent]
    exact .inl rfl
  · rw [step_up hp, step_up (hobstacle.trans hp)]
    exact .inl rfl
  · have hp' : (t.put place (.file content)).Proceeds start segment := { hp with passes := hobstacle.trans hp.passes }
    rw [step_name hp', step_name hp, stepName, stepName]
    by_cases hplace : start ++ [String.ofList segment] = place
    · rw [hplace, entry?_put_self (ne_root_of_free h)]
      exact .inr ⟨hp, rfl, rfl⟩
    · rw [entry?_put_of_ne hplace]
      exact .inl rfl

/-- By induction on the walk: it can only come to the new file at its end, where the place was free before. -/
theorem walk_of_put (h : t.entry? place = none) {follow : Bool} {links : Nat} {start : Place}
    {segments : List (List Char)} {found : Found}
    (hw : (t.put place (.file content)).walk follow links start segments = .ok found) :
    ∃ before, t.walk follow links start segments = .ok before ∧ before.place = found.place := by
  have hself : entry? (t.put place (.file content)) place = some (.file content) :=
    entry?_put_self (ne_root_of_free h)
  induction links, start, segments using walk.induct (t.put place (.file content)) follow with
  | case1 links start =>
    rw [walk_nil] at hw
    exact ⟨found, by rw [walk_nil, hw], rfl⟩
  | case2 links start segment rest e hstep =>
    rw [walk_failed hstep] at hw
    cases hw
  | case3 links start segment rest ended hstep =>
    have hs := ne_of_walk hself hw
    rw [walk_ended hstep] at hw
    rcases step_put h hs with hsame | ⟨-, -, hnext⟩
    · exact ⟨ended, walk_ended (hsame ▸ hstep), congrArg Found.place (Except.ok.inj hw)⟩
    · rw [hnext] at hstep
      cases hstep
  | case4 links start segment rest left there segments hstep ih =>
    have hs := ne_of_walk hself hw
    rw [walk_next hstep] at hw
    rcases step_put h hs with hsame | ⟨hp, hplace, hnext⟩
    · obtain ⟨before, hbefore, hfound⟩ := ih hw
      exact ⟨before, by rw [walk_next (hsame ▸ hstep), hbefore], hfound⟩
    · -- the walk is at the new file, and can only end there
      rw [hnext] at hstep
      cases hstep
      cases rest with
      | nil =>
        rw [walk_nil] at hw
        obtain rfl := Except.ok.inj hw
        exact ⟨.free place, by rw [walk_past hp (hplace.symm ▸ h), if_pos rfl, hplace], rfl⟩
      | cons segment rest => exact absurd rfl (ne_of_walk hself hw)

theorem find_of_put (h : t.entry? place = none) {path : FilePath} {follow : Bool} {found : Found}
    (hf : (t.put place (.file content)).find path follow = .ok found) :
    ∃ before, t.find path follow = .ok before ∧ before.place = found.place := by
  rw [find, here_put] at hf
  split at hf
  · cases hf
  · rename_i hlong
    split at hf
    · cases hf
    · rename_i hempty
      rw [find, if_neg hlong, if_neg hempty]
      exact walk_of_put h hf

/-- A new file that is renamed takes the place to which the path has led, and nothing else changes. -/
theorem rename_new (h : t.entry? place = none) {path : FilePath} {after : FileTree}
    (hr : (t.put place (.file content)).rename place path = .ok after) :
    after.rights = t.rights ∧ ∃ target, t.find path false = .ok target ∧
      after.entry? target.place = some (.file content) ∧
      ∀ other, other ≠ target.place → after.entry? other = t.entry? other := by
  rw [rename, entry?_put_self (ne_root_of_free h)] at hr
  cases hf : (t.put place (.file content)).find path false with
  | error e => simp only [hf] at hr; cases hr
  | ok found =>
    simp only [hf, isFolder_put_file h, erase_put h] at hr
    split at hr
    · cases hr
    · rename_i hfolder
      cases hr
      obtain ⟨target, ht, hplace⟩ := find_of_put h hf
      have hroot := ne_root_of_not_folder (Bool.eq_false_iff.mpr hfolder)
      rw [← hplace] at hroot ⊢
      exact ⟨rights_put, target, ht, entry?_put_self hroot, fun other ho => entry?_put_of_ne ho⟩

end Paths

/-! ### Folders -/

theorem free_of_step {follow : Bool} {links : Nat} {start : Place} {segment : List Char} {rest : List (List Char)}
    (h : t.step follow links start segment rest = .ended (.free place)) : t.entry? place = none := by
  rcases t.segment_cases start segment with ⟨e, he⟩ | ⟨hp, hsilent⟩ | ⟨hp, rfl⟩ | hp
  · rw [step_blocked he] at h
    cases h
  · rw [step_silent hp hsilent] at h
    cases h
  · rw [step_up hp] at h
    cases h
  · rw [step_name hp, stepName] at h
    split at h
    · split at h
      · cases h
        assumption
      · cases h
    · split at h
      · cases h
      · split at h
        · cases h
        · split at h <;> cases h
    · cases h

/-- A walk that ends at a free name has found nothing there. -/
theorem free_of_walk {follow : Bool} {links : Nat} {start : Place} {segments : List (List Char)}
    (h : t.walk follow links start segments = .ok (.free place)) : t.entry? place = none := by
  induction links, start, segments using walk.induct t follow with
  | case1 links start =>
    rw [walk_nil] at h
    cases h
  | case2 links start segment rest e hstep =>
    rw [walk_failed hstep] at h
    cases h
  | case3 links start segment rest found hstep =>
    rw [walk_ended hstep] at h
    cases h
    exact free_of_step hstep
  | case4 links start segment rest left there segments hstep ih =>
    rw [walk_next hstep] at h
    exact ih h

/-- What making folders may do: places stay as they are, or a free one becomes a folder. -/
structure Grown (before after : FileTree) : Prop where
  here : after.here = before.here
  rights : after.rights = before.rights
  entries : ∀ place, after.entry? place = before.entry? place ∨
    before.entry? place = none ∧ after.entry? place = some .folder

theorem grown_refl : Grown t t := ⟨rfl, rfl, fun _ => .inl rfl⟩

/-- A folder is made in a free place, and then others. -/
theorem Grown.of_put {after : FileTree} (hfree : t.entry? place = none) (h : Grown (t.put place .folder) after) :
    Grown t after := by
  refine ⟨h.here.trans here_put, h.rights.trans rights_put, fun other => ?_⟩
  have hother := h.entries other
  by_cases ho : other = place
  · subst ho
    have hput : entry? (t.put other .folder) other = some .folder := entry?_put_self (ne_root_of_free hfree)
    rcases hother with hsame | ⟨hnone, -⟩
    · exact .inr ⟨hfree, hsame.trans hput⟩
    · rw [hput] at hnone
      cases hnone
  · rwa [entry?_put_of_ne ho] at hother

theorem makeFoldersFrom_grown {start : Place} {done segments : List (List Char)} :
    Grown t (t.makeFoldersFrom start done segments).2 := by
  induction segments generalizing t done with
  | nil =>
    rw [makeFoldersFrom]
    exact grown_refl
  | cons segment rest ih =>
    rw [makeFoldersFrom]
    split
    · exact grown_refl
    · rename_i free hw
      exact .of_put (free_of_walk hw) ih
    · split
      · split
        · exact ih
        · exact grown_refl
      · exact grown_refl
      · exact grown_refl

/-- Also if not all folders can be made. -/
theorem makeFolders_grown (path : FilePath) : Grown t (t.makeFolders path).2 := by
  unfold makeFolders
  split
  · exact grown_refl
  · split
    · exact grown_refl
    · exact makeFoldersFrom_grown

end FileTree
end ShareIndex
