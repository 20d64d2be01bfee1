import ShareIndex.Proofs.FileTree
import ShareIndex.Proofs.Folder.Conversion

/-!
# ShareIndex.Proofs.FileTree.Alike

What the entries of a folder say about where their paths lead, and which changes of a tree leave that as it is.

* `place_entry`, `stat_entry` — the path of an entry leads to this entry, unless it is a link.
* `Reachable`   — neither the name nor the path is too long for that, and the folder may be entered;
  `reachable_of_stat` says that this is needed.
* `Alike`       — the same entries, but for the contents of some regular files; `alike_of_perm` says that the order in
  which the folders are enumerated does not count.
* `Alike.walk`, `Alike.stat` — all paths lead to the same places, and to the same entries but for these contents.
* `Alike.list`  — the folders are the same, and have entries of the same names.
-/

namespace ShareIndex

/-- The size of a regular file. -/
def Entry.size? : Entry → Option Nat
  | .file content => some content.length
  | .database _ size => some size
  | .link _ | .folder | .special => none

theorem Entry.regular_cases {entry : Entry} (h : entry.size?.isSome) :
    (∃ content, entry = .file content) ∨ ∃ tables size, entry = .database tables size := by
  cases entry with
  | file content => exact .inl ⟨content, rfl⟩
  | database tables size => exact .inr ⟨tables, size, rfl⟩
  | link | folder | special => cases h

namespace FileTree

open FilePath (FileName)

variable {t t' : FileTree} {path : FilePath} {place : Place} {name : String} {entry : Entry}

/-! ### Entries of folders -/

theorem entry?_eq_some (h : place ≠ []) : t.entry? place = some entry ↔ (place, entry) ∈ t.nodes := by
  unfold entry?
  rw [if_neg h, List.lookup_eq_some_iff]
  constructor
  · rintro ⟨front, back, hnodes, -⟩
    rw [hnodes]
    exact List.mem_append_right front List.mem_cons_self
  · intro hm
    obtain ⟨front, back, hnodes⟩ := List.append_of_mem hm
    refine ⟨front, back, hnodes, fun node hn => ?_⟩
    have hnodup := t.nodup
    rw [hnodes, List.map_append, List.map_cons] at hnodup
    rw [bne_iff_ne]
    exact ((List.nodup_append.mp hnodup).2.2 node.1 (List.mem_map_of_mem hn) place List.mem_cons_self).symm

theorem ne_root (place : Place) (name : String) : place ++ [name] ≠ [] := by simp

theorem Named.mem_children_iff (ht : t.Named) :
    (name, entry) ∈ t.children place ↔ FileName name ∧ t.entry? (place ++ [name]) = some entry := by
  constructor
  · intro hm
    have hn := ht place _ hm
    exact ⟨hn, (entry?_eq_some (ne_root place name)).mpr (mem_children.mp hm)⟩
  · rintro ⟨hn, he⟩
    exact mem_children.mpr ((entry?_eq_some (ne_root place name)).mp he)

/-! ### Paths of entries -/

/-- If links are followed, a step goes on in the same way whatever comes after it, or no walk from here comes to an
entry. -/
theorem step_append (t : FileTree) (links : Nat) (start : Place) (segment : List Char) (rest : List (List Char)) :
    (∃ left there segments, ∀ other,
      t.step true links start segment (rest ++ other) = .next left there (segments ++ other)) ∨
    ∀ other place, t.walk true links start (segment :: (rest ++ other)) ≠ .ok (.entry place) := by
  rcases t.segment_cases start segment with ⟨e, he⟩ | ⟨hp, hsilent⟩ | ⟨hp, rfl⟩ | hp
  · refine .inr fun other place hw => ?_
    rw [walk_failed (step_blocked he)] at hw
    cases hw
  · exact .inl ⟨links, start, rest, fun other => step_silent hp hsilent⟩
  · exact .inl ⟨links, start.up, rest, fun other => step_up hp⟩
  · cases he : t.entry? (start ++ [String.ofList segment]) with
    | none =>
      refine .inr fun other place hw => ?_
      rw [walk_past hp he] at hw
      split at hw <;> cases hw
    | some entry =>
      cases entry with
      | file | folder | database | special =>
        exact .inl ⟨links, start ++ [String.ofList segment], rest, fun other => by rw [step_name hp, stepName, he]⟩
      | link target =>
        by_cases ht : target.text = ""
        · refine .inr fun other place hw => ?_
          rw [walk_failed (e := .notFound)] at hw
          · cases hw
          · rw [step_name hp, stepName, he]
            simp [ht]
        · cases links with
          | zero =>
            refine .inr fun other place hw => ?_
            rw [walk_failed (e := .tooManyLinks)] at hw
            · cases hw
            · rw [step_name hp, stepName, he]
              simp [ht]
          | succ links =>
            refine .inl ⟨links, target.start start, target.segments ++ rest, fun other => ?_⟩
            rw [step_name hp, stepName, he, List.append_assoc]
            simp [ht]

/-- A walk that comes to an entry goes by the places to which the beginnings of its path lead. -/
theorem walk_append {links : Nat} {start : Place} {front back : List (List Char)}
    (h : t.walk true links start (front ++ back) = .ok (.entry place)) :
    ∃ left halfway, t.walk true left halfway back = .ok (.entry place) ∧
      ∀ other, t.walk true links start (front ++ other) = t.walk true left halfway other := by
  induction links, start, front using walk.induct t true with
  | case1 links start => exact ⟨links, start, h, fun other => rfl⟩
  | case2 links start segment rest e hstep | case3 links start segment rest found hstep =>
    rcases t.step_append links start segment rest with ⟨left, there, segments, hnext⟩ | hnever
    · cases hstep.symm.trans (List.append_nil rest ▸ hnext [])
    · exact absurd h (hnever back place)
  | case4 links start segment rest left there segments hstep ih =>
    rcases t.step_append links start segment rest with ⟨left', there', segments', hnext⟩ | hnever
    · cases hstep.symm.trans (List.append_nil rest ▸ hnext [])
      rw [List.append_nil] at ih
      have hwalk : ∀ other, t.walk true links start (segment :: rest ++ other) =
          t.walk true left there (segments' ++ other) := fun other => walk_next (hnext other)
      rw [hwalk] at h
      obtain ⟨last, halfway, hback, hother⟩ := ih h
      exact ⟨last, halfway, hback, fun other => by rw [hwalk, hother]⟩
    · exact absurd h (hnever back place)

theorem start_entry (hp : path.text ≠ "") (hn : FileName name) (start : Place) :
    (path.entry name).start start = path.start start := by
  rw [FilePath.start, FilePath.start, FilePath.isAbsolute, FilePath.isAbsolute, FilePath.anchor_entry hn hp]

/-- The last step on the way to an entry is the one from its folder. -/
theorem walk_entry (hplace : t.place path = .ok place) (hn : FileName name) :
    ∃ left, t.walk true maxLinks ((path.entry name).start t.here) (path.entry name).segments =
      t.walk true left place [name.toList] := by
  rw [FileTree.place] at hplace
  split at hplace
  · cases hplace
  · cases hplace
  rename_i place' hfind
  obtain rfl := Except.ok.inj hplace
  rw [find] at hfind
  split at hfind
  · cases hfind
  split at hfind
  · cases hfind
  rename_i hpath
  rw [start_entry hpath hn]
  suffices ∃ front, (path.entry name).segments = front ++ [name.toList] ∧
      (path.segments = front ∨ path.segments = front ++ [[]]) by
    obtain ⟨front, hentry, hfront⟩ := this
    rw [hentry]
    rcases hfront with hfront | hfront
    · rw [hfront, ← List.append_nil front] at hfind
      obtain ⟨left, halfway, hback, hother⟩ := walk_append hfind
      rw [walk_nil] at hback
      obtain rfl : halfway = place' := Found.entry.inj (Except.ok.inj hback)
      exact ⟨left, hother _⟩
    · rw [hfront] at hfind
      obtain ⟨left, halfway, hback, hother⟩ := walk_append hfind
      have hhere : halfway = place' := by
        cases ho : t.obstacle? halfway [] with
        | some e =>
          rw [walk_failed (step_blocked ho)] at hback
          cases hback
        | none =>
          rw [walk_next (step_silent ho (.inl rfl)), walk_nil] at hback
          exact Found.entry.inj (Except.ok.inj hback)
      exact ⟨left, hhere ▸ hother _⟩
  rcases FilePath.segments_entry path hn with ⟨hs, -⟩ | ⟨s, rest, front, hs, he, -, hsame⟩
  · exact absurd (FilePath.text_of_segments hs) hpath
  · refine ⟨s :: front, he, ?_⟩
    rcases hsame with rfl | rfl
    · exact .inl hs
    · exact .inr hs

/-- Neither the name of an entry nor its path is too long, and paths may lead through its folder. -/
structure Reachable (t : FileTree) (path : FilePath) (name : String) : Prop where
  valid : validName name = true
  short : (path.entry name).text.utf8ByteSize ≤ maxPath
  entered : ∃ place, t.place path = .ok place ∧ (t.rights place).enter = true

theorem find_entry (hplace : t.place path = .ok place) (hn : FileName name)
    (hlength : (path.entry name).text.utf8ByteSize ≤ maxPath) :
    ∃ left, t.find (path.entry name) true = t.walk true left place [name.toList] := by
  obtain ⟨left, hwalk⟩ := walk_entry hplace hn
  have htext : (path.entry name).text ≠ "" := by
    intro he
    have hnone : (path.entry name).components = [] := by
      rw [show path.entry name = ⟨""⟩ from congrArg FilePath.mk he]
      rfl
    rw [FilePath.components_entry path hn] at hnone
    exact absurd hnone (by simp)
  exact ⟨left, by rw [find, if_neg (Nat.not_lt.mpr hlength), if_neg htext, hwalk]⟩

theorem Reachable.proceeds (hr : Reachable t path name) (hfolder : t.isFolder place = true)
    (hplace : t.place path = .ok place) (hn : FileName name) : t.Proceeds place name.toList := by
  obtain ⟨entered, he, henter⟩ := hr.entered
  obtain rfl := Except.ok.inj (hplace.symm.trans he)
  have hsegment := not_or.mp hn.segment_ne.1
  refine ⟨?_, hsegment.1, hsegment.2, hn.segment_ne.2⟩
  rw [obstacle?, isFolder_iff.mp hfolder, String.ofList_toList]
  simp [hsegment.1, henter, hr.valid]

/-- The path of an entry leads to this entry, unless it is a link. -/
theorem place_entry (hfolder : t.isFolder place = true) (hplace : t.place path = .ok place) (hn : FileName name)
    (hr : Reachable t path name) (he : t.entry? (place ++ [name]) = some entry)
    (hlink : ∀ target, entry ≠ .link target) : t.place (path.entry name) = .ok (place ++ [name]) := by
  obtain ⟨left, hfind⟩ := find_entry hplace hn hr.short
  have hlast : t.walk true left place [name.toList] = .ok (.entry (place ++ [name])) := by
    rw [walk_into (hr.proceeds hfolder hplace hn) (by rwa [String.ofList_toList]) hlink, walk_nil, String.ofList_toList]
  rw [FileTree.place, hfind, hlast]

theorem stat_entry (hfolder : t.isFolder place = true) (hplace : t.place path = .ok place) (hn : FileName name)
    (hr : Reachable t path name) (he : t.entry? (place ++ [name]) = some entry)
    (hlink : ∀ target, entry ≠ .link target) : t.stat (path.entry name) = .ok entry := by
  rw [stat, place_entry hfolder hplace hn hr he hlink]
  simp only [he]

/-- An entry to which its path leads can be reached. -/
theorem reachable_of_stat (hfolder : t.isFolder place = true) (hplace : t.place path = .ok place) (hn : FileName name)
    (h : t.stat (path.entry name) = .ok entry) : Reachable t path name := by
  have hlength : (path.entry name).text.utf8ByteSize ≤ maxPath := by
    by_contra hlong
    rw [stat, FileTree.place, find, if_pos (Nat.not_le.mp hlong)] at h
    cases h
  have hpasses : t.obstacle? place name.toList = none := by
    cases ho : t.obstacle? place name.toList with
    | none => rfl
    | some e =>
      obtain ⟨left, hfind⟩ := find_entry hplace hn hlength
      rw [stat, FileTree.place, hfind, walk_failed (step_blocked ho)] at h
      cases h
  rw [obstacle?, isFolder_iff.mp hfolder, String.ofList_toList] at hpasses
  simp only [if_neg (not_or.mp hn.segment_ne.1).1] at hpasses
  cases henter : (t.rights place).enter <;> cases hv : validName name <;> simp [henter, hv] at hpasses
  exact ⟨hv, hlength, place, hplace, henter⟩

/-! ### Trees that are alike -/

/-- A process finds the same, but that some regular files may have other contents. -/
structure Alike (changed : Place → Prop) (t t' : FileTree) : Prop where
  here : t'.here = t.here
  rights : t'.rights = t.rights
  entries : ∀ place, t'.entry? place = t.entry? place ∨
    changed place ∧ ∃ entry entry', t.entry? place = some entry ∧ t'.entry? place = some entry' ∧
      entry.size?.isSome ∧ entry'.size?.isSome

/-- The order in which folders are enumerated does not count. -/
theorem alike_of_perm (hh : t'.here = t.here) (hr : t'.rights = t.rights) (h : t'.nodes.Perm t.nodes) :
    Alike (fun _ => False) t t' := by
  refine ⟨hh, hr, fun place => .inl ?_⟩
  by_cases hp : place = []
  · rw [hp]
    rfl
  · refine Option.ext fun entry => ?_
    rw [entry?_eq_some hp, entry?_eq_some hp, h.mem_iff]

theorem Named.of_perm (ht : t.Named) (h : t'.nodes.Perm t.nodes) : t'.Named :=
  fun place e he => ht place e (mem_children.mpr (h.mem_iff.mp (mem_children.mp he)))

theorem Alike.mono {changed changed' : Place → Prop} (h : Alike changed t t')
    (hc : ∀ place, changed place → changed' place) : Alike changed' t t' :=
  ⟨h.here, h.rights, fun place => (h.entries place).imp_right fun hp => ⟨hc place hp.1, hp.2⟩⟩

section Alike

variable {changed : Place → Prop} {follow : Bool} {links : Nat} {segment : List Char} {segments : List (List Char)}

theorem Alike.isSome (h : Alike changed t t') (place : Place) :
    (t'.entry? place).isSome = (t.entry? place).isSome := by
  rcases h.entries place with he | ⟨-, entry, entry', he, he', -, -⟩
  · rw [he]
  · rw [he, he']
    rfl

/-- What is not a regular file stays as it is. -/
theorem Alike.same (h : Alike changed t t') (hs : entry.size? = none) :
    t'.entry? place = some entry ↔ t.entry? place = some entry := by
  have hne : ∀ {other : Entry}, other.size?.isSome → ¬ some other = some entry := by
    intro other ho he
    rw [Option.some.inj he, hs] at ho
    cases ho
  rcases h.entries place with hsame | ⟨-, before, after, hb, ha, hb', ha'⟩
  · rw [hsame]
  · rw [hb, ha]
    exact ⟨fun he => absurd he (hne ha'), fun he => absurd he (hne hb')⟩

theorem Alike.isFolder (h : Alike changed t t') (place : Place) : t'.isFolder place = t.isFolder place := by
  rw [Bool.eq_iff_iff, isFolder_iff, isFolder_iff, h.same rfl]

/-- Files are in the way, whatever is in them. -/
theorem Alike.obstacle? (h : Alike changed t t') (start : Place) :
    t'.obstacle? start segment = t.obstacle? start segment := by
  rw [FileTree.obstacle?, FileTree.obstacle?, h.rights]
  rcases h.entries start with hsame | ⟨-, entry, entry', he, he', hs, hs'⟩
  · rw [hsame]
  · rw [he, he']
    rcases Entry.regular_cases hs with ⟨content, rfl⟩ | ⟨tables, size, rfl⟩ <;>
      rcases Entry.regular_cases hs' with ⟨content', rfl⟩ | ⟨tables', size', rfl⟩ <;> rfl

/-- No step depends on the contents of a file. -/
theorem Alike.step (h : Alike changed t t') (start : Place) (rest : List (List Char)) :
    t'.step follow links start segment rest = t.step follow links start segment rest := by
  rw [FileTree.step, FileTree.step, h.obstacle?]
  have hname : t'.stepName follow links start (String.ofList segment) rest =
      t.stepName follow links start (String.ofList segment) rest := by
    rw [stepName, stepName]
    rcases h.entries (start ++ [String.ofList segment]) with hsame | ⟨-, entry, entry', he, he', hs, hs'⟩
    · rw [hsame]
    · rw [he, he']
      rcases Entry.regular_cases hs with ⟨content, rfl⟩ | ⟨tables, size, rfl⟩ <;>
        rcases Entry.regular_cases hs' with ⟨content', rfl⟩ | ⟨tables', size', rfl⟩ <;> rfl
  rw [hname]

theorem Alike.walk (h : Alike changed t t') :
    t'.walk follow links place segments = t.walk follow links place segments := by
  induction links, place, segments using walk.induct t follow with
  | case1 links start => rw [walk_nil, walk_nil]
  | case2 links start segment rest e hstep => rw [walk_failed hstep, walk_failed ((h.step start rest).trans hstep)]
  | case3 links start segment rest found hstep => rw [walk_ended hstep, walk_ended ((h.step start rest).trans hstep)]
  | case4 links start segment rest left there segments hstep ih =>
    rw [walk_next hstep, walk_next ((h.step start rest).trans hstep), ih]

theorem Alike.place_eq (h : Alike changed t t') (path : FilePath) : t'.place path = t.place path := by
  simp only [FileTree.place, find, h.walk, h.here]

/-- A path leads to the same entry as before, or to a file whose contents may be others. -/
theorem Alike.stat (h : Alike changed t t') (path : FilePath) :
    t'.stat path = t.stat path ∨
      ∃ place entry entry', t.place path = .ok place ∧ changed place ∧ t.stat path = .ok entry ∧
        t'.stat path = .ok entry' ∧ entry.size?.isSome ∧ entry'.size?.isSome := by
  rw [FileTree.stat, FileTree.stat, h.place_eq]
  cases t.place path with
  | error e => exact .inl rfl
  | ok place =>
    rcases h.entries place with he | ⟨hc, entry, entry', he, he', hs, hs'⟩
    · exact .inl (by simp only [he])
    · exact .inr ⟨place, entry, entry', rfl, hc, by simp only [he], by simp only [he'], hs, hs'⟩

/-- If no contents change, every file reads the same. -/
theorem Alike.read (h : Alike (fun _ => False) t t') (path : FilePath) : t'.read path = t.read path := by
  have hentry : ∀ place, t'.entry? place = t.entry? place :=
    fun place => (h.entries place).resolve_right fun hc => hc.1
  rw [FileTree.read, FileTree.read, h.place_eq, h.rights]
  simp only [hentry]

theorem Alike.list_error (h : Alike changed t t') {e : Failure} (hl : t.list path = .error e) :
    t'.list path = .error e := by
  rw [← hl, FileTree.list, FileTree.list, h.place_eq]
  cases hp : t.place path with
  | error e' => rfl
  | ok place =>
    rw [FileTree.list, hp] at hl
    simp only [h.isFolder, h.rights]
    split
    · rfl
    split
    · rfl
    simp_all

/-- A folder has entries of the same names. -/
theorem Alike.list (h : Alike changed t t') (ht : t.Named) (ht' : t'.Named) {entries : List (String × Entry)}
    (hl : t.list path = .ok entries) :
    ∃ entries', t'.list path = .ok entries' ∧
      (∀ name, name ∈ entries'.map (·.1) ↔ name ∈ entries.map (·.1)) ∧
      ∀ name entry, entry.size? = none → ((name, entry) ∈ entries' ↔ (name, entry) ∈ entries) := by
  obtain ⟨place, hplace, hfolder, hread, rfl⟩ := list_eq_ok.mp hl
  refine ⟨t'.children place, ?_, fun name => ?_, fun name entry hs => ?_⟩
  · exact list_eq_ok.mpr ⟨place, (h.place_eq path).trans hplace, (h.isFolder place).trans hfolder,
      h.rights ▸ hread, rfl⟩
  · have hsome : ∀ {t : FileTree}, t.Named →
        (name ∈ (t.children place).map (·.1) ↔ FileName name ∧ (t.entry? (place ++ [name])).isSome = true) := by
      intro t ht
      simp only [List.mem_map, Prod.exists, exists_and_right, exists_eq_right, ht.mem_children_iff,
        Option.isSome_iff_exists, exists_and_left]
    rw [hsome ht', hsome ht, h.isSome]
  · rw [ht'.mem_children_iff, ht.mem_children_iff, h.same hs]

end Alike

end FileTree
end ShareIndex
