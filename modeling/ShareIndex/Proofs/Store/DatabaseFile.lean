import ShareIndex.Store.DatabaseFile
import ShareIndex.Proofs.FilePath.Entry
import ShareIndex.Proofs.FileTree

/-!
# ShareIndex.Proofs.Store.DatabaseFile

What opening and closing a database does to its file.

* `stored?`          — the tables that a connection finds at a place.
* `Opened`           — a database that has been opened has these tables, and its file holds them.
* `connect_opened`   — a connection that can be used has opened the database to which the path leads.
* `persist_resolved` — closing puts the tables into the file.
* `persist_kept`     — nothing else is changed by that.
-/

namespace ShareIndex
namespace Store

variable {files after : FileTree} {place : Place} {path : FilePath} {d : Database} {t : Tables}

/-- The tables that a connection finds at a place; a file that is missing, or as good as empty, has none in it. -/
def stored? (files : FileTree) (place : Place) : Option Tables :=
  match contentAt files place with
  | .missing | .blank => some .empty
  | .tables tables => some tables
  | .other => none

theorem stored?_congr (hr : after.rights = files.rights) (he : after.entry? place = files.entry? place) :
    stored? after place = stored? files place := by
  rw [stored?, stored?, contentAt, contentAt, hr, he]

theorem stored?_database {size : Nat} (hr : (files.rights place).read = true)
    (he : files.entry? place = some (.database t size)) : stored? files place = some t := by
  rw [stored?, contentAt, he]
  simp only [hr]
  rfl

theorem stored?_folder (h : files.entry? place = some .folder) : stored? files place = none := by
  rw [stored?, contentAt, h]
  cases (files.rights place).read <;> rfl

/-- There are no tables in a file of another kind, unless it is as good as empty. -/
theorem stored?_file {content : List UInt8} (h : files.entry? place = some (.file content)) :
    stored? files place = none ∨ stored? files place = some .empty := by
  rw [stored?, contentAt, h]
  cases (files.rights place).read with
  | false => exact .inl rfl
  | true =>
    match content with
    | [] | [_] => exact .inr rfl
    | _ :: _ :: _ => exact .inl rfl

/-- Making folders does not change what is found, unless it puts a folder there. -/
theorem stored?_grown (h : FileTree.Grown files after) (hs : stored? after place = some t) :
    stored? files place = some t := by
  rcases h.entries place with hsame | ⟨-, hfolder⟩
  · rwa [stored?_congr h.rights hsame] at hs
  · rw [stored?_folder hfolder] at hs
    cases hs

/-! ### Paths -/

/-- The root, and a name that is not that of a link, are taken as they are. -/
theorem resolveFrom_root {links : Nat} {rest : List (List Char)} :
    resolveFrom files links [] ([] :: rest) = resolveFrom files links [] rest := by
  rw [resolveFrom, if_pos (.inl rfl)]

theorem resolveFrom_into {links : Nat} {name : String} {rest : List (List Char)} (hn : FilePath.FileName name)
    (ho : isOpenEnded files place = true) (hv : FileTree.validName name = true)
    (hl : pathLength (place ++ [name]) < maxPlace)
    (he : ∀ target, files.entry? (place ++ [name]) ≠ some (.link target)) :
    resolveFrom files links place (name.toList :: rest) = resolveFrom files links (place ++ [name]) rest := by
  rw [resolveFrom, if_neg hn.segment_ne.1, if_neg hn.segment_ne.2, String.ofList_toList, if_neg (by simp [ho, hv]),
    if_neg (Nat.not_le.mpr hl)]
  split
  · exact absurd ‹_› (he _)
  · rfl

/-! ### Opening -/

/-- A database that has been opened has the tables that were found, and its file holds them. -/
structure Opened (files after : FileTree) (place : Place) (d : Database) : Prop where
  found : stored? files place = some d.tables
  held : ∃ size, after.entry? place = some (.database d.tables size)
  rights : after.rights = files.rights

/-- Tables are in a database that may be read. -/
theorem entry?_of_tables (h : contentAt files place = .tables t) :
    ∃ size, files.entry? place = some (.database t size) := by
  unfold contentAt at h
  split at h
  · cases h
  · rename_i he
    split at h
    · cases h
    · split at h <;> cases h
      exact ⟨_, he⟩

theorem opened_tables (h : contentAt files place = .tables t) (ht : d.tables = t) : Opened files files place d := by
  subst ht
  exact ⟨by rw [stored?, h], entry?_of_tables h, rfl⟩

theorem opened_empty (h : contentAt files place = .missing ∨ contentAt files place = .blank) :
    Opened files (putTables files place .empty) place .empty := by
  have hfound : stored? files place = some .empty := by
    rcases h with h | h <;> rw [stored?, h]
  have hplace : place ≠ [] := FileTree.ne_root_of_entry? fun he => by
    rw [stored?_folder he] at hfound
    cases hfound
  exact ⟨hfound, ⟨_, FileTree.entry?_put_self hplace⟩, FileTree.rights_put⟩

theorem connectAt_opened {usage : Usage} {frozen : Bool} (h : connectAt files place usage frozen = (.ok d, after)) :
    Opened files after place d := by
  unfold connectAt at h
  split at h
  · obtain ⟨hd, rfl⟩ := Prod.mk.inj h
    exact opened_tables ‹_› (by rw [← Except.ok.inj hd]; rfl)
  · obtain ⟨hd, rfl⟩ := Prod.mk.inj h
    refine opened_tables ‹_› ?_
    rw [← Except.ok.inj hd]
    split <;> rfl
  · split at h
    · cases h
    · cases h
      exact opened_empty (.inl ‹_›)
  · split at h
    · cases h
    · cases h
      exact opened_empty (.inr ‹_›)
  · split at h
    · cases h
    · cases h
      exact opened_empty (.inr ‹_›)
  · cases h
  · cases h

section Files

variable {target : FilePath} {usage : Usage} {frozen : Bool}

/-- A connection that can be used has opened the database to which the path leads, also afterwards. -/
theorem connect_opened (ha : Address.of? path = some (.file target usage frozen))
    (h : connect files path = (.ok d, after)) (hd : d.access ≠ .closed) :
    ∃ place, resolve after target = some place ∧ (after.rights place).read = true ∧ Opened files after place d := by
  rw [connect, ha] at h
  dsimp only at h
  split at h
  · cases h
  · rename_i place hplace
    rcases hc : connectAt files place usage frozen with ⟨result, opened⟩
    rw [hc] at h
    obtain ⟨hresult, rfl⟩ := Prod.mk.inj h
    cases result with
    | error e => cases hresult
    | ok first =>
      have hreached := Except.ok.inj hresult
      rw [reached] at hreached
      split at hreached
      · rename_i hfound
        rw [Bool.and_eq_true, decide_eq_true_eq] at hfound
        subst hreached
        exact ⟨place, hfound.1, hfound.2, connectAt_opened hc⟩
      · subst hreached
        exact absurd rfl hd

/-! ### Closing -/

/-- The tables are put into the file to which the path leads. -/
theorem persist_resolved {size : Nat} (ha : Address.of? path = some (.file target usage frozen))
    (hr : resolve files target = some place) (hread : (files.rights place).read = true)
    (he : files.entry? place = some (.database t size)) :
    stored? (persist files path d) place = some d.tables := by
  rw [persist, ha]
  simp only [hr, persistAt, he]
  split
  · rename_i ht
    exact ht ▸ stored?_database hread he
  · have hplace : place ≠ [] := FileTree.ne_root_of_entry? fun hroot => by cases he.symm.trans hroot
    exact stored?_database (by rwa [putTables, FileTree.rights_put]) (FileTree.entry?_put_self hplace)

end Files

/-- Where there is no database, or one that has these tables already, nothing is changed. -/
theorem persist_kept (h : ∀ t size, files.entry? place = some (.database t size) → t = d.tables) :
    stored? (persist files path d) place = stored? files place := by
  unfold persist
  split
  · split
    · rfl
    · rename_i resolved hr
      unfold persistAt
      split
      · rename_i held size he
        split
        · rfl
        · rename_i hother
          refine stored?_congr FileTree.rights_put (FileTree.entry?_put_of_ne ?_)
          rintro rfl
          exact hother (h held size he)
      · rfl
  · rfl

end Store
end ShareIndex
