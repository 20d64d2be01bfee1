import ShareIndex.Proofs.Repository.Reorder
import ShareIndex.Proofs.Store.Equivalence
import ShareIndex.Proofs.Store.Soundness
import ShareIndex.Store.Faulty

/-!
# ShareIndex.Proofs.Repository.Retry

A batch that only sets fields may be cut off anywhere and made again: the whole batch sets once more what its beginning
has set, and where it could write before it still can.

* `Backend.Takes`         — a store in which entries can be set; `Backend.takes_of_perform` reads it off a success.
* `Backend.perform_append` — entries one after the other are one batch.
* `Behind`                — a store in which some entries of a batch have been set. `Behind.cut` is one more attempt,
  `Behind.whole` is the one that goes through.
* `Faulty.attempts`       — a batch that is cut off again and again; `Faulty.behind_attempts` is what it leaves.
* `Faulty.retry_absorbs`  — each attempt leaves what its commands do, and the last one what a single one would have.
-/

namespace ShareIndex
namespace Store

open Repository (lastWhere? lastWhere?_append lastWhere?_eq_none)

/-! ### Success -/

/-- Entries can only have been set where there was a hash or nothing. -/
theorem Keyspace.fillable_of_apply {s s' : Keyspace} {entries : List FieldEntry} {u : Unit}
    (h : s.apply (entries.map FieldEntry.command) = (.ok u, s')) : ∀ e ∈ entries, Fillable (s.get? e.key) := by
  induction entries generalizing s with
  | nil => simp
  | cons e rest ih =>
    rw [List.map_cons, apply, FieldEntry.command, runCommand, setField_eq] at h
    by_cases he : Fillable (s.get? e.key)
    · rw [if_pos he] at h
      refine List.forall_mem_cons.mpr ⟨he, fun d hd => ?_⟩
      by_cases hkey : d.key = e.key
      · rw [hkey]
        exact he
      · have hrest := ih h d hd
        rwa [get?_put, if_neg hkey] at hrest
    · rw [if_neg he] at h
      cases h

theorem Transaction.fillable_of_apply {t t' : Tables} {a : Access} {entries : List FieldEntry} {u : Unit}
    (h : exec (apply (entries.map FieldEntry.command)) a t = .ok (u, t')) :
    ∀ e ∈ entries, Fillable (t.value? e.key) := by
  induction entries generalizing t with
  | nil => simp
  | cons e rest ih =>
    obtain ⟨u1, t1, h1, h2⟩ := exec_bind_ok.mp h
    have he := (exec_setField_ok h1).1
    refine List.forall_mem_cons.mpr ⟨he, fun d hd => ?_⟩
    by_cases hkey : d.key = e.key
    · rw [hkey]
      exact he
    · have hrest := ih h2 d hd
      rwa [Tables.value?_eq (keeps_setField e.field e.value hkey a t u1 t1 h1)] at hrest

namespace Backend

/-- A store takes entries if it can be written to and no text is in the place of a hash. -/
structure Takes (s : Backend) (entries : List FieldEntry) : Prop where
  access : entries ≠ [] → s.access = .writing
  fillable : ∀ e ∈ entries, Fillable (s.value? e.key)

variable {s s' : Backend} {entries l l' : List FieldEntry}

theorem Takes.mono (h : s.Takes entries) (hl : ∀ e ∈ l, e ∈ entries) : s.Takes l where
  access hne := by
    obtain ⟨e, he⟩ := List.exists_mem_of_ne_nil l hne
    exact h.access (List.ne_nil_of_mem (hl e he))
  fillable e he := h.fillable e (hl e he)

theorem Takes.perform (h : s.Takes entries) :
    ∃ s', s.perform (.apply (entries.map FieldEntry.command)) = (.ok (), s') := by
  rcases perform_entries h.fillable with ⟨e, he, hn⟩ | ⟨s', hs, -⟩
  · have hnil : entries = [] := by
      by_contra hne
      exact hn (h.access hne)
    subst hnil
    cases s <;> exact ⟨_, rfl⟩
  · exact ⟨s', hs⟩

theorem takes_of_perform (h : (s.perform (.apply (entries.map FieldEntry.command))).1 = .ok ()) : s.Takes entries := by
  cases s with
  | memory s =>
    exact ⟨fun _ => rfl, Keyspace.fillable_of_apply (Prod.ext h rfl)⟩
  | database d =>
    cases entries with
    | nil => exact ⟨fun hne => absurd rfl hne, by simp⟩
    | cons e rest =>
      have hp : (database d).perform (.apply ((e :: rest).map FieldEntry.command)) =
          ((d.transact (Transaction.apply ((e :: rest).map FieldEntry.command))).1,
            .database (d.transact (Transaction.apply ((e :: rest).map FieldEntry.command))).2) := rfl
      rw [hp] at h
      obtain ⟨t, hx, -⟩ := Database.transact_ok (Prod.ext h rfl)
      exact ⟨fun _ => Transaction.writing_of_apply (List.cons_ne_nil _ _) hx, Transaction.fillable_of_apply hx⟩

theorem perform_of_exec {t t' : Tables} {commands : List Command}
    (h : Transaction.exec (Transaction.apply commands) .writing t = .ok ((), t')) :
    (database (.ofTables t)).perform (.apply commands) = (.ok (), database (.ofTables t')) := by
  rw [perform_database, perform_apply, transact_ofTables, h]

/-- Entries one after the other are one batch. -/
theorem perform_append (ht : s.Takes (l ++ l')) (hs : s.perform (.apply (l.map FieldEntry.command)) = (.ok (), s')) :
    s'.perform (.apply (l'.map FieldEntry.command)) = s.perform (.apply ((l ++ l').map FieldEntry.command)) := by
  rw [List.map_append]
  cases s with
  | memory s =>
    obtain ⟨s1, h1, -⟩ := Keyspace.apply_fillable (s := s) fun e he => ht.fillable e (List.mem_append_left _ he)
    have hs1 : (memory s).perform (.apply (l.map FieldEntry.command)) = (.ok (), memory s1) := by
      rw [perform, Keyspace.perform, h1]
    obtain rfl : memory s1 = s' := congrArg Prod.snd (hs1.symm.trans hs)
    rw [perform, perform, Keyspace.perform, Keyspace.perform, apply_append h1]
  | database d =>
    by_cases hnil : l ++ l' = []
    · obtain ⟨rfl, rfl⟩ := List.append_eq_nil_iff.mp hnil
      cases hs
      rfl
    obtain ⟨t, a⟩ := d
    obtain rfl : a = .writing := ht.access hnil
    obtain ⟨t1, h1, hv⟩ := Transaction.apply_fillable (t := t) fun e he => ht.fillable e (List.mem_append_left _ he)
    have hfill : ∀ e ∈ l', Fillable (t1.value? e.key) := fun e he => by
      rw [hv]
      exact fillable_fill (ht.fillable e (List.mem_append_right _ he)) _
    obtain ⟨t2, h2, -⟩ := Transaction.apply_fillable hfill
    obtain rfl : database (.ofTables t1) = s' := congrArg Prod.snd ((perform_of_exec h1).symm.trans hs)
    exact (perform_of_exec h2).trans (perform_of_exec ((exec_apply_append h1 _).trans h2)).symm

end Backend

/-! ### Absorption -/

/-- What is set again is set last. -/
theorem agree_of_subset {l l' : List FieldEntry} (h : ∀ e ∈ l, e ∈ l') (key : String) :
    Agree (assignments key (l ++ l')) (assignments key l') := by
  intro field
  have happend : assignments key (l ++ l') = assignments key l ++ assignments key l' := List.filterMap_append
  rw [happend, lastWhere?_append]
  cases hlast : lastWhere? (fun e => e.1 = field) (assignments key l') with
  | some e => rfl
  | none =>
    rw [Option.none_or, lastWhere?_eq_none]
    rintro ⟨f, value⟩ hmem
    exact lastWhere?_eq_none.mp hlast _ (mem_assignments.mpr (h _ (mem_assignments.mp hmem)))

/-- Some entries of a batch have been set, one after the other and perhaps more than once. -/
def Behind (entries : List FieldEntry) (s s' : Backend) : Prop :=
  ∃ past : List FieldEntry, (∀ e ∈ past, e ∈ entries) ∧ s.perform (.apply (past.map FieldEntry.command)) = (.ok (), s')

namespace Behind

variable {entries : List FieldEntry} {s s' : Backend}

theorem start (entries : List FieldEntry) (s : Backend) : Behind entries s s := by
  cases s <;> exact ⟨[], by simp, rfl⟩

/-- One more attempt that is cut off. -/
theorem cut (h : Behind entries s s') (ht : s.Takes entries) (n : Nat) :
    ∃ s'', s'.perform (.apply ((entries.take n).map FieldEntry.command)) = (.ok (), s'') ∧ Behind entries s s'' := by
  obtain ⟨past, hpast, hs⟩ := h
  have hmem : ∀ e ∈ past ++ entries.take n, e ∈ entries := by
    intro e he
    rcases List.mem_append.mp he with he | he
    · exact hpast e he
    · exact List.mem_of_mem_take he
  have hboth := ht.mono hmem
  obtain ⟨s'', hs''⟩ := hboth.perform
  exact ⟨s'', (Backend.perform_append hboth hs).trans hs'', _, hmem, hs''⟩

/-- The attempt that goes through leaves what it would have left at once. -/
theorem whole (h : Behind entries s s') (ht : s.Takes entries) :
    s'.perform (.apply (entries.map FieldEntry.command)) = s.perform (.apply (entries.map FieldEntry.command)) := by
  obtain ⟨past, hpast, hs⟩ := h
  have hboth : s.Takes (past ++ entries) := ht.mono fun e he => (List.mem_append.mp he).elim (hpast e) id
  calc s'.perform (.apply (entries.map FieldEntry.command))
      = s.perform (.apply ((past ++ entries).map FieldEntry.command)) := Backend.perform_append hboth hs
    _ = s.perform (.apply (entries.map FieldEntry.command)) :=
      Backend.perform_entries_congr hboth.fillable ht.fillable (agree_of_subset hpast)

end Behind

/-! ### Faults -/

namespace Faulty

/-- Attempts at a batch, each of which is cut off after a number of commands. -/
def attempts {S : Type} [KeyValueStore S] (f : Faulty S) (commands : List Command) : List Nat → Faulty S
  | [] => f
  | n :: rest => ((f.failApplyAfter n).perform (.apply commands)).2.attempts commands rest

variable {f : Faulty Backend} {commands : List Command} {limits : List Nat} {n : Nat} {s : Backend}

theorem pass_eq {r : Request} {answer : Except Error r.Answer} (hs : f.inner.perform r = (answer, s)) :
    f.pass r = (answer, { f with inner := s }) := by
  have hperform : KeyValueStore.perform f.inner r = (answer, s) := hs
  rw [pass, hperform]

theorem perform_cut (hf : .apply ∉ f.failing) (hn : n < commands.length)
    (hs : f.inner.perform (.apply (commands.take n)) = (.ok (), s)) :
    (f.failApplyAfter n).perform (.apply commands) =
      (.error (.injectedAfter n), { f.failApplyAfter n with inner := s }) := by
  have hcut : cut? (f.failApplyAfter n).applyLimit commands = some (n, commands.take n) := if_pos hn
  have hpass : (f.failApplyAfter n).pass (.apply (commands.take n)) =
      (.ok (), { f.failApplyAfter n with inner := s }) := pass_eq hs
  have happly : (f.failApplyAfter n).perform (.apply commands) = (f.failApplyAfter n).applyCut commands := if_neg hf
  rw [happly, applyCut, hcut]
  dsimp only
  rw [hpass]

/-- A batch goes through once its failure has been taken back. -/
theorem perform_recovered (hs : f.inner.perform (.apply commands) = (.ok (), s)) :
    (f.recover .apply).perform (.apply commands) = (.ok (), { f.recover .apply with inner := s }) := by
  have hf : .apply ∉ (f.recover .apply).failing := by simp [recover]
  have happly : (f.recover .apply).perform (.apply commands) = (f.recover .apply).applyCut commands := if_neg hf
  rw [happly, applyCut]
  exact pass_eq hs

/-- The invariant of the attempts. -/
theorem behind_attempts {entries : List FieldEntry} (hf : .apply ∉ f.failing) (ht : s.Takes entries)
    (hb : Behind entries s f.inner) (hl : ∀ n ∈ limits, n < entries.length) :
    .apply ∉ (f.attempts (entries.map FieldEntry.command) limits).failing ∧
      Behind entries s (f.attempts (entries.map FieldEntry.command) limits).inner := by
  induction limits generalizing f with
  | nil => exact ⟨hf, hb⟩
  | cons n rest ih =>
    obtain ⟨hn, hrest⟩ := List.forall_mem_cons.mp hl
    obtain ⟨s', hs', hb'⟩ := hb.cut ht n
    rw [List.map_take] at hs'
    rw [attempts, perform_cut hf (by rwa [List.length_map]) hs']
    exact ih hf hb' hrest

theorem exists_entries (h : ∀ c ∈ commands, ∃ key field value, c = .setField key field value) :
    ∃ entries : List FieldEntry, entries.map FieldEntry.command = commands := by
  induction commands with
  | nil => exact ⟨[], rfl⟩
  | cons c rest ih =>
    obtain ⟨⟨key, field, value, rfl⟩, hrest⟩ := List.forall_mem_cons.mp h
    obtain ⟨entries, rfl⟩ := ih hrest
    exact ⟨⟨key, field, value⟩ :: entries, rfl⟩

/-- A batch that only sets fields, and would succeed, is cut off any number of times. Every time it fails, with just the
commands run up to there; and once it goes through, the store is what a single batch would have made of it. -/
theorem retry_absorbs (hf : .apply ∉ f.failing)
    (hset : ∀ c ∈ commands, ∃ key field value, c = .setField key field value)
    (hok : (f.inner.perform (.apply commands)).1 = .ok ()) (hl : ∀ n ∈ limits, n < commands.length) :
    (∀ n < commands.length, ∃ f', ((f.attempts commands limits).failApplyAfter n).perform (.apply commands) =
        (.error (.injectedAfter n), f') ∧
      (f.attempts commands limits).inner.perform (.apply (commands.take n)) = (.ok (), f'.inner)) ∧
    ∃ f', ((f.attempts commands limits).recover .apply).perform (.apply commands) = (.ok (), f') ∧
      f.inner.perform (.apply commands) = (.ok (), f'.inner) := by
  obtain ⟨entries, rfl⟩ := exists_entries hset
  have ht := Backend.takes_of_perform hok
  rw [List.length_map] at hl ⊢
  obtain ⟨hfailing, hb⟩ := behind_attempts hf ht (.start entries f.inner) hl
  refine ⟨fun n hn => ?_, ?_⟩
  · obtain ⟨s', hs', -⟩ := hb.cut ht n
    rw [List.map_take] at hs'
    exact ⟨_, perform_cut hfailing (by rwa [List.length_map]) hs', hs'⟩
  · have hs : f.inner.perform (.apply (entries.map FieldEntry.command)) = (.ok (), _) := Prod.ext hok rfl
    exact ⟨_, perform_recovered ((hb.whole ht).trans hs), hs⟩

/-- A batch that sets a field twice. -/
def corrected : List Command := [.setField "dm:B" "a" "1", .setField "dm:B" "a" "2", .setField "fm:B" "c" "3"]

theorem retry_absorbs_corrected :
    (∃ f', ((ofStore (Backend.memory .empty)).failApplyAfter 2).perform (.apply corrected) =
        (.error (.injectedAfter 2), f') ∧
      (Backend.memory .empty).perform (.apply (corrected.take 2)) = (.ok (), f'.inner)) ∧
    (∃ f', (((ofStore (Backend.memory .empty)).attempts corrected [2, 1]).recover .apply).perform (.apply corrected) =
        (.ok (), f') ∧ (Backend.memory .empty).perform (.apply corrected) = (.ok (), f'.inner)) ∧
    ∃ f', (((ofStore (Backend.database .empty)).attempts corrected [2, 1]).recover .apply).perform (.apply corrected) =
        (.ok (), f') ∧ (Backend.database .empty).perform (.apply corrected) = (.ok (), f'.inner) := by
  have hset : ∀ c ∈ corrected, ∃ key field value, c = .setField key field value := by simp [corrected]
  have hl : ∀ n ∈ [2, 1], n < corrected.length := by decide
  have hmemory := @retry_absorbs (ofStore (.memory .empty)) corrected [] (by decide) hset rfl (by simp)
  exact ⟨hmemory.1 2 (by decide), (retry_absorbs (by decide) hset rfl hl).2, (retry_absorbs (by decide) hset rfl hl).2⟩

end Faulty
end Store
end ShareIndex
