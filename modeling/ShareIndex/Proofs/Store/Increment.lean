import ShareIndex.Proofs.Store.Equivalence
import ShareIndex.Proofs.Store.Lifetime
import ShareIndex.Proofs.Text.Numeral

/-!
# ShareIndex.Proofs.Store.Increment

When increments succeed, what they answer, and what they leave, for both backends at once.

* `CountsAs`        — the integer that a field stands for, by the grammar of integers.
* `Backend.Sums`, `Backend.Refuses` — the answer of an increment, and the reasons for which it has none.
* `Backend.Stored`  — one field holds an integer in its canonical text, and nothing else has changed.
* `increment_sums`, `increment_refuses` — these are the only outcomes.
* `Backend.added`   — what successful increments have added to a field in a run.
* `countsAs_after`  — so much higher is the field then; `integer_after` says that fields that are only counted are
  integers, whatever else happens.
* `increment_exact` — all of it.
-/

namespace ShareIndex
namespace Store

open Decimal (Numeral Canonical InRange)

/-- The integer of 64 bits that a field stands for; a missing field stands for zero. -/
def CountsAs : Option String → Int → Prop
  | none, n => n = 0
  | some text, n => Numeral text.toList n ∧ InRange n

section CountsAs

variable {v : Option String} {n m : Int}

theorem currentValue_ok_iff : currentValue v = .ok n ↔ CountsAs v n := by
  cases v with
  | none => exact ⟨fun h => (Except.ok.inj h).symm, fun h => congrArg Except.ok h.symm⟩
  | some text =>
    rw [CountsAs, ← Decimal.parseWord_eq_some_iff, currentValue]
    cases Decimal.parseWord text with
    | none => simp
    | some k => simp

/-- A field that stands for no integer is the only thing that cannot be read. -/
theorem currentValue_error {e : Error} (h : currentValue v = .error e) : e = .notInteger ∧ ∀ m, ¬ CountsAs v m := by
  refine ⟨?_, fun m hm => ?_⟩
  · cases v with
    | none => cases h
    | some text =>
      rw [currentValue] at h
      split at h
      · cases h
      · exact (Except.error.inj h).symm
  · rw [← currentValue_ok_iff, h] at hm
    cases hm

theorem CountsAs.unique (hn : CountsAs v n) (hm : CountsAs v m) : n = m := by
  cases v with
  | none => exact hn.trans hm.symm
  | some text => exact hn.1.unique hm.1

/-- What is written for an integer stands for it. -/
theorem countsAs_renderWord (h : InRange n) : CountsAs (some (Decimal.renderWord n)) n :=
  Decimal.parseWord_eq_some_iff.mp (Decimal.parseWord_renderWord h)

theorem addWithin_eq_ok {delta : Int64} : addWithin m delta = .ok n ↔ n = m + delta.toInt ∧ InRange n := by
  rw [addWithin]
  split
  · rename_i hr
    constructor
    · intro h
      obtain rfl := Except.ok.inj h
      exact ⟨rfl, hr⟩
    · rintro ⟨rfl, -⟩
      rfl
  · rename_i hr
    constructor
    · intro h
      cases h
    · rintro ⟨rfl, hn⟩
      exact absurd hn hr

end CountsAs

namespace Backend

variable {s s' : Backend} {key field : String} {delta : Int64} {n : Int}

/-! ### Outcomes -/

/-- The answer of an increment: the key is missing or holds a hash, the field stands for an integer, and the exact sum
is one of 64 bits. -/
structure Sums (s : Backend) (key field : String) (delta : Int64) (n : Int) : Prop where
  writing : s.access = .writing
  fillable : Fillable (s.value? key)
  sum : ∃ m, CountsAs (s.shown key field) m ∧ n = m + delta.toInt
  inRange : InRange n

/-- Why an increment has no answer. -/
inductive Refuses (s : Backend) (key field : String) (delta : Int64) : Error → Prop where
  | access : s.access ≠ .writing → Refuses s key field delta .database
  | wrongType : s.access = .writing → ¬ Fillable (s.value? key) → Refuses s key field delta (.wrongType key)
  | notInteger : s.access = .writing → Fillable (s.value? key) → (∀ m, ¬ CountsAs (s.shown key field) m) →
    Refuses s key field delta .notInteger
  | overflow {m : Int} : s.access = .writing → Fillable (s.value? key) → CountsAs (s.shown key field) m →
    ¬ InRange (m + delta.toInt) → Refuses s key field delta .overflow

/-- The field holds the integer in its canonical text, and all else is as before. -/
structure Stored (s s' : Backend) (key field : String) (n : Int) : Prop where
  text : ∃ text, s'.shown key field = some text ∧ Canonical text.toList n
  fields : ∀ other, other ≠ field → s'.shown key other = s.shown key other
  keys : ∀ other, other ≠ key → s'.contents other = s.contents other

theorem perform_increment_protected (h : s.access ≠ .writing) (key field : String) (delta : Int64) :
    s.perform (.increment key field delta) = (.error .database, s) := by
  cases s with
  | memory s => exact absurd rfl h
  | database d =>
    have hx : Transaction.exec (Transaction.increment key field delta) d.access d.tables = .error .database := by
      have hwrite : Transaction.exec (Transaction.write fun t => .ok (t.insertHash key)) d.access d.tables =
          .error .database := by
        have hprotected : d.access ≠ .writing := h
        rw [Transaction.exec_write, if_neg hprotected]
      exact Transaction.exec_bind_error (Transaction.exec_bind_error hwrite)
    have hp : d.perform (.increment key field delta) = (.error .database, d) := by
      rw [Database.perform]
      by_cases hc : d.access = .closed
      · exact Database.transact_closed hc _
      · rw [Database.transact_open hc, hx]
    rw [perform_database, hp]

theorem answer_increment (h : s.access = .writing) (key field : String) (delta : Int64) :
    (s.perform (.increment key field delta)).1 =
      if Fillable (s.value? key) then summed (s.value? key) field delta else .error (.wrongType key) := by
  cases s with
  | memory s =>
    show (s.increment key field delta).1 = if Fillable (s.get? key) then summed (s.get? key) field delta else _
    rw [s.increment_eq]
    split
    · cases summed (s.get? key) field delta <;> rfl
    · rfl
  | database d =>
    have hopen : d.access = .writing := h
    show (d.transact (Transaction.increment key field delta)).1 =
      if Fillable (d.tables.value? key) then summed (d.tables.value? key) field delta else _
    rw [Database.transact_open (by rw [hopen]; decide), hopen]
    split_ifs with hf
    · cases hsum : summed (d.tables.value? key) field delta with
      | error e => rw [Transaction.exec_increment_error hf hsum]
      | ok n =>
        obtain ⟨t, hx⟩ := Transaction.exec_increment_writing hf hsum
        rw [hx]
    · have hx : Transaction.exec (Transaction.increment key field delta) .writing d.tables = .error (.wrongType key) :=
        Transaction.exec_bind_error (Transaction.exec_ensureHash_error hf)
      rw [hx]

theorem summed_eq (s : Backend) (key field : String) (delta : Int64) :
    summed (s.value? key) field delta = (currentValue (s.shown key field)).bind fun m => addWithin m delta := rfl

/-- An increment is answered exactly if there is a sum. -/
theorem increment_sums : (s.perform (.increment key field delta)).1 = .ok n ↔ s.Sums key field delta n := by
  by_cases ha : s.access = .writing
  · rw [answer_increment ha]
    by_cases hf : Fillable (s.value? key)
    · rw [if_pos hf, summed_eq]
      constructor
      · intro h
        cases hc : currentValue (s.shown key field) with
        | error e =>
          rw [hc] at h
          cases h
        | ok m =>
          rw [hc] at h
          obtain ⟨hn, hr⟩ := addWithin_eq_ok.mp h
          exact ⟨ha, hf, ⟨m, currentValue_ok_iff.mp hc, hn⟩, hr⟩
      · rintro ⟨-, -, ⟨m, hm, hn⟩, hr⟩
        rw [currentValue_ok_iff.mpr hm]
        exact addWithin_eq_ok.mpr ⟨hn, hr⟩
    · rw [if_neg hf]
      constructor
      · intro h
        cases h
      · exact fun h => absurd h.fillable hf
  · rw [perform_increment_protected ha]
    constructor
    · intro h
      cases h
    · exact fun h => absurd h.writing ha

/-- It fails for a reason, and changes nothing then. -/
theorem increment_refuses {e : Error} (h : (s.perform (.increment key field delta)).1 = .error e) :
    s.Refuses key field delta e ∧ (s.perform (.increment key field delta)).2 = s := by
  refine ⟨?_, perform_error (fun hop => by cases hop) h⟩
  by_cases ha : s.access = .writing
  · rw [answer_increment ha] at h
    split at h
    · rename_i hf
      rw [summed_eq] at h
      cases hc : currentValue (s.shown key field) with
      | error e' =>
        obtain ⟨rfl, hnone⟩ := currentValue_error hc
        rw [hc] at h
        obtain rfl := Except.error.inj h
        exact .notInteger ha hf hnone
      | ok m =>
        rw [hc] at h
        have h : addWithin m delta = .error e := h
        rw [addWithin] at h
        split at h
        · cases h
        · rename_i hr
          obtain rfl := Except.error.inj h
          exact .overflow ha hf (currentValue_ok_iff.mp hc) hr
    · rename_i hf
      obtain rfl := Except.error.inj h
      exact .wrongType ha hf
  · rw [perform_increment_protected ha] at h
    obtain rfl := Except.error.inj h
    exact .access ha

theorem increment_stored (h : (s.perform (.increment key field delta)).1 = .ok n) :
    s.Stored (s.perform (.increment key field delta)).2 key field n := by
  rcases s.perform_increment key field delta with ⟨e, he, -⟩ | ⟨n', s', he, -, -, hv⟩
  · rw [he] at h
    cases h
  · rw [he] at h ⊢
    obtain rfl := Except.ok.inj h
    have hshown : ∀ other, s'.shown key other =
        if other = field then some (Decimal.renderWord n') else s.shown key other := by
      intro other
      rw [shown, hv]
      exact OrderedMap.get?_insert _ _ _ _
    refine ⟨⟨Decimal.renderWord n', ?_, ?_⟩, fun other hother => ?_, fun other hother => ?_⟩
    · rw [hshown, if_pos rfl]
    · rw [Decimal.renderWord, String.toList_ofList]
      exact Decimal.canonical_render n'
    · rw [hshown, if_neg hother]
    · have hkeeps : (s.perform (.increment key field delta)).2.contents other = s.contents other :=
        s.contents_perform _ fun hm => hother (List.mem_singleton.mp hm)
      rwa [he] at hkeeps

theorem Stored.countsAs (h : s.Stored s' key field n) (hr : InRange n) : CountsAs (s'.shown key field) n := by
  obtain ⟨text, hshown, hcanonical⟩ := h.text
  rw [hshown]
  exact ⟨hcanonical.numeral, hr⟩

/-! ### Runs -/

/-- What a request has added to a field, if it has succeeded. -/
def addend (s : Backend) (key field : String) : Request → Int
  | .increment k f delta =>
    if k = key ∧ f = field ∧ (s.perform (.increment k f delta)).1.isOk then delta.toInt else 0
  | _ => 0

/-- What the requests of a run have added to a field. -/
def added (s : Backend) (key field : String) : List Request → Int
  | [] => 0
  | r :: rest => s.addend key field r + (s.perform r).2.added key field rest

/-- A request that does nothing to the fields of a key but adding to them. -/
def OnlyAdds (key : String) (r : Request) : Prop := r.operation = .increment ∨ key ∉ r.writes

theorem shown_perform {r : Request} (h : key ∉ r.writes) : (s.perform r).2.shown key field = s.shown key field := by
  rw [shown, shown, value?, value?, s.contents_perform r h]

theorem countsAs_perform {r : Request} {m : Int} (hr : OnlyAdds key r) (h : CountsAs (s.shown key field) m) :
    CountsAs ((s.perform r).2.shown key field) (m + s.addend key field r) := by
  cases r with
  | increment k f delta =>
    rw [addend]
    cases hanswer : (s.perform (.increment k f delta)).1 with
    | error e =>
      rw [(increment_refuses hanswer).2, if_neg (by simp [Except.isOk, Except.toBool])]
      exact (Int.add_zero m).symm ▸ h
    | ok n =>
      have hstored := increment_stored hanswer
      by_cases hk : k = key
      · subst hk
        by_cases hf : f = field
        · subst hf
          obtain ⟨-, -, ⟨m', hm', rfl⟩, hrange⟩ := increment_sums.mp hanswer
          obtain rfl := hm'.unique h
          rw [if_pos ⟨rfl, rfl, rfl⟩]
          exact hstored.countsAs hrange
        · rw [hstored.fields field (Ne.symm hf), if_neg fun hb => hf hb.2.1]
          exact (Int.add_zero m).symm ▸ h
      · rw [shown_perform fun hm => hk (List.mem_singleton.mp hm).symm, if_neg fun hb => hk hb.1]
        exact (Int.add_zero m).symm ▸ h
  | get | scan | getField | getFields | getAll | scanFields | set | delete | deleteFields | apply =>
    rcases hr with hr | hr
    · cases hr
    · rw [shown_perform hr]
      exact (Int.add_zero m).symm ▸ h

/-- After a run, a field is higher by what has been added to it. -/
theorem countsAs_after {rs : List Request} {m : Int} (hr : ∀ r ∈ rs, OnlyAdds key r)
    (h : CountsAs (s.shown key field) m) :
    CountsAs ((s.after rs).shown key field) (m + s.added key field rs) := by
  induction rs generalizing s m with
  | nil => exact (Int.add_zero m).symm ▸ h
  | cons r rest ih =>
    obtain ⟨hfirst, hrest⟩ := List.forall_mem_cons.mp hr
    have hlater := ih hrest (countsAs_perform hfirst h)
    rwa [Int.add_assoc] at hlater

end Backend

/-! ### Fields that are only counted -/

section Counted

variable {key field : String} {v : Option String}

/-- A request with a text for the field. -/
def Request.Assigns (key field : String) : Request → Prop
  | .apply commands => ∃ text, .setField key field text ∈ commands
  | _ => False

theorem Command.turn_of_ne_setField {command : Command} (h : ∀ text, command ≠ .setField key field text) :
    command.turn key field v = none ∨ command.turn key field v = v := by
  cases command with
  | setField k f text =>
    refine .inr (if_neg ?_)
    rintro ⟨rfl, rfl⟩
    exact h text rfl
  | set | delete | deleteField =>
    rw [Command.turn]
    split
    · exact .inl rfl
    · exact .inr rfl

theorem Request.integer_turn {r : Request} (hr : ¬ r.Assigns key field) (h : ∃ m, CountsAs v m) :
    ∃ m, CountsAs (r.turn key field v) m := by
  cases r with
  | get | scan | getField | getFields | getAll | scanFields => exact h
  | set | delete | deleteFields =>
    rw [turn]
    split
    · exact ⟨0, rfl⟩
    · exact h
  | increment k f delta =>
    rw [turn]
    split
    · obtain ⟨m, hm⟩ := h
      rw [currentValue_ok_iff.mpr hm, Except.bind]
      cases hsum : addWithin m delta with
      | error e => exact ⟨m, hm⟩
      | ok n => exact ⟨n, countsAs_renderWord (addWithin_eq_ok.mp hsum).2⟩
    · exact h
  | apply commands =>
    induction commands generalizing v with
    | nil => exact h
    | cons command rest ih =>
      have hrest : ¬ (apply rest).Assigns key field := by
        rintro ⟨text, hc⟩
        exact hr ⟨text, List.mem_cons_of_mem _ hc⟩
      have hcommand : ∀ text, command ≠ .setField key field text := by
        rintro text rfl
        exact hr ⟨text, List.mem_cons_self⟩
      rw [turn_apply_cons]
      rcases @Command.turn_of_ne_setField key field v command hcommand with hnone | hsame
      · rw [hnone]
        exact ih ⟨0, rfl⟩ hrest
      · rw [hsame]
        exact ih h hrest

theorem Backend.integer_perform {s : Backend} {r : Request} (hr : ¬ r.Assigns key field)
    (h : ∃ m, CountsAs (s.shown key field) m) : ∃ m, CountsAs ((s.perform r).2.shown key field) m := by
  cases hanswer : (s.perform r).1 with
  | ok a =>
    rw [shown_of_ok hanswer]
    exact r.integer_turn hr h
  | error e =>
    rcases shown_of_error hanswer with hsame | ⟨commands, n, rfl, hcut⟩
    · rwa [hsame]
    · rw [hcut]
      refine Request.integer_turn ?_ h
      rintro ⟨text, hc⟩
      exact hr ⟨text, List.mem_of_mem_take hc⟩

/-- What is never set to a text stays an integer. -/
theorem Backend.integer_after {s : Backend} {rs : List Request} (hr : ∀ r ∈ rs, ¬ r.Assigns key field)
    (h : ∃ m, CountsAs (s.shown key field) m) : ∃ m, CountsAs ((s.after rs).shown key field) m := by
  induction rs generalizing s with
  | nil => exact h
  | cons r rest ih =>
    obtain ⟨hfirst, hrest⟩ := List.forall_mem_cons.mp hr
    exact ih hrest (integer_perform hfirst h)

end Counted

open Backend (OnlyAdds)

/-- An increment is answered exactly if there is a sum, which is the answer and is stored; otherwise nothing changes. So
along a run that does nothing to the fields of a key but adding to them, the answers are running sums; and a field that
no request sets is never refused as a non-integer. -/
theorem increment_exact (s : Backend) (key field : String) :
    (∀ delta,
      (∀ n, (s.perform (.increment key field delta)).1 = .ok n ↔ s.Sums key field delta n) ∧
      (∀ n, (s.perform (.increment key field delta)).1 = .ok n →
        s.Stored (s.perform (.increment key field delta)).2 key field n) ∧
      ∀ e, (s.perform (.increment key field delta)).1 = .error e →
        s.Refuses key field delta e ∧ (s.perform (.increment key field delta)).2 = s) ∧
    (∀ m rs, CountsAs (s.shown key field) m → (∀ r ∈ rs, OnlyAdds key r) →
      CountsAs ((s.after rs).shown key field) (m + s.added key field rs) ∧
      ∀ delta n, ((s.after rs).perform (.increment key field delta)).1 = .ok n →
        n = m + s.added key field rs + delta.toInt) ∧
    ∀ rs, s.shown key field = none → (∀ r ∈ rs, ¬ r.Assigns key field) →
      ∀ delta, ((s.after rs).perform (.increment key field delta)).1 ≠ .error .notInteger := by
  refine ⟨fun delta => ⟨fun n => ?_, fun n hn => ?_, fun e he => ?_⟩, fun m rs hm hrs => ?_, fun rs hnone hrs => ?_⟩
  · exact Backend.increment_sums
  · exact Backend.increment_stored hn
  · exact Backend.increment_refuses he
  · have hafter := Backend.countsAs_after hrs hm
    refine ⟨hafter, fun delta n hn => ?_⟩
    obtain ⟨m', hm', rfl⟩ := (Backend.increment_sums.mp hn).sum
    rw [hm'.unique hafter]
  · intro delta hrefused
    obtain ⟨m, hm⟩ := Backend.integer_after hrs ⟨0, by rw [hnone]; rfl⟩
    cases (Backend.increment_refuses hrefused).1 with
    | notInteger _ _ hno => exact hno m hm

/-- A field of a database with a sign in its text, and another one between its increments. -/
theorem increment_exact_interleaved :
    let s := ((Backend.database .empty).perform (.apply [.setField "h" "f" "+7"])).2
    let rs := [.increment "h" "g" 5, .increment "h" "f" (-9)]
    let s' := s.after rs
    s.Stored (s.perform (.increment "h" "f" (-9))).2 "h" "f" (-2) ∧
      CountsAs (s'.shown "h" "f") (-2) ∧ (s'.perform (.increment "h" "f" 10)).1 = .ok 8 ∧
      s.Refuses "h" "f" Int64.maxValue .overflow ∧
      (s'.perform (.increment "h" "g" 1)).1 ≠ .error .notInteger := by
  intro s rs s'
  have hnumeral : Numeral ['+', '7'] 7 := .plus (List.cons_ne_nil '7' []) (List.forall_mem_singleton.mpr rfl)
  have hseven : CountsAs (s.shown "h" "f") 7 := ⟨hnumeral, by decide⟩
  obtain ⟨houtcome, hsums, -⟩ := increment_exact s "h" "f"
  obtain ⟨-, -, hcounted⟩ := increment_exact s "h" "g"
  have hfirst : (s.perform (.increment "h" "f" (-9))).1 = .ok (-2) :=
    ((houtcome (-9)).1 (-2)).mpr ⟨rfl, trivial, ⟨7, hseven, rfl⟩, by decide⟩
  have hadds : ∀ r ∈ rs, OnlyAdds "h" r := by
    intro r hr
    rcases List.mem_pair.mp hr with rfl | rfl <;> exact .inl rfl
  have hrun := hsums 7 rs hseven hadds
  have htotal : 7 + s.added "h" "f" rs = -2 := rfl
  rw [htotal] at hrun
  have hlast : (s'.perform (.increment "h" "f" 10)).1 = .ok 8 :=
    Backend.increment_sums.mpr ⟨rfl, trivial, ⟨-2, hrun.1, rfl⟩, by decide⟩
  have hover : (s.perform (.increment "h" "f" Int64.maxValue)).1 = .error .overflow := rfl
  refine ⟨(houtcome (-9)).2.1 (-2) hfirst, hrun.1, hlast, ((houtcome _).2.2 _ hover).1, hcounted rs rfl ?_ 1⟩
  intro r hr
  rcases List.mem_pair.mp hr with rfl | rfl <;> exact fun h => h

end Store
end ShareIndex
