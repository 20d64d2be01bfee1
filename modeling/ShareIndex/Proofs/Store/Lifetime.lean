import ShareIndex.Proofs.Store.Enumeration
import ShareIndex.Proofs.Store.Soundness

/-!
# ShareIndex.Proofs.Store.Lifetime

Where the fields that a hash shows come from, and what scans make of the keys that can be read.

* `Request.turn`          — what a request that succeeds makes of one field of one key.
* `Backend.shown_of_ok`, `Backend.shown_of_error` — one request.
* `Written`               — what requests can have made of a field that was not there before them.
* `Backend.written_after` — a whole run.
* `Backend.FullScan`      — a scan, page by page, up to its end.
* `representation_sound`  — every state is sound, scans find what can be read, and hashes show what has been written
  to them since they were there last.
-/

namespace ShareIndex
namespace Store

/-! ### Fields -/

namespace Command

/-- What a command that has been run has made of a field. -/
def turn (key field : String) : Command → Option String → Option String
  | .set k _, v => if k = key then none else v
  | .setField k f w, v => if k = key ∧ f = field then some w else v
  | .delete k, v => if k = key then none else v
  | .deleteField k f, v => if k = key ∧ f = field then none else v

theorem turn_of_ne {command : Command} {key : String} (h : key ≠ command.key) (field : String) (v : Option String) :
    command.turn key field v = v := by
  cases command with
  | set k value | delete k => exact if_neg fun hk => h hk.symm
  | setField k f value | deleteField k f => exact if_neg fun hk => h hk.1.symm

end Command

namespace Request

/-- What a request that has succeeded has made of a field. -/
def turn (key field : String) : Request → Option String → Option String
  | .set k _, v => if k = key then none else v
  | .delete keys, v => if key ∈ keys then none else v
  | .deleteFields k fields, v => if k = key ∧ field ∈ fields then none else v
  | .increment k f delta, v =>
    if k = key ∧ f = field then
      match (currentValue v).bind fun current => addWithin current delta with
      | .ok sum => some (Decimal.renderWord sum)
      | .error _ => v
    else v
  | .apply commands, v => commands.foldl (fun v command => command.turn key field v) v
  | .get _, v | .scan _ _ _, v | .getField _ _, v | .getFields _ _, v | .getAll _, v | .scanFields _ _ _, v => v

theorem turn_of_not_mem {r : Request} {key : String} (h : key ∉ r.writes) (field : String) (v : Option String) :
    r.turn key field v = v := by
  cases r with
  | get | scan | getField | getFields | getAll | scanFields => rfl
  | set k text => exact if_neg fun hk => h (List.mem_singleton.mpr hk.symm)
  | delete keys => exact if_neg h
  | deleteFields k fields => exact if_neg fun hk => h (List.mem_singleton.mpr hk.1.symm)
  | increment k f delta => exact if_neg fun hk => h (List.mem_singleton.mpr hk.1.symm)
  | apply commands =>
    simp only [writes, List.mem_map, not_exists, not_and] at h
    rw [turn]
    induction commands with
    | nil => rfl
    | cons command rest ih =>
      rw [List.foldl_cons, Command.turn_of_ne fun hk => h command List.mem_cons_self hk.symm]
      exact ih fun c hc => h c (List.mem_cons_of_mem _ hc)

theorem turn_apply_cons (key field : String) (command : Command) (rest : List Command) (v : Option String) :
    (apply (command :: rest)).turn key field v = (apply rest).turn key field (command.turn key field v) := rfl

end Request

/-- What the hash at a key shows under a field. -/
def Backend.shown (s : Backend) (key field : String) : Option String := (hashOf (s.value? key)).get? field

/-! ### Memory -/

namespace Keyspace

variable {s s' : Keyspace}

theorem runCommand_deleteField (s : Keyspace) (key field : String) :
    s.runCommand (.deleteField key field) =
      if Fillable (s.get? key) then ((.ok (), s.putHash key (eraseFields (hashOf (s.get? key)) [field]).2))
      else (.error (.wrongType key), s) := by
  rw [runCommand, deleteFields_eq]
  by_cases hf : Fillable (s.get? key)
  · simp only [if_pos hf]
  · simp only [if_neg hf]

theorem runCommand_error {command : Command} {e : Error} (h : s.runCommand command = (.error e, s')) : s' = s := by
  cases command with
  | set | delete => cases h
  | setField key field value =>
    rw [runCommand, setField_eq] at h
    split at h <;> cases h
    rfl
  | deleteField key field =>
    rw [runCommand_deleteField] at h
    split at h <;> cases h
    rfl

theorem shown_of_runCommand {command : Command} {u : Unit} (h : s.runCommand command = (.ok u, s'))
    (key field : String) :
    (hashOf (s'.get? key)).get? field = command.turn key field ((hashOf (s.get? key)).get? field) := by
  by_cases hk : key = command.key
  · cases command with
    | set k value =>
      cases h
      obtain rfl : key = k := hk
      rw [get?_put, if_pos rfl, Command.turn, if_pos rfl]
      rfl
    | setField k f value =>
      rw [runCommand, setField_eq] at h
      split at h <;> cases h
      obtain rfl : key = k := hk
      rw [get?_put, if_pos rfl, hashOf, OrderedMap.get?_insert, Command.turn]
      simp only [true_and, eq_comm]
    | delete k =>
      cases h
      obtain rfl : key = k := hk
      rw [get?_remove, if_pos rfl, Command.turn, if_pos rfl]
      rfl
    | deleteField k f =>
      rw [runCommand_deleteField] at h
      split at h <;> cases h
      obtain rfl : key = k := hk
      rw [get?_putHash, if_pos rfl, hashOf_stored, get?_eraseFields, Command.turn]
      simp only [true_and, List.mem_singleton, eq_comm]
  · have hframe := s.get?_runCommand command hk
    rw [h] at hframe
    rw [Command.turn_of_ne hk, hframe]

/-- A batch runs its first commands, and all of them if it succeeds. -/
theorem shown_apply (s : Keyspace) (commands : List Command) :
    ∃ n, ((s.apply commands).1 = .ok () → n = commands.length) ∧
      ∀ key field, (hashOf ((s.apply commands).2.get? key)).get? field =
        (Request.apply (commands.take n)).turn key field ((hashOf (s.get? key)).get? field) := by
  induction commands generalizing s with
  | nil => exact ⟨0, fun _ => rfl, fun _ _ => rfl⟩
  | cons command rest ih =>
    simp only [apply]
    split
    · rename_i s' hc
      obtain ⟨n, hn, hshown⟩ := ih s'
      refine ⟨n + 1, fun hok => congrArg (· + 1) (hn hok), fun key field => ?_⟩
      rw [hshown, List.take_succ_cons, Request.turn_apply_cons, shown_of_runCommand hc]
    · rename_i e s' hc
      refine ⟨0, fun hok => ?_, fun key field => ?_⟩
      · cases hok
      · rw [runCommand_error hc]
        rfl

end Keyspace

/-! ### Databases -/

namespace Transaction

variable {t t' : Tables} {a : Access}

theorem shown_of_runCommand {command : Command} {u : Unit} (h : exec (runCommand command) a t = .ok (u, t'))
    (key field : String) :
    (hashOf (t'.value? key)).get? field = command.turn key field ((hashOf (t.value? key)).get? field) := by
  by_cases hk : key = command.key
  · cases command with
    | set k value =>
      obtain ⟨u1, t1, h1, h2⟩ := exec_bind_ok.mp h
      obtain ⟨-, hs⟩ := exec_write_ok h2
      cases hs
      obtain rfl : key = k := hk
      have hrow : (t1.upsertText key value).keys.get? key = some ⟨.text, some value⟩ :=
        (OrderedMap.get?_insert _ _ _ _).trans (if_pos rfl)
      rw [Command.turn, if_pos rfl, Tables.value?_of_text hrow]
      rfl
    | setField k f value =>
      obtain rfl : key = k := hk
      rw [(exec_setField_ok h).2, hashOf, OrderedMap.get?_insert, Command.turn]
      simp only [true_and, eq_comm]
    | delete k =>
      obtain ⟨n, t1, h1, h2⟩ := exec_bind_ok.mp h
      cases h2
      obtain rfl : key = k := hk
      rw [exec_deleteKey_ok h1, Command.turn, if_pos rfl, Tables.value?_of_none (t.get?_keys_deleteKey key)]
      rfl
    | deleteField k f =>
      obtain ⟨n, t1, h1, h2⟩ := exec_bind_ok.mp h
      cases h2
      obtain rfl : key = k := hk
      rw [(exec_deleteFields_ok h1).2.2, hashOf_stored, Keyspace.get?_eraseFields, Command.turn]
      simp only [true_and, List.mem_singleton, eq_comm]
  · rw [Command.turn_of_ne hk, Tables.value?_eq (keeps_runCommand hk a t u t' h)]

theorem shown_of_apply {commands : List Command} {u : Unit} (h : exec (apply commands) a t = .ok (u, t'))
    (key field : String) :
    (hashOf (t'.value? key)).get? field =
      (Request.apply commands).turn key field ((hashOf (t.value? key)).get? field) := by
  induction commands generalizing t with
  | nil =>
    cases h
    rfl
  | cons command rest ih =>
    obtain ⟨u1, t1, h1, h2⟩ := exec_bind_ok.mp h
    rw [ih h2, Request.turn_apply_cons, shown_of_runCommand h1]

end Transaction

/-! ### Both -/

namespace Backend

variable {s : Backend} {r : Request} {key field : String}

theorem shown_of_apply {commands : List Command} {u : Unit} (h : (s.perform (.apply commands)).1 = .ok u) :
    (s.perform (.apply commands)).2.shown key field = (Request.apply commands).turn key field (s.shown key field) := by
  cases s with
  | memory s =>
    obtain ⟨n, hn, hshown⟩ := s.shown_apply commands
    rw [hn h, List.take_length] at hshown
    exact hshown key field
  | database d =>
    cases commands with
    | nil => rfl
    | cons command rest =>
      have hp : (database d).perform (.apply (command :: rest)) =
          ((d.transact (Transaction.apply (command :: rest))).1,
            .database (d.transact (Transaction.apply (command :: rest))).2) := rfl
      rw [hp] at h ⊢
      obtain ⟨t, hx, ht⟩ := Database.transact_ok (Prod.ext h rfl)
      dsimp only at ht ⊢
      rw [ht]
      exact Transaction.shown_of_apply hx key field

/-- A request that succeeds has made of every field what it says. -/
theorem shown_of_ok {a : r.Answer} (h : (s.perform r).1 = .ok a) :
    (s.perform r).2.shown key field = r.turn key field (s.shown key field) := by
  by_cases hk : key ∈ r.writes
  · cases r with
    | get | scan | getField | getFields | getAll | scanFields => cases hk
    | set k text =>
      obtain rfl := List.mem_singleton.mp hk
      rcases s.perform_set key text with ⟨e, he, -⟩ | ⟨s', he, hv⟩
      · rw [he] at h
        cases h
      · rw [he, shown, hv, Request.turn, if_pos rfl]
        rfl
    | delete keys =>
      rcases s.perform_delete keys with ⟨e, he, -⟩ | ⟨n, s', he, hv⟩
      · rw [he] at h
        cases h
      · have hmem : key ∈ keys := hk
        rw [he, shown, hv, Request.turn, if_pos hmem, if_pos hmem]
        rfl
    | deleteFields k fields =>
      obtain rfl := List.mem_singleton.mp hk
      rcases s.perform_deleteFields key fields with ⟨e, he, -⟩ | ⟨s', he, hv⟩
      · rw [he] at h
        cases h
      · rw [he, shown, hv, hashOf_stored, Keyspace.get?_eraseFields, Request.turn]
        simp only [true_and]
        rfl
    | increment k f delta =>
      obtain rfl := List.mem_singleton.mp hk
      rcases s.perform_increment key f delta with ⟨e, he, -⟩ | ⟨n, s', he, -, hsum, hv⟩
      · rw [he] at h
        cases h
      · rw [he, shown, hv, hashOf, OrderedMap.get?_insert, Request.turn]
        by_cases hf : f = field
        · subst hf
          have hsum : ((currentValue (s.shown key f)).bind fun current => addWithin current delta) = .ok n := hsum
          rw [if_pos rfl, if_pos ⟨rfl, rfl⟩, hsum]
        · rw [if_neg (Ne.symm hf), if_neg fun hb => hf hb.2]
          rfl
    | apply commands => exact shown_of_apply h
  · rw [shown, value?, s.contents_perform r hk, r.turn_of_not_mem hk]
    rfl

/-- One that fails has changed nothing, or it is a batch and some of its commands have been run. -/
theorem shown_of_error {e : Error} (h : (s.perform r).1 = .error e) :
    (∀ key field, (s.perform r).2.shown key field = s.shown key field) ∨
      ∃ commands n, r = .apply commands ∧ ∀ key field,
        (s.perform r).2.shown key field = (Request.apply (commands.take n)).turn key field (s.shown key field) := by
  by_cases hr : r.operation = .apply
  · cases r with
    | apply commands =>
      cases s with
      | memory s =>
        obtain ⟨n, -, hshown⟩ := s.shown_apply commands
        exact .inr ⟨commands, n, rfl, hshown⟩
      | database d =>
        have hd : (d.perform (.apply commands)).2 = d := Database.perform_error h
        refine .inl fun key field => ?_
        rw [perform_database, hd]
    | get | set | delete | scan | getField | getFields | getAll | scanFields | deleteFields | increment => cases hr
  · rw [perform_error hr h]
    exact .inl fun _ _ => rfl

end Backend

/-! ### Runs -/

/-- What requests, one after the other, can have made of a field that was not there before them: each has succeeded or
failed, and a batch that has failed may have run its first commands. -/
inductive Written (key field : String) : List Request → Option String → Prop where
  | nothing : Written key field [] none
  | ignored {rs : List Request} {v : Option String} (r : Request) :
    Written key field rs v → Written key field (rs ++ [r]) v
  | performed {rs : List Request} {v : Option String} (r : Request) :
    Written key field rs v → Written key field (rs ++ [r]) (r.turn key field v)
  | cut {rs : List Request} {v : Option String} (commands : List Command) (n : Nat) :
    Written key field rs v →
    Written key field (rs ++ [.apply commands]) ((Request.apply (commands.take n)).turn key field v)

namespace Backend

variable {s : Backend} {key field : String} {past : List Request}

/-- The store after requests, whether they succeed or not. -/
def after (s : Backend) (rs : List Request) : Backend := rs.foldl (fun s r => (s.perform r).2) s

theorem written_perform (h : Written key field past (s.shown key field)) (r : Request) :
    Written key field (past ++ [r]) ((s.perform r).2.shown key field) := by
  cases hr : (s.perform r).1 with
  | ok a =>
    rw [shown_of_ok hr]
    exact .performed r h
  | error e =>
    rcases shown_of_error hr with hsame | ⟨commands, n, rfl, hcut⟩
    · rw [hsame]
      exact .ignored r h
    · rw [hcut]
      exact .cut commands n h

theorem written_after (h : Written key field past (s.shown key field)) (rs : List Request) :
    Written key field (past ++ rs) ((s.after rs).shown key field) := by
  induction rs generalizing s past with
  | nil =>
    rw [List.append_nil]
    exact h
  | cons r rest ih =>
    have hrest := ih (written_perform h r)
    rwa [List.append_assoc] at hrest

end Backend

/-- A request after which, if it succeeds, a key holds no hash: the key is deleted or overwritten by a text, or all its
fields are removed. -/
def Request.Ends (s : Backend) (key : String) : Request → Prop
  | .set k _ => k = key
  | .delete keys => key ∈ keys
  | .deleteFields k fields => k = key ∧ ∀ field, s.shown key field ≠ none → field ∈ fields
  | .apply commands => ∀ field, (Request.apply commands).turn key field (s.shown key field) = none
  | .get _ | .scan _ _ _ | .getField _ _ | .getFields _ _ | .getAll _ | .scanFields _ _ _ | .increment _ _ _ => False

theorem Request.Ends.turn {s : Backend} {key : String} {r : Request} (h : r.Ends s key) (field : String) :
    r.turn key field (s.shown key field) = none := by
  cases r with
  | get | scan | getField | getFields | getAll | scanFields | increment => exact h.elim
  | set k text => exact if_pos h
  | delete keys => exact if_pos h
  | deleteFields k fields =>
    obtain ⟨rfl, hall⟩ := h
    rw [Request.turn]
    by_cases hf : field ∈ fields
    · rw [if_pos ⟨rfl, hf⟩]
    · rw [if_neg fun hb => hf hb.2]
      by_contra hne
      exact hf (hall field hne)
  | apply commands => exact h field

/-! ### Scans -/

section Scans

variable {s : Backend} {count : Nat} {pattern : Pattern}

/-- A scan of a store, page by page, that has come to its end. -/
def Backend.FullScan (s : Backend) (pattern : Pattern) (count : Nat) (found : List String) : Prop :=
  ∃ calls visits, (Listing.keys pattern).enumerate count (List.replicate calls []) s none = .ok (visits, none) ∧
    Listing.returned visits = found

/-- Nothing happens between the calls, so they all find the same store. -/
theorem Listing.Enumerates.store_eq {α : Type} {l : Listing α} {calls : Nat} {cursor last : Option String}
    {visits : List (Visit α)} (h : l.Enumerates count (List.replicate calls []) s cursor visits last) :
    ∀ v ∈ visits, v.store = s := by
  generalize hgaps : List.replicate calls ([] : List Request) = gaps at h
  induction h generalizing calls with
  | stop =>
    intro v hv
    rw [List.mem_singleton.mp hv]
  | next _ _ ih =>
    cases calls with
    | zero => cases hgaps
    | succ calls =>
      obtain ⟨rfl, hrest⟩ := List.cons.inj hgaps
      intro v hv
      rcases List.mem_cons.mp hv with rfl | hv
      · rfl
      · exact ih hrest v hv

theorem Listing.spared_of_same {α : Type} {l : Listing α} {visits : List (Visit α)} (h : ∀ v ∈ visits, v.store = s)
    {gone : List α} : l.Spared gone visits := by
  induction visits generalizing gone with
  | nil => trivial
  | cons v rest ih =>
    obtain ⟨hv, hrest⟩ := List.forall_mem_cons.mp h
    cases rest with
    | nil => trivial
    | cons w later =>
      refine ⟨?_, ih hrest⟩
      rw [hv, hrest w List.mem_cons_self]
      exact .refl l _ s

/-- The pages of an open store can be read. -/
theorem Listing.exists_enumerate (ha : s.access ≠ .closed) (calls : Nat) (cursor : Option String) :
    ∃ visits last, (Listing.keys pattern).enumerate count (List.replicate calls []) s cursor = .ok (visits, last) := by
  have hread : ∀ cursor, ∃ page, (Listing.keys pattern).read s cursor count = .ok page := by
    intro cursor
    have hscan := congrArg Prod.fst (s.perform_scan cursor pattern count)
    dsimp only at hscan
    rw [if_neg ha] at hscan
    exact ⟨_, hscan⟩
  induction calls generalizing cursor with
  | zero =>
    obtain ⟨page, hpage⟩ := hread cursor
    exact ⟨_, _, by simp only [List.replicate, enumerate, hpage]; rfl⟩
  | succ calls ih =>
    obtain ⟨page, hpage⟩ := hread cursor
    cases hnext : page.next with
    | none =>
      exact ⟨_, _, by simp only [List.replicate, enumerate, hpage, bind, Except.bind, hnext]; rfl⟩
    | some next =>
      obtain ⟨visits, last, hrest⟩ := ih (some next)
      exact ⟨_, _, by
        simp only [List.replicate, enumerate, hpage, bind, Except.bind, hnext, List.foldl_nil, hrest]
        rfl⟩

theorem Backend.exists_fullScan (hcount : 0 < count) (ha : s.access ≠ .closed) :
    ∃ found, s.FullScan pattern count found := by
  obtain ⟨visits, last, hrun⟩ := @Listing.exists_enumerate s count pattern ha
    (((Listing.keys pattern).items s).length / count) none
  have hsame := (Listing.enumerates_of_ok _ hrun).store_eq
  obtain ⟨rfl, -, -⟩ := (Listing.exact_of_pos _ hcount).ends hrun (Listing.spared_of_same hsame)
    (by rw [List.length_replicate])
  exact ⟨_, _, visits, hrun, rfl⟩

theorem Backend.FullScan.mem_iff (hcount : 0 < count) {found : List String} (h : s.FullScan pattern count found)
    (key : String) : key ∈ found ↔ key ∈ s.listed pattern := by
  obtain ⟨calls, visits, hrun, rfl⟩ := h
  have hexact := (Listing.keys pattern).exact_of_pos hcount
  have hsame := (Listing.enumerates_of_ok _ hrun).store_eq
  constructor
  · intro hk
    obtain ⟨v, hv, hitem⟩ := List.mem_flatMap.mp hk
    have hpresent := hexact.present hrun v hv key hitem
    rwa [hsame v hv] at hpresent
  · intro hk
    have hone := hexact.complete hrun key fun v hv => by
      rw [hsame v hv]
      exact List.mem_map.mpr ⟨key, hk, rfl⟩
    have hmem : key ∈ (Listing.returned visits).map (Listing.keys pattern).name :=
      List.count_pos_iff.mp (by rw [hone]; exact Nat.one_pos)
    obtain ⟨k, hreturned, rfl⟩ := List.mem_map.mp hmem
    exact hreturned

end Scans

/-! ### Reads -/

theorem Backend.fillable_of_getAll {s : Backend} {key : String} {fields : Hash}
    (h : (s.perform (.getAll key)).1 = .ok fields) : s.access ≠ .closed ∧ Fillable (s.value? key) := by
  cases s with
  | memory s =>
    have h : s.hashAt key = .ok fields := h
    rw [s.hashAt_eq] at h
    split at h
    · rename_i hf
      exact ⟨nofun, hf⟩
    · cases h
  | database d =>
    have h : (d.query (Database.ofHash key ∅ fun t => t.fieldsOf key)).1 = .ok fields := h
    by_cases ha : d.access = .closed
    · rw [Database.query_closed ha] at h
      cases h
    · rw [Database.query_open ha, Database.ofHash] at h
      refine ⟨ha, (d.tables.fillable_iff key).mpr fun hkind => ?_⟩
      rw [hkind] at h
      cases h

/-- The hash that is read is the one that is there. -/
theorem Backend.shown_of_getAll {s : Backend} {key : String} {fields : Hash}
    (h : (s.perform (.getAll key)).1 = .ok fields) (field : String) : fields.get? field = s.shown key field := by
  obtain ⟨ha, hf⟩ := fillable_of_getAll h
  rw [perform_getAll ha hf] at h
  cases h
  rfl

open Backend (Reachable)

/-- Every state that requests lead to is sound, failed requests and failed batches included. So a complete scan finds,
of the keys that match, those that can be read; a request that succeeds has made of each field what it says; and a hash
that comes back after a request has ended it shows what has been written since. -/
theorem representation_sound {s : Backend} (h : Reachable s) :
    s.Sound ∧
    (s.access ≠ .closed → ∀ pattern count, 0 < count → (∃ found, s.FullScan pattern count found) ∧
      ∀ found, s.FullScan pattern count found →
        ∀ key, s.admits pattern key = true → (key ∈ found ↔ s.Readable key)) ∧
    (∀ r a, (s.perform r).1 = .ok a →
      ∀ key field, (s.perform r).2.shown key field = r.turn key field (s.shown key field)) ∧
    ∀ r a key, (s.perform r).1 = .ok a → r.Ends s key →
      ∀ rs fields, (((s.perform r).2.after rs).perform (.getAll key)).1 = .ok fields →
        ∀ field, Written key field rs (fields.get? field) := by
  refine ⟨h.sound, fun ha pattern count hcount => ⟨Backend.exists_fullScan hcount ha, ?_⟩, ?_, ?_⟩
  · intro found hfound key hadmits
    rw [hfound.mem_iff hcount, Backend.listed, List.mem_filter, h.sound.mem_keys_iff ha]
    exact and_iff_left hadmits
  · intro r a hr key field
    exact Backend.shown_of_ok hr
  · intro r a key hr hends rs fields hread field
    have hnothing : Written key field [] ((s.perform r).2.shown key field) := by
      rw [Backend.shown_of_ok hr, hends.turn]
      exact .nothing
    rw [Backend.shown_of_getAll hread]
    exact Backend.written_after hnothing rs

/-- A hash in a database that is deleted and comes back with another field. -/
theorem representation_sound_deleted :
    let s := ((Backend.database .empty).perform (.apply [.setField "h" "a" "1", .set "t" "x"])).2
    let s' := (s.perform (.delete ["h"])).2.after [.apply [.setField "h" "b" "2"]]
    Reachable s ∧ (∃ found, s.FullScan ⟨"*"⟩ 2 found ∧ "h" ∈ found ∧ "t" ∈ found) ∧
      (s'.perform (.getAll "h")).1 = .ok (.ofList [("b", "2")]) ∧
      Written "h" "a" [.apply [.setField "h" "b" "2"]] none ∧
      Written "h" "b" [.apply [.setField "h" "b" "2"]] (some "2") := by
  intro s s'
  have h : Reachable s := Reachable.database.perform _
  obtain ⟨-, hscan, -, hwritten⟩ := representation_sound h
  obtain ⟨⟨found, hfound⟩, hall⟩ := hscan (by decide) ⟨"*"⟩ 2 (by decide)
  have hadmits : ∀ key, s.admits ⟨"*"⟩ key = true := fun key =>
    (@Pattern.globMatches_below "" (by simp) key).mpr ⟨key.toList, rfl⟩
  have hread : (s'.perform (.getAll "h")).1 = .ok (.ofList [("b", "2")]) := rfl
  have hfields := hwritten (.delete ["h"]) 1 "h" rfl List.mem_cons_self _ _ hread
  refine ⟨h, ⟨found, hfound, ?_, ?_⟩, hread, hfields "a", hfields "b"⟩
  · exact (hall found hfound "h" (hadmits "h")).mpr (.inr ⟨.ofList [("a", "1")], rfl, rfl⟩)
  · exact (hall found hfound "t" (hadmits "t")).mpr (.inl ⟨"x", rfl⟩)

end Store
end ShareIndex
