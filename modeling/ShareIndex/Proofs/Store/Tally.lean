import ShareIndex.Proofs.Store.Equivalence

/-!
# ShareIndex.Proofs.Store.Tally

What deletions count: the keys and fields that they have found, each once.

* `OrderedMap.size_erase`  — a map has one entry less when one of its keys is erased.
* `Backend.tally_delete`   — the count of a deletion and the keys that are left make up the keys there were.
* `Backend.tally_deleteFields` — the same for the fields of a hash.
-/

namespace ShareIndex

namespace OrderedMap

variable {K V : Type} [LT K] [DecidableEq K] [StrictOrder K]

omit [DecidableEq K] in
theorem keys_nodup (m : OrderedMap K V) : m.keys.Nodup := by
  refine m.keys_ascending.imp fun {a b} hlt heq => ?_
  rw [heq] at hlt
  exact StrictOrder.irrefl b hlt

theorem keys_erase (m : OrderedMap K V) (k : K) : (m.erase k).keys = m.keys.erase k := by
  rw [m.keys_nodup.erase_eq_filter, keys, keys, List.filter_map]
  refine congrArg _ (List.filter_congr fun e _ => ?_)
  by_cases he : e.1 = k <;> simp [he]

omit [DecidableEq K] [StrictOrder K] in
theorem length_keys (m : OrderedMap K V) : m.keys.length = m.size := List.length_map _

/-- What was there counts once. -/
theorem size_erase (m : OrderedMap K V) (k : K) : (if m.contains k then 1 else 0) + (m.erase k).size = m.size := by
  rw [← length_keys, ← length_keys, keys_erase]
  by_cases hk : k ∈ m.keys
  · have hpos := List.length_pos_of_mem hk
    rw [if_pos (mem_keys.mp hk), List.length_erase_of_mem hk]
    omega
  · rw [if_neg fun h => hk (mem_keys.mpr h), List.erase_of_not_mem hk, Nat.zero_add]

end OrderedMap

namespace Store

/-! ### Memory -/

namespace Keyspace

theorem size_deleteKeys (s : Keyspace) (keys : List String) :
    (s.deleteKeys keys).1 + (s.deleteKeys keys).2.values.size = s.values.size := by
  induction keys generalizing s with
  | nil => exact Nat.zero_add _
  | cons key rest ih =>
    have herase : (if s.values.contains key then 1 else 0) + (s.remove key).values.size = s.values.size :=
      s.values.size_erase key
    simp only [deleteKeys]
    rw [Nat.add_assoc, ih, herase]

theorem size_eraseFields (hash : Hash) (fields : List String) :
    (eraseFields hash fields).1 + (eraseFields hash fields).2.size = hash.size := by
  induction fields generalizing hash with
  | nil => exact Nat.zero_add _
  | cons field rest ih =>
    simp only [eraseFields]
    rw [Nat.add_assoc, ih, hash.size_erase]

end Keyspace

/-! ### Databases -/

namespace Tables

theorem keys_deleteKey (t : Tables) (key : String) : (t.deleteKey key).keys = t.keys.erase key := by
  unfold deleteKey
  split
  · rfl
  · rename_i hc
    apply OrderedMap.ext_get?
    intro k
    rw [OrderedMap.get?_erase]
    split
    · rename_i hk
      simpa [hk, OrderedMap.contains] using hc
    · rfl

end Tables

namespace Transaction

variable {t t' : Tables} {a : Access} {n : Nat} {key : String}

theorem exec_deleteKeys_size {keys : List String} (h : exec (deleteKeys keys) a t = .ok (n, t')) :
    n + t'.keys.size = t.keys.size := by
  induction keys generalizing t n with
  | nil =>
    cases h
    exact Nat.zero_add _
  | cons key rest ih =>
    obtain ⟨here, t1, h1, h⟩ := exec_bind_ok.mp h
    obtain ⟨more, t2, h2, h⟩ := exec_bind_ok.mp h
    cases h
    have hdeleted := exec_deleteKey_ok h1
    have hhere : here = if t.keys.contains key then 1 else 0 := by
      obtain ⟨t3, t4, hget, h1⟩ := exec_bind_ok.mp h1
      cases hget
      obtain ⟨u, t5, -, hcount⟩ := exec_bind_ok.mp h1
      cases hcount
      rfl
    rw [Nat.add_assoc, ih h2, hdeleted, Tables.keys_deleteKey, hhere, t.keys.size_erase]

end Transaction

/-! ### Both -/

namespace Backend

variable {s s' : Backend} {n : Nat} {key : String}

/-- The count of a deletion and the keys that are left make up the keys there were. -/
theorem tally_delete {keys : List String} (h : s.perform (.delete keys) = (.ok n, s')) :
    n + s'.keys.length = s.keys.length := by
  cases s with
  | memory s =>
    cases h
    simpa only [Backend.keys, OrderedMap.length_keys] using s.size_deleteKeys keys
  | database d =>
    obtain ⟨t, hx, rfl⟩ := Database.transact_ok h
    simpa only [Backend.keys, OrderedMap.length_keys] using Transaction.exec_deleteKeys_size hx

/-- The count of a deletion and the fields that are left make up the fields there were. -/
theorem tally_deleteFields {fields : List String} (h : s.perform (.deleteFields key fields) = (.ok n, s')) :
    n + (hashOf (s'.value? key)).size = (hashOf (s.value? key)).size := by
  obtain ⟨rfl, hv⟩ := deleteFields_ok h
  rw [hv, hashOf_stored]
  exact Keyspace.size_eraseFields _ fields

end Backend
end Store
end ShareIndex
