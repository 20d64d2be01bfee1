import ShareIndex.Share.Download

/-!
# ShareIndex.Proofs.Text.Hexadecimal

Texts that only have hexadecimal digits.

* `IsHexadecimal` — all characters are digits.
* `isHexadecimal_digestHex`, `isHexadecimal_stableId` — digests are such texts, and so are ids.
-/

namespace ShareIndex

def IsHexadecimal (text : String) : Prop := ∀ c ∈ text.toList, (Hexadecimal.digitValue? c).isSome = true

instance (text : String) : Decidable (IsHexadecimal text) :=
  decidable_of_iff (text.toList.all fun c => (Hexadecimal.digitValue? c).isSome) List.all_eq_true

theorem isSome_digitValue?_digitChar :
    ∀ n < 16, (Hexadecimal.digitValue? (Hexadecimal.digitChar n)).isSome = true := by decide

theorem isHexadecimal_digestHex (bytes : List UInt8) : IsHexadecimal (Digest.digestHex bytes) := by
  intro c hc
  rw [Digest.digestHex, String.toList_ofList] at hc
  obtain ⟨b, -, hb⟩ := List.mem_flatMap.mp hc
  have hlt : b.toNat < 256 := b.toNat_lt
  simp only [Digest.hexByte, List.mem_cons, List.not_mem_nil, or_false] at hb
  rcases hb with rfl | rfl
  · exact isSome_digitValue?_digitChar _ (by omega)
  · exact isSome_digitValue?_digitChar _ (by omega)

theorem isHexadecimal_stableId (path : FilePath) : IsHexadecimal (Share.stableId path) := isHexadecimal_digestHex _

end ShareIndex
