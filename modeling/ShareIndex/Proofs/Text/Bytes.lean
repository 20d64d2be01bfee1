import Mathlib.Data.String.Basic
import Mathlib.Data.List.Lex

/-!
# ShareIndex.Proofs.Text.Bytes

The order of texts is that of their bytes.

* `encode_lt` — the encodings of two characters differ in a byte, in the order of the characters.
* `bytes_lt_iff` — so the order of texts by their characters is the order by their bytes.
-/

namespace ShareIndex
namespace Text

def bytes (text : String) : List UInt8 := text.toUTF8.data.toList

theorem bytes_eq (text : String) : bytes text = text.toList.flatMap String.utf8EncodeChar := by
  have h : text.toUTF8 = (text.toList.flatMap String.utf8EncodeChar).toByteArray := by
    conv_lhs => rw [← String.ofList_toList (s := text), String.toUTF8_eq_toByteArray, String.toByteArray_ofList]
    rfl
  rw [bytes, h, List.toList_data_toByteArray]

theorem encode_lt {c d : Char} (h : c < d) (later later' : List UInt8) :
    String.utf8EncodeChar c ++ later < String.utf8EncodeChar d ++ later' := by
  have hlt : c.val.toNat < d.val.toNat := h
  have hbound : d.val.toNat < 1114112 := by
    rcases d.valid with hd | ⟨-, hd⟩ <;> omega
  unfold String.utf8EncodeChar
  generalize c.val.toNat = m at hlt
  generalize d.val.toNat = n at hlt hbound
  dsimp only
  -- a longer encoding has a higher first byte, and encodings of one length are numerals to the base 64
  split_ifs <;> simp (disch := omega) only [List.cons_append, List.nil_append, List.cons_lt_cons_iff,
    UInt8.lt_iff_toNat_lt, UInt8.toNat_ofNat', ← UInt8.toNat_inj, Nat.mod_eq_of_lt] <;> omega

theorem flatMap_encode_lt {cs ds : List Char} (h : cs < ds) :
    cs.flatMap String.utf8EncodeChar < ds.flatMap String.utf8EncodeChar := by
  induction cs generalizing ds with
  | nil =>
    cases ds with
    | nil => exact absurd h (List.lt_irrefl _)
    | cons d ds =>
      rw [List.flatMap_nil, List.flatMap_cons]
      unfold String.utf8EncodeChar
      dsimp only
      split_ifs <;> exact List.nil_lt_cons _ _
  | cons c cs ih =>
    cases ds with
    | nil => cases h
    | cons d ds =>
      rw [List.flatMap_cons, List.flatMap_cons]
      rcases List.cons_lt_cons_iff.mp h with hlt | ⟨rfl, hlt⟩
      · exact encode_lt hlt _ _
      · exact List.append_left_lt (ih hlt)

theorem bytes_lt_of_lt {a b : String} (h : a < b) : bytes a < bytes b := by
  rw [bytes_eq, bytes_eq]
  exact flatMap_encode_lt (String.lt_iff_toList_lt.mp h)

theorem bytes_lt_iff {a b : String} : bytes a < bytes b ↔ a < b := by
  constructor
  · intro h
    rcases lt_trichotomy a b with hlt | rfl | hgt
    · exact hlt
    · exact absurd h (List.lt_irrefl _)
    · exact absurd h (List.lt_asymm (bytes_lt_of_lt hgt))
  · exact bytes_lt_of_lt

end Text
end ShareIndex
