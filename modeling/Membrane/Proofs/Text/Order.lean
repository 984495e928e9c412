import Mathlib.Data.List.Lex
/-!
The order of texts. Texts are compared character by character, which is how their bytes compare: of
two characters the smaller one has the smaller bytes, whatever follows.
-/

set_option autoImplicit false

namespace Membrane.Text

/-- The bytes that a text is stored as. -/
def bytes (s : String) : List UInt8 := s.toByteArray.data.toList

theorem bytes_eq (s : String) : bytes s = s.toList.flatMap String.utf8EncodeChar := by
  rw [bytes, ← String.utf8Encode_toList, List.utf8Encode, List.toList_data_toByteArray]

theorem encode_lt {c d : Char} (below : c < d) (cs ds : List UInt8) :
    String.utf8EncodeChar c ++ cs < String.utf8EncodeChar d ++ ds := by
  have small : c.val.toNat < d.val.toNat := below
  have last : d.val.toNat < 0x110000 := by
    rcases d.valid with low | ⟨-, high⟩ <;> omega
  -- A first byte tells how many follow. Where as many follow, the bits are compared in turn.
  rw [String.utf8EncodeChar, String.utf8EncodeChar]
  split_ifs <;>
    simp (disch := omega) only [List.cons_append, List.nil_append, List.cons_lt_cons_iff,
      UInt8.lt_iff_toNat_lt, ← UInt8.toNat_inj, UInt8.toNat_ofNat', Nat.mod_eq_of_lt] <;> omega

theorem flatMap_encode_lt {cs ds : List Char} (below : cs < ds) :
    cs.flatMap String.utf8EncodeChar < ds.flatMap String.utf8EncodeChar := by
  induction cs generalizing ds with
  | nil =>
    cases ds with
    | nil => exact absurd below (List.lt_irrefl _)
    | cons d ds =>
      rw [List.flatMap_cons, String.utf8EncodeChar]
      split_ifs <;> exact List.nil_lt_cons _ _
  | cons c cs ih =>
    cases ds with
    | nil => cases below
    | cons d ds =>
      rw [List.flatMap_cons, List.flatMap_cons]
      rcases List.cons_lt_cons_iff.mp below with first | ⟨rfl, later⟩
      · exact encode_lt first _ _
      · exact List.append_left_lt (ih later)

/-- Texts are in the order of their bytes. -/
theorem lt_iff_bytes_lt (s t : String) : s < t ↔ bytes s < bytes t := by
  have forth {s t : String} (below : s < t) : bytes s < bytes t := by
    rw [bytes_eq, bytes_eq]
    exact flatMap_encode_lt below
  refine ⟨forth, fun below => ?_⟩
  by_contra notBelow
  rcases Decidable.em (s = t) with rfl | apart
  · exact List.lt_irrefl _ below
  · have above : t < s := Std.lt_of_le_of_ne (String.not_lt.mp notBelow) (Ne.symm apart)
    exact List.lt_asymm below (forth above)

end Membrane.Text
