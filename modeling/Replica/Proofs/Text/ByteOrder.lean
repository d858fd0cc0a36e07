/-
Replica.Proofs.Text.ByteOrder — the order of text is the order of its bytes.

Keys are kept in the order of text, which compares code points. Sorted output is sorted
by its UTF-8 bytes, and that is the same: of two characters the smaller one has the
smaller encoding, and it differs from the other inside both (`encodeChar_lt`), whatever
follows them (`bytes_lt`).
-/
import Mathlib.Tactic.SplitIfs
import Replica.Data.Dict

namespace Replica.Text

/-- The UTF-8 bytes of a text. -/
def bytes (s : String) : List UInt8 := s.toUTF8.data.toList

theorem bytes_eq (s : String) : bytes s = s.toList.flatMap String.utf8EncodeChar := by
  have h := @String.toByteArray_ofList s.toList
  rw [String.ofList_toList, List.utf8Encode] at h
  rw [bytes, String.toUTF8, h, List.data_toByteArray]

theorem codePoint_lt (c : Char) : c.val.toNat < 1114112 := by
  have h := c.toNat_val
  rcases c.valid with hv | hv <;> omega

/-- The smaller of two numbers has the smaller leading part, or the same and then the
smaller last digit of six bits. -/
theorem digits_lt {v w : Nat} (h : v < w) :
    v / 64 < w / 64 ∨ v / 64 = w / 64 ∧ v % 64 < w % 64 := by
  omega

/-- The encoding of the smaller character is smaller, whatever follows. -/
theorem encodeChar_lt {c d : Char} (h : c < d) (xs ys : List UInt8) :
    String.utf8EncodeChar c ++ xs < String.utf8EncodeChar d ++ ys := by
  have hc := codePoint_lt c
  have hd := codePoint_lt d
  have h : c.val.toNat < d.val.toNat := h
  unfold String.utf8EncodeChar
  generalize c.val.toNat = v at *
  generalize d.val.toNat = w at *
  simp only
  by_cases hlong : 65535 < v
  · -- Both take four bytes, and the digits are compared one by one.
    have h₁ : ∀ n : Nat, n / 4096 = n / 64 / 64 := fun n => by omega
    have h₂ : ∀ n : Nat, n / 262144 = n / 64 / 64 / 64 := fun n => by omega
    have hw : 65535 < w := by omega
    rw [if_neg (by omega), if_neg (by omega), if_neg (by omega), if_neg (by omega),
      if_neg (by omega), if_neg (by omega)]
    simp only [List.cons_append, List.nil_append, List.cons_lt_cons_iff, UInt8.lt_iff_toNat_lt,
      ← UInt8.toNat_inj, UInt8.toNat_ofNat', h₁, h₂]
    rcases digits_lt h with h | ⟨h, h'⟩
    · rcases digits_lt h with h | ⟨h, h'⟩
      · omega
      · omega
    · omega
  · split_ifs
    all_goals
      simp only [List.cons_append, List.nil_append, List.cons_lt_cons_iff, UInt8.lt_iff_toNat_lt,
        ← UInt8.toNat_inj, UInt8.toNat_ofNat']
      omega

theorem encode_lt : ∀ {cs ds : List Char}, cs < ds →
    cs.flatMap String.utf8EncodeChar < ds.flatMap String.utf8EncodeChar
  | [], [], h => absurd h (List.lt_irrefl _)
  | [], d :: ds, _ => by
    have hd : String.utf8EncodeChar d ≠ [] := by
      unfold String.utf8EncodeChar
      simp only
      split_ifs <;> simp
    rw [List.flatMap_nil, List.flatMap_cons]
    obtain ⟨b, bs, hb⟩ := List.exists_cons_of_ne_nil hd
    rw [hb]
    exact List.Lex.nil
  | c :: cs, [], h => absurd h (List.not_lt_nil _)
  | c :: cs, d :: ds, h => by
    rw [List.flatMap_cons, List.flatMap_cons]
    rcases List.cons_lt_cons_iff.1 h with hfirst | ⟨rfl, hrest⟩
    · exact encodeChar_lt hfirst _ _
    · have hrest := encode_lt hrest
      induction String.utf8EncodeChar c with
      | nil => exact hrest
      | cons b bs ih => exact List.cons_lt_cons_iff.2 (.inr ⟨rfl, ih⟩)

/-- The bytes of the smaller text are smaller. -/
theorem bytes_lt {s t : String} (h : s < t) : bytes s < bytes t := by
  rw [bytes_eq, bytes_eq]
  exact encode_lt (String.lt_iff.1 h)

/-- Texts are in the order of their bytes. -/
theorem bytes_lt_iff {s t : String} : bytes s < bytes t ↔ s < t := by
  refine ⟨fun h => Classical.byContradiction fun hnot => ?_, bytes_lt⟩
  by_cases hback : t < s
  · exact List.lt_irrefl _ (List.lt_trans h (bytes_lt hback))
  · have hsame : s = t := String.le_antisymm (String.not_lt.1 hback) (String.not_lt.1 hnot)
    exact List.lt_irrefl _ (hsame ▸ h)

/-- The keys of a dictionary are listed by increasing bytes. -/
theorem keys_bytes_increase {α : Type u} (d : Dict α) :
    (d.keys.map bytes).Pairwise (· < ·) := by
  rw [Dict.keys, List.map_map, List.pairwise_map]
  exact d.increasing.imp bytes_lt

end Replica.Text
