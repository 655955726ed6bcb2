import YamlIndex.Ignore.Glob
import Mathlib.Tactic.SplitIfs

/-!
# The order of texts and that of their encodings

Texts are compared character by character, by code point.  Their encodings are compared octet by
octet.  The two orders are the same: the more octets a character takes, the larger its first one is,
and of two characters that take equally many the larger one is ahead at the first octet that
differs.

## Main results

* `utf8EncodeChar_lt`: a larger character has the larger encoding, whatever stands behind either.
* `encode_lt_encode`: a larger text has the larger encoding.
-/

namespace YamlIndex.Glob

theorem encode_append (s t : List Char) : encode (s ++ t) = encode s ++ encode t :=
  List.flatMap_append

theorem ofNat_cons_lt {m n : Nat} (hm : m < 256) (hn : n < 256) (x y : List UInt8) :
    UInt8.ofNat m :: x < UInt8.ofNat n :: y ↔ m < n ∨ m = n ∧ x < y := by
  have hOf (k : Nat) (hk : k < 256) : (UInt8.ofNat k).toNat = k := by
    simp [Nat.mod_eq_of_lt hk]
  rw [List.cons_lt_cons_iff, UInt8.lt_iff_toNat_lt, ← UInt8.toNat_inj, hOf m hm, hOf n hn]

theorem utf8EncodeChar_lt {c d : Char} (h : c < d) (x y : List UInt8) :
    String.utf8EncodeChar c ++ x < String.utf8EncodeChar d ++ y := by
  have hLess : c.val.toNat < d.val.toNat := h
  have hBound : d.val.toNat < 0x110000 := by
    rcases d.valid with hd | hd
    · exact Nat.lt_trans hd (by decide)
    · exact hd.2
  unfold String.utf8EncodeChar
  generalize c.val.toNat = m at hLess ⊢
  generalize d.val.toNat = n at hLess hBound ⊢
  -- A fourth octet has room for more than the largest code point.
  have hTop (k : Nat) (hk : k < 0x110000) : k / 262144 % 8 = k / 262144 :=
    Nat.mod_eq_of_lt (by omega)
  simp only [hTop m (by omega), hTop n hBound]
  split_ifs <;> simp only [List.cons_append, List.nil_append]
  -- The larger character does not take fewer octets.
  any_goals omega
  all_goals
    repeat rw [ofNat_cons_lt (by omega) (by omega)]
    omega

theorem encode_lt_encode {s t : List Char} (h : s < t) : encode s < encode t := by
  induction h with
  | @nil d t =>
      show ([] : List UInt8) < String.utf8EncodeChar d ++ encode t
      obtain ⟨o, rest, hd⟩ := List.exists_cons_of_ne_nil (String.utf8EncodeChar_ne_nil (c := d))
      rw [hd]
      exact List.nil_lt_cons o _
  | cons _ ih => exact List.append_left_lt ih
  | rel h => exact utf8EncodeChar_lt h _ _

end YamlIndex.Glob
