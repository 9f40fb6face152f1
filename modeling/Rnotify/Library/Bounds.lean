import Rnotify.Library.CData

/-! What fits in a buffer.

A buffer's data is all that was stored into it, so it fits exactly when the data is
no longer than the size that was asked for. `strcat` never makes it shorter, two of
them are one of both strings (`strcat_strcat`), and one fits when what was there
does and the new string ends in time (`fits_strcat`). How long a printed number is
follows from how large it is (`decimal_length_le`). A length that is passed as an
`int` is cut to 32 bits, and is negative from 2^31 on (`toInt_nonneg_iff`). -/
namespace Rnotify.Library

/-! ### The length of a number's text -/

theorem decimalNat_length_le {k : Nat} (hk : 0 < k) (n : Nat) : (decimalNat n).length ≤ k ↔ n < 10 ^ k := by
  unfold decimalNat
  split
  · next hn =>
    rw [hn, List.length_singleton]
    exact iff_of_true hk (by positivity)
  · rw [List.length_map, List.length_reverse, Nat.digits_length_le_iff (by decide)]

/-- The sign takes one of the places. -/
theorem decimal_length_le {k : Nat} (hk : 0 < k) (z : Int) :
    (decimal z).length ≤ k ↔ -10 ^ (k - 1) < z ∧ z < 10 ^ k := by
  cases z with
  | ofNat n =>
    have hlow : -10 ^ (k - 1) < Int.ofNat n :=
      lt_of_lt_of_le (neg_neg_of_pos (by positivity)) (Int.natCast_nonneg n)
    rw [and_iff_right hlow]
    show (decimalNat n).length ≤ k ↔ (n : Int) < 10 ^ k
    rw [decimalNat_length_le hk]
    exact_mod_cast Iff.rfl
  | negSucc n =>
    have hhigh : Int.negSucc n < 10 ^ k := lt_trans (Int.negSucc_lt_zero n) (by positivity)
    rw [and_iff_left hhigh]
    show (decimalNat (n + 1)).length + 1 ≤ k ↔ -10 ^ (k - 1) < Int.negSucc n
    have hdigits : (decimalNat (n + 1)).length + 1 ≤ k ↔ n + 1 < 10 ^ (k - 1) := by
      obtain ⟨j, rfl⟩ := Nat.exists_eq_add_of_lt hk
      rw [Nat.zero_add, Nat.add_sub_cancel, Nat.add_le_add_iff_right]
      by_cases hj : j = 0
      · rw [hj]
        have hpos : 1 ≤ (decimalNat (n + 1)).length := by
          rw [Nat.one_le_iff_ne_zero, decimalNat, if_neg (Nat.succ_ne_zero n)]
          simp
        omega
      · exact decimalNat_length_le (Nat.pos_of_ne_zero hj) (n + 1)
    rw [hdigits, Int.negSucc_eq, neg_lt_neg_iff]
    exact_mod_cast Iff.rfl

/-! ### A length as an `int` -/

theorem toInt_nonneg_iff (n : Nat) : 0 ≤ toInt n ↔ n % 2 ^ 32 < 2 ^ 31 := by
  simp only [toInt, BitVec.toInt_eq_toNat_cond, BitVec.toNat_ofNat]
  omega

theorem toNat_toInt {n : Nat} (h : n % 2 ^ 32 < 2 ^ 31) : (toInt n).toNat = n % 2 ^ 32 := by
  simp only [toInt, BitVec.toInt_eq_toNat_cond, BitVec.toNat_ofNat]
  omega

namespace Buffer

/-! ### Stores -/

/-- No byte is stored past the size that was asked for. -/
def Fits (b : Buffer) : Prop := b.data.length ≤ b.size

instance (b : Buffer) : Decidable b.Fits := inferInstanceAs (Decidable (_ ≤ _))

/-- `sprintf` of a number into new memory. -/
def sprintf (size : Nat) (z : Int) : Buffer := ⟨size, (decimal z).memory⟩

@[simp] theorem str_sprintf (size : Nat) (z : Int) : (sprintf size z).str = decimal z :=
  cstr_terminated (decimal z) []

theorem fits_sprintf (size : Nat) (z : Int) : (sprintf size z).Fits ↔ (decimal z).length < size := by
  rw [Fits, sprintf, CString.memory, List.length_append]
  exact Nat.succ_le_iff

theorem length_strcat (b : Buffer) (source : CString) :
    (b.strcat source).data.length = max b.data.length (b.str.length + source.length + 1) := by
  simp only [strcat, strlen, str, CString.length, List.length_append, List.length_cons, List.length_drop]
  omega

theorem fits_strcat (b : Buffer) (source : CString) :
    (b.strcat source).Fits ↔ b.Fits ∧ b.str.length + source.length + 1 ≤ b.size := by
  rw [Fits, length_strcat]
  exact max_le_iff

/-- One string after the other. -/
theorem strcat_strcat (b : Buffer) (s t : CString) : (b.strcat s).strcat t = b.strcat (s ++ t) := by
  have hlen : strlen (b.strcat s).data = (b.str.bytes ++ s.bytes).length :=
    congrArg CString.length (b.str_strcat s)
  have hrest : (b.strcat s).data.drop (strlen (b.strcat s).data + t.length + 1) =
      b.data.drop (strlen b.data + (s ++ t).length + 1) := by
    rw [hlen, Nat.add_assoc, strcat, List.drop_length_add_append, List.drop_succ_cons, List.drop_drop,
      CString.length_append]
    congr 1
    omega
  have hstr : (b.strcat s).str.bytes ++ t.bytes = b.str.bytes ++ (s ++ t).bytes := by
    rw [str_strcat, CString.bytes_append, CString.bytes_append, List.append_assoc]
  show (⟨b.size, _⟩ : Buffer) = ⟨b.size, _⟩
  rw [hrest, hstr]

end Buffer

end Rnotify.Library
