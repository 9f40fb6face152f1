import Mathlib

/-! The data of a C program, as lists of bytes and as integers.

A string is the bytes before the first zero byte of the memory that holds it
(`cstr`), and `strlen` is how many they are; a `CString` carries the proof that
none of its bytes is zero. A `Buffer` is memory obtained from `malloc`: the size
asked for and the bytes stored so far, from its start. Signed and unsigned
conversions reduce modulo the width of the target. -/
namespace Rnotify.Library

abbrev Byte := Fin 256

instance byte_neZero : NeZero 256 := ⟨by decide⟩

/-- The bytes of a literal. -/
def ascii (s : String) : List Byte := s.toList.map fun c => Fin.ofNat 256 c.toNat

/-! ### Strings -/

/-- A string: its bytes, the terminator left out. -/
@[ext] structure CString where
  bytes : List Byte
  nul_free : 0 ∉ bytes
deriving DecidableEq

namespace CString

def length (s : CString) : Nat := s.bytes.length

/-- A string in memory, with its terminator. -/
def memory (s : CString) : List Byte := s.bytes ++ [0]

instance : Append CString := ⟨fun s t => ⟨s.bytes ++ t.bytes, by simp [s.nul_free, t.nul_free]⟩⟩

@[simp] theorem bytes_append (s t : CString) : (s ++ t).bytes = s.bytes ++ t.bytes := rfl

@[simp] theorem length_append (s t : CString) : (s ++ t).length = s.length + t.length :=
  List.length_append

theorem bytes_injective : Function.Injective CString.bytes := fun _ _ h => CString.ext h

instance : LinearOrder CString := LinearOrder.lift' CString.bytes bytes_injective

end CString

/-- The string that a memory holds: what stands before its first zero byte. -/
def cstr (memory : List Byte) : CString where
  bytes := memory.takeWhile (· ≠ 0)
  nul_free := fun h => by simpa using List.mem_takeWhile_imp h

/-- A string literal. -/
def literal (s : String) : CString := cstr (ascii s)

def strlen (memory : List Byte) : Nat := (cstr memory).length

theorem cstr_append (s : CString) (t : List Byte) :
    (cstr (s.bytes ++ t)).bytes = s.bytes ++ (cstr t).bytes := by
  apply List.takeWhile_append_of_pos
  intro b hb
  simpa using fun hz : b = 0 => s.nul_free (hz ▸ hb)

/-- A string and its terminator, whatever follows. -/
@[simp] theorem cstr_terminated (s : CString) (t : List Byte) : cstr (s.bytes ++ 0 :: t) = s := by
  apply CString.ext
  rw [cstr_append, show (cstr (0 :: t)).bytes = [] from rfl, List.append_nil]

@[simp] theorem cstr_bytes (s : CString) : cstr s.bytes = s := by
  apply CString.ext
  have h := cstr_append s []
  rwa [List.append_nil, show (cstr []).bytes = [] from rfl, List.append_nil] at h

/-- A zero byte after the memory is the end of its string. -/
theorem cstr_zero (memory : List Byte) : cstr (memory ++ [0]) = cstr memory := by
  apply CString.ext
  induction memory with
  | nil => rfl
  | cons b rest ih =>
    by_cases hb : b = 0
    · simp [cstr, hb]
    · simpa [cstr, hb] using ih

theorem strlen_le (memory : List Byte) : strlen memory ≤ memory.length :=
  (List.takeWhile_prefix _).length_le

theorem take_strlen (memory : List Byte) : memory.take (strlen memory) = (cstr memory).bytes :=
  (List.prefix_iff_eq_take.mp (List.takeWhile_prefix _)).symm

theorem strlen_cons (b : Byte) (rest : List Byte) :
    strlen (b :: rest) = if b = 0 then 0 else strlen rest + 1 := by
  by_cases hb : b = 0 <;> simp [strlen, cstr, CString.length, hb]

/-! ### Buffers -/

/-- Memory from `malloc`: the size asked for, and the bytes stored from its start. -/
structure Buffer where
  size : Nat
  data : List Byte

namespace Buffer

/-- The string a buffer holds. -/
def str (b : Buffer) : CString := cstr b.data

/-- `strcat`: the source and its terminator go over the destination's terminator. -/
def strcat (b : Buffer) (source : CString) : Buffer :=
  { b with data := b.str.bytes ++ source.bytes ++ 0 :: b.data.drop (strlen b.data + source.length + 1) }

@[simp] theorem str_strcat (b : Buffer) (source : CString) : (b.strcat source).str = b.str ++ source :=
  cstr_terminated (b.str ++ source) _

/-- The bytes that `strlen` covers are the string's. -/
theorem take_strlen_data (b : Buffer) : b.data.take (strlen b.data) = b.str.bytes := take_strlen b.data

/-- The bytes that `strlen + 1` covers are the string's and its terminator. -/
theorem take_strlen_succ (b : Buffer) (source : CString) :
    (b.strcat source).data.take (strlen (b.strcat source).data + 1) =
      (b.strcat source).str.bytes ++ [0] := by
  have hlen : strlen (b.strcat source).data = (b.str.bytes ++ source.bytes).length :=
    congrArg CString.length (b.str_strcat source)
  rw [hlen, b.str_strcat source]
  simp only [strcat, List.take_length_add_append, List.take_succ_cons, List.take_zero,
    CString.bytes_append]

end Buffer

/-! ### Integers -/

/-- An unsigned size converted to `int`. -/
def toInt (n : Nat) : Int := (BitVec.ofNat 32 n).toInt

/-- A signed value converted to `size_t`. -/
def toSize (z : Int) : Nat := (BitVec.ofInt 64 z).toNat

theorem toInt_of_lt {n : Nat} (h : n < 2 ^ 31) : toInt n = n := by
  unfold toInt
  rw [BitVec.toInt_eq_toNat_of_lt] <;> rw [BitVec.toNat_ofNat, Nat.mod_eq_of_lt (by omega)]
  omega

theorem toSize_natCast {n : Nat} (h : n < 2 ^ 64) : toSize n = n := by
  unfold toSize
  rw [BitVec.toNat_ofInt]
  omega

theorem toSize_of_neg {z : Int} (hlow : -2 ^ 63 ≤ z) (hneg : z < 0) : 2 ^ 63 ≤ toSize z := by
  unfold toSize
  rw [BitVec.toNat_ofInt]
  omega

/-! ### Decimal text -/

def digit (d : Nat) : Byte := Fin.ofNat 256 (48 + d)

def decimalNat (n : Nat) : List Byte :=
  if n = 0 then [digit 0] else (Nat.digits 10 n).reverse.map digit

/-- What `sprintf` prints for `%d`. -/
def decimalBytes : Int → List Byte
  | .ofNat n => decimalNat n
  | .negSucc n => 45 :: decimalNat (n + 1)

theorem digit_val {d : Nat} (h : d < 10) : (digit d).val = 48 + d :=
  Nat.mod_eq_of_lt (by omega)

/-- Every byte of a number's text is a digit. -/
theorem digits_of_decimalNat {n : Nat} {b : Byte} (h : b ∈ decimalNat n) : 48 ≤ b.val ∧ b.val < 58 := by
  unfold decimalNat at h
  split at h
  · simp only [List.mem_singleton] at h
    subst h
    decide
  · simp only [List.mem_map, List.mem_reverse] at h
    obtain ⟨d, hd, rfl⟩ := h
    have hd10 := Nat.digits_lt_base (by decide : 1 < 10) hd
    rw [digit_val hd10]
    omega

theorem nul_not_mem_decimal (z : Int) : 0 ∉ decimalBytes z := by
  cases z with
  | ofNat n =>
    intro h
    have := digits_of_decimalNat h
    simp at this
  | negSucc n =>
    intro h
    rcases List.mem_cons.mp h with h | h
    · exact absurd h (by decide)
    · have := digits_of_decimalNat h
      simp at this

/-- The text of a number, as a string. -/
def decimal (z : Int) : CString := ⟨decimalBytes z, nul_not_mem_decimal z⟩

end Rnotify.Library
