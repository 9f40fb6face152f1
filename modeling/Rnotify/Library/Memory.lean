import Rnotify.Library.CData

/-! Reading memory.

A memory is a function from offsets to bytes, so that a program may look past
the end of what was stored: `image bs beyond` is the bytes of `bs` and, after
them, whatever `beyond` says. Numbers are little-endian, of any width. -/
namespace Rnotify.Library

variable {β : Type*}

/-- The `n` cells from `pos` on. -/
def cells (memory : Nat → β) : Nat → Nat → List β
  | _, 0 => []
  | pos, n + 1 => memory pos :: cells memory (pos + 1) n

theorem cells_length (memory : Nat → β) (pos n : Nat) : (cells memory pos n).length = n := by
  induction n generalizing pos with
  | zero => rfl
  | succ n ih => simp [cells, ih]

theorem cells_add (memory : Nat → β) (pos m n : Nat) :
    cells memory pos (m + n) = cells memory pos m ++ cells memory (pos + m) n := by
  induction m generalizing pos with
  | zero => simp [cells]
  | succ m ih =>
    rw [show m + 1 + n = (m + n) + 1 by omega]
    simp only [cells, List.cons_append, ih, show pos + 1 + m = pos + (m + 1) by omega]

/-- A list laid in memory, read back in two parts. -/
theorem cells_append {memory : Nat → β} {pos : Nat} {a b : List β}
    (h : cells memory pos (a ++ b).length = a ++ b) :
    cells memory pos a.length = a ∧ cells memory (pos + a.length) b.length = b := by
  rw [List.length_append, cells_add] at h
  exact List.append_inj h (cells_length ..)

/-- Bytes stored from offset zero, with arbitrary memory after them. -/
def image (bs : List β) (beyond : Nat → β) : Nat → β := fun k => bs.getD k (beyond k)

theorem cells_image_from (pre bs post : List β) (beyond : Nat → β) :
    cells (image (pre ++ bs ++ post) beyond) pre.length bs.length = bs := by
  induction bs generalizing pre with
  | nil => rfl
  | cons b rest ih =>
    have hb : image (pre ++ b :: rest ++ post) beyond pre.length = b := by
      simp [image]
    have := ih (pre ++ [b])
    rw [List.length_append, List.length_singleton,
      show pre ++ [b] ++ rest ++ post = pre ++ b :: rest ++ post by simp] at this
    simp only [List.length_cons, cells, hb, this]

theorem cells_image (bs post : List β) (beyond : Nat → β) :
    cells (image (bs ++ post) beyond) 0 bs.length = bs :=
  cells_image_from [] bs post beyond

/-! ### Little-endian numbers -/

def encodeLE : Nat → Nat → List Byte
  | 0, _ => []
  | k + 1, n => Fin.ofNat 256 n :: encodeLE k (n / 256)

def decodeLE : List Byte → Nat
  | [] => 0
  | b :: rest => b.val + 256 * decodeLE rest

@[simp] theorem encodeLE_length (k n : Nat) : (encodeLE k n).length = k := by
  induction k generalizing n with
  | zero => rfl
  | succ k ih => simp [encodeLE, ih]

/-- Reading back what was written keeps what fits in the width. -/
theorem decodeLE_encodeLE (k n : Nat) : decodeLE (encodeLE k n) = n % 256 ^ k := by
  induction k generalizing n with
  | zero => simp [encodeLE, decodeLE, Nat.mod_one]
  | succ k ih =>
    simp only [encodeLE, decodeLE, ih, Fin.val_ofNat]
    rw [Nat.pow_succ, Nat.mul_comm (256 ^ k) 256, Nat.mod_mul]

/-- The number whose bytes stand at `pos`. -/
def wordAt (memory : Nat → Byte) (pos : Nat) : BitVec 32 := BitVec.ofNat 32 (decodeLE (cells memory pos 4))

def wordBytes (w : BitVec 32) : List Byte := encodeLE 4 w.toNat

@[simp] theorem wordBytes_length (w : BitVec 32) : (wordBytes w).length = 4 := encodeLE_length ..

theorem wordAt_of_cells {memory : Nat → Byte} {pos : Nat} {w : BitVec 32}
    (h : cells memory pos 4 = wordBytes w) : wordAt memory pos = w := by
  have hw := w.isLt
  apply BitVec.eq_of_toNat_eq
  rw [wordAt, h, wordBytes, decodeLE_encodeLE, BitVec.toNat_ofNat]
  omega

/-- The first byte of a word is its low byte. -/
theorem wordBytes_cons (w : BitVec 32) :
    ∃ rest, wordBytes w = Fin.ofNat 256 w.toNat :: rest ∧ rest.length = 3 :=
  ⟨_, rfl, rfl⟩

end Rnotify.Library
