import Mathlib

/-! Walking over records laid end to end.

A record is a header of fixed size and a body whose size is read at the record
itself. `walk` is the loop `while (pos < bound) { visit pos; pos += size pos; }`:
the offsets it visits, in order. It ends whatever the sizes are, since a header
has at least one byte. -/
namespace Rnotify.Library

structure Layout where
  header : Nat
  header_pos : 0 < header
  /-- The size of the body of the record at an offset. -/
  body : Nat → Nat

namespace Layout
variable (L : Layout)

def size (pos : Nat) : Nat := L.header + L.body pos

theorem size_pos (pos : Nat) : 0 < L.size pos := Nat.add_pos_left L.header_pos _

def walk (bound pos : Nat) : List Nat :=
  if pos < bound then pos :: walk bound (pos + L.size pos) else []
termination_by bound - pos
decreasing_by
  have := L.size_pos pos
  omega

theorem walk_done {bound pos : Nat} (h : bound ≤ pos) : L.walk bound pos = [] := by
  rw [walk, if_neg (by omega)]

theorem walk_next {bound pos : Nat} (h : pos < bound) :
    L.walk bound pos = pos :: L.walk bound (pos + L.size pos) := by
  rw [walk, if_pos h]

end Layout

end Rnotify.Library
