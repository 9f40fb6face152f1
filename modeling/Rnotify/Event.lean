import Rnotify.Library.Memory
import Rnotify.Library.Records

/-! inotify events, as values and as bytes.

The kernel lays an event out as four 32-bit words and a name field of `len`
bytes, padding included. A program never holds the value: it holds a pointer into
a buffer, so `view` is what a `struct inotify_event *` at an offset shows,
whatever stands there, and `visited` is what a loop that advances by
`sizeof(struct inotify_event) + pevent->len` looks at. Over a buffer that holds
whole events the loop visits exactly these (`visited_bytes`). -/
namespace Rnotify
open Library

structure InotifyEvent where
  wd : BitVec 32
  mask : BitVec 32
  cookie : BitVec 32
  len : BitVec 32
  name : List Byte
  name_length : name.length = len.toNat
deriving DecidableEq

namespace InotifyEvent

/-- `sizeof(struct inotify_event)`. -/
def headerSize : Nat := 16

def header (e : InotifyEvent) : List Byte :=
  wordBytes e.wd ++ wordBytes e.mask ++ wordBytes e.cookie ++ wordBytes e.len

/-- The event as the kernel writes it. -/
def bytes (e : InotifyEvent) : List Byte := e.header ++ e.name

def size (e : InotifyEvent) : Nat := headerSize + e.len.toNat

@[simp] theorem header_length (e : InotifyEvent) : e.header.length = headerSize := by
  simp [header, headerSize]

@[simp] theorem bytes_length (e : InotifyEvent) : e.bytes.length = e.size := by
  simp [bytes, size, e.name_length]

theorem size_pos (e : InotifyEvent) : 0 < e.size := Nat.add_pos_left (by decide) _

/-- The first byte of an event is the low byte of its watch descriptor. -/
theorem bytes_cons (e : InotifyEvent) : ∃ rest, e.bytes = Fin.ofNat 256 e.wd.toNat :: rest := by
  obtain ⟨tail, hwd, _⟩ := wordBytes_cons e.wd
  exact ⟨tail ++ (wordBytes e.mask ++ (wordBytes e.cookie ++ (wordBytes e.len ++ e.name))),
    by simp [bytes, header, hwd]⟩

/-- The name, as the C string that the name field holds. -/
def text (e : InotifyEvent) : CString := cstr e.name

/-! ### Looking at memory -/

/-- What a pointer to an event at `pos` shows. -/
def view (memory : Nat → Byte) (pos : Nat) : InotifyEvent where
  wd := wordAt memory pos
  mask := wordAt memory (pos + 4)
  cookie := wordAt memory (pos + 8)
  len := wordAt memory (pos + 12)
  name := cells memory (pos + headerSize) (wordAt memory (pos + 12)).toNat
  name_length := cells_length ..

/-- The advance of the event loops. -/
def layout (memory : Nat → Byte) : Layout where
  header := headerSize
  header_pos := by decide
  body := fun pos => (wordAt memory (pos + 12)).toNat

theorem ext_of_fields {a b : InotifyEvent} (hwd : a.wd = b.wd) (hmask : a.mask = b.mask)
    (hcookie : a.cookie = b.cookie) (hlen : a.len = b.len) (hname : a.name = b.name) : a = b := by
  cases a
  cases b
  simp_all

/-- Where the bytes of an event stand, the pointer shows the event. -/
theorem view_of_cells {memory : Nat → Byte} {pos : Nat} {e : InotifyEvent}
    (h : cells memory pos e.bytes.length = e.bytes) : view memory pos = e := by
  obtain ⟨hheader, hname⟩ := cells_append (a := e.header) h
  obtain ⟨hcookie', hlen⟩ :=
    cells_append (a := wordBytes e.wd ++ wordBytes e.mask ++ wordBytes e.cookie) hheader
  obtain ⟨hmask', hcookie⟩ := cells_append (a := wordBytes e.wd ++ wordBytes e.mask) hcookie'
  obtain ⟨hwd, hmask⟩ := cells_append hmask'
  simp only [List.length_append, wordBytes_length, header_length] at hwd hmask hcookie hlen hname
  have hwdw : (view memory pos).wd = e.wd := wordAt_of_cells hwd
  have hmaskw : (view memory pos).mask = e.mask := wordAt_of_cells hmask
  have hcookiew : (view memory pos).cookie = e.cookie := wordAt_of_cells hcookie
  have hlenw : (view memory pos).len = e.len := wordAt_of_cells hlen
  apply ext_of_fields hwdw hmaskw hcookiew hlenw
  show cells memory (pos + headerSize) (view memory pos).len.toNat = e.name
  rw [hlenw, ← e.name_length]
  exact hname

/-- The events a loop over the memory up to `bound` looks at, from `pos` on. -/
def visited (memory : Nat → Byte) (bound pos : Nat) : List InotifyEvent :=
  ((layout memory).walk bound pos).map (view memory)

/-- The bytes of a list of events, one after the other. -/
def allBytes (es : List InotifyEvent) : List Byte := es.flatMap bytes

@[simp] theorem allBytes_nil : allBytes [] = [] := rfl

@[simp] theorem allBytes_cons (e : InotifyEvent) (es : List InotifyEvent) :
    allBytes (e :: es) = e.bytes ++ allBytes es := rfl

theorem visited_cons {memory : Nat → Byte} {bound pos : Nat} (h : pos < bound) :
    visited memory bound pos =
      view memory pos :: visited memory bound (pos + (view memory pos).size) := by
  rw [visited, Layout.walk_next _ h]
  rfl

theorem visited_done {memory : Nat → Byte} {bound pos : Nat} (h : bound ≤ pos) :
    visited memory bound pos = [] := by
  rw [visited, Layout.walk_done _ h]
  rfl

/-- A bound inside the first event stops the loop after it, or before it if the bound is zero. -/
theorem visited_first {memory : Nat → Byte} {bound : Nat} (h : bound ≤ (view memory 0).size) :
    visited memory bound 0 = if bound = 0 then [] else [view memory 0] := by
  by_cases hb : bound = 0
  · rw [if_pos hb, visited_done (by omega)]
  · rw [if_neg hb, visited_cons (by omega), visited_done (by omega)]

/-- **Whole events are visited once each, in order**, and the loop ends where they end. -/
theorem visited_bytes {memory : Nat → Byte} (es : List InotifyEvent) (pos : Nat)
    (h : cells memory pos (allBytes es).length = allBytes es) :
    visited memory (pos + (allBytes es).length) pos = es := by
  induction es generalizing pos with
  | nil => exact visited_done (by simp)
  | cons e rest ih =>
    obtain ⟨he, hrest⟩ := cells_append (a := e.bytes) h
    have hview : view memory pos = e := view_of_cells he
    have hpos := e.size_pos
    rw [allBytes_cons, List.length_append, bytes_length, visited_cons (by omega), hview]
    rw [bytes_length] at hrest
    rw [← Nat.add_assoc, ih _ hrest]

end InotifyEvent

/-- `a` created in a watched directory. -/
def created (wd : BitVec 32) : InotifyEvent := ⟨wd, 0x100, 0, 16, 97 :: List.replicate 15 0, rfl⟩

end Rnotify
