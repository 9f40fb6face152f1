import Rnotify.Client.Core

/-! What a listener makes of an event that `notify` sent.

The sender frames the event by its size and the listener walks over the frame up
to its `strlen`. The walk therefore never goes past the first event, whatever the
bytes are, and does not begin when the frame starts with a zero byte: when the low
byte of the watch descriptor is zero (`handled_notify`, `strlen_payload`). An event
whose size an `int` cannot hold is cut before the end of its header, and what the
handler is given then depends on the memory after the frame. -/
namespace Rnotify.Client
open Library InotifyEvent

/-- What the handler is given for a payload. -/
def shown (payload : Frame) (heap : Nat → Byte) : InotifyEvent := view (image (payload ++ [0]) heap) 0

variable {e : InotifyEvent} {wire : Wire} {p : Frame}

theorem shown_bytes (e : InotifyEvent) (heap : Nat → Byte) : shown e.bytes heap = e :=
  view_of_cells (cells_image e.bytes [0] heap)

/-- A payload cut short ends before the header does. -/
theorem payload_short (hp : payload e = some p) (hsize : 2 ^ 31 ≤ e.size) : p.length < headerSize := by
  obtain ⟨_, hcut, hshort⟩ := payload_of_le hsize hp
  rw [hcut, List.length_take, headerSize]
  omega

/-- Cut short or not, the payload is no longer than the event that the handler is given. -/
theorem length_le_shown (hp : payload e = some p) (heap : Nat → Byte) : p.length ≤ (shown p heap).size := by
  by_cases hsize : e.size < 2 ^ 31
  · rw [payload_of_lt hsize, Option.some.injEq] at hp
    rw [← hp, shown_bytes, bytes_length]
  · have hshort := payload_short hp (by omega)
    have hheader : headerSize ≤ (shown p heap).size := Nat.le_add_right ..
    omega

theorem payload_length_lt (hp : payload e = some p) : p.length < 2 ^ 31 := by
  by_cases hsize : e.size < 2 ^ 31
  · rw [payload_of_lt hsize, Option.some.injEq] at hp
    rwa [← hp, bytes_length]
  · have hshort := payload_short hp (by omega)
    unfold headerSize at hshort
    omega

/-- The handler is called once if the payload does not start with a zero byte, and not at all if
it does. -/
theorem handled_notify (h : notify e = some wire) :
    ∃ p, payload e = some p ∧
      ∀ heap, handled heap wire = if strlen p = 0 then [] else [shown p heap] := by
  obtain ⟨p, hp, hreceive, _⟩ := notify_received h
  refine ⟨p, hp, fun heap => ?_⟩
  have hstrlen : strlen (p ++ [0]) = strlen p := congrArg CString.length (cstr_zero p)
  have hle := strlen_le p
  have hlen := payload_length_lt hp
  have hsize := length_le_shown hp heap
  have hbound : (toInt (strlen (p ++ [0]))).toNat = strlen p := by
    rw [hstrlen, toInt_of_lt (by omega), Int.toNat_natCast]
  rw [handled, hreceive]
  show visited _ (toInt (strlen (p ++ [0]))).toNat 0 = _
  rw [hbound]
  exact visited_first (Nat.le_trans hle hsize)

/-- **At most one call**, whatever the bytes of the event and the memory after them. -/
theorem handled_length_le_one (h : notify e = some wire) (heap : Nat → Byte) :
    (handled heap wire).length ≤ 1 := by
  obtain ⟨p, _, hhandled⟩ := handled_notify h
  rw [hhandled heap]
  split <;> simp

/-- When the payload starts with a zero byte, or is empty. -/
theorem strlen_payload (hp : payload e = some p) :
    strlen p = 0 ↔ e.wd.toNat % 256 = 0 ∨ e.size = 2 ^ 32 := by
  obtain ⟨rest, hbytes⟩ := e.bytes_cons
  have hlow : (Fin.ofNat 256 e.wd.toNat : Byte) = 0 ↔ e.wd.toNat % 256 = 0 := by
    rw [Fin.ext_iff]
    rfl
  have hfirst : ∀ tail, strlen (Fin.ofNat 256 e.wd.toNat :: tail) = 0 ↔ e.wd.toNat % 256 = 0 := by
    intro tail
    rw [strlen_cons, ← hlow]
    split <;> simp_all
  by_cases hsize : e.size < 2 ^ 31
  · rw [payload_of_lt hsize, Option.some.injEq] at hp
    rw [← hp, hbytes, hfirst, or_iff_left (by omega)]
  · obtain ⟨hlarge, hcut, _⟩ := payload_of_le (by omega) hp
    by_cases hnone : e.size = 2 ^ 32
    · refine iff_of_true ?_ (Or.inr hnone)
      rw [hcut, hnone, Nat.sub_self, List.take_zero]
      rfl
    · rw [hcut, hbytes, show e.size - 2 ^ 32 = (e.size - 2 ^ 32 - 1) + 1 by omega, List.take_succ_cons,
        hfirst, or_iff_left hnone]

/-- An event cut before the end of its header is not what the handler is given: with zeros after
the frame the top byte of `len` reads as zero. -/
theorem shown_cut (hp : payload e = some p) (hsize : 2 ^ 31 ≤ e.size) : shown p (fun _ => 0) ≠ e := by
  obtain ⟨hlarge, _⟩ := payload_of_le hsize hp
  have hplen : p.length < 16 := payload_short hp hsize
  have hzero : image (p ++ [0]) (fun _ => 0) 15 = 0 := by
    by_cases heq : p.length = 15
    · simp [image, ← heq]
    · simp [image, List.getElem?_eq_none (l := p ++ [0]) (i := 15) (by simp; omega)]
  have htop : (shown p fun _ => 0).len.toNat < 2 ^ 24 := by
    show (wordAt (image (p ++ [0]) fun _ => 0) 12).toNat < 2 ^ 24
    simp only [wordAt, cells, decodeLE, hzero, BitVec.toNat_ofNat]
    have := Fin.is_lt (image (p ++ [0]) (fun _ => 0) 12)
    have := Fin.is_lt (image (p ++ [0]) (fun _ => 0) (12 + 1))
    have := Fin.is_lt (image (p ++ [0]) (fun _ => 0) (12 + 1 + 1))
    simp only [Fin.val_zero]
    omega
  intro he
  rw [he] at htop
  have : e.size = 16 + e.len.toNat := rfl
  omega

/-- **Publish and listen.** The handler is called exactly once with the event that was published,
whatever stands in memory after it, exactly when the low byte of the watch descriptor is not zero
and an `int` holds the size of the event. -/
theorem roundTrip_iff (h : notify e = some wire) :
    (∀ heap, handled heap wire = [e]) ↔ e.wd.toNat % 256 ≠ 0 ∧ e.size < 2 ^ 31 := by
  obtain ⟨p, hp, hhandled⟩ := handled_notify h
  have hnul := strlen_payload hp
  constructor
  · intro hall
    have hzero := hall fun _ => 0
    rw [hhandled] at hzero
    split at hzero
    · cases hzero
    · next hne =>
      refine ⟨fun hlow => hne (hnul.mpr (Or.inl hlow)), ?_⟩
      by_contra hsize
      exact shown_cut hp (by omega) (List.singleton_inj.mp hzero)
  · rintro ⟨hlow, hsize⟩ heap
    have hne : strlen p ≠ 0 := fun h0 => (hnul.mp h0).elim hlow (by omega)
    rw [hhandled, if_neg hne]
    rw [payload_of_lt hsize, Option.some.injEq] at hp
    rw [← hp, shown_bytes]

theorem roundTrip_iff_created : ∃ wire, notify (created 1) = some wire ∧
    ((∀ heap, handled heap wire = [created 1]) ↔ (created 1).wd.toNat % 256 ≠ 0 ∧ (created 1).size < 2 ^ 31) :=
  ⟨_, notify_of_lt (by decide), roundTrip_iff (notify_of_lt (by decide))⟩

/-- Watch descriptor 256: the event arrives and the handler is not called. -/
theorem created_256_unheard : 1 ≤ (created 256).wd.toInt ∧ 0 < (created 256).len.toNat ∧
    ∃ wire, notify (created 256) = some wire ∧ ∀ heap, handled heap wire = [] := by
  refine ⟨by decide, by decide, _, notify_of_lt (by decide), fun heap => ?_⟩
  obtain ⟨p, hp, hhandled⟩ := handled_notify (notify_of_lt (show (created 256).size < 2 ^ 31 by decide))
  rw [hhandled, if_pos ((strlen_payload hp).mpr (Or.inl (by decide)))]

end Rnotify.Client
