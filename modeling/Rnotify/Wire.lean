import Rnotify.Event

/-! Frames and messages: the sends and receives of `rnot_helper.h`.

A multipart message is on the wire as frames, each with the flag that says
whether more follow. `sendFrom` is the loop that sets the flag, and `zmsgRecv` the
receiver that takes frames until one without it. Messages here have as many frames
as an `int` counts (a registrar's reply has twelve at most); what becomes of more is
the subject of `Framing`. A frame asked to be longer than the memory it copies is not
made: the allocation fails and the `assert` around it stops the process. -/
namespace Rnotify
open Library

abbrev Frame := List Byte

structure Part where
  frame : Frame
  more : Bool
deriving DecidableEq

abbrev Wire := List Part

def replicationFactor : Nat := 10

def registerPublisherSanityCheck : CString := literal "1756372"
def registerDispatcherSanityCheck : CString := literal "6577392"
def registerFileObjectSanityCheck : CString := literal "63540274"
def registerOk : CString := literal "hfjjdhfnc8"

/-- `to_c_string`, for lengths of strings in memory, which an `int` holds. -/
def toCString (str : List Byte) (strLen size : Nat) : Buffer := ⟨size, str.take strLen ++ [0]⟩

theorem str_toCString_length (str : List Byte) (size : Nat) :
    (toCString str str.length size).str = cstr str := by
  rw [Buffer.str, toCString, List.take_length, cstr_zero]

@[simp] theorem str_toCString (s : CString) (size : Nat) : (toCString s.bytes s.length size).str = s := by
  rw [CString.length, str_toCString_length, cstr_bytes]

/-! ### Sending -/

/-- `zframe_new`: a frame of the first `size` bytes of the data. -/
def zframeNew (data : List Byte) (size : Nat) : Option Frame :=
  if size ≤ data.length then some (data.take size) else none

/-- The loop of `multi_part_send` from index `i` on; `i` and `size` are `int`s, and only the last index
clears the flag. -/
def sendFrom (size : Int) : Int → List Frame → Wire
  | _, [] => []
  | i, frame :: rest => if i < size then ⟨frame, i ≠ size - 1⟩ :: sendFrom size (i + 1) rest else []

/-- `multi_part_send` of no more frames than an `int` counts. -/
def multiPartSend (content : List Frame) : Wire := sendFrom content.length 0 content

/-- `_send_string`: one frame of `len` bytes. -/
def sendString (string : List Byte) (len : Nat) : Option Wire :=
  (zframeNew string len).map fun frame => multiPartSend [frame]

/-- `_send_string` with a string and its `strlen`. -/
def sendText (s : CString) : Wire := multiPartSend [s.bytes]

/-- `_send` of no more strings than an `int` counts: a frame for each. -/
def send (strings : List CString) : Wire := multiPartSend (strings.map CString.bytes)

/-- `notify`: the watch descriptor as text, then the event as it stands in memory. -/
def notify (pevent : InotifyEvent) : Option Wire :=
  let filter := decimal pevent.wd.toInt
  let serialLength := toInt pevent.size
  match zframeNew filter.bytes filter.length, zframeNew pevent.bytes (toSize serialLength) with
  | some topic, some payload => some (multiPartSend [topic, payload])
  | _, _ => none

/-! ### Receiving -/

/-- `zmsg_recv`: the frames up to the first without the flag, and what is left. -/
def zmsgRecv : Wire → Option (List Frame × Wire)
  | [] => none
  | part :: rest =>
    if part.more then (zmsgRecv rest).map fun received => (part.frame :: received.1, received.2)
    else some ([part.frame], rest)

/-- `multi_part_receive` of no more frames than an `int` counts: a string for each, in memory with a zero byte after
it. -/
def multiPartReceive (wire : Wire) : Option (List Frame) := (zmsgRecv wire).map Prod.fst

/-- `_recv_buff`: the first frame and its size as an `int`. -/
def recvBuff (wire : Wire) : Option (List Byte × Int) :=
  (multiPartReceive wire).bind fun frames => frames.head?.map fun frame => (frame, toInt frame.length)

/-- A string received with `_recv_buff`. -/
def recvText (wire : Wire) : Option CString := (recvBuff wire).map fun received => cstr received.1

/-! ### What arrives is what was sent -/

theorem zmsgRecv_sendFrom (content : List Frame) (hne : content ≠ []) (size i : Int)
    (hsize : size = i + content.length) (rest : Wire) :
    zmsgRecv (sendFrom size i content ++ rest) = some (content, rest) := by
  induction content generalizing i with
  | nil => exact absurd rfl hne
  | cons frame tail ih =>
    rw [List.length_cons, Nat.cast_succ] at hsize
    have hlt : i < size := by omega
    cases tail with
    | nil =>
      have hlast : i = size - 1 := by simp at hsize; omega
      simp [sendFrom, zmsgRecv, hlt, ← hlast]
    | cons next others =>
      have hmore : i ≠ size - 1 := by simp at hsize; omega
      have hrest := ih (by simp) (i + 1) (by omega)
      rw [sendFrom, if_pos hlt, List.cons_append, zmsgRecv]
      simp [hmore, hrest]

theorem zmsgRecv_multiPartSend (content : List Frame) (hne : content ≠ []) (rest : Wire) :
    zmsgRecv (multiPartSend content ++ rest) = some (content, rest) :=
  zmsgRecv_sendFrom content hne _ 0 (by simp) rest

@[simp] theorem multiPartReceive_cons (frame : Frame) (rest : List Frame) :
    multiPartReceive (multiPartSend (frame :: rest)) = some (frame :: rest) := by
  have := zmsgRecv_multiPartSend (frame :: rest) (by simp) []
  rw [List.append_nil] at this
  rw [multiPartReceive, this]
  rfl

/-- The first frame goes out first. -/
theorem head_multiPartSend (frame : Frame) (rest : List Frame) :
    (multiPartSend (frame :: rest)).head?.map Part.frame = some frame := by
  rw [multiPartSend, sendFrom, if_pos (by simp)]
  rfl

/-- Strings sent together arrive together. -/
theorem multiPartReceive_send (first : CString) (rest : List CString) :
    multiPartReceive (send (first :: rest)) = some (first.bytes :: rest.map CString.bytes) := by
  rw [send, List.map_cons, multiPartReceive_cons]

@[simp] theorem recvBuff_single (frame : Frame) :
    recvBuff (multiPartSend [frame]) = some (frame, toInt frame.length) := by
  simp [recvBuff]

@[simp] theorem recvText_sendText (s : CString) : recvText (sendText s) = some s := by
  simp [recvText, sendText]

theorem zframeNew_length (data : List Byte) : zframeNew data data.length = some data := by
  simp [zframeNew]

theorem sendString_text (s : CString) : sendString s.bytes s.length = some (sendText s) := by
  rw [sendString, CString.length, zframeNew_length]
  rfl

/-! ### What `notify` sends -/

/-- The bytes of the event that reach the wire, when any do. -/
def payload (pevent : InotifyEvent) : Option Frame :=
  zframeNew pevent.bytes (toSize (toInt pevent.size))

theorem notify_eq (pevent : InotifyEvent) :
    notify pevent = (payload pevent).map fun p => multiPartSend [(decimal pevent.wd.toInt).bytes, p] := by
  have htopic : zframeNew (decimal pevent.wd.toInt).bytes (decimal pevent.wd.toInt).length =
      some (decimal pevent.wd.toInt).bytes := zframeNew_length _
  unfold notify payload
  simp only [htopic]
  cases zframeNew pevent.bytes (toSize (toInt pevent.size)) <;> rfl

/-- An event whose size an `int` can hold is sent whole. -/
theorem payload_of_lt {pevent : InotifyEvent} (h : pevent.size < 2 ^ 31) :
    payload pevent = some pevent.bytes := by
  rw [payload, toInt_of_lt h, toSize_natCast (by omega), ← pevent.bytes_length, zframeNew_length]

/-- A larger one is either not sent at all or cut down to part of its header. -/
theorem payload_of_le {pevent : InotifyEvent} (h : 2 ^ 31 ≤ pevent.size) {p : Frame}
    (hp : payload pevent = some p) :
    2 ^ 32 ≤ pevent.size ∧ p = pevent.bytes.take (pevent.size - 2 ^ 32) ∧ pevent.size - 2 ^ 32 < 16 := by
  have hlen := pevent.len.isLt
  have hsize : pevent.size = 16 + pevent.len.toNat := rfl
  by_cases hneg : pevent.size < 2 ^ 32
  · -- the `int` is negative, and as a `size_t` larger than any memory
    have hint : toInt pevent.size = (pevent.size : Int) - 2 ^ 32 := by
      simp only [toInt, BitVec.toInt_eq_toNat_cond, BitVec.toNat_ofNat]
      omega
    have hbig := toSize_of_neg (z := toInt pevent.size) (by omega) (by omega)
    rw [payload, zframeNew, if_neg (by rw [pevent.bytes_length]; omega)] at hp
    cases hp
  · have hint : toInt pevent.size = ((pevent.size - 2 ^ 32 : Nat) : Int) := by
      simp only [toInt, BitVec.toInt_eq_toNat_cond, BitVec.toNat_ofNat]
      omega
    rw [payload, hint, toSize_natCast (by omega), zframeNew,
      if_pos (by rw [pevent.bytes_length]; omega)] at hp
    exact ⟨by omega, (Option.some.inj hp).symm, by omega⟩

theorem notify_of_lt {pevent : InotifyEvent} (h : pevent.size < 2 ^ 31) :
    notify pevent = some (multiPartSend [(decimal pevent.wd.toInt).bytes, pevent.bytes]) := by
  rw [notify_eq, payload_of_lt h]
  rfl

/-- What arrives of a message that was sent: the watch descriptor's text, then the payload. -/
theorem notify_received {pevent : InotifyEvent} {wire : Wire} (h : notify pevent = some wire) :
    ∃ p, payload pevent = some p ∧
      multiPartReceive wire = some [(decimal pevent.wd.toInt).bytes, p] ∧
      wire.head? = some ⟨(decimal pevent.wd.toInt).bytes, true⟩ := by
  rw [notify_eq, Option.map_eq_some_iff] at h
  obtain ⟨p, hp, rfl⟩ := h
  exact ⟨p, hp, multiPartReceive_cons _ _, rfl⟩

end Rnotify
