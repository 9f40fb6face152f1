import Rnotify.Registrar.Core

/-! Strings sent together, and what arrives.

`_send` and `_register` make a frame of each string's `strlen` bytes and pass the
frames to `multi_part_send`; `multi_part_receive` takes one message off the socket
and makes a string of each frame. `_send` counts its strings with a `size_t`, and
the `multi_part_` functions count frames with an `int`. Up to `2 ^ 31 - 1` strings
that is the same: what is put on the wire is one message, its frames are the strings,
and the peer gets these and leaves what comes after. From `2 ^ 31` strings on the
count that `multi_part_send` gets is negative or too small, and it sends nothing or
only the first of them (`framing_iff`). -/
namespace Rnotify
open Library

/-- The first loop of `_send` from index `i` on: `i` is an `int`, which wraps, and `i < len` makes a `size_t` of
it. -/
def frameFrom (len : BitVec 64) : BitVec 32 → List (List Byte) → Option (List Frame)
  | _, [] => some []
  | i, s :: rest =>
    if i.signExtend 64 < len then
      match zframeNew s (strlen s), frameFrom len (i + 1) rest with
      | some frame, some frames => some (frame :: frames)
      | _, _ => none
    else some []

/-- `_send`, from the memory at each `string[i]`; `multi_part_send` takes `len` as an `int`. -/
def sendStrings (string : List (List Byte)) (len : BitVec 64) : Option Wire :=
  (frameFrom len 0 string).map fun content => sendFrom (toInt len.toNat) 0 content

/-- What `_register` sends. -/
def registerSend (registrationBody registrationType : List Byte) : Option Wire :=
  match zframeNew registrationType (strlen registrationType),
      zframeNew registrationBody (strlen registrationBody) with
  | some first, some second => some (sendFrom 2 0 [first, second])
  | _, _ => none

/-- The loop of `multi_part_receive` from index `i` on; `i` and `size` are `int`s. -/
def popFrom (size : Int) : Int → List Frame → List CString
  | _, [] => []
  | i, frame :: rest => if i < size then cstr frame :: popFrom size (i + 1) rest else []

/-- `multi_part_receive`: the `int` that counts the frames of one message, the strings of as many, and what
is left on the socket. -/
def receiveStrings (socket : Wire) : Option (Int × List CString × Wire) :=
  (zmsgRecv socket).map fun received =>
    (toInt received.1.length, popFrom (toInt received.1.length) 0 received.1, received.2)

theorem zframeNew_strlen (s : CString) : zframeNew s.memory (strlen s.memory) = some s.bytes := by
  have hlen : strlen s.memory = s.bytes.length := congrArg CString.length (cstr_terminated s [])
  have hle : strlen s.memory ≤ s.memory.length := strlen_le _
  rw [zframeNew, if_pos hle, hlen, CString.memory, List.take_left]

/-! ### Counts that an `int` holds -/

/-- An `int` that is not negative is the same `size_t`. -/
theorem signExtend_lt_iff {i : BitVec 32} {len : BitVec 64} (hi : i.toNat < 2 ^ 31) :
    i.signExtend 64 < len ↔ i.toNat < len.toNat := by
  have hmsb : i.msb = false := by
    rw [BitVec.msb_eq_decide, decide_eq_false_iff_not]
    omega
  rw [BitVec.lt_def, BitVec.signExtend_eq_setWidth_of_msb_false hmsb, BitVec.toNat_setWidth_of_le (by decide)]

/-- The loop of `_send` frames every string. -/
theorem frameFrom_eq (strings : List CString) (len : BitVec 64) (i : BitVec 32)
    (hlen : len.toNat = i.toNat + strings.length) (hint : len.toNat < 2 ^ 31) :
    frameFrom len i (strings.map CString.memory) = some (strings.map CString.bytes) := by
  induction strings generalizing i with
  | nil => rfl
  | cons s rest ih =>
    rw [List.length_cons] at hlen
    have hnext : (i + 1).toNat = i.toNat + 1 := BitVec.toNat_add_of_lt (by simp; omega)
    have hrest := ih (i + 1) (by omega)
    have hlt : i.signExtend 64 < len := (signExtend_lt_iff (by omega)).mpr (by omega)
    rw [List.map_cons, frameFrom, if_pos hlt, zframeNew_strlen, hrest]
    rfl

/-- `_send` frames the strings. -/
theorem sendStrings_eq {strings : List CString} (hlen : strings.length < 2 ^ 31) :
    sendStrings (strings.map CString.memory) (BitVec.ofNat 64 strings.length) = some (send strings) := by
  have hnat : (BitVec.ofNat 64 strings.length).toNat = strings.length := by
    rw [BitVec.toNat_ofNat, Nat.mod_eq_of_lt (by omega)]
  have hframes := frameFrom_eq strings (BitVec.ofNat 64 strings.length) 0 (by simp [hnat]) (by omega)
  rw [sendStrings, hframes, hnat, toInt_of_lt hlen, Option.map_some, send, multiPartSend, List.length_map]

/-- `_register` sends its two strings, the type first. -/
theorem registerSend_eq (registrationBody registrationType : CString) :
    registerSend registrationBody.memory registrationType.memory =
      some (send [registrationType, registrationBody]) := by
  rw [registerSend, zframeNew_strlen, zframeNew_strlen]
  rfl

theorem popFrom_eq (size i : Int) (frames : List Frame) (hsize : i + frames.length ≤ size) :
    popFrom size i frames = frames.map cstr := by
  induction frames generalizing i with
  | nil => rfl
  | cons frame rest ih =>
    rw [List.length_cons, Nat.cast_succ] at hsize
    rw [popFrom, if_pos (by omega), ih (i + 1) (by omega), List.map_cons]

/-- `multi_part_receive` gives the strings of one message. -/
theorem receiveStrings_eq {socket : Wire} {frames : List Frame} {rest : Wire}
    (h : zmsgRecv socket = some (frames, rest)) (hlen : frames.length < 2 ^ 31) :
    receiveStrings socket = some ((frames.length : Int), frames.map cstr, rest) := by
  rw [receiveStrings, h, Option.map_some, toInt_of_lt hlen, popFrom_eq _ _ _ (by simp)]

/-- Of so few frames it is what `multiPartReceive` says. -/
theorem receiveStrings_multiPartReceive {wire : Wire} {frames : List Frame} (h : multiPartReceive wire = some frames)
    (hlen : frames.length < 2 ^ 31) :
    ∃ rest, receiveStrings wire = some ((frames.length : Int), frames.map cstr, rest) := by
  obtain ⟨⟨_, rest⟩, hrecv, rfl⟩ := Option.map_eq_some_iff.mp h
  exact ⟨rest, receiveStrings_eq hrecv hlen⟩

/-! ### One message -/

/-- A wire that holds the strings as one message: a frame for each, with the flag that more follow on every
frame but the last, and the peer gets them whatever else is on the socket, which it leaves there. -/
structure Framed (wire : Wire) (strings : List CString) : Prop where
  frames : wire.map Part.frame = strings.map CString.bytes
  more : ∀ k (part : Part), wire[k]? = some part → (part.more = true ↔ k + 1 < strings.length)
  received : ∀ rest, receiveStrings (wire ++ rest) = some ((strings.length : Int), strings, rest)

theorem frames_sendFrom (size i : Int) (content : List Frame) (hsize : i + content.length ≤ size) :
    (sendFrom size i content).map Part.frame = content := by
  induction content generalizing i with
  | nil => rfl
  | cons frame rest ih =>
    rw [List.length_cons, Nat.cast_succ] at hsize
    rw [sendFrom, if_pos (by omega), List.map_cons, ih (i + 1) (by omega)]

/-- The loop clears the flag at the last index and sets it at the others. -/
theorem more_sendFrom (size i : Int) (content : List Frame) (k : Nat) (part : Part)
    (h : (sendFrom size i content)[k]? = some part) : part.more = true ↔ i + k ≠ size - 1 := by
  induction content generalizing i k with
  | nil => cases h
  | cons frame rest ih =>
    rw [sendFrom] at h
    split at h
    · cases k with
      | zero =>
        rw [List.getElem?_cons_zero, Option.some.injEq] at h
        rw [← h, Nat.cast_zero, add_zero]
        exact decide_eq_true_iff
      | succ k =>
        rw [List.getElem?_cons_succ] at h
        rw [ih (i + 1) k h, Nat.cast_succ, add_right_comm, add_assoc]
    · cases h

theorem frames_send (strings : List CString) : (send strings).map Part.frame = strings.map CString.bytes :=
  frames_sendFrom _ _ _ (by simp)

/-- A wire with a part for each string. -/
theorem length_of_frames {wire : Wire} {strings : List CString}
    (h : wire.map Part.frame = strings.map CString.bytes) : wire.length = strings.length := by
  simpa using congrArg List.length h

theorem framed_send (strings : List CString) (hne : strings ≠ []) (hlen : strings.length < 2 ^ 31) :
    Framed (send strings) strings where
  frames := frames_send strings
  more := by
    intro k part h
    have hk : k < strings.length := by
      rw [← length_of_frames (frames_send strings)]
      exact (List.getElem?_eq_some_iff.mp h).1
    rw [more_sendFrom _ _ _ k part h, List.length_map]
    omega
  received := by
    intro rest
    have hcontent : strings.map CString.bytes ≠ [] := fun h => hne (List.map_eq_nil_iff.mp h)
    have hrecv := zmsgRecv_multiPartSend _ hcontent rest
    rw [send, receiveStrings_eq hrecv (by rwa [List.length_map])]
    simp [Function.comp_def]

/-! ### Counts that it does not hold -/

/-- `multi_part_send` sends as many frames as its `size`, and none if that is negative. -/
theorem length_sendFrom (size i : Int) (content : List Frame) :
    (sendFrom size i content).length ≤ (size - i).toNat := by
  induction content generalizing i with
  | nil => exact Nat.zero_le _
  | cons frame rest ih =>
    rw [sendFrom]
    split
    · have hrest := ih (i + 1)
      rw [List.length_cons]
      omega
    · exact Nat.zero_le _

/-- No message of `_send` has `2 ^ 31` frames. -/
theorem length_sendStrings {string : List (List Byte)} {len : BitVec 64} {wire : Wire}
    (h : sendStrings string len = some wire) : wire.length < 2 ^ 31 := by
  obtain ⟨content, _, rfl⟩ := Option.map_eq_some_iff.mp h
  have hsent := length_sendFrom (toInt len.toNat) 0 content
  have hint : toInt len.toNat < 2 ^ 31 := BitVec.toInt_lt
  omega

/-- The loop of `_send` comes to its end, whatever the count. -/
theorem frameFrom_isSome (strings : List CString) (len : BitVec 64) (i : BitVec 32) :
    (frameFrom len i (strings.map CString.memory)).isSome := by
  induction strings generalizing i with
  | nil => rfl
  | cons s rest ih =>
    obtain ⟨frames, hframes⟩ := Option.isSome_iff_exists.mp (ih (i + 1))
    rw [List.map_cons, frameFrom, zframeNew_strlen, hframes]
    split <;> rfl

/-- With a count that is no positive `int` nothing is sent. -/
theorem sendStrings_of_nonpos (strings : List CString) {len : BitVec 64} (hlen : toInt len.toNat ≤ 0) :
    sendStrings (strings.map CString.memory) len = some [] := by
  obtain ⟨content, hcontent⟩ := Option.isSome_iff_exists.mp (frameFrom_isSome strings len 0)
  have hsent := length_sendFrom (toInt len.toNat) 0 content
  have hnone : sendFrom (toInt len.toNat) 0 content = [] := List.eq_nil_of_length_eq_zero (by omega)
  rw [sendStrings, hcontent, Option.map_some, hnone]

/-- **Framing round trip.** A non-empty list of strings goes over the wire as one message and comes out as it
went in exactly when there are fewer than `2 ^ 31`; the two strings of a registration always do. -/
theorem framing_iff (strings : List CString) (hne : strings ≠ []) :
    ((∃ wire, sendStrings (strings.map CString.memory) (BitVec.ofNat 64 strings.length) = some wire ∧
        Framed wire strings) ↔ strings.length < 2 ^ 31) ∧
      ∀ registrationBody registrationType : CString, ∃ wire,
        registerSend registrationBody.memory registrationType.memory = some wire ∧
          Framed wire [registrationType, registrationBody] := by
  refine ⟨⟨?_, ?_⟩, ?_⟩
  · rintro ⟨wire, hsend, hframed⟩
    rw [← length_of_frames hframed.frames]
    exact length_sendStrings hsend
  · intro hlen
    exact ⟨_, sendStrings_eq hlen, framed_send strings hne hlen⟩
  · intro body type
    exact ⟨_, registerSend_eq body type, framed_send [type, body] (by simp) (by simp)⟩

/-- Three strings, one of them empty. -/
theorem framing_iff_three :
    ∃ wire, sendStrings ([literal "a", literal "", literal "b"].map CString.memory) 3 = some wire ∧
      Framed wire [literal "a", literal "", literal "b"] :=
  (framing_iff [literal "a", literal "", literal "b"] (by simp)).1.mpr (by simp)

/-- As many empty strings as an `int` cannot count. -/
def tooMany : List CString := List.replicate (2 ^ 31) (literal "")

/-- Of these `_send` sends nothing. -/
theorem tooMany_not_sent :
    sendStrings (tooMany.map CString.memory) (BitVec.ofNat 64 tooMany.length) = some [] ∧
      ¬ ∃ wire, sendStrings (tooMany.map CString.memory) (BitVec.ofNat 64 tooMany.length) = some wire ∧
        Framed wire tooMany := by
  have hlen : tooMany.length = 2 ^ 31 := List.length_replicate ..
  refine ⟨sendStrings_of_nonpos tooMany ?_, ?_⟩
  · rw [hlen]
    decide
  · rintro ⟨wire, hsend, hframed⟩
    have hlt := length_sendStrings hsend
    rw [length_of_frames hframed.frames, hlen] at hlt
    exact hlt.false

/-- What the registrar receives from `_register` is the request that `Registrar.register` describes. -/
theorem registerSend_request (filePath : CString) (addWatch : CString → Int) :
    (registerSend filePath.memory registerFileObjectSanityCheck.memory).bind multiPartReceive =
      some (Registrar.register filePath addWatch).frames := by
  rw [registerSend_eq, Option.bind_some, multiPartReceive_send]
  rfl

end Rnotify
