import Rnotify.Library.Heap
import Rnotify.Wire

/-! What `rnot_helper.h` does to memory.

Each function with its `malloc`s and `free`s, in their order. `zframe_new` gives a
block that its caller frees; `zframe_send` frees the frame itself, and leaves NULL,
unless it is told to reuse it, which `multi_part_send` does for every frame but the
last. A send leaves memory as it was; a receive gives its caller the strings, and the
array of them. What the libraries keep for themselves, the content of a frame or the
nodes of a ring, is not counted, and sizes are left to the buffers of `Builders`. -/
namespace Rnotify.Ownership
open Library Mem

variable {ε : Type}

/-- A string on the heap. -/
structure Str where
  block : ℕ
  text : CString

/-- The blocks of some strings. -/
def blocks (strings : List Str) : Multiset ℕ := (strings.map fun s => ({s.block} : Multiset ℕ)).sum

theorem blocks_cons (s : Str) (rest : List Str) : blocks (s :: rest) = {s.block} + blocks rest := by
  rw [blocks, List.map_cons, List.sum_cons]
  rfl

theorem card_blocks (strings : List Str) : (blocks strings).card = strings.length := by
  induction strings with
  | nil => rfl
  | cons s rest ih => rw [blocks_cons, Multiset.card_add, ih, Multiset.card_singleton, List.length_cons, add_comm]

theorem mem_blocks {s : Str} {strings : List Str} (h : s ∈ strings) : s.block ∈ blocks strings := by
  induction strings with
  | nil => cases h
  | cons a rest ih =>
    rw [blocks_cons, Multiset.mem_add, Multiset.mem_singleton]
    exact (List.mem_cons.mp h).imp (fun he => by rw [he]) ih

/-- `to_c_string` and what is appended to it. -/
def newStr (text : CString) : Mem ε Str := do
  let block ← malloc
  return ⟨block, text⟩

theorem newStr_spec (text : CString) :
    Spec 0 (newStr text : Mem ε Str) fun s R => R = {s.block} + 0 ∧ s.text = text := by
  refine .next .malloc fun b R hR => ?_
  exact .pure ⟨by rw [hR, add_zero], rfl⟩

/-- A copy with `to_c_string`. -/
def copy (s : Str) : Mem ε Str := do
  use s.block
  newStr s.text

theorem copy_spec {P : Multiset ℕ} {s : Str} (h : s.block ∈ P) :
    Spec P (copy s : Mem ε Str) fun t R => R = {t.block} + P ∧ t.text = s.text := by
  refine .next (.use h) fun _ R hR => ?_
  refine .last P (newStr_spec s.text) (by rw [hR, zero_add]) fun t R hR => ?_
  exact ⟨by rw [hR.1, add_zero], hR.2⟩

/-! ### Sending -/

/-- The loop of `multi_part_send`: the frames that are left, and NULL for the last. -/
def multiPartSend : List ℕ → Mem ε (List (Option ℕ))
  | [] => return []
  | [frame] => do
    use frame
    free frame
    return [none]
  | frame :: next :: rest => do
    use frame
    let content ← multiPartSend (next :: rest)
    return some frame :: content

def framesOwned (frames : List ℕ) : Multiset ℕ := (frames.map fun b => ({b} : Multiset ℕ)).sum

theorem framesOwned_cons (b : ℕ) (rest : List ℕ) : framesOwned (b :: rest) = {b} + framesOwned rest := by
  rw [framesOwned, List.map_cons, List.sum_cons]
  rfl

theorem card_framesOwned (frames : List ℕ) : (framesOwned frames).card = frames.length := by
  induction frames with
  | nil => rfl
  | cons b rest ih => rw [framesOwned_cons, Multiset.card_add, ih, Multiset.card_singleton, List.length_cons, add_comm]

theorem multiPartSend_spec (frames : List ℕ) :
    Spec (framesOwned frames) (multiPartSend frames : Mem ε _) fun content R => R = (content.map pointee).sum := by
  induction frames using multiPartSend.induct with
  | case1 => exact .pure rfl
  | case2 frame =>
    have hone : framesOwned [frame] = {frame} := add_zero _
    rw [hone]
    refine .next (.use (Multiset.mem_singleton_self frame)) fun _ R hR => ?_
    refine .step 0 (.free frame) (by rw [hR, add_zero]) fun _ R hR => ?_
    exact .pure (by rw [hR]; rfl)
  | case3 frame next rest ih =>
    have hcons : framesOwned (frame :: next :: rest) = framesOwned (next :: rest) + {frame} := by
      rw [framesOwned_cons, add_comm]
    have hmem : frame ∈ framesOwned (frame :: next :: rest) := by
      rw [hcons]
      simp
    refine .next (.use hmem) fun _ R hR => ?_
    refine .step {frame} ih (by rw [hR, hcons]) fun content R hR => ?_
    refine .pure ?_
    rw [hR, List.map_cons, List.sum_cons, add_comm]
    rfl

/-- The frames that `zframe_new` made are sent, and then freed one by one. -/
def sendFrames (frames : List ℕ) : Mem ε Unit := do
  let content ← multiPartSend frames
  forM content freePtr

theorem sendFrames_spec (frames : List ℕ) :
    Spec (framesOwned frames) (sendFrames frames : Mem ε Unit) fun _ R => R = 0 := by
  refine .next (multiPartSend_spec frames) fun content R hR => ?_
  rw [hR]
  exact .each pointee content fun p _ => .freePtr p

/-- `_send_string`. -/
def sendString (data : Frame) : Mem ε Wire := do
  let array ← malloc
  let frame ← malloc
  sendFrames [frame]
  free array
  return Rnotify.multiPartSend [data]

theorem sendString_spec (data : Frame) :
    Spec 0 (sendString data : Mem ε Wire) fun wire R => R = 0 ∧ wire = Rnotify.multiPartSend [data] := by
  refine .next .malloc fun array R hR => ?_
  refine .step {array} .malloc (by rw [hR]; rfl) fun frame R hR => ?_
  refine .step {array} (sendFrames_spec [frame]) (by rw [hR]; rfl) fun _ R hR => ?_
  refine .step 0 (.free array) (by rw [hR]; rfl) fun _ R hR => ?_
  exact .pure ⟨by rw [hR]; rfl, rfl⟩

/-- `_send`: a frame for each string. -/
def send (strings : List Str) : Mem ε Wire := do
  let content ← malloc
  let frames ← strings.mapM fun s => do
    use s.block
    malloc
  sendFrames frames
  free content
  return Rnotify.send (strings.map Str.text)

theorem send_spec (strings : List Str) :
    Spec (blocks strings) (send strings : Mem ε Wire) fun wire R =>
      R = blocks strings ∧ wire = Rnotify.send (strings.map Str.text) := by
  refine .step (blocks strings) .malloc (zero_add _).symm fun content R hR => ?_
  refine .step {content} (Spec.collect (P := blocks strings) (fun b => {b}) (fun _ _ => True) strings ?_)
    (by rw [hR, add_comm]) fun frames R hR => ?_
  · intro s hs
    refine .next (.use (mem_blocks hs)) fun _ R hR => ?_
    refine .last (blocks strings) .malloc (by rw [hR, zero_add]) fun b T hT => ?_
    exact ⟨by rw [hT], trivial⟩
  · have hframes : framesOwned frames = (frames.map fun b => ({b} : Multiset ℕ)).sum := rfl
    refine .step (blocks strings + {content}) (sendFrames_spec frames) (by rw [hR.1, hframes]; abel) fun _ R hR => ?_
    refine .step (blocks strings) (.free content) (by rw [hR]; abel) fun _ R hR => ?_
    exact .pure ⟨by rw [hR, zero_add], rfl⟩

/-! ### Receiving -/

/-- `_recv_buff`: a copy of the first frame, which is then destroyed, its pointer being NULL after that. -/
def recvBuff : Mem ε ℕ := do
  let frame ← malloc
  let string ← malloc
  free frame
  freePtr none
  return string

theorem recvBuff_spec : Spec 0 (recvBuff : Mem ε ℕ) fun b R => R = {b} := by
  refine .next .malloc fun frame R hR => ?_
  refine .step {frame} .malloc (by rw [hR, zero_add]) fun string R hR => ?_
  refine .step {string} (.free frame) (by rw [hR, add_comm]) fun _ R hR => ?_
  refine .step {string} (.freePtr none) (by rw [hR]; rfl) fun _ R hR => ?_
  exact .pure (by rw [hR, zero_add])

/-- `multi_part_receive`: the array and a string for each frame. -/
def multiPartReceive (frames : List Frame) : Mem ε (ℕ × List Str) := do
  let ret ← malloc
  let parts ← frames.mapM fun frame => newStr (cstr frame)
  return (ret, parts)

theorem multiPartReceive_spec (frames : List Frame) :
    Spec 0 (multiPartReceive frames : Mem ε _) fun received R =>
      R = blocks received.2 + {received.1} ∧ List.Forall₂ (fun frame s => s.text = cstr frame) frames received.2 := by
  refine .next .malloc fun ret R hR => ?_
  have hparts := Spec.collect (ε := ε) (P := 0) (f := fun frame : Frame => newStr (cstr frame))
    (fun s : Str => {s.block}) (fun frame s => s.text = cstr frame) frames
    fun frame _ => newStr_spec (cstr frame)
  refine .step {ret} hparts (by rw [hR, zero_add]) fun parts R hR => ?_
  exact .pure ⟨by rw [hR.1, add_zero]; rfl, hR.2⟩

/-- The strings of a message are freed, and then their array. -/
def freeParts (ret : ℕ) (parts : List Str) : Mem ε Unit := do
  forM parts fun s => free s.block
  free ret

theorem freeParts_spec (ret : ℕ) (parts : List Str) :
    Spec (blocks parts + {ret}) (freeParts ret parts : Mem ε Unit) fun _ R => R = 0 := by
  refine .step {ret} (.each (fun s : Str => {s.block}) parts fun s _ => .free s.block) rfl fun _ R hR => ?_
  rw [hR, zero_add]
  exact .free ret

/-! ### Events and registrations -/

/-- `notify`: the text of the watch descriptor, the array and two frames. -/
def notify : Mem ε Unit := do
  let filter ← malloc
  let content ← malloc
  let topic ← malloc
  let payload ← malloc
  let sent ← multiPartSend [topic, payload]
  free filter
  forM sent freePtr
  free content

/-- Nothing of an event that is sent stays allocated. -/
theorem notify_spec : Spec 0 (notify : Mem ε Unit) fun _ R => R = 0 := by
  refine .next .malloc fun filter R hR => ?_
  refine .step {filter} .malloc (by rw [hR, zero_add]) fun content R hR => ?_
  refine .step ({content} + {filter}) .malloc (by rw [hR, zero_add]) fun topic R hR => ?_
  refine .step ({topic} + {content} + {filter}) .malloc (by rw [hR, zero_add, add_assoc]) fun payload R hR => ?_
  refine .step ({content} + {filter}) (multiPartSend_spec [topic, payload]) ?_ fun sent R hR => ?_
  · rw [hR, framesOwned, List.map_cons, List.map_singleton, List.sum_cons, List.sum_singleton]
    abel
  · refine .step ((sent.map pointee).sum + {content}) (.free filter) (by rw [hR]; abel) fun _ R hR => ?_
    refine .step {content} (.each pointee sent fun p _ => .freePtr p) (by rw [hR, zero_add]) fun _ R hR => ?_
    rw [hR, zero_add]
    exact .free content

/-- `_register`: two frames are sent, and the reply is received. -/
def register (reply : List Frame) : Mem ε (ℕ × List Str) := do
  let content ← malloc
  let code ← malloc
  let body ← malloc
  sendFrames [code, body]
  free content
  multiPartReceive reply

theorem register_spec (reply : List Frame) :
    Spec 0 (register reply : Mem ε _) fun received R =>
      R = blocks received.2 + {received.1} ∧ List.Forall₂ (fun frame s => s.text = cstr frame) reply received.2 := by
  refine .next .malloc fun content R hR => ?_
  refine .step {content} .malloc (by rw [hR, zero_add]) fun code R hR => ?_
  refine .step ({code} + {content}) .malloc (by rw [hR, zero_add]) fun body R hR => ?_
  refine .step {content} (sendFrames_spec [code, body]) ?_ fun _ R hR => ?_
  · rw [hR, framesOwned, List.map_cons, List.map_singleton, List.sum_cons, List.sum_singleton]
    abel
  · refine .step 0 (.free content) (by rw [hR, add_comm]) fun _ R hR => ?_
    rw [hR]
    exact multiPartReceive_spec reply

end Rnotify.Ownership
