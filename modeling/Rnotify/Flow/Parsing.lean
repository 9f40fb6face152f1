import Rnotify.Dispatcher.Core
import Rnotify.Flow.Conservation

/-! The loop of `parser_thread` over a chunk, with the machine's integers.

A turn of the loop takes `pevent` at `i`, passes it to `notify_random_publisher` if
it has a name and advances `i`, a `ssize_t`, by a sum of a `size_t` and a
`uint32_t`. The label of a turn is the socket that the routing lookups find for it.
Over a chunk of whole events each turn starts where one begins and ends where it
ends (`At`), so the loop visits them in order and stops at the end of the last
(`parser_walk`). -/
namespace Rnotify.Flow
open Library InotifyEvent Dispatcher

/-- Where the loop is, and what it has done. -/
structure Loop where
  i : BitVec 64
  /-- What `pevent` pointed to, turn by turn. -/
  seen : List InotifyEvent
  /-- The offsets of the bytes of these, header and name. -/
  reads : List Nat
  /-- What `notify` was called on a socket for. -/
  sent : List (DispatchSocket × Wire)

/-- `i += sizeof(struct inotify_event) + pevent->len`. -/
def advance (i : BitVec 64) (len : BitVec 32) : BitVec 64 :=
  i + (BitVec.ofNat 64 headerSize + len.setWidth 64)

/-- A turn of the loop over a chunk, given the memory after the end of the chunk's string. -/
def loopStep (chunk : Received) (heap : Nat → Byte) (s : Loop) (ret : DispatchSocket) : Option Loop :=
  if s.i.toInt < chunk.size then
    let pevent := view (image (chunk.buff ++ [0]) heap) s.i.toNat
    let next : Loop :=
      { s with
        i := advance s.i pevent.len
        seen := s.seen ++ [pevent]
        reads := s.reads ++ List.range' s.i.toNat pevent.size }
    if pevent.len ≠ 0 then
      (notify pevent).map fun wire => { next with sent := s.sent ++ [(ret, wire)] }
    else some next
  else none

def parserLoop (chunk : Received) (heap : Nat → Byte) : System Loop DispatchSocket where
  initial := ⟨0, [], [], []⟩
  step := loopStep chunk heap

/-- What `notify` sends in a turn: for an event with a name, the text of its watch descriptor and the bytes
of the event, on the socket found for it. -/
def notifyCall (e : InotifyEvent) (ret : DispatchSocket) : List (DispatchSocket × Wire) :=
  if Named e then [(ret, multiPartSend [(decimal e.wd.toInt).bytes, e.bytes])] else []

/-- What `notify` sends in a loop over some events, each with the socket found for it. -/
def notifyCalls (turns : List (InotifyEvent × DispatchSocket)) : List (DispatchSocket × Wire) :=
  turns.flatMap fun turn => notifyCall turn.1 turn.2

/-- The loop has made some turns over a chunk of whole events, and has some events left. -/
structure At (chunk : Received) (turns : List (InotifyEvent × DispatchSocket)) (left : List InotifyEvent)
    (s : Loop) : Prop where
  midway : Midway ⟨chunk, s.i.toNat⟩ (turns.map Prod.fst) left
  seen : s.seen = turns.map Prod.fst
  reads : ∀ offset ∈ s.reads, (offset : Int) < chunk.size
  sent : s.sent = notifyCalls turns

/-! ### No overflow -/

theorem toNat_advance {i : BitVec 64} {len : BitVec 32} (h : i.toNat < 2 ^ 31) :
    (advance i len).toNat = i.toNat + (headerSize + len.toNat) := by
  have hlen := len.isLt
  simp only [advance, headerSize, BitVec.toNat_add, BitVec.toNat_ofNat, BitVec.toNat_setWidth]
  omega

theorem toInt_of_toNat {i : BitVec 64} (h : i.toNat < 2 ^ 31) : i.toInt = i.toNat :=
  BitVec.toInt_eq_toNat_of_lt (by omega)

/-- The `ssize_t` of the loop is the offset it stands for. -/
theorem Midway.toInt_i {chunk : Received} {i : BitVec 64} {walked left : List InotifyEvent}
    (h : Midway ⟨chunk, i.toNat⟩ walked left) :
    i.toNat < 2 ^ 31 ∧ i.toInt = (allBytes walked).length := by
  have hi : i.toNat = (allBytes walked).length := h.i
  have hfits := h.whole.fits
  rw [allBytes_append, List.length_append] at hfits
  have hsmall : i.toNat < 2 ^ 31 := by
    have : buffSize < 2 ^ 31 := by decide
    omega
  exact ⟨hsmall, by rw [toInt_of_toNat hsmall, hi]⟩

/-- Where a turn of the loop goes, whether it sends or not. -/
theorem loopStep_i {chunk : Received} {heap : Nat → Byte} {s t : Loop} {ret : DispatchSocket}
    (h : loopStep chunk heap s ret = some t) :
    s.i.toInt < chunk.size ∧ t.i = advance s.i (view (image (chunk.buff ++ [0]) heap) s.i.toNat).len := by
  unfold loopStep at h
  split at h
  · next hbefore =>
    refine ⟨hbefore, ?_⟩
    dsimp only at h
    split at h
    · obtain ⟨wire, _, rfl⟩ := Option.map_eq_some_iff.mp h
      rfl
    · rw [Option.some.injEq] at h
      rw [← h]
  · cases h

/-- A parser of the flow walks as the loop does. -/
theorem parseTurn_loopStep {δ : Type} [DecidableEq δ] (flowState : State δ) (p : δ × Fin 10) {chunk : Received}
    {heap : Nat → Byte} {s t : Loop} {ret : DispatchSocket} (hsmall : s.i.toNat < 2 ^ 31)
    (h : loopStep chunk heap s ret = some t) :
    (parseTurn flowState p ⟨chunk, s.i.toNat⟩ heap).parsers p = some ⟨chunk, t.i.toNat⟩ := by
  obtain ⟨hbefore, hi⟩ := loopStep_i h
  rw [toInt_of_toNat hsmall] at hbefore
  have hnext : t.i.toNat = s.i.toNat + (view (image (chunk.buff ++ [0]) heap) s.i.toNat).size := by
    rw [hi, toNat_advance hsmall]
    rfl
  simp only [parseTurn, if_pos hbefore, hnext]
  split <;> exact Function.update_self ..

/-! ### Turns -/

theorem notifyCall_named {e : InotifyEvent} (he : Named e) (ret : DispatchSocket) :
    notifyCall e ret = [(ret, multiPartSend [(decimal e.wd.toInt).bytes, e.bytes])] := if_pos he

theorem notifyCall_nameless {e : InotifyEvent} (he : ¬ Named e) (ret : DispatchSocket) :
    notifyCall e ret = [] := if_neg he

theorem notifyCalls_concat (turns : List (InotifyEvent × DispatchSocket)) (e : InotifyEvent)
    (ret : DispatchSocket) :
    notifyCalls (turns ++ [(e, ret)]) = notifyCalls turns ++ notifyCall e ret := by
  rw [notifyCalls, List.flatMap_append, List.flatMap_singleton]
  rfl

/-- An event of the chunk is no larger than the chunk. -/
theorem size_le_chunk {chunk : Received} {events : List InotifyEvent} (h : Whole chunk events) {e : InotifyEvent}
    (he : e ∈ events) : e.size ≤ buffSize := by
  obtain ⟨before, after, rfl⟩ := List.append_of_mem he
  have hfits := h.fits
  rw [allBytes_append, allBytes_cons, List.length_append, List.length_append, bytes_length] at hfits
  omega

/-- A turn visits the next event: it is looked at inside the chunk, and sent if it has a name. -/
theorem turn_at {chunk : Received} {turns : List (InotifyEvent × DispatchSocket)} {e : InotifyEvent}
    {left : List InotifyEvent} {s : Loop} (h : At chunk turns (e :: left) s) (heap : Nat → Byte)
    (ret : DispatchSocket) :
    ∃ t, loopStep chunk heap s ret = some t ∧ At chunk (turns ++ [(e, ret)]) left t := by
  obtain ⟨hsmall, hexact⟩ := h.midway.toInt_i
  have hi : s.i.toNat = (allBytes (turns.map Prod.fst)).length := h.midway.i
  have hsize : chunk.size = (allBytes (turns.map Prod.fst)).length + (e.size + (allBytes left).length) := by
    rw [h.midway.whole.size, allBytes_append, allBytes_cons]
    simp only [List.length_append, bytes_length, Nat.cast_add]
  have hpos := e.size_pos
  have hbefore : s.i.toInt < chunk.size := by omega
  obtain ⟨e', rest, hleft, hview, hnext⟩ := turn h.midway (by rw [← toInt_of_toNat hsmall]; exact hbefore) heap
  obtain ⟨rfl, rfl⟩ := List.cons.inj hleft
  have hadvance : (advance s.i e.len).toNat = s.i.toNat + e.size := toNat_advance hsmall
  let next : Loop :=
    { s with
      i := advance s.i e.len
      seen := s.seen ++ [e]
      reads := s.reads ++ List.range' s.i.toNat e.size
      sent := s.sent ++ notifyCall e ret }
  refine ⟨next, ?_, ?_, ?_, ?_, ?_⟩
  · have hnotify := notify_of_lt (Nat.lt_of_le_of_lt
      (size_le_chunk h.midway.whole (e := e) (by simp)) (by decide : buffSize < 2 ^ 31))
    simp only [loopStep, if_pos hbefore, hview]
    by_cases he : e.len ≠ 0
    · rw [if_pos he, hnotify]
      simp only [next, notifyCall_named he, Option.map_some]
    · rw [if_neg he]
      simp only [next, notifyCall_nameless he, List.append_nil]
  · have hw : ({ chunk := chunk, i := next.i.toNat } : Walk) = { chunk := chunk, i := s.i.toNat + e.size } := by
      rw [← hadvance]
    rw [List.map_append, hw]
    exact hnext
  · show s.seen ++ [e] = _
    rw [h.seen, List.map_append]
    rfl
  · intro offset hoffset
    rcases List.mem_append.mp hoffset with hold | hnew
    · exact h.reads offset hold
    · have := (List.mem_range'_1.mp hnew).2
      omega
  · show s.sent ++ _ = _
    rw [notifyCalls_concat, h.sent]

theorem at_initial {chunk : Received} {events : List InotifyEvent} (h : Whole chunk events)
    (heap : Nat → Byte) :
    At chunk [] events (parserLoop chunk heap).initial :=
  ⟨⟨h, rfl⟩, rfl, nofun, rfl⟩

/-- So many turns visit so many events. -/
theorem turns_at {chunk : Received} (heap : Nat → Byte) (turns : List (InotifyEvent × DispatchSocket))
    (left : List InotifyEvent) (h : Whole chunk (turns.map Prod.fst ++ left)) :
    ∃ s, (parserLoop chunk heap).exec (parserLoop chunk heap).initial (turns.map Prod.snd) = some s ∧
      At chunk turns left s := by
  induction turns using List.reverseRecOn generalizing left with
  | nil => exact ⟨_, rfl, at_initial h heap⟩
  | append_singleton before turn ih =>
    obtain ⟨e, ret⟩ := turn
    rw [List.map_append, List.append_assoc] at h
    obtain ⟨s, hs, hat⟩ := ih (e :: left) h
    obtain ⟨t, ht, hat'⟩ := turn_at hat heap ret
    refine ⟨t, ?_, hat'⟩
    rw [List.map_append]
    exact (parserLoop chunk heap).exec_concat_some hs ht

/-- The machine's integers hold what the loop means by them: how many bytes were received, where it is after
any number of turns, and how many bytes each event has. -/
structure Exact (chunk : Received) (heap : Nat → Byte) (turns : List (InotifyEvent × DispatchSocket)) :
    Prop where
  size : chunk.size = (allBytes (turns.map Prod.fst)).length
  i : ∀ before after, turns = before ++ after → ∃ s,
    (parserLoop chunk heap).exec (parserLoop chunk heap).initial (before.map Prod.snd) = some s ∧
      s.i.toInt = (allBytes (before.map Prod.fst)).length
  serialLength : ∀ turn ∈ turns, toInt turn.1.size = turn.1.size

/-- **The walk over a chunk.** A chunk of whole events no longer than a read, received by a parser: whatever
the memory after it, the loop makes one turn for each event, in order, and ends with `i` at the size; it
looks at no byte past that, calls `notify` for the events with a name and sends the text of their watch
descriptor and their bytes; and no integer overflows. -/
theorem parser_walk (turns : List (InotifyEvent × DispatchSocket))
    (hfits : (allBytes (turns.map Prod.fst)).length ≤ buffSize) (heap : Nat → Byte) :
    ∃ chunk final, receive (multiPartSend [allBytes (turns.map Prod.fst)]) = some chunk ∧
      (parserLoop chunk heap).exec (parserLoop chunk heap).initial (turns.map Prod.snd) = some final ∧
      (∀ ret, loopStep chunk heap final ret = none) ∧ final.i.toInt = chunk.size ∧
      final.seen = turns.map Prod.fst ∧ (∀ offset ∈ final.reads, (offset : Int) < chunk.size) ∧
      final.sent = notifyCalls turns ∧ Exact chunk heap turns := by
  obtain ⟨chunk, hreceive, hwhole⟩ := receive_sent ⟨rfl, hfits⟩
  have hall : Whole chunk (turns.map Prod.fst ++ []) := by rwa [List.append_nil]
  obtain ⟨final, hfinal, hat⟩ := turns_at heap turns [] hall
  have hend : final.i.toInt = chunk.size := by rw [hat.midway.toInt_i.2, hwhole.size]
  refine ⟨chunk, final, hreceive, hfinal, ?_, hend, hat.seen, hat.reads, hat.sent, hwhole.size, ?_, ?_⟩
  · intro ret
    rw [loopStep, if_neg (by rw [hend]; exact lt_irrefl _)]
  · rintro before after rfl
    rw [List.map_append] at hwhole
    obtain ⟨s, hs, hat'⟩ := turns_at heap before _ hwhole
    exact ⟨s, hs, hat'.midway.toInt_i.2⟩
  · intro turn hturn
    exact toInt_of_lt (Nat.lt_of_le_of_lt (size_le_chunk hwhole (List.mem_map_of_mem hturn)) (by decide))

theorem parser_walk_two :
    ∃ chunk final, receive (multiPartSend [allBytes [created 1, created 2]]) = some chunk ∧
      (parserLoop chunk fun _ => 0).exec (parserLoop chunk fun _ => 0).initial
        [⟨0, literal "tcp://10.0.0.1:5001"⟩, ⟨0, literal "tcp://10.0.0.1:5001"⟩] = some final ∧
      final.seen = [created 1, created 2] := by
  obtain ⟨chunk, final, hreceive, hfinal, _, _, hseen, _⟩ := parser_walk
    [(created 1, ⟨0, literal "tcp://10.0.0.1:5001"⟩), (created 2, ⟨0, literal "tcp://10.0.0.1:5001"⟩)]
    (by decide) fun _ => 0
  exact ⟨chunk, final, hreceive, hfinal, hseen⟩

end Rnotify.Flow
