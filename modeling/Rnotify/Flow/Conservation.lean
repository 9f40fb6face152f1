import Rnotify.Flow.Model

/-! No event is lost and none is doubled.

What is in a buffer, in a socket or in a thread's hands is always whole events
(`Sound`), and a string of whole events goes through a send and a receive as it is
(`forward_sound`, `take_sound`), so a hop moves events from one place to the next,
and a turn of a parser moves the first of what it has left to one of its two
counts (`turn`). So at any moment the events read are those passed on, those
skipped and those in flight (`intact_run`). -/
namespace Rnotify.Flow
open Library InotifyEvent

/-! ### Whole events -/

/-- A string that is the bytes of some events, no longer than a read. -/
structure Whole (chunk : Received) (events : List InotifyEvent) : Prop where
  buff : chunk.buff = allBytes events
  size : chunk.size = (allBytes events).length
  fits : (allBytes events).length ≤ buffSize

/-- A message that is the bytes of some events. -/
structure Sent (wire : Wire) (events : List InotifyEvent) : Prop where
  wire : wire = multiPartSend [allBytes events]
  fits : (allBytes events).length ≤ buffSize

/-- A parser has walked over the first of the events of its chunk. -/
structure Midway (w : Walk) (walked left : List InotifyEvent) : Prop where
  whole : Whole w.chunk (walked ++ left)
  i : w.i = (allBytes walked).length

theorem allBytes_append (a b : List InotifyEvent) : allBytes (a ++ b) = allBytes a ++ allBytes b :=
  List.flatMap_append

/-- A walk finds the events that are left. -/
theorem eventsFrom_whole {chunk : Received} {walked left : List InotifyEvent}
    (h : Whole chunk (walked ++ left)) : eventsFrom chunk (allBytes walked).length = left := by
  have hsize : chunk.size.toNat = (allBytes walked).length + (allBytes left).length := by
    rw [h.size, allBytes_append, List.length_append, Int.toNat_natCast]
  rw [eventsFrom, hsize, h.buff, allBytes_append]
  exact congrArg _ (visited_bytes left _ (cells_image_from (allBytes walked) (allBytes left) [0] _))

theorem inChunk_whole {chunk : Received} {events : List InotifyEvent} (h : Whole chunk events) :
    inChunk (some chunk) = events := by
  have hall : Whole chunk ([] ++ events) := h
  exact eventsFrom_whole hall

theorem receive_sent {wire : Wire} {events : List InotifyEvent} (h : Sent wire events) :
    ∃ chunk, receive wire = some chunk ∧ Whole chunk events := by
  have hfits : (allBytes events).length < 2 ^ 31 := lt_of_le_of_lt h.fits (by decide)
  refine ⟨⟨allBytes events, toInt (allBytes events).length⟩, ?_, rfl, toInt_of_lt hfits, h.fits⟩
  rw [receive, h.wire, recvBuff_single]
  rfl

theorem inWire_sent {wire : Wire} {events : List InotifyEvent} (h : Sent wire events) :
    inWire wire = events := by
  obtain ⟨chunk, hreceive, hwhole⟩ := receive_sent h
  rw [inWire, hreceive, inChunk_whole hwhole]

theorem sendString_whole {chunk : Received} {events : List InotifyEvent} (h : Whole chunk events) :
    ∃ wire, sendString chunk.buff (toSize chunk.size) = some wire ∧ Sent wire events := by
  refine ⟨multiPartSend [allBytes events], ?_, rfl, h.fits⟩
  have hfits : (allBytes events).length < 2 ^ 64 := lt_of_le_of_lt h.fits (by decide)
  rw [h.buff, h.size, toSize_natCast hfits, sendString, zframeNew_length]
  rfl

/-- A reader sends the part of its buffer that it read. -/
theorem sent_of_sendString {data : List Byte} {len : Nat} {events : List InotifyEvent} {wire : Wire}
    (h : Whole ⟨data.take len, len⟩ events) (hsend : sendString data len = some wire) : Sent wire events := by
  obtain ⟨frame, hframe, rfl⟩ := Option.map_eq_some_iff.mp hsend
  unfold zframeNew at hframe
  split at hframe
  · refine ⟨?_, h.fits⟩
    rw [← Option.some.inj hframe, show data.take len = allBytes events from h.buff]
  · cases hframe

/-! ### A hop -/

def Held (held : Option Received) : Prop := ∀ chunk ∈ held, ∃ events, Whole chunk events

def Queued (queue : Multiset Wire) : Prop := ∀ wire ∈ queue, ∃ events, Sent wire events

theorem held_none : Held none := nofun

theorem queued_cons {queue : Multiset Wire} (h : Queued queue) {wire : Wire} {events : List InotifyEvent}
    (hw : Sent wire events) : Queued (wire ::ₘ queue) := by
  intro w hmem
  rcases Multiset.mem_cons.mp hmem with rfl | hmem
  · exact ⟨events, hw⟩
  · exact h w hmem

theorem inQueue_cons (wire : Wire) (queue : Multiset Wire) :
    inQueue (wire ::ₘ queue) = inQueue queue + inWire wire := by
  rw [inQueue, Multiset.map_cons, Multiset.sum_cons, add_comm]
  rfl

/-- A receive takes the events out of the queue. -/
theorem take_sound {α : Type} {held : Option α} {queue : Multiset Wire} (hq : Queued queue) {wire : Wire}
    {taken : Received × Multiset Wire} (h : take held queue wire = some taken) :
    held = none ∧ Held (some taken.1) ∧ Queued taken.2 ∧
      inQueue taken.2 + inChunk (some taken.1) = inQueue queue := by
  unfold take at h
  split at h
  · cases h
  · split at h
    · next hmem =>
      obtain ⟨chunk, hreceive, rfl⟩ := Option.map_eq_some_iff.mp h
      obtain ⟨events, hsent⟩ := hq wire hmem
      obtain ⟨chunk', hreceive', hwhole⟩ := receive_sent hsent
      rw [hreceive, Option.some.injEq] at hreceive'
      refine ⟨rfl, ?_, fun w hw => hq w (Multiset.mem_of_mem_erase hw), ?_⟩
      · intro c hc
        rw [Option.mem_def, Option.some.injEq] at hc
        exact ⟨events, by rw [← hc, hreceive']; exact hwhole⟩
      · have hwire : inWire wire = inChunk (some chunk) := by rw [inWire, hreceive]
        rw [← hwire]
        exact sum_erase hmem inWire
    · cases h

/-- A send puts them into the next one. -/
theorem forward_sound {held : Option Received} {queue next : Multiset Wire} (hh : Held held) (hq : Queued queue)
    (h : forward held queue = some next) : Queued next ∧ inQueue next = inQueue queue + inChunk held := by
  unfold forward at h
  split at h
  · cases h
  · next chunk =>
    obtain ⟨events, hwhole⟩ := hh chunk rfl
    obtain ⟨wire, hsend, hsent⟩ := sendString_whole hwhole
    rw [hsend, Option.map_some, Option.some.injEq] at h
    rw [← h]
    exact ⟨queued_cons hq hsent, by rw [inQueue_cons, inWire_sent hsent, inChunk_whole hwhole]⟩

/-! ### A turn of a parser -/

theorem allBytes_eq_nil {events : List InotifyEvent} (h : (allBytes events).length = 0) : events = [] := by
  cases events with
  | nil => rfl
  | cons e rest =>
    rw [allBytes_cons, List.length_append, bytes_length] at h
    have := e.size_pos
    omega

/-- Before the end of its chunk a parser sees the next event, whatever memory follows the chunk. -/
theorem turn {w : Walk} {walked left : List InotifyEvent} (h : Midway w walked left)
    (hi : (w.i : Int) < w.chunk.size) (heap : Nat → Byte) :
    ∃ e rest, left = e :: rest ∧ view (image (w.chunk.buff ++ [0]) heap) w.i = e ∧
      Midway { w with i := w.i + e.size } (walked ++ [e]) rest := by
  cases left with
  | nil =>
    rw [h.i, h.whole.size, List.append_nil] at hi
    exact absurd hi (lt_irrefl _)
  | cons e rest =>
    have hbuff : w.chunk.buff ++ [0] = allBytes walked ++ e.bytes ++ (allBytes rest ++ [0]) := by
      rw [h.whole.buff, allBytes_append, allBytes_cons]
      simp only [List.append_assoc]
    refine ⟨e, rest, rfl, ?_, ?_, ?_⟩
    · rw [hbuff, h.i]
      exact view_of_cells (cells_image_from ..)
    · have happ : walked ++ [e] ++ rest = walked ++ e :: rest := by simp
      rw [happ]
      exact h.whole
    · show w.i + e.size = _
      rw [allBytes_append, List.length_append, h.i, allBytes_cons, allBytes_nil, List.append_nil, bytes_length]

theorem left_of_end {w : Walk} {walked left : List InotifyEvent} (h : Midway w walked left)
    (hi : ¬ (w.i : Int) < w.chunk.size) : left = [] := by
  apply allBytes_eq_nil
  rw [h.i, h.whole.size, allBytes_append, List.length_append] at hi
  omega

theorem inWalk_midway {w : Walk} {walked left : List InotifyEvent} (h : Midway w walked left) :
    inWalk (some w) = left := by
  rw [inWalk, h.i]
  exact eventsFrom_whole h.whole

/-! ### A step -/

/-- Between its read and its send a reader has whole events at the start of its buffer. -/
def Stored (r : Reader) : Prop := ∀ len ∈ r.len, ∃ events, Whole ⟨r.buff.data.take len, len⟩ events

def Walking (held : Option Walk) : Prop := ∀ w ∈ held, ∃ walked left, Midway w walked left

theorem walking_some {w : Walk} {walked left : List InotifyEvent} (h : Midway w walked left) :
    Walking (some w) := by
  intro w' hw'
  rw [Option.mem_def, Option.some.injEq] at hw'
  rw [← hw']
  exact ⟨walked, left, h⟩

/-- What every thread and every socket has is whole events, and parsers have told them apart. -/
structure Sound {δ : Type} (s : State δ) : Prop where
  readers : ∀ k, Stored (s.readers k)
  work : Queued s.work
  flusher : Held s.flusher
  flushed : Queued s.flushed
  mains : ∀ d, Held (s.mains d)
  workers : ∀ d, Queued (s.workers d)
  parsers : ∀ p, Walking (s.parsers p)
  notified : ∀ e ∈ s.notified, Named e
  skipped : ∀ e ∈ s.skipped, ¬ Named e

variable {δ : Type} [DecidableEq δ]

theorem sound_initial : Sound (flow δ).initial :=
  ⟨nofun, nofun, nofun, nofun, nofun, nofun, nofun, nofun, nofun⟩

variable [Fintype δ]

/-- The events read are those passed on, those skipped and those in flight. -/
structure Intact (s : State δ) : Prop extends Sound s where
  conserved : s.read = s.notified + s.skipped + inFlight s

theorem intact_initial : Intact (flow δ).initial :=
  ⟨sound_initial, by simp [flow, inFlight, inReader, inQueue, inChunk, inWalk]⟩

theorem intact_read {s t : State δ} {k : Fin 10} {events : List InotifyEvent} (hs : Intact s)
    (hstep : step s (.read k events) = some t) : Intact t := by
  simp only [step] at hstep
  split at hstep
  · cases hstep
  · next hidle =>
    split at hstep
    · next hfits =>
      rw [Option.some.injEq] at hstep
      have hwhole : Whole ⟨((s.readers k).store (allBytes events)).buff.data.take (allBytes events).length,
          (allBytes events).length⟩ events :=
        ⟨List.take_left, rfl, hfits⟩
      have hnew : inReader ((s.readers k).store (allBytes events)) = events := inChunk_whole hwhole
      have hold : inReader (s.readers k) = 0 := by rw [inReader, hidle]
      have hstored : Stored ((s.readers k).store (allBytes events)) := by
        intro len hlen
        rw [← Option.some.inj hlen]
        exact ⟨events, hwhole⟩
      rw [← hstep]
      refine { hs with readers := forall_update hs.readers hstored, conserved := ?_ }
      show s.read + events = _
      rw [hs.conserved]
      unfold inFlight
      rw [total_add (hnew.trans (by rw [hold, zero_add]))]
      abel
    · cases hstep

theorem intact_submit {s t : State δ} {k : Fin 10} (hs : Intact s) (hstep : step s (.submit k) = some t) :
    Intact t := by
  simp only [step] at hstep
  split at hstep
  · cases hstep
  · next len hlen =>
    obtain ⟨events, hwhole⟩ := hs.readers k len hlen
    obtain ⟨wire, hsend, rfl⟩ := Option.map_eq_some_iff.mp hstep
    have hsent : Sent wire events := sent_of_sendString hwhole hsend
    have hold : inReader (s.readers k) = events := by
      rw [inReader, hlen]
      exact inChunk_whole hwhole
    have hnew : inReader { s.readers k with len := none } + events = events := zero_add _
    refine { hs with readers := forall_update hs.readers nofun, work := queued_cons hs.work hsent, conserved := ?_ }
    show s.read = _
    rw [hs.conserved]
    unfold inFlight
    rw [← total_remove (hnew.trans hold.symm), inQueue_cons, inWire_sent hsent]
    abel

theorem intact_flusherReceive {s t : State δ} {wire : Wire} (hs : Intact s)
    (hstep : step s (.flusherReceive wire) = some t) : Intact t := by
  obtain ⟨taken, htake, rfl⟩ := Option.map_eq_some_iff.mp hstep
  obtain ⟨hidle, hheld, hqueued, hmoved⟩ := take_sound hs.work htake
  refine { hs with work := hqueued, flusher := hheld, conserved := ?_ }
  show s.read = _
  rw [hs.conserved]
  unfold inFlight
  rw [← hmoved, hidle]
  show s.notified + s.skipped + (_ + (_ + _) + 0 + _ + _ + _ + _) = _
  abel

theorem intact_flush {s t : State δ} (hs : Intact s) (hstep : step s .flush = some t) : Intact t := by
  obtain ⟨queue, hforward, rfl⟩ := Option.map_eq_some_iff.mp hstep
  obtain ⟨hqueued, hmoved⟩ := forward_sound hs.flusher hs.flushed hforward
  refine { hs with flusher := held_none, flushed := hqueued, conserved := ?_ }
  show s.read = _
  rw [hs.conserved]
  unfold inFlight
  show _ = s.notified + s.skipped + (_ + _ + 0 + inQueue queue + _ + _ + _)
  rw [hmoved]
  abel

theorem intact_mainReceive {s t : State δ} {d : δ} {wire : Wire} (hs : Intact s)
    (hstep : step s (.mainReceive d wire) = some t) : Intact t := by
  obtain ⟨taken, htake, rfl⟩ := Option.map_eq_some_iff.mp hstep
  obtain ⟨hidle, hheld, hqueued, hmoved⟩ := take_sound hs.flushed htake
  have hfill : inChunk (some taken.1) = inChunk (s.mains d) + inChunk (some taken.1) := by
    rw [hidle]
    exact (zero_add _).symm
  refine { hs with flushed := hqueued, mains := forall_update hs.mains hheld, conserved := ?_ }
  show s.read = _
  rw [hs.conserved]
  unfold inFlight
  rw [← hmoved, total_add hfill]
  abel

theorem intact_mainSend {s t : State δ} {d : δ} (hs : Intact s) (hstep : step s (.mainSend d) = some t) :
    Intact t := by
  obtain ⟨queue, hforward, rfl⟩ := Option.map_eq_some_iff.mp hstep
  obtain ⟨hqueued, hmoved⟩ := forward_sound (hs.mains d) (hs.workers d) hforward
  have hempty : inChunk none + inChunk (s.mains d) = inChunk (s.mains d) := zero_add _
  refine { hs with
    mains := forall_update hs.mains held_none, workers := forall_update hs.workers hqueued, conserved := ?_ }
  show s.read = _
  rw [hs.conserved]
  unfold inFlight
  rw [total_add hmoved, ← total_remove hempty]
  abel

theorem intact_parserReceive {s t : State δ} {d : δ} {k : Fin 10} {wire : Wire} (hs : Intact s)
    (hstep : step s (.parserReceive d k wire) = some t) : Intact t := by
  obtain ⟨taken, htake, rfl⟩ := Option.map_eq_some_iff.mp hstep
  obtain ⟨hidle, hheld, hqueued, hmoved⟩ := take_sound (hs.workers d) htake
  obtain ⟨events, hwhole⟩ := hheld taken.1 rfl
  have hstart : Midway ⟨taken.1, 0⟩ [] events := ⟨hwhole, rfl⟩
  have hfill : inWalk (some ⟨taken.1, 0⟩) = inWalk (s.parsers (d, k)) + inChunk (some taken.1) := by
    rw [hidle]
    exact (zero_add _).symm
  refine { hs with
    parsers := forall_update hs.parsers (walking_some hstart)
    workers := forall_update hs.workers hqueued
    conserved := ?_ }
  show s.read = _
  rw [hs.conserved]
  unfold inFlight
  rw [total_add hfill, ← total_remove hmoved]
  abel

theorem intact_parse {s t : State δ} {d : δ} {k : Fin 10} {heap : Nat → Byte} (hs : Intact s)
    (hstep : step s (.parse d k heap) = some t) : Intact t := by
  obtain ⟨w, hw, rfl⟩ := Option.map_eq_some_iff.mp hstep
  obtain ⟨walked, left, hmid⟩ := hs.parsers (d, k) w hw
  have hold : inWalk (s.parsers (d, k)) = left := by rw [hw, inWalk_midway hmid]
  unfold parseTurn
  split
  · next hi =>
    obtain ⟨e, rest, rfl, hview, hnext⟩ := turn hmid hi heap
    have hmoved : inWalk (some { w with i := w.i + e.size }) + {e} = inWalk (s.parsers (d, k)) := by
      rw [hold, inWalk_midway hnext, add_comm]
      rfl
    dsimp only
    rw [hview]
    split
    · next hname =>
      refine { hs with
        parsers := forall_update hs.parsers (walking_some hnext)
        notified := fun e' he' => (Multiset.mem_cons.mp he').elim (fun h => h ▸ hname) (hs.notified e')
        conserved := ?_ }
      show s.read = e ::ₘ s.notified + s.skipped + _
      rw [hs.conserved, ← Multiset.singleton_add]
      unfold inFlight
      rw [← total_remove hmoved]
      abel
    · next hname =>
      refine { hs with
        parsers := forall_update hs.parsers (walking_some hnext)
        skipped := fun e' he' => (Multiset.mem_cons.mp he').elim (fun h => h ▸ hname) (hs.skipped e')
        conserved := ?_ }
      show s.read = s.notified + e ::ₘ s.skipped + _
      rw [hs.conserved, ← Multiset.singleton_add]
      unfold inFlight
      rw [← total_remove hmoved]
      abel
  · next hi =>
    have hmoved : inWalk none + 0 = inWalk (s.parsers (d, k)) := by
      rw [hold, left_of_end hmid hi]
      rfl
    refine { hs with parsers := forall_update hs.parsers nofun, conserved := ?_ }
    show s.read = _
    rw [hs.conserved]
    unfold inFlight
    rw [← total_remove hmoved, add_zero]

theorem intact_run {labels : List (Label δ)} {s : State δ}
    (hr : (flow δ).exec (flow δ).initial labels = some s) : Intact s := by
  refine (flow δ).invariant Intact ?_ labels _ s intact_initial hr
  intro s a t hs hstep
  cases a with
  | read k events => exact intact_read hs hstep
  | submit k => exact intact_submit hs hstep
  | flusherReceive wire => exact intact_flusherReceive hs hstep
  | flush => exact intact_flush hs hstep
  | mainReceive d wire => exact intact_mainReceive hs hstep
  | mainSend d => exact intact_mainSend hs hstep
  | parserReceive d k wire => exact intact_parserReceive hs hstep
  | parse d k heap => exact intact_parse hs hstep

/-- **No event is lost or doubled.** In every state that the threads can reach, in whatever order they
move, the events with a name that were read are those passed to `notify_random_publisher` and those
in flight, and the events that were skipped have no name. -/
theorem nothing_lost {labels : List (Label δ)} {s : State δ}
    (hr : (flow δ).exec (flow δ).initial labels = some s) :
    s.read.filter Named = s.notified + (inFlight s).filter Named ∧
      s.read = s.notified + s.skipped + inFlight s ∧ ∀ e ∈ s.skipped, ¬ Named e := by
  have hs := intact_run hr
  refine ⟨?_, hs.conserved, hs.skipped⟩
  rw [hs.conserved, Multiset.filter_add, Multiset.filter_add, Multiset.filter_eq_self.mpr hs.notified,
    Multiset.filter_eq_nil.mpr hs.skipped, add_zero]

/-- Something created in a watched directory, without its name. -/
def nameless (wd : BitVec 32) : InotifyEvent := ⟨wd, 0x100, 0, 0, [], rfl⟩

/-- Two readers' chunks overtake one another on the way to two parsers of the only dispatcher: one parser comes
to its second event, which has no name, and the other has still to begin. -/
def twoChunks (k l : Fin 10) : List (Label Unit) :=
  let first := multiPartSend [InotifyEvent.allBytes [created 1, nameless 1]]
  let second := multiPartSend [InotifyEvent.allBytes [created 2]]
  [.read k [created 1, nameless 1], .read l [created 2], .submit k, .submit l, .flusherReceive second, .flush,
    .flusherReceive first, .flush, .mainReceive () first, .mainSend (), .parserReceive () k first,
    .parse () k fun _ => 0, .mainReceive () second, .mainSend (), .parse () k fun _ => 0,
    .parserReceive () l second]

theorem nothing_lost_twoChunks : ∃ s, (flow Unit).exec (flow Unit).initial (twoChunks 0 1) = some s ∧
    s.read.card = 3 ∧ s.notified.card = 1 ∧ s.skipped.card = 1 ∧
    s.read.filter Named = s.notified + (inFlight s).filter Named ∧
    s.read = s.notified + s.skipped + inFlight s ∧ ∀ e ∈ s.skipped, ¬ Named e := by
  have hrun : ∃ s, (flow Unit).exec (flow Unit).initial (twoChunks 0 1) = some s ∧
      s.read.card = 3 ∧ s.notified.card = 1 ∧ s.skipped.card = 1 := ⟨_, rfl, rfl, rfl, rfl⟩
  obtain ⟨s, hs, hread, hnotified, hskipped⟩ := hrun
  exact ⟨s, hs, hread, hnotified, hskipped, nothing_lost hs⟩

end Rnotify.Flow
