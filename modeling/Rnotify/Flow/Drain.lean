import Rnotify.Flow.Conservation
import Rnotify.Library.Progress

/-! What was read arrives, if the threads go on.

Without new reads the threads come to an end: a chunk is worth a step for each hop
that is left of its way and one for each event in it, and every step uses up one of
these (`rank_step`). While a chunk is anywhere, some thread can move. So the threads
stop, whichever moves they choose, and then every event that was read was passed on,
if it has a name, or skipped (`drained`). -/
namespace Rnotify.Flow
open Library InotifyEvent

/-! ### The rank -/

variable {δ : Type}

/-- All but the reads. -/
def Label.own : Label δ → Prop
  | .read _ _ => False
  | _ => True

/-- A chunk that a thread holds, with `hops` steps to go until a parser has walked over it. -/
def heldRank (hops : ℕ) (held : Option Received) : ℕ := held.elim 0 fun chunk => (eventsFrom chunk 0).card + hops

def queueRank (hops : ℕ) (queue : Multiset Wire) : ℕ := (queue.map fun wire => (inWire wire).card + hops).sum

def readerRank (r : Reader) : ℕ := r.len.elim 0 fun _ => (inReader r).card + 7

def walkRank (held : Option Walk) : ℕ := held.elim 0 fun w => (eventsFrom w.chunk w.i).card + 1

def rank [Fintype δ] (s : State δ) : ℕ :=
  ∑ k, readerRank (s.readers k) + queueRank 6 s.work + heldRank 5 s.flusher + queueRank 4 s.flushed +
    ∑ d, heldRank 3 (s.mains d) + ∑ d, queueRank 2 (s.workers d) + ∑ p, walkRank (s.parsers p)

theorem queueRank_cons (hops : ℕ) (wire : Wire) (queue : Multiset Wire) :
    queueRank hops (wire ::ₘ queue) = queueRank hops queue + ((inWire wire).card + hops) := by
  rw [queueRank, Multiset.map_cons, Multiset.sum_cons, Nat.add_comm]
  rfl

/-- A receive takes the chunk off the queue. -/
theorem take_rank {α : Type} {held : Option α} {queue : Multiset Wire} {wire : Wire}
    {taken : Received × Multiset Wire} (h : take held queue wire = some taken) (hops : ℕ) :
    held = none ∧ queueRank hops taken.2 + ((eventsFrom taken.1 0).card + hops) = queueRank hops queue := by
  unfold take at h
  split at h
  · cases h
  · split at h
    · next hmem =>
      obtain ⟨chunk, hreceive, rfl⟩ := Option.map_eq_some_iff.mp h
      have hwire : inWire wire = eventsFrom chunk 0 := by
        rw [inWire, hreceive]
        rfl
      refine ⟨rfl, ?_⟩
      rw [← hwire]
      exact sum_erase hmem fun wire => (inWire wire).card + hops
    · cases h

/-- A send puts it on the next one. -/
theorem forward_rank {held : Option Received} {queue next : Multiset Wire} (hh : Held held)
    (h : forward held queue = some next) (hops : ℕ) :
    ∃ chunk, held = some chunk ∧
      queueRank hops next = queueRank hops queue + ((eventsFrom chunk 0).card + hops) := by
  unfold forward at h
  split at h
  · cases h
  · next chunk =>
    obtain ⟨events, hwhole⟩ := hh chunk rfl
    obtain ⟨wire, hsend, hsent⟩ := sendString_whole hwhole
    rw [hsend, Option.map_some, Option.some.injEq] at h
    refine ⟨chunk, rfl, ?_⟩
    rw [← h, queueRank_cons, inWire_sent hsent, ← inChunk_whole hwhole]
    rfl

/-! ### Where it ends -/

/-- A thread that holds nothing can receive what is queued. -/
theorem empty_of_stuck {α : Type} {queue : Multiset Wire} (hq : Queued queue)
    (htake : ∀ wire, take (none : Option α) queue wire = none) : queue = 0 := by
  apply Multiset.eq_zero_of_forall_notMem
  intro wire hmem
  obtain ⟨events, hsent⟩ := hq wire hmem
  obtain ⟨chunk, hreceive, _⟩ := receive_sent hsent
  have hnone := htake wire
  simp [take, hmem, hreceive] at hnone

/-- A relay that can neither receive nor send has nothing, and nothing waits for it. -/
theorem relay_of_stuck {held : Option Received} {queue next : Multiset Wire} (hh : Held held) (hq : Queued queue)
    (htake : ∀ wire, take held queue wire = none) (hforward : forward held next = none) :
    held = none ∧ queue = 0 := by
  cases held with
  | none => exact ⟨rfl, empty_of_stuck hq htake⟩
  | some chunk =>
    obtain ⟨events, hwhole⟩ := hh chunk rfl
    obtain ⟨wire, hsend, _⟩ := sendString_whole hwhole
    simp [forward, hsend] at hforward

variable [DecidableEq δ] {s t : State δ}

theorem settled_reader (hs : Sound s) (hsettled : (flow δ).Settled Label.own s) (k : Fin 10) :
    (s.readers k).len = none := by
  cases hlen : (s.readers k).len with
  | none => rfl
  | some len =>
    have hsubmit : step s (.submit k) = none := hsettled (.submit k) trivial
    obtain ⟨events, hwhole⟩ := hs.readers k len hlen
    have hsize : (len : Int) = (allBytes events).length := hwhole.size
    have hbuff : (s.readers k).buff.data.take len = allBytes events := hwhole.buff
    have hle : len ≤ (s.readers k).buff.data.length := by
      have htake := congrArg List.length hbuff
      rw [List.length_take] at htake
      omega
    simp [step, hlen, sendString, zframeNew, hle] at hsubmit

theorem settled_flusher (hs : Sound s) (hsettled : (flow δ).Settled Label.own s) :
    s.flusher = none ∧ s.work = 0 := by
  have htake : ∀ wire, take s.flusher s.work wire = none := fun wire =>
    Option.map_eq_none_iff.mp (hsettled (.flusherReceive wire) trivial)
  have hforward : forward s.flusher s.flushed = none := Option.map_eq_none_iff.mp (hsettled .flush trivial)
  exact relay_of_stuck hs.flusher hs.work htake hforward

theorem settled_main (hs : Sound s) (hsettled : (flow δ).Settled Label.own s) (d : δ) :
    s.mains d = none ∧ s.flushed = 0 := by
  have htake : ∀ wire, take (s.mains d) s.flushed wire = none := fun wire =>
    Option.map_eq_none_iff.mp (hsettled (.mainReceive d wire) trivial)
  have hforward : forward (s.mains d) (s.workers d) = none :=
    Option.map_eq_none_iff.mp (hsettled (.mainSend d) trivial)
  exact relay_of_stuck (hs.mains d) hs.flushed htake hforward

theorem settled_parserThread (hsettled : (flow δ).Settled Label.own s) (p : δ × Fin 10) : s.parsers p = none :=
  Option.map_eq_none_iff.mp (hsettled (.parse p.1 p.2 fun _ => 0) trivial)

theorem settled_workers (hs : Sound s) (hsettled : (flow δ).Settled Label.own s) (d : δ) : s.workers d = 0 := by
  have htake : ∀ wire, take (s.parsers (d, 0)) (s.workers d) wire = none := fun wire =>
    Option.map_eq_none_iff.mp (hsettled (.parserReceive d 0 wire) trivial)
  rw [settled_parserThread hsettled] at htake
  exact empty_of_stuck (hs.workers d) htake

variable [Fintype δ]

/-- With a dispatcher to take the chunks, nothing is left on the way. -/
theorem settled_inFlight [Nonempty δ] (hs : Sound s) (hsettled : (flow δ).Settled Label.own s) :
    inFlight s = 0 := by
  obtain ⟨hflusher, hwork⟩ := settled_flusher hs hsettled
  obtain ⟨d⟩ := ‹Nonempty δ›
  have hflushed := (settled_main hs hsettled d).2
  simp [inFlight, inReader, settled_reader hs hsettled, hwork, hflusher, hflushed,
    fun d => (settled_main hs hsettled d).1, settled_workers hs hsettled, settled_parserThread hsettled, inQueue,
    inChunk, inWalk]

/-! ### A step -/

theorem rank_submit {k : Fin 10} (hs : Sound s) (hstep : step s (.submit k) = some t) :
    rank t < rank s := by
  simp only [step] at hstep
  split at hstep
  · cases hstep
  · next len hlen =>
    obtain ⟨events, hwhole⟩ := hs.readers k len hlen
    obtain ⟨wire, hsend, rfl⟩ := Option.map_eq_some_iff.mp hstep
    have hsent : Sent wire events := sent_of_sendString hwhole hsend
    have hold : readerRank (s.readers k) = events.length + 7 := by
      have hin : inReader (s.readers k) = events := by
        rw [inReader, hlen]
        exact inChunk_whole hwhole
      rw [readerRank, hlen, Option.elim_some, hin, Multiset.coe_card]
    have hmoved : readerRank ⟨(s.readers k).buff, none⟩ + (events.length + 7) = readerRank (s.readers k) := by
      rw [hold]
      exact Nat.zero_add _
    have hreaders := total_remove hmoved
    have hwork := queueRank_cons 6 wire s.work
    rw [inWire_sent hsent, Multiset.coe_card] at hwork
    simp only [rank]
    omega

theorem rank_parse {d : δ} {k : Fin 10} {heap : Nat → Byte} (hs : Sound s)
    (hstep : step s (.parse d k heap) = some t) : rank t < rank s := by
  obtain ⟨w, hw, rfl⟩ := Option.map_eq_some_iff.mp hstep
  obtain ⟨walked, left, hmid⟩ := hs.parsers (d, k) w hw
  have hold : walkRank (s.parsers (d, k)) = left.length + 1 := by
    rw [hw]
    show (inWalk (some w)).card + 1 = _
    rw [inWalk_midway hmid, Multiset.coe_card]
  unfold parseTurn
  split
  · next hi =>
    obtain ⟨e, rest, rfl, hview, hnext⟩ := turn hmid hi heap
    have hmoved : walkRank (some { w with i := w.i + e.size }) + 1 = walkRank (s.parsers (d, k)) := by
      rw [hold]
      show (inWalk (some { w with i := w.i + e.size })).card + 1 + 1 = _
      rw [inWalk_midway hnext, Multiset.coe_card, List.length_cons]
    have hparsers := total_remove hmoved
    dsimp only
    rw [hview]
    split
    all_goals
      simp only [rank]
      omega
  · next hi =>
    have hmoved : walkRank none + 1 = walkRank (s.parsers (d, k)) := by
      rw [hold, left_of_end hmid hi]
      rfl
    have hparsers := total_remove hmoved
    simp only [rank]
    omega

theorem rank_step (hs : Sound s) {a : Label δ} (hown : a.own) (hstep : step s a = some t) :
    rank t < rank s := by
  cases a with
  | read => exact hown.elim
  | submit k => exact rank_submit hs hstep
  | flusherReceive wire =>
    obtain ⟨taken, htake, rfl⟩ := Option.map_eq_some_iff.mp hstep
    obtain ⟨hidle, hwork⟩ := take_rank htake 6
    have hflusher : heldRank 5 (some taken.1) = (eventsFrom taken.1 0).card + 5 := rfl
    simp only [rank]
    omega
  | flush =>
    obtain ⟨queue, hforward, rfl⟩ := Option.map_eq_some_iff.mp hstep
    obtain ⟨chunk, hheld, hflushed⟩ := forward_rank hs.flusher hforward 4
    have hflusher : heldRank 5 s.flusher = (eventsFrom chunk 0).card + 5 := by
      rw [hheld]
      rfl
    have hnone : heldRank 5 none = 0 := rfl
    simp only [rank]
    omega
  | mainReceive d wire =>
    obtain ⟨taken, htake, rfl⟩ := Option.map_eq_some_iff.mp hstep
    obtain ⟨hidle, hflushed⟩ := take_rank htake 4
    have hfill : heldRank 3 (some taken.1) = heldRank 3 (s.mains d) + ((eventsFrom taken.1 0).card + 3) := by
      rw [hidle]
      exact (Nat.zero_add _).symm
    have hmains := total_add hfill
    simp only [rank]
    omega
  | mainSend d =>
    obtain ⟨queue, hforward, rfl⟩ := Option.map_eq_some_iff.mp hstep
    obtain ⟨chunk, hheld, hqueue⟩ := forward_rank (hs.mains d) hforward 2
    have hempty : heldRank 3 none + ((eventsFrom chunk 0).card + 3) = heldRank 3 (s.mains d) := by
      rw [hheld]
      exact Nat.zero_add _
    have hmains := total_remove hempty
    have hworkers := total_add hqueue
    simp only [rank]
    omega
  | parserReceive d k wire =>
    obtain ⟨taken, htake, rfl⟩ := Option.map_eq_some_iff.mp hstep
    obtain ⟨hidle, hqueue⟩ := take_rank htake 2
    have hfill : walkRank (some ⟨taken.1, 0⟩) =
        walkRank (s.parsers (d, k)) + ((eventsFrom taken.1 0).card + 1) := by
      rw [hidle]
      exact (Nat.zero_add _).symm
    have hparsers := total_add hfill
    have hworkers := total_remove hqueue
    simp only [rank]
    omega
  | parse d k heap => exact rank_parse hs hstep

/-! ### Runs -/

omit [Fintype δ] in
/-- Own steps read nothing. -/
theorem read_step {a : Label δ} (hown : a.own) (hstep : step s a = some t) : t.read = s.read := by
  cases a with
  | read => exact hown.elim
  | submit k =>
    simp only [step] at hstep
    split at hstep
    · cases hstep
    · obtain ⟨wire, _, rfl⟩ := Option.map_eq_some_iff.mp hstep
      rfl
  | flusherReceive | flush | mainReceive | mainSend | parserReceive =>
    obtain ⟨_, _, rfl⟩ := Option.map_eq_some_iff.mp hstep
    rfl
  | parse =>
    obtain ⟨w, _, rfl⟩ := Option.map_eq_some_iff.mp hstep
    unfold parseTurn
    split
    · dsimp only
      split <;> rfl
    · rfl

/-- A state that a run leads to, in which some events have been read. -/
def Reached (read : Multiset InotifyEvent) (s : State δ) : Prop :=
  (∃ h, (flow δ).exec (flow δ).initial h = some s) ∧ s.read = read

theorem ranked (read : Multiset InotifyEvent) : (flow δ).Ranked Label.own (Reached read) rank where
  keeps := by
    intro s a t ⟨⟨h, hr⟩, hread⟩ ha hstep
    exact ⟨⟨h ++ [a], (flow δ).exec_concat_some hr hstep⟩, (read_step ha hstep).trans hread⟩
  lowers := by
    intro s a t ⟨⟨h, hr⟩, _⟩ ha hstep
    exact rank_step (intact_run hr).toSound ha hstep

/-- **What was read arrives.** With a dispatcher, and without new reads, the threads come to an end whichever
moves they choose, and then the events passed on are those read that have a name, each as often as it was read. -/
theorem drained [Nonempty δ] {h : List (Label δ)} (hr : (flow δ).exec (flow δ).initial h = some s) :
    (∃ labels t, (∀ a ∈ labels, a.own) ∧ (flow δ).exec s labels = some t ∧ (flow δ).Settled Label.own t) ∧
      ∀ labels t, (∀ a ∈ labels, a.own) → (flow δ).exec s labels = some t →
        labels.length ≤ rank s ∧ ((flow δ).Settled Label.own t →
          t.notified = s.read.filter Named ∧ t.skipped = s.read.filter (¬ Named ·)) := by
  have hs : Reached s.read s := ⟨⟨h, hr⟩, rfl⟩
  refine ⟨?_, ?_⟩
  · obtain ⟨labels, t, hown, ht, _, hsettled⟩ := (ranked s.read).exists_settled hs
    exact ⟨labels, t, hown, ht, hsettled⟩
  · intro labels t hown ht
    refine ⟨(ranked s.read).length_le labels hown hs ht, fun hsettled => ?_⟩
    obtain ⟨⟨run, hrun⟩, hread⟩ := ((ranked s.read).run labels hown hs ht).1
    have hintact := intact_run hrun
    have hconserved := hintact.conserved
    rw [settled_inFlight hintact.toSound hsettled, add_zero, hread] at hconserved
    have hskipped : ∀ e ∈ t.skipped, ¬ Named e := hintact.skipped
    refine ⟨?_, ?_⟩
    · rw [hconserved, Multiset.filter_add, Multiset.filter_eq_self.mpr hintact.notified,
        Multiset.filter_eq_nil.mpr hskipped, add_zero]
    · rw [hconserved, Multiset.filter_add, Multiset.filter_eq_self.mpr hskipped,
        Multiset.filter_eq_nil.mpr fun e he => not_not.mpr (hintact.notified e he), zero_add]

/-- Two events are read, the second without a name, and their chunk goes to the flusher. -/
def twoEvents (k : Fin 10) : List (Label Unit) :=
  [.read k [created 1, nameless 2], .submit k]

theorem drained_twoEvents : ∃ s, (flow Unit).exec (flow Unit).initial (twoEvents 0) = some s ∧ s.read.card = 2 ∧
    ∃ labels t, (∀ a ∈ labels, a.own) ∧ (flow Unit).exec s labels = some t ∧
      t.notified = s.read.filter Named := by
  have hrun : ∃ s, (flow Unit).exec (flow Unit).initial (twoEvents 0) = some s ∧ s.read.card = 2 := ⟨_, rfl, rfl⟩
  obtain ⟨s, hr, hcard⟩ := hrun
  obtain ⟨⟨labels, t, hown, ht, hsettled⟩, hend⟩ := drained hr
  exact ⟨s, hr, hcard, labels, t, hown, ht, ((hend labels t hown ht).2 hsettled).1⟩

end Rnotify.Flow
