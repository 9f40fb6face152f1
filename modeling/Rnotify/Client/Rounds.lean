import Rnotify.Client.Delivery
import Rnotify.Library.Polling

/-! The listener's loop, message after message.

`start_listener` lays out its poll items once, from the table as it is then. Each
return from `zmq_poll` starts a round over the items: one message is received from
each socket that had one, and its walk calls the handler before the next socket's
turn. The loop is a poller over these sockets, so the handler sees each socket's
events in the order in which they were published there (`Listens`), a message waits
for no more rounds than there are messages before it at its own socket, however busy
the others are, and nothing that has arrived is left when the loop blocks
(`Timely`). The handler is not called for an event whose descriptor has a zero byte
first, though its message is received like the others: `audible` leaves these out. -/
namespace Rnotify.Client
open Library

/-- The listener's walk over the event begins. -/
def Audible (e : InotifyEvent) : Prop := e.wd.toNat % 256 ≠ 0

instance (e : InotifyEvent) : Decidable (Audible e) := inferInstanceAs (Decidable (_ ≠ _))

/-- The handler is called on the event itself, or not at all. -/
theorem handled_of_lt {e : InotifyEvent} {wire : Wire} (h : notify e = some wire) (hsize : e.size < 2 ^ 31)
    (heap : Nat → Byte) : handled heap wire = [e].filter fun e => Audible e := by
  obtain ⟨p, hp, hhandled⟩ := handled_notify h
  have hbytes := payload_of_lt hsize
  rw [hp, Option.some.injEq] at hbytes
  have hsilent : strlen p = 0 ↔ ¬ Audible e := by
    rw [strlen_payload hp, or_iff_left (by omega), Audible, not_not]
  rw [hhandled, hbytes, shown_bytes, ← hbytes]
  by_cases haudible : Audible e
  · rw [if_neg (fun hzero => hsilent.mp hzero haudible)]
    simp [haudible]
  · rw [if_pos (hsilent.mpr haudible)]
    simp [haudible]

/-- An event and the message that it was published as; an `int` holds the size of the event. -/
structure Published where
  event : InotifyEvent
  wire : Wire
  sent : notify event = some wire
  size : event.size < 2 ^ 31

structure Listener where
  /-- The messages at the sockets, and the items of this round that are left. -/
  polling : Polling Nat Published
  /-- The handler's calls, each with the socket that the message came from. -/
  calls : List (Nat × InotifyEvent)

inductive Turn where
  /-- A message arrives at a socket. -/
  | arrive (sock : Nat) (p : Published)
  /-- `zmq_poll` returns. -/
  | poll
  /-- The next of the sockets with `revents`, given the memory after the message. -/
  | receive (heap : Nat → Byte)

/-- The poller's part of a turn. -/
def Turn.move : Turn → Polling.Move Nat Published
  | .arrive sock p => .arrive sock p
  | .poll => .poll
  | .receive _ => .receive

/-- What a turn calls the handler on: the events of the message received. -/
def Turn.calls (polling : Polling Nat Published) : Turn → List (Nat × InotifyEvent)
  | .receive heap => polling.received.getLast?.toList.flatMap fun r => (handled heap r.2.wire).map (r.1, ·)
  | _ => []

/-- `start_listener`'s loop, for a client as it is when the loop starts. -/
def listening (rn : Rnot) : System Listener Turn where
  initial := ⟨(Polling.polling (pollItems rn) Published).initial, []⟩
  step := fun s turn => (Polling.step (pollItems rn) s.polling turn.move).map fun polling =>
    ⟨polling, s.calls ++ turn.calls polling⟩

/-- The handler's calls for one socket's messages. -/
def callsAt (k : Nat) (s : Listener) : List InotifyEvent := Polling.takenFrom k s.calls

/-- The events of some messages that the handler is called on: those whose descriptor has no zero byte first. -/
def audible (messages : List Published) : List InotifyEvent :=
  (messages.map Published.event).filter fun e => Audible e

theorem audible_append (a b : List Published) : audible (a ++ b) = audible a ++ audible b := by
  rw [audible, List.map_append, List.filter_append]
  rfl

variable {rn : Rnot} {s t : Listener}

/-! ### The poller in the loop -/

theorem step_polling {turn : Turn} (h : (listening rn).step s turn = some t) :
    Polling.step (pollItems rn) s.polling turn.move = some t.polling ∧ t.calls = s.calls ++ turn.calls t.polling := by
  obtain ⟨polling, hpolling, rfl⟩ := Option.map_eq_some_iff.mp h
  exact ⟨hpolling, rfl⟩

theorem exec_polling {turns : List Turn} (hr : (listening rn).exec s turns = some t) :
    (Polling.polling (pollItems rn) Published).exec s.polling (turns.map Turn.move) = some t.polling := by
  induction turns generalizing s with
  | nil =>
    cases hr
    rfl
  | cons turn rest ih =>
    obtain ⟨m, hm, hr⟩ := Option.bind_eq_some_iff.mp hr
    have hstep : (Polling.polling (pollItems rn) Published).step s.polling turn.move = some m.polling :=
      (step_polling hm).1
    rw [List.map_cons, System.exec_cons, hstep]
    exact ih hr

/-- The handler has been called on what was received. -/
def Called (s : Listener) : Prop := ∀ k, callsAt k s = audible (Polling.takenFrom k s.polling.received)

theorem called_step (hs : Called s) {turn : Turn} (hstep : (listening rn).step s turn = some t) : Called t := by
  obtain ⟨hpolling, hcalls⟩ := step_polling hstep
  intro k
  rw [callsAt, hcalls, Polling.takenFrom_append]
  obtain ⟨j, p, hmove, _, hreceived⟩ | ⟨hmove, hreceived⟩ := Polling.received_cases hpolling
  · cases turn with
    | arrive | poll => cases hmove
    | receive heap =>
      have hturn : Turn.calls t.polling (.receive heap) = ([p.event].filter fun e => Audible e).map (j, ·) := by
        simp only [Turn.calls, hreceived, List.getLast?_concat, Option.toList_some, List.flatMap_singleton]
        rw [handled_of_lt p.sent p.size]
      rw [hturn, hreceived, Polling.takenFrom_map, Polling.takenFrom_concat, audible_append]
      refine congrArg₂ _ (hs k) ?_
      split <;> rfl
  · cases turn with
    | receive => exact absurd rfl hmove
    | arrive | poll =>
      rw [hreceived]
      exact (List.append_nil _).trans (hs k)

theorem called_run {turns : List Turn} (hs : Called s) (hr : (listening rn).exec s turns = some t) : Called t :=
  (listening rn).invariant Called (fun _ _ _ hs hstep => called_step hs hstep) turns s t hs hr

/-! ### In order -/

/-- What arrived at a socket, in order. -/
def arrivedAt (k : Nat) (h : List Turn) : List Published := Polling.arrivals k (h.map Turn.move)

/-- What the handler has been called on, in a state that a run of the loop reaches. -/
structure Listens (rn : Rnot) (h : List Turn) (s : Listener) : Prop where
  /-- For each socket the audible events that arrived, in order, up to what is still there. -/
  order : ∀ k, callsAt k s ++ audible (s.polling.queues k) = audible (arrivedAt k h)
  /-- A socket that is not kept in the table has not been read, and the handler not called for it. -/
  unpolled : ∀ k, (∀ addr, rn.publisherSocks.lookup addr ≠ some k) →
    Polling.takenFrom k s.polling.received = [] ∧ callsAt k s = []

/-- **Each socket's audible events in order, each once**, however the messages arrive and whenever `zmq_poll`
returns. -/
theorem listens {replies : List Wire} (hrn : subscribed replies = some rn) {h : List Turn}
    (hr : (listening rn).exec (listening rn).initial h = some s) : Listens rn h s := by
  have hcalled : Called s := called_run (fun _ => rfl) hr
  have hpolled := (tabled_subscribed hrn).polled
  have hpolling := exec_polling hr
  refine ⟨fun k => ?_, fun k hk => ?_⟩
  · rw [hcalled k, arrivedAt, Polling.fifo k hpolling, audible_append]
  · have hitem : k ∉ pollItems rn := fun hmem => ((hpolled.mem k).mp hmem).elim hk
    have hnone := Polling.taken_only hpolled.nodup hitem hpolling
    refine ⟨hnone, ?_⟩
    rw [hcalled k, hnone]
    rfl

/-- The first event of watch 1. -/
def firstPublished : Published := ⟨created 1, _, notify_of_lt (by decide), by decide⟩

/-- It comes to a client that asked for the watch. -/
def firstTurns : List Turn := [.arrive 0 firstPublished, .poll, .receive fun _ => 0]

theorem firstTurns_run : ∃ rn s, subscribed (oneReply.map Reply.wire) = some rn ∧
    (listening rn).exec (listening rn).initial firstTurns = some s ∧ s.polling.received = [(0, firstPublished)] :=
  ⟨_, _, rfl, rfl, rfl⟩

theorem listens_firstTurns : ∃ rn s, s.polling.received = [(0, firstPublished)] ∧ Listens rn firstTurns s := by
  obtain ⟨rn, s, hrn, hs, hreceived⟩ := firstTurns_run
  exact ⟨rn, s, hreceived, listens hrn hs⟩

/-! ### In time -/

def Turn.isPoll (turn : Turn) : Bool := turn.move.isPoll

/-- The turns of the loop itself. -/
def Turn.own (turn : Turn) : Prop := turn.move.own

theorem listening_ranked (hitems : (pollItems rn).Nodup) :
    (listening rn).Ranked Turn.own (fun s => Polling.Round (pollItems rn) s.polling)
      fun s => Polling.rank (pollItems rn) s.polling where
  keeps := fun _ _ _ hs _ hstep => Polling.round_step hitems hs (step_polling hstep).1
  lowers := fun _ _ _ hs hown hstep => (Polling.ranked hitems).lowers _ _ _ hs hown (step_polling hstep).1

/-- The loop blocks with nothing left at its sockets. -/
theorem queues_of_settled (hs : Polling.Round (pollItems rn) s.polling) (hsettled : (listening rn).Settled Turn.own s) :
    ∀ k ∈ pollItems rn, s.polling.queues k = [] := by
  refine ((Polling.settled_iff hs).mp ?_).2
  intro move hown
  have hturn : ∀ turn : Turn, turn.move = move → Polling.step (pollItems rn) s.polling move = none := by
    intro turn hmove
    have hturn : turn.own := by rwa [Turn.own, hmove]
    rw [← hmove]
    exact Option.map_eq_none_iff.mp (hsettled turn hturn)
  cases move with
  | arrive => exact hown.elim
  | poll => exact hturn .poll rfl
  | receive => exact hturn (.receive fun _ => 0) rfl

/-- How long messages wait, from a state of the loop on. -/
structure Timely (rn : Rnot) (h : List Turn) (s : Listener) : Prop where
  /-- The first `n` messages of a socket have been received, and the handler called on the audible of their events,
  when `zmq_poll` has returned `n + 1` times more, whatever arrives meanwhile. -/
  bound : ∀ addr k, rn.publisherSocks.lookup addr = some k → ∀ n ≤ (s.polling.queues k).length, ∀ turns t,
    (listening rn).exec s turns = some t → n + 1 ≤ turns.countP Turn.isPoll →
    Polling.takenFrom k s.polling.received ++ (s.polling.queues k).take n <+:
        Polling.takenFrom k t.polling.received ∧
      callsAt k s ++ audible ((s.polling.queues k).take n) <+: callsAt k t
  /-- Without arrivals the loop blocks, after no more turns than this. -/
  blocks : ∃ turns t, (∀ turn ∈ turns, turn.own) ∧ (listening rn).exec s turns = some t ∧
    (listening rn).Settled Turn.own t
  turns : ∀ turns t, (∀ turn ∈ turns, turn.own) → (listening rn).exec s turns = some t →
    turns.length ≤ Polling.rank (pollItems rn) s.polling
  /-- Once it blocks, all that arrived at the sockets of the table has been received, and the handler called on the
  audible events of it. -/
  complete : ∀ turns t, (∀ turn ∈ turns, turn.own) → (listening rn).exec s turns = some t →
    (listening rn).Settled Turn.own t → ∀ addr k, rn.publisherSocks.lookup addr = some k →
    Polling.takenFrom k t.polling.received = arrivedAt k h ∧ callsAt k t = audible (arrivedAt k h)

theorem arrivals_own (k : Nat) {turns : List Turn} (hown : ∀ turn ∈ turns, turn.own) : arrivedAt k turns = [] := by
  refine List.flatMap_eq_nil_iff.mpr fun move hmove => ?_
  obtain ⟨turn, hturn, rfl⟩ := List.mem_map.mp hmove
  have := hown turn hturn
  cases turn with
  | arrive => exact this.elim
  | poll | receive => rfl

/-- **No message is kept waiting** by what comes from other publishers, and none is left when there is nothing more
to come. -/
theorem timely {replies : List Wire} (hrn : subscribed replies = some rn) {h : List Turn}
    (hr : (listening rn).exec (listening rn).initial h = some s) : Timely rn h s := by
  have hpolled := (tabled_subscribed hrn).polled
  have hcalled : Called s := called_run (fun _ => rfl) hr
  have hround := Polling.round_run hpolled.nodup (exec_polling hr)
  have hranked := listening_ranked hpolled.nodup
  refine ⟨?_, ?_, fun turns t hown hrun => hranked.length_le turns hown hround hrun, ?_⟩
  · intro addr k hk n hn turns t hrun hpolls
    have hitem := (hpolled.mem k).mpr ⟨addr, hk⟩
    have hcount : Polling.due s.polling k n ≤ (turns.map Turn.move).countP Polling.Move.isPoll := by
      rw [List.countP_map]
      refine le_trans ?_ hpolls
      unfold Polling.due
      split <;> omega
    have htaken := Polling.waits hitem hpolled.nodup _ n hround hn hcount (exec_polling hrun)
    refine ⟨htaken, ?_⟩
    rw [hcalled k, called_run hcalled hrun k, ← audible_append]
    exact (htaken.map _).filter _
  · obtain ⟨turns, t, hown, hrun, _, hsettled⟩ := hranked.exists_settled hround
    exact ⟨turns, t, hown, hrun, hsettled⟩
  · intro turns t hown hrun hsettled addr k hk
    have hempty := queues_of_settled (hranked.run turns hown hround hrun).1 hsettled k ((hpolled.mem k).mpr ⟨addr, hk⟩)
    have hall : (listening rn).exec (listening rn).initial (h ++ turns) = some t := by
      rw [System.exec_append, hr]
      exact hrun
    have horder := (Polling.fifo k (exec_polling hall))
    rw [List.map_append, Polling.arrivals_append, hempty, List.append_nil] at horder
    have hnone : Polling.arrivals k (turns.map Turn.move) = [] := arrivals_own k hown
    rw [hnone, List.append_nil] at horder
    refine ⟨horder.symm, ?_⟩
    rw [called_run hcalled hrun k, ← horder]
    rfl

theorem timely_firstTurns : ∃ rn s, s.polling.received = [(0, firstPublished)] ∧ Timely rn firstTurns s := by
  obtain ⟨rn, s, hrn, hs, hreceived⟩ := firstTurns_run
  exact ⟨rn, s, hreceived, timely hrn hs⟩

/-! ### One message -/

/-- A message has arrived at the sockets of the client that are connected to where it was published and let it
through. -/
def arrived (rn : Rnot) (endpoint : CString) (p : Published) : Listener where
  polling :=
    { queues := fun k => if ∃ s ∈ rn.sockets[k]?, Receives s endpoint p.wire then [p] else []
      ready := [], received := [] }
  calls := []

/-- The rest of a round, over sockets with one message each. -/
theorem exec_receive (p : Published) (heap : Nat → Nat → Byte) (ready : List Nat) (hnodup : ready.Nodup)
    (hready : s.polling.ready = ready) (hqueues : ∀ k ∈ ready, s.polling.queues k = [p]) :
    ∃ t, (listening rn).exec s (ready.map fun k => .receive (heap k)) = some t ∧ t.polling.ready = [] ∧
      (∀ k, t.polling.queues k = if k ∈ ready then [] else s.polling.queues k) ∧
      t.calls = s.calls ++ ready.flatMap fun k => (handled (heap k) p.wire).map (k, ·) := by
  induction ready generalizing s with
  | nil => exact ⟨s, rfl, hready, fun _ => by simp, by simp⟩
  | cons k rest ih =>
    obtain ⟨hk, hrest⟩ := List.nodup_cons.mp hnodup
    let next : Listener := ⟨⟨Function.update s.polling.queues k [], rest, s.polling.received ++ [(k, p)]⟩,
      s.calls ++ (handled (heap k) p.wire).map (k, ·)⟩
    have hstep : (listening rn).step s (.receive (heap k)) = some next := by
      simp [listening, Polling.step, Turn.move, Turn.calls, hready, hqueues k List.mem_cons_self, next]
    obtain ⟨t, hrun, hdone, hleft, hcalls⟩ := ih (s := next) hrest rfl fun j hj => by
      have hne : j ≠ k := fun he => hk (he ▸ hj)
      simp only [next, Function.update_of_ne hne]
      exact hqueues j (List.mem_cons_of_mem k hj)
    refine ⟨t, ?_, hdone, fun j => ?_, ?_⟩
    · rw [List.map_cons, System.exec_cons, hstep]
      exact hrun
    · rw [hleft j]
      by_cases hj : j = k <;> simp [next, hj]
    · rw [hcalls, List.flatMap_cons, ← List.append_assoc]

/-- The sockets with a message, and what the handler is called on for one socket. -/
theorem poll_eq (endpoint : CString) (p : Published) (heap : Nat → Nat → Byte) (k : Nat) :
    poll rn endpoint p.wire heap k =
      if (arrived rn endpoint p).polling.queues k = [] then [] else handled (heap k) p.wire := by
  unfold poll
  cases hk : rn.sockets[k]? with
  | none => simp [arrived, hk]
  | some s => by_cases hreceives : Receives s endpoint p.wire <;> simp [arrived, hk, hreceives]

/-- A round of the loop makes the calls of `startListener`, and nothing is left for another. -/
theorem round_startListener (hitems : (pollItems rn).Nodup) (endpoint : CString) (p : Published)
    (heap : Nat → Nat → Byte) :
    ∃ turns t, (listening rn).exec (arrived rn endpoint p) turns = some t ∧ t.polling.ready = [] ∧
      (∀ k ∈ pollItems rn, t.polling.queues k = []) ∧
      t.calls.map Prod.snd = startListener rn endpoint p.wire heap := by
  let s := arrived rn endpoint p
  let ready := (pollItems rn).filter fun k => !(s.polling.queues k).isEmpty
  have hcalls : startListener rn endpoint p.wire heap = ready.flatMap fun k => handled (heap k) p.wire := by
    rw [startListener, flatMap_filter]
    refine List.flatMap_congr fun k _ => ?_
    rw [poll_eq]
    by_cases hk : s.polling.queues k = [] <;> simp [s, hk]
  by_cases hnone : ready = []
  · have hempty : ∀ k ∈ pollItems rn, s.polling.queues k = [] := by simpa [ready] using hnone
    refine ⟨[], s, rfl, rfl, hempty, ?_⟩
    rw [hcalls, hnone]
    rfl
  · have hone : ∀ k ∈ ready, s.polling.queues k = [p] := by
      intro k hk
      have hwaiting := (Polling.mem_filter_queues.mp hk).2
      simp only [s, arrived] at hwaiting ⊢
      split <;> simp_all
    obtain ⟨k, hk⟩ := List.exists_mem_of_ne_nil _ hnone
    obtain ⟨hitem, hwaiting⟩ := Polling.mem_filter_queues.mp hk
    have hpoll : (listening rn).step s .poll = some ⟨⟨s.polling.queues, ready, []⟩, []⟩ := by
      have hstep : Polling.step (pollItems rn) s.polling .poll = some ⟨s.polling.queues, ready, []⟩ :=
        if_pos ⟨rfl, k, hitem, hwaiting⟩
      simp only [listening, Turn.move, hstep]
      rfl
    obtain ⟨t, hrun, hdone, hleft, htcalls⟩ := @exec_receive rn
      ⟨⟨s.polling.queues, ready, []⟩, []⟩ p heap ready (hitems.filter _) rfl hone
    refine ⟨.poll :: ready.map fun k => .receive (heap k), t, ?_, hdone, fun j hj => ?_, ?_⟩
    · rw [System.exec_cons, hpoll]
      exact hrun
    · rw [hleft j]
      split
      · rfl
      · next hnot => simpa [ready, hj] using hnot
    · rw [htcalls, hcalls, List.nil_append, List.map_flatMap]
      refine List.flatMap_congr fun k _ => ?_
      rw [List.map_map]
      exact List.map_id _

end Rnotify.Client
