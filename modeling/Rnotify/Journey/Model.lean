import Rnotify.Client.Core
import Rnotify.Cluster.Model
import Rnotify.Flow.Model

/-! An event's journey, from the read to the handlers.

Proxy, dispatchers, registrar, publishers and clients together. The threads of proxy
and dispatchers are those of the flow, and the registrar, the updaters and the
clients' subscriptions those of the cluster. Where a parser comes to an event with a
name, its turn includes `notify_random_publisher` on what its dispatcher knows by
then. The message goes to the publisher at the other end of the socket, or is dropped
on the way; `zmq_proxy` passes it on to the SUB sockets that hear it, if it reaches
them; and a client's listener calls its handler. Any process may move next. -/
namespace Rnotify.Journey
open Library Registrar Dispatcher Client

/-- What `notify` sent for an event, on a socket that is connected to an endpoint. -/
structure Message where
  event : InotifyEvent
  endpoint : CString
  wire : Wire
deriving DecidableEq

structure State (δ κ : Type) where
  flow : Flow.State δ
  cluster : Cluster.State δ κ
  clients : κ → Rnot
  /-- Messages sent by dispatchers and not yet passed on by a publisher. -/
  transit : List Message
  /-- Messages at the SUB sockets of a client. -/
  arrived : κ → List Message
  /-- The events that a client's handler was called on so far. -/
  calls : κ → Multiset InotifyEvent
  /-- The events that publishers have passed on so far. -/
  published : Multiset InotifyEvent
  /-- The events that no publisher got. -/
  dropped : Multiset InotifyEvent

inductive Label (δ κ : Type) where
  /-- A step of the flow, other than a turn of a parser. -/
  | flow (l : Flow.Label δ)
  /-- A turn of a parser's loop, given what `rand` returns. -/
  | parse (d : δ) (k : Fin 10) (heap : Nat → Byte) (rand : Nat)
  /-- A step of the cluster; a reply to a client goes through its `rsubscribe`. -/
  | cluster (l : Cluster.Label δ κ)
  /-- One of the messages in transit is lost. -/
  | drop (n : Nat)
  /-- A publisher passes on a message that was sent to it, which reaches some of the clients. -/
  | publish (n : Nat) (p : Publisher) (reaches : κ → Bool)
  /-- A client's listener receives a message, given the memory after it. -/
  | listen (c : κ) (n : Nat) (heap : Nat → Byte)

/-- The event that a turn of a parser passes to `notify_random_publisher`. -/
def toNotify (w : Flow.Walk) (heap : Nat → Byte) : Option InotifyEvent :=
  if (w.i : Int) < w.chunk.size then
    let pevent := InotifyEvent.view (image (w.chunk.buff ++ [0]) heap) w.i
    if pevent.len ≠ 0 then some pevent else none
  else none

/-- The SUB socket that a client keeps for an endpoint has a subscription that lets a message through. -/
def Hears (rn : Rnot) (endpoint : CString) (wire : Wire) : Prop :=
  ∃ filter ∈ filtersAt rn endpoint, ∃ topic ∈ wire.head?, filter.bytes <+: topic.frame

instance (rn : Rnot) (endpoint : CString) (wire : Wire) : Decidable (Hears rn endpoint wire) :=
  inferInstanceAs (Decidable (∃ filter ∈ _, ∃ topic ∈ wire.head?, _))

variable {δ κ : Type}

/-- The process of a step of the flow has started. -/
def Runs (s : State δ κ) : Flow.Label δ → Prop
  | .mainReceive d _ => (s.cluster.dispatchers d).isSome
  | .mainSend d => (s.cluster.dispatchers d).isSome
  | .parserReceive d _ _ => (s.cluster.dispatchers d).isSome
  | .parse _ _ _ => False
  | _ => True

instance (s : State δ κ) : ∀ l, Decidable (Runs s l)
  | .mainReceive d _ | .mainSend d | .parserReceive d _ _ =>
    inferInstanceAs (Decidable ((s.cluster.dispatchers d).isSome = true))
  | .parse _ _ _ => isFalse id
  | .read _ _ | .submit _ | .flusherReceive _ | .flush => isTrue trivial

/-- The messages at a client's sockets, once a message is published. -/
def hear (s : State δ κ) (endpoint : CString) (reaches : κ → Bool) (m : Message) (c : κ) : List Message :=
  if reaches c = true ∧ Hears (s.clients c) endpoint m.wire then s.arrived c ++ [m] else s.arrived c

variable [DecidableEq δ] [DecidableEq κ]

/-- The client that was answered goes through the registrar's reply. -/
def follow (s : State δ κ) (t : Cluster.State δ κ) : Cluster.Label δ κ → Option (State δ κ)
  | .subscribe c _ _ => (t.replies.getLast?.bind fun reply => rsubscribe (s.clients c) reply.2).map fun rn =>
    { s with cluster := t, clients := Function.update s.clients c rn }
  | _ => some { s with cluster := t }

def step (L : Lookup) (s : State δ κ) : Label δ κ → Option (State δ κ)
  | .flow l => if Runs s l then (Flow.step s.flow l).map fun flow => { s with flow := flow } else none
  | .parse d k heap rand => (s.flow.parsers (d, k)).bind fun w =>
    let flow := Flow.parseTurn s.flow (d, k) w heap
    match toNotify w heap with
    | none => some { s with flow := flow }
    | some pevent => (s.cluster.dispatchers d).bind fun st =>
      (notifyRandomPublisher L st.info pevent rand).map fun sent =>
        { s with flow := flow, transit := s.transit ++ [⟨pevent, sent.1.endpoint, sent.2⟩] }
  | .cluster l => (Cluster.step L s.cluster l).bind fun t => follow s t l
  | .drop n => s.transit[n]?.map fun m =>
    { s with transit := s.transit.eraseIdx n, dropped := m.event ::ₘ s.dropped }
  | .publish n p reaches => s.transit[n]?.bind fun m =>
    if p.acceptAddr = m.endpoint then
      some { s with
        transit := s.transit.eraseIdx n
        published := m.event ::ₘ s.published
        arrived := hear s p.publishAddr reaches m }
    else none
  | .listen c n heap => (s.arrived c)[n]?.map fun m =>
    { s with
      arrived := Function.update s.arrived c ((s.arrived c).eraseIdx n)
      calls := Function.update s.calls c (s.calls c + handled heap m.wire) }

/-- The threads have been started, the clients made by `rnotify_init`, and nothing is on its way. -/
def journey (L : Lookup) (δ κ : Type) [DecidableEq δ] [DecidableEq κ] : System (State δ κ) (Label δ κ) where
  initial :=
    { flow := (Flow.flow δ).initial, cluster := (Cluster.cluster L).initial, clients := fun _ => rnotifyInit
      transit := [], arrived := fun _ => [], calls := fun _ => 0, published := 0, dropped := 0 }
  step := step L

/-! ### What a step does -/

variable {L : Lookup} {s t : State δ κ}

theorem step_flow {l : Flow.Label δ} (h : step L s (.flow l) = some t) :
    Runs s l ∧ ∃ flow, Flow.step s.flow l = some flow ∧ t = { s with flow := flow } := by
  simp only [step] at h
  split at h
  · next hruns =>
    obtain ⟨flow, hflow, rfl⟩ := Option.map_eq_some_iff.mp h
    exact ⟨hruns, flow, hflow, rfl⟩
  · cases h

/-- A turn of a parser that sends nothing, and one that sends a message for its event. -/
theorem step_parse {d : δ} {k : Fin 10} {heap : Nat → Byte} {rand : Nat}
    (h : step L s (.parse d k heap rand) = some t) :
    ∃ w, s.flow.parsers (d, k) = some w ∧
      (toNotify w heap = none ∧ t = { s with flow := Flow.parseTurn s.flow (d, k) w heap } ∨
        ∃ e st sock wire, toNotify w heap = some e ∧ s.cluster.dispatchers d = some st ∧
          notifyRandomPublisher L st.info e rand = some (sock, wire) ∧ t = { s with
            flow := Flow.parseTurn s.flow (d, k) w heap
            transit := s.transit ++ [⟨e, sock.endpoint, wire⟩] }) := by
  obtain ⟨w, hw, h⟩ := Option.bind_eq_some_iff.mp h
  refine ⟨w, hw, ?_⟩
  cases hseen : toNotify w heap with
  | none =>
    simp only [hseen, Option.some.injEq] at h
    exact .inl ⟨rfl, h.symm⟩
  | some e =>
    simp only [hseen] at h
    obtain ⟨st, hst, h⟩ := Option.bind_eq_some_iff.mp h
    obtain ⟨sent, hsent, rfl⟩ := Option.map_eq_some_iff.mp h
    exact .inr ⟨e, st, sent.1, sent.2, rfl, hst, hsent, rfl⟩

theorem step_cluster {l : Cluster.Label δ κ} (h : step L s (.cluster l) = some t) :
    ∃ next, Cluster.step L s.cluster l = some next ∧
      ((∀ c path wd, l ≠ Cluster.Label.subscribe c path wd) ∧ t = { s with cluster := next } ∨
        ∃ c path wd reply rn, l = .subscribe c path wd ∧ next.replies.getLast? = some reply ∧
          rsubscribe (s.clients c) reply.2 = some rn ∧
          t = { s with cluster := next, clients := Function.update s.clients c rn }) := by
  obtain ⟨next, hnext, ht⟩ := Option.bind_eq_some_iff.mp h
  refine ⟨next, hnext, ?_⟩
  cases l with
  | start | update | register | proceed =>
    refine .inl ⟨fun c path wd hl => ?_, (Option.some.inj ht).symm⟩
    cases hl
  | subscribe c path wd =>
    obtain ⟨rn, hrn, rfl⟩ := Option.map_eq_some_iff.mp ht
    obtain ⟨reply, hreply, hsub⟩ := Option.bind_eq_some_iff.mp hrn
    exact .inr ⟨c, path, wd, reply, rn, rfl, hreply, hsub, rfl⟩

theorem step_drop {n : Nat} (h : step L s (.drop n) = some t) :
    ∃ m, s.transit[n]? = some m ∧
      t = { s with transit := s.transit.eraseIdx n, dropped := m.event ::ₘ s.dropped } := by
  obtain ⟨m, hm, rfl⟩ := Option.map_eq_some_iff.mp h
  exact ⟨m, hm, rfl⟩

theorem step_publish {n : Nat} {p : Publisher} {reaches : κ → Bool}
    (h : step L s (.publish n p reaches) = some t) :
    ∃ m, s.transit[n]? = some m ∧ p.acceptAddr = m.endpoint ∧ t = { s with
      transit := s.transit.eraseIdx n
      published := m.event ::ₘ s.published
      arrived := hear s p.publishAddr reaches m } := by
  obtain ⟨m, hm, h⟩ := Option.bind_eq_some_iff.mp h
  split at h
  · next haddr => exact ⟨m, hm, haddr, (Option.some.inj h).symm⟩
  · cases h

theorem step_listen {c : κ} {n : Nat} {heap : Nat → Byte} (h : step L s (.listen c n heap) = some t) :
    ∃ m, (s.arrived c)[n]? = some m ∧ t = { s with
      arrived := Function.update s.arrived c ((s.arrived c).eraseIdx n)
      calls := Function.update s.calls c (s.calls c + handled heap m.wire) } := by
  obtain ⟨m, hm, rfl⟩ := Option.map_eq_some_iff.mp h
  exact ⟨m, hm, rfl⟩

end Rnotify.Journey
