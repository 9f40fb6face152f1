import Rnotify.Client.Listen
import Rnotify.Client.Table
import Rnotify.Dispatcher.Core

/-! What reaches a client's handler.

Two questions about a client after any sequence of subscriptions. Whose events
does it get: a socket filters by the ids of the replies that named its address
(`mem_filtersAt`), but a filter matches every watch id whose text it begins, so
the events of another watch get through unless something else stops them
(`isolated_iff`). How often does it get one: the dispatcher sends an event on one
socket, one publisher takes it, one of the client's sockets hears it and the walk
over it ends after one event (`atMostOnce`). -/
namespace Rnotify.Client
open Library Dispatcher

/-! ### Replies and filters -/

/-- A registrar's reply: the watch id and the publish addresses. -/
structure Reply where
  id : Int
  addresses : List CString

def Reply.wire (r : Reply) : Wire := send (registerOk :: decimal r.id :: r.addresses)

/-- The reply as `rsubscribe` reads it. -/
def Reply.response (r : Reply) : Response where
  frames := registerOk.bytes :: (decimal r.id).bytes :: r.addresses.map CString.bytes
  size := Nat.le_add_left ..

theorem Reply.response_id (r : Reply) : r.response.id = decimal r.id := cstr_bytes _

theorem Reply.response_addresses (r : Reply) : r.response.addresses = r.addresses := by
  simp [Response.addresses, Reply.response, Function.comp_def]

theorem rsubscribe_reply (rn : Rnot) (r : Reply) :
    rsubscribe rn r.wire = some (r.addresses.foldl (subscribe (decimal r.id)) rn) := by
  have h := rsubscribe_response rn r.response
  rwa [subscribeAll, r.response_id, r.response_addresses] at h

theorem subscribed_replies (replies : List Reply) :
    subscribed (replies.map Reply.wire) = some (table (replies.map Reply.response)) := by
  rw [← subscribed_responses, List.map_map]
  rfl

/-- A socket's filters are the ids of the replies that named its address. -/
theorem mem_filtersAt {replies : List Reply} {rn : Rnot} (h : subscribed (replies.map Reply.wire) = some rn)
    (f addr : CString) :
    f ∈ filtersAt rn addr ↔ ∃ r ∈ replies, addr ∈ r.addresses ∧ f = decimal r.id := by
  rw [subscribed_replies, Option.some.injEq] at h
  rw [← h, (subscribes_table _).filters]
  simp only [List.mem_map, exists_exists_and_eq_and, Reply.response_id, Reply.response_addresses]

/-! ### Whose events -/

/-- The handler is called for an event only if the client subscribed to its watch descriptor. -/
def Isolated (replies : List Reply) (rn : Rnot) (endpoint : CString) (e : InotifyEvent) (wire : Wire) : Prop :=
  ∀ heap, startListener rn endpoint wire heap ≠ [] → ∃ r ∈ replies, r.id = e.wd.toInt

variable {replies : List Reply} {rn : Rnot} (endpoint : CString) {e : InotifyEvent} {wire : Wire}

/-- When the handler is called. -/
theorem startListener_ne_nil_iff (hrn : subscribed (replies.map Reply.wire) = some rn)
    (h : notify e = some wire) (heap : Nat → Nat → Byte) :
    startListener rn endpoint wire heap ≠ [] ↔
      (∃ r ∈ replies, endpoint ∈ r.addresses ∧ (decimal r.id).bytes <+: (decimal e.wd.toInt).bytes) ∧
        ¬ (e.wd.toNat % 256 = 0 ∨ e.size = 2 ^ 32) := by
  obtain ⟨k, hlisten⟩ := startListener_eq (tabled_subscribed hrn) endpoint wire heap
  obtain ⟨p, hp, hhandled⟩ := handled_notify h
  obtain ⟨_, _, _, htopic⟩ := notify_received h
  have hfilter : (∃ filter ∈ filtersAt rn endpoint, ∃ topic ∈ wire.head?, filter.bytes <+: topic.frame) ↔
      ∃ r ∈ replies, endpoint ∈ r.addresses ∧ (decimal r.id).bytes <+: (decimal e.wd.toInt).bytes := by
    simp only [mem_filtersAt hrn, htopic, Option.mem_def, Option.some.injEq, exists_eq_left']
    constructor
    · rintro ⟨f, ⟨r, hr, haddr, rfl⟩, hprefix⟩
      exact ⟨r, hr, haddr, hprefix⟩
    · rintro ⟨r, hr, haddr, hprefix⟩
      exact ⟨_, ⟨r, hr, haddr, rfl⟩, hprefix⟩
  rw [hlisten, hhandled, ← strlen_payload hp, ← hfilter]
  split <;> simp_all

/-- **Isolation.** No event gets through to a client that did not ask for it exactly when, of the
replies that named the event's publisher, none has an id whose text begins the event's, or the
client asked for the event's own id too, or the bytes of the event keep it from every handler. -/
theorem isolated_iff (hrn : subscribed (replies.map Reply.wire) = some rn) (h : notify e = some wire) :
    Isolated replies rn endpoint e wire ↔
      (∀ r ∈ replies, endpoint ∈ r.addresses → ¬ (decimal r.id).bytes <+: (decimal e.wd.toInt).bytes) ∨
        (∃ r ∈ replies, r.id = e.wd.toInt) ∨ e.wd.toNat % 256 = 0 ∨ e.size = 2 ^ 32 := by
  have hiff := startListener_ne_nil_iff endpoint hrn h
  constructor
  · intro hall
    by_contra hnot
    push Not at hnot
    obtain ⟨⟨r, hr, haddr, hprefix⟩, hown, hlow, hsize⟩ := hnot
    have hcalled := (hiff fun _ _ => 0).mpr ⟨⟨r, hr, haddr, hprefix⟩, fun hs => hs.elim hlow hsize⟩
    obtain ⟨r', hr', hid⟩ := hall _ hcalled
    exact hown r' hr' hid
  · rintro hcond heap hcalled
    obtain ⟨⟨r, hr, haddr, hprefix⟩, hheard⟩ := (hiff heap).mp hcalled
    rcases hcond with hnone | hown | hsilent
    · exact absurd hprefix (hnone r hr haddr)
    · exact hown
    · exact absurd hsilent hheard

/-- A client that asked for watch 1, and one publisher for it. -/
def oneReply : List Reply := [⟨1, [literal "tcp://10.0.0.1:6001"]⟩]

theorem exists_subscribed (replies : List Reply) : ∃ rn, subscribed (replies.map Reply.wire) = some rn :=
  ⟨_, subscribed_replies replies⟩

theorem isolated_iff_oneReply : ∃ rn wire, subscribed (oneReply.map Reply.wire) = some rn ∧
    notify (created 2) = some wire ∧
    (Isolated oneReply rn (literal "tcp://10.0.0.1:6001") (created 2) wire ↔
      (∀ r ∈ oneReply, literal "tcp://10.0.0.1:6001" ∈ r.addresses →
        ¬ (decimal r.id).bytes <+: (decimal (created 2).wd.toInt).bytes) ∨
      (∃ r ∈ oneReply, r.id = (created 2).wd.toInt) ∨
        (created 2).wd.toNat % 256 = 0 ∨ (created 2).size = 2 ^ 32) := by
  obtain ⟨rn, hrn⟩ := exists_subscribed oneReply
  have hwire := notify_of_lt (show (created 2).size < 2 ^ 31 by decide)
  exact ⟨rn, _, hrn, hwire, isolated_iff _ hrn hwire⟩

/-- Having asked for watch 1, the client gets the events of watch 12. -/
theorem watch_12_not_isolated : ∃ rn wire, subscribed (oneReply.map Reply.wire) = some rn ∧
    notify (created 12) = some wire ∧
    ¬ Isolated oneReply rn (literal "tcp://10.0.0.1:6001") (created 12) wire := by
  obtain ⟨rn, hrn⟩ := exists_subscribed oneReply
  have hwire := notify_of_lt (show (created 12).size < 2 ^ 31 by decide)
  refine ⟨rn, _, hrn, hwire, fun hall => ?_⟩
  have hcalled := (startListener_ne_nil_iff (literal "tcp://10.0.0.1:6001") hrn hwire
    fun _ _ => 0).mpr ⟨by decide, by decide⟩
  exact absurd (hall _ hcalled) (by decide)

/-! ### How often -/

/-- A publisher process: where it takes events, and where it publishes each of them once. -/
structure Process where
  acceptAddr : CString
  publishAddr : CString
deriving DecidableEq

/-- The handler's calls for one message on a dispatcher's socket: the process that owns the socket's
endpoint takes it and publishes it, and the client listens. -/
def handlerCalls (processes : List Process) (rn : Rnot) (sock : DispatchSocket) (message : Wire)
    (heap : Process → Nat → Nat → Byte) : List InotifyEvent :=
  (processes.filter fun p => p.acceptAddr = sock.endpoint).flatMap fun p =>
    startListener rn p.publishAddr message (heap p)

/-- One process at most owns an endpoint. -/
theorem owners_length_le_one {processes : List Process} (h : (processes.map Process.acceptAddr).Nodup)
    (endpoint : CString) : (processes.filter fun p => p.acceptAddr = endpoint).length ≤ 1 := by
  have hcount := List.nodup_iff_count_le_one.mp h endpoint
  rw [List.count, List.countP_map, List.countP_eq_length_filter] at hcount
  exact hcount

theorem startListener_length_le_one (hrn : Tabled rn) (h : notify e = some wire)
    (heap : Nat → Nat → Byte) : (startListener rn endpoint wire heap).length ≤ 1 := by
  obtain ⟨k, hlisten⟩ := startListener_eq hrn endpoint wire heap
  rw [hlisten]
  split
  · exact handled_length_le_one h (heap k)
  · exact Nat.zero_le 1

/-- **At most once.** One call of `notify_random_publisher`, whatever the dispatcher has been told
so far, calls a client's handler at most once, whatever the client has subscribed to. -/
theorem atMostOnce (L : Lookup) (info : PublishersInfo) (rand : Nat) (replies : List Wire)
    (processes : List Process) (heap : Process → Nat → Nat → Byte) {sock : DispatchSocket}
    (hsend : notifyRandomPublisher L info e rand = some (sock, wire))
    (hrn : subscribed replies = some rn) (howned : (processes.map Process.acceptAddr).Nodup) :
    (handlerCalls processes rn sock wire heap).length ≤ 1 := by
  have hwire := notify_of_sent hsend
  have howners := owners_length_le_one howned sock.endpoint
  unfold handlerCalls
  generalize processes.filter (fun p => p.acceptAddr = sock.endpoint) = owners at howners
  match owners with
  | [] => exact Nat.zero_le 1
  | [p] =>
    rw [List.flatMap_singleton]
    exact startListener_length_le_one p.publishAddr (tabled_subscribed hrn) hwire (heap p)
  | _ :: _ :: _ => exact absurd howners (by simp)

def firstProcess : Process := ⟨literal "tcp://10.0.0.1:5001", literal "tcp://10.0.0.1:6001"⟩
def secondProcess : Process := ⟨literal "tcp://10.0.0.2:5001", literal "tcp://10.0.0.2:6002"⟩

/-- A client that asked for watches 1 and 12, both of both processes, and was given addresses twice. -/
def overlappingReplies : List Reply :=
  [⟨1, [firstProcess.publishAddr, secondProcess.publishAddr, firstProcess.publishAddr]⟩,
    ⟨12, [secondProcess.publishAddr, firstProcess.publishAddr]⟩]

/-- A dispatcher told of two processes, and of the first once more. -/
def reannounced : PublishersInfo :=
  ((initial.info.learn firstProcess.acceptAddr ⟨0, firstProcess.acceptAddr⟩).learn secondProcess.acceptAddr
    ⟨1, secondProcess.acceptAddr⟩).learn firstProcess.acceptAddr ⟨2, firstProcess.acceptAddr⟩

theorem atMostOnce_reannounced : ∃ rn wire, subscribed (overlappingReplies.map Reply.wire) = some rn ∧
    notifyRandomPublisher (hashRing strlen) reannounced (created 12) 0 =
      some (⟨2, firstProcess.acceptAddr⟩, wire) ∧
    ∀ heap, handlerCalls [firstProcess, secondProcess] rn ⟨2, firstProcess.acceptAddr⟩ wire heap ≠ [] ∧
      (handlerCalls [firstProcess, secondProcess] rn ⟨2, firstProcess.acceptAddr⟩ wire heap).length ≤ 1 := by
  obtain ⟨rn, hrn⟩ := exists_subscribed overlappingReplies
  have hwire := notify_of_lt (show (created 12).size < 2 ^ 31 by decide)
  have hsock : findPublisher (hashRing strlen) reannounced (created 12) 0 =
      some ⟨2, firstProcess.acceptAddr⟩ := by decide
  have hsend : notifyRandomPublisher (hashRing strlen) reannounced (created 12) 0 =
      some (⟨2, firstProcess.acceptAddr⟩,
        multiPartSend [(decimal (created 12).wd.toInt).bytes, (created 12).bytes]) := by
    rw [notifyRandomPublisher, hsock, hwire]
    rfl
  refine ⟨rn, _, hrn, hsend, fun heap => ⟨?_, ?_⟩⟩
  · have hcalled := (startListener_ne_nil_iff firstProcess.publishAddr hrn hwire (heap firstProcess)).mpr
      ⟨by decide, by decide⟩
    have howner : [firstProcess, secondProcess].filter (fun p => p.acceptAddr = firstProcess.acceptAddr) =
      [firstProcess] := by decide
    rw [handlerCalls, howner, List.flatMap_singleton]
    exact hcalled
  · exact atMostOnce (hashRing strlen) reannounced 0 (overlappingReplies.map Reply.wire)
      [firstProcess, secondProcess] heap hsend hrn (by decide)

end Rnotify.Client
