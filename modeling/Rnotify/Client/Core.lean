import Rnotify.Library.Loops
import Rnotify.Tables

/-! A client (`rnot.h`).

`rsubscribe` goes through the addresses of a reply and keeps one SUB socket for
each address it has met, under the address; the watch id becomes one more filter
of that socket. A second socket made beside each of them is neither kept nor given
a filter. `start_listener` polls the sockets of the table and, for a message on
one of them, walks over the second frame up to its `strlen`.

The table and the sockets are tied by one invariant, `Tabled`: the socket kept
under an address is connected to it. What a socket filters is then a function of
the address alone (`filtersAt`), and `filtersAt_subscribe` is what a turn of the
loop does to it. -/
namespace Rnotify.Client
open Library

/-- A SUB socket: where it is connected, and its subscriptions. -/
structure SubSocket where
  endpoint : CString
  filters : List CString
deriving DecidableEq

structure Rnot where
  /-- The SUB sockets of the context, in order of creation. -/
  sockets : List SubSocket
  /-- Which socket is kept under an address. -/
  publisherSocks : Table Nat

def rnotifyInit : Rnot := ⟨[], ∅⟩

/-- `zsocket_set_subscribe`. -/
def setSubscribe (rn : Rnot) (sock : Nat) (filter : CString) : Rnot :=
  { rn with sockets := rn.sockets.modify sock fun s => { s with filters := s.filters ++ [filter] } }

/-- A new socket, another beside it, and the table's entry for the first. -/
def newSockets (rn : Rnot) (publisher : CString) : Rnot where
  sockets := rn.sockets ++ [⟨publisher, []⟩, ⟨publisher, []⟩]
  publisherSocks := rn.publisherSocks.insert publisher rn.sockets.length

/-- One turn of the loop in `rsubscribe`. -/
def subscribe (id : CString) (rn : Rnot) (publisher : CString) : Rnot :=
  match rn.publisherSocks.lookup publisher with
  | some sock => setSubscribe rn sock id
  | none => setSubscribe (newSockets rn publisher) rn.sockets.length id

/-- `rsubscribe`, on the registrar's reply; the second frame is read whatever the size. -/
def rsubscribe (rn : Rnot) (reply : Wire) : Option Rnot :=
  (multiPartReceive reply).bind fun response =>
    match response[1]? with
    | none => none
    | some id => some ((response.drop 2).foldl (fun rn addr => subscribe (cstr id) rn (cstr addr)) rn)

/-- The sockets that `start_listener` polls: the table's value for each of its keys. -/
def pollItems (rn : Rnot) : List Nat := rn.publisherSocks.keys.filterMap fun addr => rn.publisherSocks.lookup addr

/-- The events that the handler is called on for a message with two frames, the second at the
start of `heap`. -/
def handled (heap : Nat → Byte) (message : Wire) : List InotifyEvent :=
  match multiPartReceive message with
  | some (_ :: payload :: _) =>
    let buffLen := toInt (strlen (payload ++ [0]))
    InotifyEvent.visited (image (payload ++ [0]) heap) buffLen.toNat 0
  | _ => []

/-- A message published at an endpoint reaches the sockets connected there with a subscription
that is a prefix of its first frame. -/
def Receives (s : SubSocket) (endpoint : CString) (message : Wire) : Prop :=
  s.endpoint = endpoint ∧ ∃ filter ∈ s.filters, ∃ topic ∈ message.head?, filter.bytes <+: topic.frame

instance (s : SubSocket) (endpoint : CString) (message : Wire) : Decidable (Receives s endpoint message) :=
  inferInstanceAs (Decidable (_ ∧ ∃ filter ∈ _, ∃ topic ∈ message.head?, _))

/-- The handler's calls at one polled socket. -/
def poll (rn : Rnot) (endpoint : CString) (message : Wire) (heap : Nat → Nat → Byte) (sock : Nat) :
    List InotifyEvent :=
  match rn.sockets[sock]? with
  | none => []
  | some s => if Receives s endpoint message then handled (heap sock) message else []

/-- `start_listener`: the handler's calls for one message published at an endpoint. -/
def startListener (rn : Rnot) (endpoint : CString) (message : Wire) (heap : Nat → Nat → Byte) :
    List InotifyEvent :=
  (pollItems rn).flatMap (poll rn endpoint message heap)

/-! ### The table and the sockets -/

/-- The socket kept under an address is connected to it. -/
def Tabled (rn : Rnot) : Prop :=
  ∀ addr k, rn.publisherSocks.lookup addr = some k → ∃ s, rn.sockets[k]? = some s ∧ s.endpoint = addr

/-- What the socket kept under an address subscribes to. -/
def filtersAt (rn : Rnot) (addr : CString) : List CString :=
  match rn.publisherSocks.lookup addr with
  | none => []
  | some k => (rn.sockets[k]?.map SubSocket.filters).getD []

theorem tabled_init : Tabled rnotifyInit := nofun

variable {rn : Rnot}

theorem filtersAt_of_lookup {addr : CString} {k : Nat} {s : SubSocket}
    (hk : rn.publisherSocks.lookup addr = some k) (hs : rn.sockets[k]? = some s) :
    filtersAt rn addr = s.filters := by
  simp [filtersAt, hk, hs]

theorem filtersAt_of_none {addr : CString} (h : rn.publisherSocks.lookup addr = none) :
    filtersAt rn addr = [] := by
  simp [filtersAt, h]

theorem tabled_setSubscribe (h : Tabled rn) (sock : Nat) (id : CString) :
    Tabled (setSubscribe rn sock id) := by
  intro addr k hk
  obtain ⟨s, hs, hend⟩ := h addr k hk
  by_cases hsock : sock = k
  · exact ⟨{ s with filters := s.filters ++ [id] }, by simp [setSubscribe, hsock, hs], hend⟩
  · exact ⟨s, by simp [setSubscribe, hsock, hs], hend⟩

/-- One more filter at one address, and nothing else changes: no other address has this socket. -/
theorem filtersAt_setSubscribe (h : Tabled rn) {addr : CString} {sock : Nat}
    (hsock : rn.publisherSocks.lookup addr = some sock) (id other : CString) :
    filtersAt (setSubscribe rn sock id) other =
      if other = addr then filtersAt rn addr ++ [id] else filtersAt rn other := by
  obtain ⟨s, hs, hend⟩ := h addr sock hsock
  by_cases ho : other = addr
  · have hnew : (setSubscribe rn sock id).sockets[sock]? = some { s with filters := s.filters ++ [id] } := by
      simp [setSubscribe, hs]
    rw [if_pos ho, ho, filtersAt_of_lookup hsock hs]
    refine filtersAt_of_lookup ?_ hnew
    exact hsock
  · rw [if_neg ho]
    cases hk : rn.publisherSocks.lookup other with
    | none =>
      rw [filtersAt_of_none hk]
      apply filtersAt_of_none
      exact hk
    | some k =>
      obtain ⟨t, ht, htend⟩ := h other k hk
      have hne : sock ≠ k := by
        intro he
        rw [he, ht, Option.some.injEq] at hs
        exact ho (htend.symm.trans ((congrArg SubSocket.endpoint hs).trans hend))
      have hsame : (setSubscribe rn sock id).sockets[k]? = some t := by
        simp [setSubscribe, hne, ht]
      rw [filtersAt_of_lookup hk ht]
      refine filtersAt_of_lookup ?_ hsame
      exact hk

theorem newSockets_lookup (rn : Rnot) (addr : CString) :
    (newSockets rn addr).publisherSocks.lookup addr = some rn.sockets.length :=
  AList.lookup_insert _

theorem newSockets_lookup_ne {addr other : CString} (h : other ≠ addr) :
    (newSockets rn addr).publisherSocks.lookup other = rn.publisherSocks.lookup other :=
  AList.lookup_insert_ne h

theorem newSockets_socket (rn : Rnot) (addr : CString) :
    (newSockets rn addr).sockets[rn.sockets.length]? = some ⟨addr, []⟩ := by
  simp [newSockets]

theorem newSockets_old {addr : CString} {k : Nat} {s : SubSocket} (h : rn.sockets[k]? = some s) :
    (newSockets rn addr).sockets[k]? = some s := by
  rw [newSockets, List.getElem?_append_left (List.getElem?_eq_some_iff.mp h).1, h]

theorem tabled_newSockets (h : Tabled rn) (addr : CString) : Tabled (newSockets rn addr) := by
  intro other k hk
  by_cases ho : other = addr
  · rw [ho, newSockets_lookup, Option.some.injEq] at hk
    rw [← hk, newSockets_socket]
    exact ⟨_, rfl, ho.symm⟩
  · rw [newSockets_lookup_ne ho] at hk
    obtain ⟨s, hs, hend⟩ := h other k hk
    exact ⟨s, newSockets_old hs, hend⟩

/-- The new sockets have no filters. -/
theorem filtersAt_newSockets (h : Tabled rn) {addr : CString} (hnew : rn.publisherSocks.lookup addr = none)
    (other : CString) : filtersAt (newSockets rn addr) other = filtersAt rn other := by
  by_cases ho : other = addr
  · rw [ho, filtersAt_of_lookup (newSockets_lookup rn addr) (newSockets_socket rn addr), filtersAt_of_none hnew]
  · have hlookup : (newSockets rn addr).publisherSocks.lookup other = rn.publisherSocks.lookup other :=
      newSockets_lookup_ne ho
    cases hk : rn.publisherSocks.lookup other with
    | none => rw [filtersAt_of_none hk, filtersAt_of_none (hlookup.trans hk)]
    | some k =>
      obtain ⟨s, hs, _⟩ := h other k hk
      rw [filtersAt_of_lookup hk hs, filtersAt_of_lookup (hlookup.trans hk) (newSockets_old hs)]

theorem tabled_subscribe (h : Tabled rn) (id addr : CString) : Tabled (subscribe id rn addr) := by
  unfold subscribe
  split
  · exact tabled_setSubscribe h _ id
  · exact tabled_setSubscribe (tabled_newSockets h addr) _ id

/-- A turn of `rsubscribe` adds one filter, at its address. -/
theorem filtersAt_subscribe (h : Tabled rn) (id addr other : CString) :
    filtersAt (subscribe id rn addr) other =
      if other = addr then filtersAt rn addr ++ [id] else filtersAt rn other := by
  unfold subscribe
  split
  · next sock hsock => exact filtersAt_setSubscribe h hsock id other
  · next hnew =>
    rw [filtersAt_setSubscribe (tabled_newSockets h addr) (newSockets_lookup rn addr),
      filtersAt_newSockets h hnew, filtersAt_newSockets h hnew]

/-! ### Whole replies -/

theorem tabled_rsubscribe (h : Tabled rn) {reply : Wire} {rn' : Rnot} (hr : rsubscribe rn reply = some rn') :
    Tabled rn' := by
  rw [rsubscribe, Option.bind_eq_some_iff] at hr
  obtain ⟨response, _, hr⟩ := hr
  split at hr
  · cases hr
  · next id _ =>
    rw [← Option.some.inj hr]
    exact List.foldlRecOn _ _ h fun rn h addr _ => tabled_subscribe h (cstr id) (cstr addr)

/-- A client after a sequence of subscriptions. -/
def subscribed (replies : List Wire) : Option Rnot := replies.foldlM rsubscribe rnotifyInit

theorem tabled_foldlM (replies : List Wire) (h : Tabled rn) {rn' : Rnot}
    (hr : replies.foldlM rsubscribe rn = some rn') : Tabled rn' := by
  induction replies generalizing rn with
  | nil =>
    cases hr
    exact h
  | cons reply rest ih =>
    rw [List.foldlM_cons] at hr
    obtain ⟨next, hnext, hr⟩ := Option.bind_eq_some_iff.mp hr
    exact ih (tabled_rsubscribe h hnext) hr

theorem tabled_subscribed {replies : List Wire} {rn' : Rnot} (h : subscribed replies = some rn') : Tabled rn' :=
  tabled_foldlM replies tabled_init h

/-! ### What the listener hears -/

/-- What the handler is called on for the socket kept under an address. -/
def heardAt (rn : Rnot) (endpoint : CString) (message : Wire) (heap : Nat → Nat → Byte) (addr : CString) :
    List InotifyEvent :=
  match rn.publisherSocks.lookup addr with
  | none => []
  | some k => poll rn endpoint message heap k

theorem startListener_eq_flatMap (rn : Rnot) (endpoint : CString) (message : Wire) (heap : Nat → Nat → Byte) :
    startListener rn endpoint message heap = rn.publisherSocks.keys.flatMap (heardAt rn endpoint message heap) := by
  rw [startListener, pollItems]
  induction rn.publisherSocks.keys with
  | nil => rfl
  | cons addr rest ih =>
    rw [List.flatMap_cons, List.filterMap_cons, ← ih, heardAt]
    cases rn.publisherSocks.lookup addr with
    | none => rfl
    | some k => rw [List.flatMap_cons]

/-- **One socket at most hears a message**: the one kept under the endpoint where the message is
published, and that one when one of its filters is a prefix of the first frame. -/
theorem startListener_eq (h : Tabled rn) (endpoint : CString) (message : Wire) (heap : Nat → Nat → Byte) :
    ∃ k, startListener rn endpoint message heap =
      if ∃ filter ∈ filtersAt rn endpoint, ∃ topic ∈ message.head?, filter.bytes <+: topic.frame then
        handled (heap k) message
      else [] := by
  have helsewhere : ∀ addr ∈ rn.publisherSocks.keys, addr ≠ endpoint →
      heardAt rn endpoint message heap addr = [] := by
    intro addr _ hne
    unfold heardAt
    split
    · rfl
    · next k hk =>
      obtain ⟨s, hs, hend⟩ := h addr k hk
      simp only [poll, hs, Receives, hend, hne, false_and, if_false]
  rw [startListener_eq_flatMap, flatMap_of_only rn.publisherSocks.keys_nodup endpoint helsewhere]
  cases hk : rn.publisherSocks.lookup endpoint with
  | none =>
    refine ⟨0, ?_⟩
    simp only [heardAt, hk, filtersAt_of_none hk, List.not_mem_nil, false_and, exists_false, if_false, ite_self]
  | some k =>
    obtain ⟨s, hs, hend⟩ := h endpoint k hk
    have hmem : endpoint ∈ rn.publisherSocks.keys :=
      List.mem_toFinset.mp (Table.mem_names.mpr ⟨k, hk⟩)
    refine ⟨k, ?_⟩
    rw [if_pos hmem]
    simp only [heardAt, hk, poll, hs, Receives, hend, true_and, filtersAt_of_lookup hk hs]

end Rnotify.Client
