import Rnotify.Client.Table
import Rnotify.Cluster.Agreement

/-! Subscriptions on their way.

A client sets a filter on its own socket and goes on; the subscription is a message
that the publisher's XPUB socket gets later, and the PUB socket of a dispatcher
later still, through the publisher's XSUB. Until then either socket drops what only
this filter would let through. Here `rsubscribe` takes its turns one at a time over
the cluster's steps, each subscription arrives when it may, and events are read,
sent by a dispatcher and passed on by a publisher in any order. An event is kept
with the calls that had returned when it was read, and `lost` has the registrations
that an event of theirs did not get through to. -/
namespace Rnotify.Subscription
open Library Registrar Dispatcher Client

/-- What a call of `rsubscribe` asked for and was answered. -/
structure Registration (κ : Type) where
  client : κ
  /-- What `inotify_add_watch` gave for the path. -/
  wd : Int
  id : CString
  addresses : List CString
deriving DecidableEq

/-- A call in its loop: the addresses it has still to go through. -/
structure Call (κ : Type) where
  registration : Registration κ
  left : List CString

/-- An event that was read, and the calls that had returned by then. -/
structure Reading (κ : Type) where
  event : InotifyEvent
  returned : List (Registration κ)

/-- An event that a dispatcher sends to a publisher. -/
structure Message (κ : Type) where
  reading : Reading κ
  publisher : Publisher
  wire : Wire

structure State (δ κ : Type) where
  cluster : Cluster.State δ κ
  clients : κ → Rnot
  calls : κ → Option (Call κ)
  returned : List (Registration κ)
  /-- A client's subscriptions that have reached a publisher's XPUB socket. -/
  arrived : Publisher → κ → Finset CString
  /-- The subscriptions that have reached a dispatcher's PUB socket. -/
  forwarded : δ → DispatchSocket → Finset CString
  /-- Events read and not yet sent by a dispatcher. -/
  readings : List (Reading κ)
  /-- Events sent and not yet passed on by the publisher. -/
  transit : List (Message κ)
  /-- The registrations that an event of theirs was dropped on the way to. -/
  lost : List (Registration κ × InotifyEvent)

inductive Label (δ κ : Type) where
  /-- A step of the cluster; a reply to a client starts the loop of its call. -/
  | cluster (l : Cluster.Label δ κ)
  /-- A turn of the loop in a client's `rsubscribe`, or its return. -/
  | turn (c : κ)
  /-- A client's subscription reaches a publisher. -/
  | arrive (c : κ) (p : Publisher) (filter : CString)
  /-- A publisher's XSUB socket passes a client's subscription on to a dispatcher's socket. -/
  | forward (d : δ) (sock : DispatchSocket) (c : κ) (p : Publisher) (filter : CString)
  | read (e : InotifyEvent)
  /-- A dispatcher sends one of the events read, and the publisher is the one at the socket's other end. -/
  | dispatch (d : δ) (n rand : Nat) (p : Publisher)
  /-- A publisher passes on one of the messages sent to it. -/
  | publish (n : Nat)

variable {δ κ : Type}

/-- A subscription in the set lets a message through. -/
def Passes (filters : Finset CString) (wire : Wire) : Prop :=
  ∃ filter ∈ filters, ∃ topic ∈ wire.head?, filter.bytes <+: topic.frame

instance (filters : Finset CString) (wire : Wire) : Decidable (Passes filters wire) :=
  inferInstanceAs (Decidable (∃ filter ∈ filters, ∃ topic ∈ wire.head?, _))

/-- The registrations that a message is for: they had returned when its event was read, the event is of
their watch and they were told of the publisher. -/
def Message.concerned (m : Message κ) : List (Registration κ) :=
  m.reading.returned.filter fun r => r.wd = m.reading.event.wd.toInt ∧ m.publisher.publishAddr ∈ r.addresses

/-- What is dropped where the given subscriptions of each client have arrived. -/
def Message.drops (m : Message κ) (filters : κ → Finset CString) : List (Registration κ × InotifyEvent) :=
  (m.concerned.filter fun r => ¬ Passes (filters r.client) m.wire).map fun r => (r, m.reading.event)

/-- The registrar's reply, as `rsubscribe` reads it. -/
def answered (c : κ) (wd : Int) (reply : Wire) : Option (Registration κ) :=
  (multiPartReceive reply).bind fun response =>
    response[1]?.map fun id => ⟨c, wd, cstr id, (response.drop 2).map cstr⟩

theorem answered_eq {c : κ} {wd : Int} {reply : Wire} {r : Registration κ} (h : answered c wd reply = some r) :
    r.client = c ∧ r.wd = wd ∧ ∃ response id, multiPartReceive reply = some response ∧ response[1]? = some id ∧
      r.id = cstr id ∧ r.addresses = (response.drop 2).map cstr := by
  obtain ⟨response, hresponse, hr⟩ := Option.bind_eq_some_iff.mp h
  obtain ⟨id, hid, rfl⟩ := Option.map_eq_some_iff.mp hr
  exact ⟨rfl, rfl, response, id, hresponse, hid, rfl, rfl⟩

/-- The loop over a reply's addresses is what `rsubscribe` does with the reply. -/
theorem rsubscribe_answered {c : κ} {wd : Int} {reply : Wire} {r : Registration κ}
    (h : answered c wd reply = some r) (rn : Rnot) :
    rsubscribe rn reply = some (r.addresses.foldl (subscribe r.id) rn) := by
  obtain ⟨_, _, response, id, hresponse, hid, hrid, haddresses⟩ := answered_eq h
  rw [rsubscribe, hresponse, Option.bind_some, hid, hrid, haddresses, List.foldl_map]

variable [DecidableEq δ] [DecidableEq κ]

/-- A client that was waiting for its reply begins the loop. -/
def startCall (s : State δ κ) (t : Cluster.State δ κ) (c : κ) (wd : Int) : Option (State δ κ) :=
  match s.calls c with
  | some _ => none
  | none => (t.replies.getLast?.bind fun reply => answered c wd reply.2).map fun r =>
    { s with cluster := t, calls := Function.update s.calls c (some ⟨r, r.addresses⟩) }

def turn (s : State δ κ) (c : κ) : Option (State δ κ) :=
  (s.calls c).map fun call =>
    match call.left with
    | [] => { s with
        calls := Function.update s.calls c none
        returned := s.returned ++ [call.registration] }
    | addr :: rest => { s with
        clients := Function.update s.clients c (subscribe call.registration.id (s.clients c) addr)
        calls := Function.update s.calls c (some { call with left := rest }) }

/-- A socket of the dispatcher to an address: the one in its table, or one that is about to be put there. -/
def Connected (st : Dispatcher.State) (addr : CString) (sock : DispatchSocket) : Prop :=
  st.info.publisherSocks.lookup addr = some sock ∨ st.updater = .insert addr sock

instance (st : Dispatcher.State) (addr : CString) (sock : DispatchSocket) :
    Decidable (Connected st addr sock) :=
  inferInstanceAs (Decidable (_ ∨ _))

/-- The PUB socket sends a message, or drops it if no subscription that it has seen lets it through. -/
def pubSend (s : State δ κ) (filters : Finset CString) (m : Message κ) : State δ κ :=
  { s with
    transit := if Passes filters m.wire then s.transit ++ [m] else s.transit
    lost := s.lost ++ m.drops fun _ => filters }

def step (L : Lookup) (s : State δ κ) : Label δ κ → Option (State δ κ)
  | .cluster l => (Cluster.step L s.cluster l).bind fun t =>
    match l with
    | .subscribe c _ wd => startCall s t c wd
    | _ => some { s with cluster := t }
  | .turn c => turn s c
  | .arrive c p filter =>
    if filter ∈ filtersAt (s.clients c) p.publishAddr then
      some { s with
        arrived := Function.update s.arrived p (Function.update (s.arrived p) c (insert filter (s.arrived p c))) }
    else none
  | .forward d sock c p filter => (s.cluster.dispatchers d).bind fun st =>
    if Connected st p.acceptAddr sock ∧ filter ∈ s.arrived p c then
      some { s with
        forwarded := Function.update s.forwarded d
          (Function.update (s.forwarded d) sock (insert filter (s.forwarded d sock))) }
    else none
  | .read e => some { s with readings := s.readings ++ [⟨e, s.returned⟩] }
  | .dispatch d n rand p => s.readings[n]?.bind fun reading => (s.cluster.dispatchers d).bind fun st =>
    (notifyRandomPublisher L st.info reading.event rand).bind fun sent =>
      if reading.event.len ≠ 0 ∧ p.acceptAddr = sent.1.endpoint then
        some (pubSend { s with readings := s.readings.eraseIdx n } (s.forwarded d sent.1) ⟨reading, p, sent.2⟩)
      else none
  | .publish n => s.transit[n]?.map fun m =>
    { s with transit := s.transit.eraseIdx n, lost := s.lost ++ m.drops (s.arrived m.publisher) }

/-- The registrar runs, the clients have been made by `rnotify_init`, and nothing is on its way. -/
def links (L : Lookup) (δ κ : Type) [DecidableEq δ] [DecidableEq κ] : System (State δ κ) (Label δ κ) where
  initial :=
    { cluster := (Cluster.cluster L).initial, clients := fun _ => rnotifyInit, calls := fun _ => none
      returned := [], arrived := fun _ _ => ∅, forwarded := fun _ _ => ∅
      readings := [], transit := [], lost := [] }
  step := step L

/-! ### What a step does -/

variable {L : Lookup} {s t : State δ κ}

/-- A step of the cluster; if it answers a client, that client's call is in its loop. -/
theorem step_cluster {l : Cluster.Label δ κ} (h : step L s (.cluster l) = some t) :
    ∃ next, Cluster.step L s.cluster l = some next ∧
      (t = { s with cluster := next } ∨
        ∃ c path wd reply r, l = .subscribe c path wd ∧ s.calls c = none ∧
          next.replies.getLast? = some reply ∧ answered c wd reply.2 = some r ∧
          t = { s with cluster := next, calls := Function.update s.calls c (some ⟨r, r.addresses⟩) }) := by
  obtain ⟨next, hnext, ht⟩ := Option.bind_eq_some_iff.mp h
  refine ⟨next, hnext, ?_⟩
  cases l with
  | start | update | register | proceed => exact Or.inl (Option.some.inj ht).symm
  | subscribe c path wd =>
    simp only [startCall] at ht
    split at ht
    · cases ht
    · next hcall =>
      obtain ⟨r, hr, rfl⟩ := Option.map_eq_some_iff.mp ht
      obtain ⟨reply, hreply, hanswer⟩ := Option.bind_eq_some_iff.mp hr
      exact Or.inr ⟨c, path, wd, reply, r, rfl, hcall, hreply, hanswer, rfl⟩

/-- A turn of a call's loop sets one filter; the call returns when no address is left. -/
theorem step_turn {c : κ} (h : step L s (.turn c) = some t) :
    ∃ r, (s.calls c = some ⟨r, []⟩ ∧
        t = { s with calls := Function.update s.calls c none, returned := s.returned ++ [r] }) ∨
      ∃ addr rest, s.calls c = some ⟨r, addr :: rest⟩ ∧
        t = { s with
          clients := Function.update s.clients c (subscribe r.id (s.clients c) addr)
          calls := Function.update s.calls c (some ⟨r, rest⟩) } := by
  obtain ⟨⟨r, left⟩, hcall, rfl⟩ := Option.map_eq_some_iff.mp h
  refine ⟨r, ?_⟩
  cases left with
  | nil => exact Or.inl ⟨hcall, rfl⟩
  | cons addr rest => exact Or.inr ⟨addr, rest, hcall, rfl⟩

theorem step_arrive {c : κ} {p : Publisher} {filter : CString} (h : step L s (.arrive c p filter) = some t) :
    filter ∈ filtersAt (s.clients c) p.publishAddr ∧ t = { s with
      arrived := Function.update s.arrived p (Function.update (s.arrived p) c (insert filter (s.arrived p c))) } := by
  simp only [step] at h
  split at h
  · next hfilter => exact ⟨hfilter, (Option.some.inj h).symm⟩
  · cases h

theorem step_forward {d : δ} {sock : DispatchSocket} {c : κ} {p : Publisher} {filter : CString}
    (h : step L s (.forward d sock c p filter) = some t) :
    ∃ st, s.cluster.dispatchers d = some st ∧ Connected st p.acceptAddr sock ∧ filter ∈ s.arrived p c ∧
      t = { s with
        forwarded := Function.update s.forwarded d
          (Function.update (s.forwarded d) sock (insert filter (s.forwarded d sock))) } := by
  obtain ⟨st, hst, ht⟩ := Option.bind_eq_some_iff.mp h
  split at ht
  · next hguard => exact ⟨st, hst, hguard.1, hguard.2, (Option.some.inj ht).symm⟩
  · cases ht

/-- A dispatcher sends what `notify` makes of an event. -/
theorem step_dispatch {d : δ} {n rand : Nat} {p : Publisher} (h : step L s (.dispatch d n rand p) = some t) :
    ∃ reading st sock wire, s.readings[n]? = some reading ∧ s.cluster.dispatchers d = some st ∧
      notifyRandomPublisher L st.info reading.event rand = some (sock, wire) ∧
      reading.event.len ≠ 0 ∧ p.acceptAddr = sock.endpoint ∧
      t = pubSend { s with readings := s.readings.eraseIdx n } (s.forwarded d sock) ⟨reading, p, wire⟩ := by
  obtain ⟨reading, hreading, hrest⟩ := Option.bind_eq_some_iff.mp h
  obtain ⟨st, hst, hrest⟩ := Option.bind_eq_some_iff.mp hrest
  obtain ⟨⟨sock, wire⟩, hsent, ht⟩ := Option.bind_eq_some_iff.mp hrest
  split at ht
  · next hguard =>
    exact ⟨reading, st, sock, wire, hreading, hst, hsent, hguard.1, hguard.2, (Option.some.inj ht).symm⟩
  · cases ht

theorem step_publish {n : Nat} (h : step L s (.publish n) = some t) :
    ∃ m, s.transit[n]? = some m ∧
      t = { s with transit := s.transit.eraseIdx n, lost := s.lost ++ m.drops (s.arrived m.publisher) } := by
  obtain ⟨m, hm, ht⟩ := Option.map_eq_some_iff.mp h
  exact ⟨m, hm, ht.symm⟩

/-- The turns of a call, up to its return, are the loop of `rsubscribe`. -/
theorem turns {c : κ} {r : Registration κ} {left : List CString} (h : s.calls c = some ⟨r, left⟩) :
    (links L δ κ).exec s (List.replicate (left.length + 1) (.turn c)) =
      some { s with
        clients := Function.update s.clients c (left.foldl (subscribe r.id) (s.clients c))
        calls := Function.update s.calls c none
        returned := s.returned ++ [r] } := by
  induction left generalizing s with
  | nil =>
    have hstep : (links L δ κ).step s (.turn c) =
        some { s with calls := Function.update s.calls c none, returned := s.returned ++ [r] } := by
      show turn s c = _
      rw [turn, h]
      rfl
    rw [List.length_nil, List.replicate_succ, System.exec_cons, hstep]
    simp
  | cons addr rest ih =>
    have hstep : (links L δ κ).step s (.turn c) =
        some { s with
          clients := Function.update s.clients c (subscribe r.id (s.clients c) addr)
          calls := Function.update s.calls c (some ⟨r, rest⟩) } := by
      show turn s c = _
      rw [turn, h]
      rfl
    rw [List.length_cons, List.replicate_succ, System.exec_cons, hstep, Option.bind_some, ih (by simp)]
    simp

/-- A call that is taken through its turns leaves the client as `rsubscribe` does. -/
theorem rsubscribe_turns {c : κ} {wd : Int} {reply : Wire} {r : Registration κ}
    (hanswer : answered c wd reply = some r) (hcall : s.calls c = some ⟨r, r.addresses⟩) :
    ∃ rn, rsubscribe (s.clients c) reply = some rn ∧
      (links L δ κ).exec s (List.replicate (r.addresses.length + 1) (.turn c)) =
        some { s with
          clients := Function.update s.clients c rn
          calls := Function.update s.calls c none
          returned := s.returned ++ [r] } :=
  ⟨_, rsubscribe_answered hanswer (s.clients c), turns hcall⟩

end Rnotify.Subscription
