import Rnotify.Subscription.Model

/-! Whether registration is complete when `rsubscribe` returns.

What the client can do is done then: at every address of the reply it has set the
filter that the watch's events carry (`Installs`), and no later step takes one away.
So an event read after the return gets through wherever the client's subscription
has arrived, and a run in which none of these is still on its way when an event is
sent loses nothing (`complete_of_arrived`). Nothing makes the client wait for that:
an event sent meanwhile is lost (`early_event_lost`). -/
namespace Rnotify.Subscription
open Library Registrar Dispatcher Client

variable {δ κ : Type}

/-! ### The id in a reply -/

/-- The text in a reply is the one that the proxy made for the path. -/
theorem reply_registerFile {L : Lookup} {addWatch : CString → Int} {r : Registrar.State}
    {registration : List Frame} {path : CString} (hpath : part registration 1 = .ok path) {wire : Wire}
    (h : Cluster.replyOf (registerFile L addWatch r registration).actions = some wire) :
    ∃ addresses, wire = Rnotify.send (registerOk :: decimal (addWatch path) :: addresses) := by
  simp only [registerFile, hpath] at h
  split at h
  · cases h
  · split at h
    · cases h
    · next addresses _ => exact ⟨addresses, (Option.some.inj h).symm⟩

theorem answered_id [DecidableEq δ] {L : Lookup} {s t : Cluster.State δ κ} {c : κ} {path : CString} {wd : Int}
    (hstep : Cluster.step L s (.subscribe c path wd) = some t) {reply : κ × Wire}
    (hreply : t.replies.getLast? = some reply) {r : Registration κ} (hr : answered c wd reply.2 = some r) :
    r.id = decimal r.wd := by
  obtain ⟨_, actions, wire, hpass, hwire, rfl⟩ := Cluster.step_subscribe L hstep
  rw [List.getLast?_concat, Option.some.injEq] at hreply
  obtain rfl := congrArg Pass.actions hpass
  obtain ⟨addresses, hsend⟩ := reply_registerFile (part_register path _) hwire
  obtain ⟨_, hwd, response, id, hresponse, hid, hrid, _⟩ := answered_eq hr
  rw [← hreply, hsend, multiPartReceive_send, Option.some.injEq] at hresponse
  rw [← hresponse, List.getElem?_cons_succ, List.map_cons, List.getElem?_cons_zero, Option.some.injEq] at hid
  rw [hrid, ← hid, cstr_bytes, hwd]

/-! ### What a call leaves -/

/-- The client has set the text of the watch descriptor at every address of the reply. -/
structure Installed (rn : Rnot) (r : Registration κ) : Prop where
  id : r.id = decimal r.wd
  filters : ∀ addr ∈ r.addresses, r.id ∈ filtersAt rn addr

/-- A call that is done with all addresses but some. -/
structure InLoop (rn : Rnot) (c : κ) (call : Call κ) : Prop where
  client : call.registration.client = c
  id : call.registration.id = decimal call.registration.wd
  filters : ∀ addr ∈ call.registration.addresses, addr ∈ call.left ∨ call.registration.id ∈ filtersAt rn addr

/-- Every call has set its filter at the addresses it has gone through, and every event that is on its way
was read after calls that returned. -/
structure Installs (s : State δ κ) : Prop where
  tabled : ∀ c, Tabled (s.clients c)
  calls : ∀ c call, s.calls c = some call → InLoop (s.clients c) c call
  returned : ∀ r ∈ s.returned, Installed (s.clients r.client) r
  readings : ∀ reading ∈ s.readings, reading.returned ⊆ s.returned
  transit : ∀ m ∈ s.transit, notify m.reading.event = some m.wire ∧ m.reading.returned ⊆ s.returned

/-- A turn of the loop keeps every filter and sets one. -/
theorem mem_filtersAt_subscribe {rn : Rnot} (h : Tabled rn) (id addr f other : CString) :
    f ∈ filtersAt (subscribe id rn addr) other ↔ f ∈ filtersAt rn other ∨ f = id ∧ other = addr := by
  have hone := mem_filtersAt_addresses h id [addr] f other
  rwa [List.mem_singleton] at hone

theorem Installed.subscribe {rn : Rnot} {r : Registration κ} (h : Installed rn r) (hrn : Tabled rn)
    (id addr : CString) : Installed (Client.subscribe id rn addr) r where
  id := h.id
  filters := by
    intro other hother
    rw [mem_filtersAt_subscribe hrn]
    exact Or.inl (h.filters other hother)

/-- A call goes through the first of the addresses left. -/
theorem InLoop.next {rn : Rnot} {c : κ} {r : Registration κ} {addr : CString} {rest : List CString}
    (h : InLoop rn c ⟨r, addr :: rest⟩) (hrn : Tabled rn) :
    InLoop (Client.subscribe r.id rn addr) c ⟨r, rest⟩ where
  client := h.client
  id := h.id
  filters := by
    intro other hother
    rw [mem_filtersAt_subscribe hrn]
    obtain hleft | hset := h.filters other hother
    · obtain rfl | hrest := List.mem_cons.mp hleft
      · exact Or.inr (Or.inr ⟨rfl, rfl⟩)
      · exact Or.inl hrest
    · exact Or.inr (Or.inl hset)

/-- With no address left, the call has set its filter everywhere. -/
theorem InLoop.installed {rn : Rnot} {c : κ} {r : Registration κ} (h : InLoop rn c ⟨r, []⟩) :
    Installed rn r where
  id := h.id
  filters := fun addr haddr => (h.filters addr haddr).resolve_left List.not_mem_nil

/-! ### What is dropped -/

/-- A message's own topic lets it through. -/
theorem passes_topic {filters : Finset CString} {e : InotifyEvent} {wire : Wire} (h : notify e = some wire)
    (hmem : decimal e.wd.toInt ∈ filters) : Passes filters wire := by
  obtain ⟨_, _, _, htopic⟩ := notify_received h
  exact ⟨_, hmem, _, htopic, List.prefix_refl _⟩

/-- No subscription that a client has set for the message is still on its way to where the given ones have
arrived. -/
def Message.Arrived (m : Message κ) (clients : κ → Rnot) (filters : κ → Finset CString) : Prop :=
  ∀ r ∈ m.concerned, r.id ∈ filtersAt (clients r.client) m.publisher.publishAddr → r.id ∈ filters r.client

/-- A message is dropped for no registration whose subscription has arrived: a call that returned has set it. -/
theorem Message.Arrived.drops {m : Message κ} {clients : κ → Rnot} {filters : κ → Finset CString}
    (h : m.Arrived clients filters) (hwire : notify m.reading.event = some m.wire)
    (hset : ∀ r ∈ m.reading.returned, Installed (clients r.client) r) : m.drops filters = [] := by
  rw [Message.drops, List.map_eq_nil_iff, List.filter_eq_nil_iff]
  intro r hr
  obtain ⟨hreturned, hconcerned⟩ := List.mem_filter.mp hr
  obtain ⟨hwd, haddr⟩ := of_decide_eq_true hconcerned
  have hinst := hset r hreturned
  have harrived := h r hr (hinst.filters _ haddr)
  rw [hinst.id, hwd] at harrived
  have hpasses : Passes (filters r.client) m.wire := passes_topic hwire harrived
  simpa using hpasses

/-! ### Steps -/

variable [DecidableEq κ] {s t : State δ κ}

/-- The client's filters are all set by the time its call returns. -/
theorem installs_return (hs : Installs s) {c : κ} {r : Registration κ} (hcall : s.calls c = some ⟨r, []⟩) :
    Installs { s with calls := Function.update s.calls c none, returned := s.returned ++ [r] } := by
  have hloop := hs.calls c _ hcall
  have hgrown : s.returned ⊆ s.returned ++ [r] := List.subset_append_left ..
  refine ⟨hs.tabled, ?_, ?_, ?_, ?_⟩
  · apply (Function.forall_update_iff s.calls
      fun c' o => ∀ call, o = some call → InLoop (s.clients c') c' call).mpr
    exact ⟨nofun, fun c' _ => hs.calls c'⟩
  · intro r' hr'
    obtain hold | hnew := List.mem_append.mp hr'
    · exact hs.returned r' hold
    · rw [List.mem_singleton.mp hnew, hloop.client]
      exact hloop.installed
  · intro reading hreading
    exact List.Subset.trans (hs.readings reading hreading) hgrown
  · intro m hm
    obtain ⟨hwire, hreturned⟩ := hs.transit m hm
    exact ⟨hwire, List.Subset.trans hreturned hgrown⟩

/-- A turn takes no filter away, at any client. -/
theorem installs_address (hs : Installs s) {c : κ} {r : Registration κ} {addr : CString} {rest : List CString}
    (hcall : s.calls c = some ⟨r, addr :: rest⟩) :
    Installs { s with
      clients := Function.update s.clients c (subscribe r.id (s.clients c) addr)
      calls := Function.update s.calls c (some ⟨r, rest⟩) } := by
  have hloop := hs.calls c _ hcall
  refine ⟨?_, ?_, ?_, hs.readings, hs.transit⟩
  · apply (Function.forall_update_iff s.clients fun _ rn => Tabled rn).mpr
    exact ⟨tabled_subscribe (hs.tabled c) r.id addr, fun c' _ => hs.tabled c'⟩
  · intro c' call hcall'
    by_cases hc : c' = c
    · simp only [hc, Function.update_self, Option.some.injEq] at hcall' ⊢
      rw [← hcall']
      exact hloop.next (hs.tabled c)
    · simp only [Function.update_of_ne hc] at hcall' ⊢
      exact hs.calls c' call hcall'
  · intro r' hr'
    have hinst := hs.returned r' hr'
    by_cases hc : r'.client = c
    · rw [hc] at hinst
      simp only [hc, Function.update_self]
      exact hinst.subscribe (hs.tabled c) r.id addr
    · simp only [Function.update_of_ne hc]
      exact hinst

variable [DecidableEq δ] {L : Lookup}

theorem installs_initial : Installs (links L δ κ).initial :=
  ⟨fun _ => tabled_init, nofun, nofun, nofun, nofun⟩

theorem installs_cluster (hs : Installs s) {l : Cluster.Label δ κ} (hstep : step L s (.cluster l) = some t) :
    Installs t := by
  obtain ⟨next, hnext, rfl | ⟨c, path, wd, reply, r, rfl, _, hreply, hanswer, rfl⟩⟩ := step_cluster hstep
  · exact ⟨hs.tabled, hs.calls, hs.returned, hs.readings, hs.transit⟩
  · refine ⟨hs.tabled, ?_, hs.returned, hs.readings, hs.transit⟩
    apply (Function.forall_update_iff s.calls
      fun c' o => ∀ call, o = some call → InLoop (s.clients c') c' call).mpr
    refine ⟨?_, fun c' _ => hs.calls c'⟩
    intro call hcall
    rw [← Option.some.inj hcall]
    exact ⟨(answered_eq hanswer).1, answered_id hnext hreply hanswer, fun _ haddr => Or.inl haddr⟩

theorem installs_dispatch (hs : Installs s) {d : δ} {n rand : Nat} {p : Publisher}
    (hstep : step L s (.dispatch d n rand p) = some t) : Installs t := by
  obtain ⟨reading, st, sock, wire, hreading, _, hsent, _, _, rfl⟩ := step_dispatch hstep
  refine ⟨hs.tabled, hs.calls, hs.returned, fun r hr => hs.readings r (List.mem_of_mem_eraseIdx hr), ?_⟩
  intro m hm
  have hcases : m ∈ s.transit ∨ m = ⟨reading, p, wire⟩ := by
    simp only [pubSend] at hm
    split at hm
    · rwa [List.mem_append, List.mem_singleton] at hm
    · exact Or.inl hm
  obtain hold | rfl := hcases
  · exact hs.transit m hold
  · exact ⟨notify_of_sent hsent, hs.readings reading (List.mem_of_getElem? hreading)⟩

theorem installs_step (hs : Installs s) {a : Label δ κ} (hstep : step L s a = some t) : Installs t := by
  cases a with
  | cluster l => exact installs_cluster hs hstep
  | turn c =>
    obtain ⟨r, ⟨hcall, rfl⟩ | ⟨addr, rest, hcall, rfl⟩⟩ := step_turn hstep
    · exact installs_return hs hcall
    · exact installs_address hs hcall
  | arrive c p filter =>
    obtain ⟨_, rfl⟩ := step_arrive hstep
    exact ⟨hs.tabled, hs.calls, hs.returned, hs.readings, hs.transit⟩
  | forward d sock c p filter =>
    obtain ⟨_, _, _, _, rfl⟩ := step_forward hstep
    exact ⟨hs.tabled, hs.calls, hs.returned, hs.readings, hs.transit⟩
  | read e =>
    obtain rfl := Option.some.inj hstep
    refine ⟨hs.tabled, hs.calls, hs.returned, ?_, hs.transit⟩
    intro reading hreading
    obtain hold | hnew := List.mem_append.mp hreading
    · exact hs.readings reading hold
    · rw [List.mem_singleton.mp hnew]
      exact List.Subset.refl _
  | dispatch d n rand p => exact installs_dispatch hs hstep
  | publish n =>
    obtain ⟨m, hm, rfl⟩ := step_publish hstep
    exact ⟨hs.tabled, hs.calls, hs.returned, hs.readings,
      fun m' hm' => hs.transit m' (List.mem_of_mem_eraseIdx hm')⟩

/-! ### Runs -/

/-- No subscription of a call that had returned when the event was read is still on its way to the socket
that sends the event. -/
def Arrived (L : Lookup) (s : State δ κ) : Label δ κ → Prop
  | .dispatch d n rand p => ∀ reading ∈ s.readings[n]?, ∀ st ∈ s.cluster.dispatchers d,
      ∀ sent ∈ notifyRandomPublisher L st.info reading.event rand,
        Message.Arrived ⟨reading, p, sent.2⟩ s.clients fun _ => s.forwarded d sent.1
  | .publish n => ∀ m ∈ s.transit[n]?, m.Arrived s.clients (s.arrived m.publisher)
  | _ => True

instance (m : Message κ) (clients : κ → Rnot) (filters : κ → Finset CString) :
    Decidable (m.Arrived clients filters) :=
  inferInstanceAs (Decidable (∀ r ∈ m.concerned, _ → _))

instance (s : State δ κ) : ∀ a, Decidable (Arrived L s a)
  | .dispatch d n rand _ => inferInstanceAs (Decidable (∀ reading ∈ s.readings[n]?,
      ∀ st ∈ s.cluster.dispatchers d, ∀ sent ∈ notifyRandomPublisher L st.info reading.event rand, _))
  | .publish n => inferInstanceAs (Decidable (∀ m ∈ s.transit[n]?, _))
  | .cluster _ | .turn _ | .arrive .. | .forward .. | .read _ => isTrue trivial

/-- A dispatcher's send loses nothing where the subscriptions have arrived. -/
theorem lost_dispatch (hs : Installs s) (hlost : s.lost = []) {d : δ} {n rand : Nat} {p : Publisher}
    (harrived : Arrived L s (.dispatch d n rand p)) (hstep : step L s (.dispatch d n rand p) = some t) :
    t.lost = [] := by
  obtain ⟨reading, st, sock, wire, hreading, hst, hsent, _, _, rfl⟩ := step_dispatch hstep
  have hset : ∀ r ∈ reading.returned, Installed (s.clients r.client) r := fun r hr =>
    hs.returned r (hs.readings reading (List.mem_of_getElem? hreading) hr)
  have hdrops := (harrived reading hreading st hst (sock, wire) hsent).drops (notify_of_sent hsent) hset
  exact List.append_eq_nil_iff.mpr ⟨hlost, hdrops⟩

/-- Nor does a publisher's. -/
theorem lost_publish (hs : Installs s) (hlost : s.lost = []) {n : Nat} (harrived : Arrived L s (.publish n))
    (hstep : step L s (.publish n) = some t) : t.lost = [] := by
  obtain ⟨m, hm, rfl⟩ := step_publish hstep
  obtain ⟨hwire, hreturned⟩ := hs.transit m (List.mem_of_getElem? hm)
  have hdrops := (harrived m hm).drops hwire fun r hr => hs.returned r (hreturned hr)
  exact List.append_eq_nil_iff.mpr ⟨hlost, hdrops⟩

/-- Only these two steps can lose an event. -/
theorem lost_step (hs : Installs s) (hlost : s.lost = []) {a : Label δ κ} (harrived : Arrived L s a)
    (hstep : step L s a = some t) : t.lost = [] := by
  cases a with
  | cluster l =>
    obtain ⟨_, _, rfl | ⟨_, _, _, _, _, _, _, _, _, rfl⟩⟩ := step_cluster hstep
    · exact hlost
    · exact hlost
  | turn c =>
    obtain ⟨_, ⟨_, rfl⟩ | ⟨_, _, _, rfl⟩⟩ := step_turn hstep
    · exact hlost
    · exact hlost
  | arrive c p filter =>
    obtain ⟨_, rfl⟩ := step_arrive hstep
    exact hlost
  | forward d sock c p filter =>
    obtain ⟨_, _, _, _, rfl⟩ := step_forward hstep
    exact hlost
  | read e =>
    obtain rfl := Option.some.inj hstep
    exact hlost
  | dispatch d n rand p => exact lost_dispatch hs hlost harrived hstep
  | publish n => exact lost_publish hs hlost harrived hstep

/-- **Complete on arrival.** In a run in which, wherever an event is sent or passed on, the subscriptions
that returned calls have set for it have arrived, no event that was read after a client's `rsubscribe` had
returned for its path, and that is routed to a publisher in the reply, is dropped on the way to the client
for want of a subscription. -/
theorem complete_of_arrived {labels : List (Label δ κ)}
    (hr : (links L δ κ).exec (links L δ κ).initial labels = some s)
    (harrived : (links L δ κ).Along (Arrived L) (links L δ κ).initial labels) : s.lost = [] := by
  have hrun := (links L δ κ).invariant_along (Arrived L) (fun u => Installs u ∧ u.lost = []) ?_ labels _ s
    ⟨installs_initial, rfl⟩ harrived hr
  · exact hrun.2
  · intro u a v ⟨hu, hlost⟩ ha hstep
    exact ⟨installs_step hu hstep, lost_step hu hlost ha hstep⟩

open Cluster (startFirst)

/-- With a dispatcher that knows the only publisher, a client subscribes to `/srv`, and its call returns. -/
def returned : List (Label Unit Unit) :=
  startFirst.map .cluster ++ [.cluster (.subscribe () (literal "/srv") 1), .turn (), .turn ()]

/-- The subscription reaches both sockets. -/
def arrival : List (Label Unit Unit) :=
  [.arrive () firstPublisher (literal "1"),
    .forward () ⟨0, firstPublisher.acceptAddr⟩ () firstPublisher (literal "1")]

/-- An event of the watch is read and sent. -/
def readAndSent : List (Label Unit Unit) := [.read (created 1), .dispatch () 0 0 firstPublisher]

theorem complete_of_arrived_readAndSent : ∃ s,
    (links (hashRing strlen) Unit Unit).exec (links (hashRing strlen) Unit Unit).initial
      (returned ++ arrival ++ readAndSent ++ [.publish 0]) = some s ∧ s.lost = [] := by
  have hrun : ∃ s, (links (hashRing strlen) Unit Unit).exec (links (hashRing strlen) Unit Unit).initial
      (returned ++ arrival ++ readAndSent ++ [.publish 0]) = some s := ⟨_, rfl⟩
  obtain ⟨s, hs⟩ := hrun
  exact ⟨s, hs, complete_of_arrived hs (by decide)⟩

/-- An event that is sent before the subscription has arrived. -/
theorem early_event_lost : ∃ s,
    (links (hashRing strlen) Unit Unit).exec (links (hashRing strlen) Unit Unit).initial
      (returned ++ readAndSent ++ arrival) = some s ∧
    s.lost = [(⟨(), 1, literal "1", [literal "tcp://10.0.0.1:6001"]⟩, created 1)] :=
  ⟨_, rfl, by decide⟩

end Rnotify.Subscription
