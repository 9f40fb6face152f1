import Rnotify.Client.Delivery
import Rnotify.Cluster.Coverage
import Rnotify.Journey.Accounts
import Rnotify.Subscription.Completion

/-! End to end.

A client is what `rsubscribe` made of the registrar's replies to it, so its sockets
filter by the watch descriptors that it was given, and its handler is called on no
event but of one of these watches, or of a watch whose descriptor begins with the same
digits. With the accounts this says all that a handler can be called on: events that
were read, each at most once, byte for byte (`end_to_end`). What it takes for it to be
called on every event of a watch is said step by step: nothing of the watch is dropped,
and whatever is published of it reaches the client at a socket that lets it through.
Then, and only then, each event of the watch that was read is on its way or came to the
client, once (`delivered_iff`). Events without a name are left out there, for parsers
skip them, and so are all events of a watch whose descriptor has a zero byte first,
which no listener sees (`Of`). -/
namespace Rnotify.Journey
open Library Registrar Dispatcher Client

variable {δ κ : Type}

/-! ### Addresses -/

/-- A dispatcher sends to the endpoint of a publisher that it was told of. -/
theorem endpoint_mem {L : Lookup} {names : Finset CString} {st : Dispatcher.State} (h : Follows names st)
    {e : InotifyEvent} {rand : Nat} {sock : DispatchSocket} {wire : Wire}
    (hsent : notifyRandomPublisher L st.info e rand = some (sock, wire)) : sock.endpoint ∈ names := by
  obtain ⟨ret, hret, hpair⟩ := Option.bind_eq_some_iff.mp hsent
  obtain ⟨_, _, hpair⟩ := Option.map_eq_some_iff.mp hpair
  rw [← (Prod.mk.inj hpair).1]
  have hmem := L.mem_of_findNode (findNode_of_socketFor h.wired hret)
  obtain ⟨pending, _, hnames⟩ := h.inbox
  rw [← hnames]
  exact Finset.mem_union_left _ (Finset.mem_union_left _ hmem)

variable [DecidableEq δ] [DecidableEq κ] {L : Lookup} {s t : State δ κ}

/-- The publishers that have registered. -/
def publishers (h : List (Label δ κ)) : List Publisher := Cluster.registrations (h.flatMap clusterLabels)

omit [DecidableEq δ] [DecidableEq κ] in
theorem publishers_concat (h : List (Label δ κ)) (a : Label δ κ) :
    publishers (h ++ [a]) = publishers h ++ Cluster.registrations (clusterLabels a) := by
  rw [publishers, List.flatMap_append, Cluster.registrations_append, List.flatMap_singleton]
  rfl

omit [DecidableEq δ] [DecidableEq κ] in
theorem acceptAddrs_concat_subset (h : List (Label δ κ)) (a : Label δ κ) :
    acceptAddrs (publishers h) ⊆ acceptAddrs (publishers (h ++ [a])) := by
  intro n hn
  obtain ⟨p, hp, rfl⟩ := mem_acceptAddrs.mp hn
  rw [publishers_concat]
  exact mem_acceptAddrs.mpr ⟨p, List.mem_append_left _ hp, rfl⟩

/-- What is in transit was sent to a publisher that registered. -/
def Addressed (h : List (Label δ κ)) (s : State δ κ) : Prop :=
  ∀ m ∈ s.transit, m.endpoint ∈ acceptAddrs (publishers h)

theorem addressed_step {h : List (Label δ κ)} (hr : (journey L δ κ).exec (journey L δ κ).initial h = some s)
    (hs : Addressed h s) {a : Label δ κ} (hstep : step L s a = some t) : Addressed (h ++ [a]) t := by
  have hold : Addressed (h ++ [a]) s := fun m hm => acceptAddrs_concat_subset h a (hs m hm)
  cases a with
  | flow l =>
    obtain ⟨_, _, _, rfl⟩ := step_flow hstep
    exact hold
  | parse d k heap rand =>
    obtain ⟨w, hw, ⟨_, rfl⟩ | ⟨e, st, sock, wire, _, hst, hsent, rfl⟩⟩ := step_parse hstep
    · exact hold
    · intro m hm
      obtain hm | hnew := List.mem_append.mp hm
      · exact hold m hm
      · have hwatch := Cluster.watches_run L d (cluster_run hr)
        rw [hst] at hwatch
        have hheard := endpoint_mem hwatch.1 hsent
        rw [List.mem_singleton.mp hnew]
        refine acceptAddrs_concat_subset h _ ?_
        rw [publishers, Cluster.acceptAddrs_eq d]
        exact Finset.mem_union_right _ hheard
  | cluster l =>
    obtain ⟨_, _, ⟨_, rfl⟩ | ⟨_, _, _, _, _, _, _, _, rfl⟩⟩ := step_cluster hstep <;> exact hold
  | drop n =>
    obtain ⟨_, _, rfl⟩ := step_drop hstep
    exact fun m hm => hold m (List.mem_of_mem_eraseIdx hm)
  | publish n p reaches =>
    obtain ⟨_, _, _, rfl⟩ := step_publish hstep
    exact fun m hm => hold m (List.mem_of_mem_eraseIdx hm)
  | listen c n heap =>
    obtain ⟨_, _, rfl⟩ := step_listen hstep
    exact hold

/-! ### Clients -/

/-- The registrar's replies to a client, in order. -/
def repliesTo (c : κ) (replies : List (κ × Wire)) : List Wire := (replies.filter fun r => r.1 = c).map Prod.snd

/-- The watch that a client asks for. -/
def Label.asks (c : κ) : Label δ κ → Option Int
  | .cluster (.subscribe c' _ wd) => if c' = c then some wd else none
  | _ => none

/-- The watch descriptors that a client was given for its files. -/
def asked (c : κ) (h : List (Label δ κ)) : List Int := h.filterMap (Label.asks c)

omit [DecidableEq δ] in
theorem asked_concat (c : κ) (h : List (Label δ κ)) (a : Label δ κ) :
    asked c (h ++ [a]) = asked c h ++ (a.asks c).toList := by
  rw [asked, List.filterMap_append]
  cases ha : a.asks c <;> simp [ha, asked]

omit [DecidableEq δ] in
theorem asked_subset (c : κ) (h : List (Label δ κ)) (a : Label δ κ) : asked c h ⊆ asked c (h ++ [a]) := by
  rw [asked_concat]
  exact List.subset_append_left ..

omit [DecidableEq κ] in
/-- What a client gets in reply. -/
theorem replies_subscribe {u v : Cluster.State δ κ} {c : κ} {path : CString} {wd : Int}
    (hstep : Cluster.step L u (.subscribe c path wd) = some v) :
    ∃ addresses, v.replies = u.replies ++ [(c, Reply.wire ⟨wd, addresses⟩)] := by
  obtain ⟨_, actions, wire, hpass, hwire, rfl⟩ := Cluster.step_subscribe L hstep
  obtain rfl := congrArg Pass.actions hpass
  obtain ⟨addresses, hsend⟩ := Subscription.reply_registerFile (part_register path _) hwire
  exact ⟨addresses, by rw [hsend, Reply.wire]⟩

omit [DecidableEq κ] in
/-- Nobody gets a reply otherwise. -/
theorem replies_quiet {u v : Cluster.State δ κ} {l : Cluster.Label δ κ} (hl : ∀ c path wd, l ≠ .subscribe c path wd)
    (hstep : Cluster.step L u l = some v) : v.replies = u.replies := by
  cases l with
  | start d =>
    obtain ⟨_, rfl⟩ := Cluster.step_start L hstep
    rfl
  | update d =>
    obtain ⟨_, _, _, _, rfl⟩ := Cluster.step_update L hstep
    rfl
  | register p =>
    obtain ⟨_, rfl⟩ := Cluster.step_register L hstep
    rfl
  | proceed => obtain ⟨_, _, rfl⟩ | ⟨_, _, rfl⟩ := Cluster.step_proceed L hstep <;> rfl
  | subscribe c path wd => exact absurd rfl (hl c path wd)

/-- A client is what `rsubscribe` made of the replies to it, of which each has the id of a watch that the client
asked for. -/
def Answered (c : κ) (h : List (Label δ κ)) (s : State δ κ) : Prop :=
  ∃ replies : List Reply, repliesTo c s.cluster.replies = replies.map Reply.wire ∧ replies.map Reply.id = asked c h ∧
    subscribed (replies.map Reply.wire) = some (s.clients c)

omit [DecidableEq δ] in
theorem answered_quiet {c : κ} {h : List (Label δ κ)} (hs : Answered c h s) {a : Label δ κ} (ha : a.asks c = none)
    (hreplies : repliesTo c t.cluster.replies = repliesTo c s.cluster.replies) (hclient : t.clients c = s.clients c) :
    Answered c (h ++ [a]) t := by
  obtain ⟨replies, hwires, hids, hrn⟩ := hs
  refine ⟨replies, hreplies.trans hwires, ?_, ?_⟩
  · rw [hids, asked_concat, ha, Option.toList_none, List.append_nil]
  · rw [hrn, hclient]

theorem answered_step {c : κ} {h : List (Label δ κ)} (hs : Answered c h s) {a : Label δ κ}
    (hstep : step L s a = some t) : Answered c (h ++ [a]) t := by
  cases a with
  | cluster l =>
    obtain ⟨next, hnext, ⟨hl, rfl⟩ | ⟨c', path, wd, reply, rn, rfl, hreply, hrn, rfl⟩⟩ := step_cluster hstep
    · refine answered_quiet hs ?_ (congrArg (repliesTo c) (replies_quiet hl hnext)) rfl
      cases l with
      | subscribe c path wd => exact absurd rfl (hl c path wd)
      | start | update | register | proceed => rfl
    · obtain ⟨addresses, hreplies⟩ := replies_subscribe hnext
      rw [hreplies, List.getLast?_concat, Option.some.injEq] at hreply
      have hto : repliesTo c next.replies = repliesTo c s.cluster.replies ++ if c' = c then [Reply.wire ⟨wd, addresses⟩] else [] := by
        rw [repliesTo, hreplies, List.filter_append, List.map_append]
        by_cases hc : c' = c <;> simp [hc, repliesTo]
      by_cases hc : c' = c
      · obtain ⟨replies, hwires, hids, hclient⟩ := hs
        refine ⟨replies ++ [⟨wd, addresses⟩], ?_, ?_, ?_⟩
        · rw [hto, hwires, if_pos hc, List.map_append, List.map_singleton]
        · rw [asked_concat, Label.asks, if_pos hc, List.map_append, hids]
          rfl
        · rw [← hreply, hc] at hrn
          rw [List.map_append, subscribed, List.foldlM_append]
          rw [subscribed] at hclient
          rw [hclient]
          simp [hrn, hc]
      · refine answered_quiet hs (if_neg hc) ?_ (Function.update_of_ne (Ne.symm hc) ..)
        rw [hto, if_neg hc, List.append_nil]
  | flow l =>
    obtain ⟨_, _, _, rfl⟩ := step_flow hstep
    exact answered_quiet hs rfl rfl rfl
  | parse d k heap rand =>
    obtain ⟨_, _, ⟨_, rfl⟩ | ⟨_, _, _, _, _, _, _, rfl⟩⟩ := step_parse hstep <;> exact answered_quiet hs rfl rfl rfl
  | drop n =>
    obtain ⟨_, _, rfl⟩ := step_drop hstep
    exact answered_quiet hs rfl rfl rfl
  | publish n p reaches =>
    obtain ⟨_, _, _, rfl⟩ := step_publish hstep
    exact answered_quiet hs rfl rfl rfl
  | listen c' n heap =>
    obtain ⟨_, _, rfl⟩ := step_listen hstep
    exact answered_quiet hs rfl rfl rfl

/-- Some of the descriptors begins, in digits, the event's own. -/
def Concerns (ids : List Int) (e : InotifyEvent) : Prop :=
  ∃ wd ∈ ids, (decimal wd).bytes <+: (decimal e.wd.toInt).bytes

theorem Concerns.mono {ids more : List Int} {e : InotifyEvent} (h : Concerns ids e) (hsub : ids ⊆ more) :
    Concerns more e := h.imp fun _ hwd => ⟨hsub hwd.1, hwd.2⟩

omit [DecidableEq δ] in
/-- A socket lets through what concerns a watch that the client asked for. -/
theorem concerns_of_hears {c : κ} {h : List (Label δ κ)} (hs : Answered c h s) {m : Message} (hm : Sent m)
    {endpoint : CString} (hears : Hears (s.clients c) endpoint m.wire) : Concerns (asked c h) m.event := by
  obtain ⟨replies, _, hids, hrn⟩ := hs
  obtain ⟨filter, hfilter, topic, htopic, hprefix⟩ := hears
  obtain ⟨r, hr, _, rfl⟩ := (mem_filtersAt hrn filter endpoint).mp hfilter
  obtain ⟨_, _, _, hhead⟩ := notify_received hm.wire
  rw [hhead, Option.mem_def, Option.some.injEq] at htopic
  rw [← htopic] at hprefix
  exact ⟨r.id, hids ▸ List.mem_map_of_mem hr, hprefix⟩

/-- Nothing comes to a client that concerns none of its watches. -/
structure Concerned (h : List (Label δ κ)) (s : State δ κ) : Prop where
  answered : ∀ c, Answered c h s
  arrived : ∀ c, ∀ m ∈ s.arrived c, Concerns (asked c h) m.event
  calls : ∀ c, ∀ e ∈ s.calls c, Concerns (asked c h) e

theorem concerned_initial : Concerned [] (journey L δ κ).initial where
  answered := fun _ => ⟨[], rfl, rfl, rfl⟩
  arrived := by simp [journey]
  calls := by simp [journey]

theorem concerned_step (hacc : Accounts s) {h : List (Label δ κ)} (hs : Concerned h s) {a : Label δ κ}
    (hstep : step L s a = some t) : Concerned (h ++ [a]) t := by
  have hanswered := fun c => answered_step (hs.answered c) hstep
  have harrived : ∀ c, ∀ m ∈ s.arrived c, Concerns (asked c (h ++ [a])) m.event := fun c m hm =>
    (hs.arrived c m hm).mono (asked_subset c h a)
  have hcalls : ∀ c, ∀ e ∈ s.calls c, Concerns (asked c (h ++ [a])) e := fun c e he =>
    (hs.calls c e he).mono (asked_subset c h a)
  cases a with
  | flow l =>
    obtain ⟨_, _, _, rfl⟩ := step_flow hstep
    exact ⟨hanswered, harrived, hcalls⟩
  | parse d k heap rand =>
    obtain ⟨_, _, ⟨_, rfl⟩ | ⟨_, _, _, _, _, _, _, rfl⟩⟩ := step_parse hstep <;> exact ⟨hanswered, harrived, hcalls⟩
  | cluster l =>
    obtain ⟨_, _, ⟨_, rfl⟩ | ⟨_, _, _, _, _, _, _, _, rfl⟩⟩ := step_cluster hstep <;>
      exact ⟨hanswered, harrived, hcalls⟩
  | drop n =>
    obtain ⟨_, _, rfl⟩ := step_drop hstep
    exact ⟨hanswered, harrived, hcalls⟩
  | publish n p reaches =>
    obtain ⟨m, hm, _, rfl⟩ := step_publish hstep
    refine ⟨hanswered, fun c m' hm' => ?_, hcalls⟩
    simp only [hear] at hm'
    split at hm'
    · next hreaches =>
      obtain hold | hnew := List.mem_append.mp hm'
      · exact harrived c m' hold
      · have hsent := hacc.transit m (List.mem_of_getElem? hm)
        rw [List.mem_singleton.mp hnew]
        exact (concerns_of_hears (hs.answered c) hsent hreaches.2).mono (asked_subset c h _)
    · exact harrived c m' hm'
  | listen c n heap =>
    obtain ⟨m, hm, rfl⟩ := step_listen hstep
    have hmem := List.mem_of_getElem? hm
    refine ⟨hanswered, fun c' m' hm' => ?_, fun c' e he => ?_⟩
    · by_cases hc : c' = c
      · rw [hc] at hm' ⊢
        simp only [Function.update_self] at hm'
        exact harrived c m' (List.mem_of_mem_eraseIdx hm')
      · simp only [Function.update_of_ne hc] at hm'
        exact harrived c' m' hm'
    · by_cases hc : c' = c
      · rw [hc] at he ⊢
        simp only [Function.update_self] at he
        obtain hold | hnew := Multiset.mem_add.mp he
        · exact hcalls c e hold
        · rw [handled_sent (hacc.arrived c m hmem), Multiset.mem_filter, Multiset.mem_singleton] at hnew
          rw [hnew.1]
          exact harrived c m hmem
      · simp only [Function.update_of_ne hc] at he
        exact hcalls c' e he

/-! ### End to end -/

variable [Fintype δ]

/-- What is known of a state that a run reaches, from the reads to the handlers. -/
structure EndToEnd (h : List (Label δ κ)) (s : State δ κ) : Prop where
  /-- Every event read is skipped, in the flow, in transit, dropped or published, and in one of these places only. -/
  read : s.flow.read = s.flow.skipped + Flow.inFlight s.flow + events s.transit + s.dropped + s.published
  /-- The events skipped are those without a name. -/
  skipped : ∀ e ∈ s.flow.skipped, ¬ Flow.Named e
  /-- What is in transit was sent to a publisher that registered. -/
  addressed : Addressed h s
  /-- A client's handler is called at most once for an event published. -/
  calls : ∀ c, s.calls c ≤ s.published
  /-- The handler is called on events of the client's watches, or of a watch whose descriptor begins like one of
  these. -/
  concerned : ∀ c, ∀ e ∈ s.calls c, Concerns (asked c h) e
  /-- The events that a handler was called on had a name, and a descriptor that does not begin with a zero byte. -/
  audible : ∀ c, ∀ e ∈ s.calls c, Flow.Named e ∧ Audible e

/-- **From the read to the handlers.** In every state that proxy, dispatchers, registrar, publishers and clients can
reach, in whatever order they take their steps and whatever is dropped on the way. -/
theorem end_to_end {h : List (Label δ κ)} (hr : (journey L δ κ).exec (journey L δ κ).initial h = some s) :
    EndToEnd h s := by
  obtain ⟨hflow, hacc⟩ := accounts_run hr
  have hconcerned : Concerned h s := by
    refine (journey L δ κ).reachable_invariant Concerned concerned_initial ?_ h s hr
    intro h s a t hr hs hstep
    exact concerned_step (accounts_run hr).2 hs hstep
  have hcalls : ∀ c, s.calls c ≤ s.published.filter Audible := fun c =>
    (Multiset.le_add_right _ _).trans (hacc.calls c)
  refine ⟨?_, hflow.skipped, ?_, fun c => (hcalls c).trans (Multiset.filter_le _ _), hconcerned.calls, ?_⟩
  · rw [hflow.conserved, hacc.passed]
    abel
  · refine (journey L δ κ).reachable_invariant Addressed (by simp [Addressed, journey]) ?_ h s hr
    intro h s a t hr hs hstep
    exact addressed_step hr hs hstep
  · intro c e he
    obtain ⟨hmem, haudible⟩ := Multiset.mem_filter.mp (Multiset.mem_of_le (hcalls c) he)
    refine ⟨hflow.notified e ?_, haudible⟩
    rw [hacc.passed]
    exact Multiset.mem_add.mpr (Or.inl (Multiset.mem_add.mpr (Or.inr hmem)))

/-! ### Every event of a watch -/

/-- An event of a watch that parsers pass on and listeners see: it has a name, and its descriptor has no zero
byte first. -/
def Of (wd : BitVec 32) (e : InotifyEvent) : Prop := e.wd = wd ∧ Flow.Named e ∧ Audible e

instance (wd : BitVec 32) (e : InotifyEvent) : Decidable (Of wd e) := inferInstanceAs (Decidable (_ ∧ _ ∧ _))

theorem filter_audible (wd : BitVec 32) (b : Multiset InotifyEvent) :
    (b.filter Audible).filter (Of wd) = b.filter (Of wd) := by
  rw [Multiset.filter_filter]
  exact Multiset.filter_congr fun e _ => and_iff_left_of_imp fun he => he.2.2

/-- The events of a watch that came to a client: its handler was called on them, or they are at its sockets. -/
def came (c : κ) (wd : BitVec 32) (s : State δ κ) : Multiset InotifyEvent :=
  (s.calls c + events (s.arrived c)).filter (Of wd)

/-- Each event of a watch that was read, if it has a name and its descriptor no zero byte first, is in the flow or
in transit, or it came to the client, once. -/
def Delivered (c : κ) (wd : BitVec 32) (s : State δ κ) : Prop :=
  s.flow.read.filter (Of wd) = (Flow.inFlight s.flow + events s.transit).filter (Of wd) + came c wd s

/-- No event of the watch that has a name, and in its descriptor no zero byte first, is dropped, and each of these
that is published reaches the client, at a socket that lets it through. -/
def Reaches (c : κ) (wd : BitVec 32) (s : State δ κ) : Label δ κ → Prop
  | .drop n => ∀ m ∈ s.transit[n]?, ¬ Of wd m.event
  | .publish n p reaches => ∀ m ∈ s.transit[n]?, Of wd m.event →
      reaches c = true ∧ Hears (s.clients c) p.publishAddr m.wire
  | _ => True

/-- None of these events was dropped or passed the client by. -/
structure Unmissed (c : κ) (wd : BitVec 32) (s : State δ κ) : Prop where
  dropped : ∀ e ∈ s.dropped, ¬ Of wd e
  published : s.published.filter (Of wd) = came c wd s

omit [DecidableEq δ] [DecidableEq κ] [Fintype δ] in
/-- What came to a client was published. -/
theorem came_le (hacc : Accounts s) (c : κ) (wd : BitVec 32) : came c wd s ≤ s.published.filter (Of wd) := by
  have hle := Multiset.filter_le_filter (Of wd) (hacc.calls c)
  rwa [Multiset.filter_add, filter_audible, filter_audible, ← Multiset.filter_add] at hle

omit [DecidableEq δ] [DecidableEq κ] in
theorem delivered_iff_unmissed (hflow : Flow.Intact s.flow) (hacc : Accounts s) (c : κ) (wd : BitVec 32) :
    Delivered c wd s ↔ Unmissed c wd s := by
  have hskipped : s.flow.skipped.filter (Of wd) = 0 :=
    Multiset.filter_eq_nil.mpr fun e he hof => hflow.skipped e he hof.2.1
  have hread : s.flow.read.filter (Of wd) = (Flow.inFlight s.flow + events s.transit).filter (Of wd) +
      (s.dropped.filter (Of wd) + s.published.filter (Of wd)) := by
    rw [hflow.conserved, hacc.passed]
    simp only [Multiset.filter_add, hskipped]
    abel
  have hle := came_le hacc c wd
  rw [Delivered, hread, add_right_inj]
  constructor
  · intro h
    rw [← h] at hle
    have hdropped : s.dropped.filter (Of wd) = 0 := le_zero_iff.mp (add_le_iff_nonpos_left.mp hle)
    refine ⟨Multiset.filter_eq_nil.mp hdropped, ?_⟩
    rw [← h, hdropped, zero_add]
  · intro h
    rw [Multiset.filter_eq_nil.mpr h.dropped, h.published, zero_add]

/-! ### What a step does to what came -/

omit [DecidableEq κ] [DecidableEq δ] [Fintype δ] in
/-- A message that is published comes to the clients that it reaches at a socket that lets it through. -/
theorem came_hear (c : κ) (wd : BitVec 32) (endpoint : CString) (reaches : κ → Bool) (m : Message) :
    came c wd { s with arrived := hear s endpoint reaches m } =
      came c wd s + if reaches c = true ∧ Hears (s.clients c) endpoint m.wire then
        Multiset.filter (Of wd) {m.event} else 0 := by
  show Multiset.filter (Of wd) (s.calls c + events (hear s endpoint reaches m c)) = _
  unfold hear
  split
  · rw [events_concat, ← add_assoc, Multiset.filter_add]
    rfl
  · exact (add_zero _).symm

omit [DecidableEq δ] [Fintype δ] in
/-- A listener calls its handler on what was at its sockets, or nothing that is of a watch. -/
theorem came_listen (hacc : Accounts s) {c : κ} {n : ℕ} {m : Message} (hm : (s.arrived c)[n]? = some m)
    (heap : Nat → Byte) (c' : κ) (wd : BitVec 32) :
    came c' wd { s with
      arrived := Function.update s.arrived c ((s.arrived c).eraseIdx n)
      calls := Function.update s.calls c (s.calls c + handled heap m.wire) } = came c' wd s := by
  by_cases hc : c' = c
  · simp only [hc, came, Function.update_self, Multiset.filter_add]
    rw [handled_sent (hacc.arrived c m (List.mem_of_getElem? hm)), filter_audible, ← events_eraseIdx hm,
      Multiset.filter_add]
    abel
  · simp only [came, Function.update_of_ne hc]

omit [DecidableEq δ] [DecidableEq κ] [Fintype δ] in
/-- A message of the watch that is published comes to the client, or there is one event more than came. -/
theorem unmissed_publish (hacc : Accounts s) (c : κ) (wd : BitVec 32) {m : Message} {endpoint : CString}
    {reaches : κ → Bool} (transit : List Message) :
    Unmissed c wd { s with
      transit := transit
      published := m.event ::ₘ s.published
      arrived := hear s endpoint reaches m } ↔
    Unmissed c wd s ∧ (Of wd m.event → reaches c = true ∧ Hears (s.clients c) endpoint m.wire) := by
  have hcame := came_hear c wd endpoint reaches m (s := s)
  have hiff : ∀ t : State δ κ, t.dropped = s.dropped →
      (t.published.filter (Of wd) = came c wd t ↔ s.published.filter (Of wd) = came c wd s) →
      (Unmissed c wd t ↔ Unmissed c wd s) := by
    intro t hdropped hpublished
    constructor
    · exact fun h => ⟨hdropped ▸ h.dropped, hpublished.mp h.published⟩
    · exact fun h => ⟨hdropped.symm ▸ h.dropped, hpublished.mpr h.published⟩
  by_cases hof : Of wd m.event
  · have hone : Multiset.filter (Of wd) {m.event} = {m.event} := by rw [Multiset.filter_singleton, if_pos hof]
    by_cases hears : reaches c = true ∧ Hears (s.clients c) endpoint m.wire
    · rw [and_iff_left fun _ => hears]
      rw [if_pos hears, hone] at hcame
      refine hiff _ rfl ?_
      show Multiset.filter (Of wd) (m.event ::ₘ s.published) = came c wd { s with arrived := _ } ↔ _
      rw [hcame, Multiset.filter_cons_of_pos _ hof, ← Multiset.singleton_add, add_comm, add_left_inj]
    · refine iff_of_false ?_ fun h => hears (h.2 hof)
      intro h
      have hle := came_le hacc c wd
      have hpublished : Multiset.filter (Of wd) (m.event ::ₘ s.published) =
          came c wd { s with arrived := hear s endpoint reaches m } := h.published
      rw [hcame, if_neg hears, add_zero, Multiset.filter_cons_of_pos _ hof] at hpublished
      rw [← hpublished] at hle
      exact absurd (Multiset.card_le_card hle) (by simp)
  · rw [and_iff_left fun h => absurd h hof]
    refine hiff _ rfl ?_
    have hzero : Multiset.filter (Of wd) {m.event} = 0 := by rw [Multiset.filter_singleton, if_neg hof]; rfl
    rw [hzero, ite_self, add_zero] at hcame
    show Multiset.filter (Of wd) (m.event ::ₘ s.published) = came c wd { s with arrived := _ } ↔ _
    rw [hcame, Multiset.filter_cons_of_neg _ hof]

omit [Fintype δ] in
/-- A step keeps an event of the watch from the client exactly when it drops it or lets it pass by. -/
theorem unmissed_step (hacc : Accounts s) (c : κ) (wd : BitVec 32) {a : Label δ κ} (hstep : step L s a = some t) :
    Unmissed c wd t ↔ Unmissed c wd s ∧ Reaches c wd s a := by
  have hquiet : ∀ u : State δ κ, u.dropped = s.dropped → u.published = s.published → came c wd u = came c wd s →
      (Unmissed c wd u ↔ Unmissed c wd s ∧ True) := by
    intro u hdropped hpublished hcame
    rw [and_true]
    constructor
    · rintro ⟨h, h'⟩
      rw [hdropped] at h
      rw [hpublished, hcame] at h'
      exact ⟨h, h'⟩
    · rintro ⟨h, h'⟩
      refine ⟨?_, ?_⟩
      · rwa [hdropped]
      · rwa [hpublished, hcame]
  cases a with
  | flow l =>
    obtain ⟨_, _, _, rfl⟩ := step_flow hstep
    exact hquiet _ rfl rfl rfl
  | parse d k heap rand =>
    obtain ⟨_, _, ⟨_, rfl⟩ | ⟨_, _, _, _, _, _, _, rfl⟩⟩ := step_parse hstep <;> exact hquiet _ rfl rfl rfl
  | cluster l =>
    obtain ⟨_, _, ⟨_, rfl⟩ | ⟨_, _, _, _, _, _, _, _, rfl⟩⟩ := step_cluster hstep <;> exact hquiet _ rfl rfl rfl
  | drop n =>
    obtain ⟨m, hm, rfl⟩ := step_drop hstep
    simp only [Reaches, hm, Option.mem_def, Option.some.injEq, forall_eq']
    constructor
    · rintro ⟨h, h'⟩
      exact ⟨⟨(Multiset.forall_mem_cons.mp h).2, h'⟩, (Multiset.forall_mem_cons.mp h).1⟩
    · rintro ⟨⟨h, h'⟩, hother⟩
      exact ⟨Multiset.forall_mem_cons.mpr ⟨hother, h⟩, h'⟩
  | publish n p reaches =>
    obtain ⟨m, hm, _, rfl⟩ := step_publish hstep
    simp only [Reaches, hm, Option.mem_def, Option.some.injEq, forall_eq']
    exact unmissed_publish hacc c wd _
  | listen c' n heap =>
    obtain ⟨m, hm, rfl⟩ := step_listen hstep
    exact hquiet _ rfl rfl (came_listen hacc hm heap c wd)

omit [Fintype δ] in
theorem unmissed_initial (c : κ) (wd : BitVec 32) : Unmissed c wd (journey L δ κ).initial where
  dropped := by simp [journey]
  published := rfl

/-- **Exactly once.** A run leaves each event of a watch that was read, if it has a name and its descriptor no zero
byte first, either on its way or with the client, at its socket or with its handler, once, exactly when in no step of
the run one of these events is dropped or published past the client. -/
theorem delivered_iff (c : κ) (wd : BitVec 32) {h : List (Label δ κ)}
    (hr : (journey L δ κ).exec (journey L δ κ).initial h = some s) :
    Delivered c wd s ↔ (journey L δ κ).Along (Reaches c wd) (journey L δ κ).initial h := by
  obtain ⟨hflow, hacc⟩ := accounts_run hr
  have hiff := (journey L δ κ).exec_iff_along (Reaches c wd)
    (fun s => ∃ h, (journey L δ κ).exec (journey L δ κ).initial h = some s) (Unmissed c wd) ?_ h _ s ⟨[], rfl⟩ hr
  · rw [delivered_iff_unmissed hflow hacc, hiff]
    exact and_iff_right (unmissed_initial c wd)
  · rintro s a t ⟨h, hr⟩ hstep
    exact ⟨⟨_, (journey L δ κ).exec_concat_some hr hstep⟩, unmissed_step (accounts_run hr).2 c wd hstep⟩

/-- A client asks for watch 1, whose next event comes to its handler. -/
def oneJourney (k : Fin 10) : List (Label Unit Unit) :=
  let wire := multiPartSend [(created 1).bytes]
  Cluster.secondHeard.map Label.cluster ++ [.cluster (.subscribe () (literal "/srv") 1)] ++
    [.flow (.read k [created 1]), .flow (.submit k), .flow (.flusherReceive wire), .flow .flush,
      .flow (.mainReceive () wire), .flow (.mainSend ()), .flow (.parserReceive () k wire),
      .parse () k (fun _ => 0) 0, .publish 0 secondPublisher fun _ => true, .listen () 0 fun _ => 0]

theorem oneJourney_run : ∃ s,
    (journey (hashRing strlen) Unit Unit).exec (journey (hashRing strlen) Unit Unit).initial (oneJourney 0) = some s ∧
    s.calls () = {created 1} := by
  refine ⟨_, rfl, ?_⟩
  have hsent : Sent ⟨created 1, secondPublisher.acceptAddr,
      multiPartSend [(decimal (created 1).wd.toInt).bytes, (created 1).bytes]⟩ :=
    ⟨by decide, by decide, notify_of_lt (by decide)⟩
  show (0 : Multiset InotifyEvent) + (handled (fun _ => 0) _ : Multiset InotifyEvent) = {created 1}
  rw [zero_add]
  exact (handled_sent hsent _).trans (by rw [Multiset.filter_singleton, if_pos (by decide)])

theorem end_to_end_oneJourney : ∃ s : State Unit Unit, s.calls () = {created 1} ∧ EndToEnd (oneJourney 0) s := by
  obtain ⟨s, hs, hcalls⟩ := oneJourney_run
  exact ⟨s, hcalls, end_to_end hs⟩

theorem delivered_iff_oneJourney : ∃ s : State Unit Unit, s.calls () = {created 1} ∧
    (Delivered () 1 s ↔ (journey (hashRing strlen) Unit Unit).Along (Reaches () 1)
      (journey (hashRing strlen) Unit Unit).initial (oneJourney 0)) := by
  obtain ⟨s, hs, hcalls⟩ := oneJourney_run
  exact ⟨s, hcalls, delivered_iff () 1 hs⟩

end Rnotify.Journey
