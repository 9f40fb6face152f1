import Rnotify.Cluster.Agreement

/-! Whether a client listens where a dispatcher sends.

Suppose that registrar and dispatcher hash the same key for an instance of a path;
the registrar's is taken for both, and since the circle is arbitrary, so is where
each key falls on it. A reply is worked out on the registrar's ring of one moment
and an event is routed on the dispatcher's ring of a later one, and consistent
hashing ties the two: if the publisher chosen later was on the first ring and the
one chosen then is on the second, they are one publisher (`Circle.owner_unique`).
The client was told of it, at the address it then had (`routed_covered`). Nothing
tells the client of a publisher that comes later, nor of one that comes back with
another port, and a dispatcher that is behind may use one that the registrar no
longer chooses (`routes_not_covered`). -/
namespace Rnotify.Cluster
open Library Registrar Dispatcher

variable {δ κ : Type} [DecidableEq δ]

/-- The addresses that a client finds in a reply. -/
def addressesOf (wire : Wire) : List CString := (((multiPartReceive wire).getD []).drop 2).map cstr

/-! ### Replies -/

theorem addressesOf_send (first second : CString) (addresses : List CString) :
    addressesOf (send (first :: second :: addresses)) = addresses := by
  rw [addressesOf, multiPartReceive_send]
  simp [Function.comp_def]

/-- A client's reply lists the publishers that the registrar selects at the time. -/
theorem subscribe_told (L : Lookup) {s t : State δ κ} {c : κ} {path : CString} {wd : Int}
    (hs : Consistent s.registrar) (hstep : step L s (.subscribe c path wd) = some t) :
    ∃ wire, t = { s with replies := s.replies ++ [(c, wire)] } ∧
      Listed L s.registrar path (addressesOf wire) := by
  obtain ⟨_, actions, wire, hpass, hreply, ht⟩ := step_subscribe L hstep
  have hpath := part_register path fun _ => wd
  have hne : s.registrar.publisherRing.Nonempty := by
    by_contra hempty
    rw [Finset.not_nonempty_iff_eq_empty] at hempty
    rw [registerFile_empty L s.registrar hempty _ _ path hpath] at hpass
    cases hpass
  obtain ⟨addresses, hlisted, hok⟩ := registerFile_ok L s.registrar hs hne (fun _ => wd) _ path hpath
  rw [hok, Pass.mk.injEq] at hpass
  rw [← hpass.1] at hreply
  have hwire : send (registerOk :: decimal wd :: addresses) = wire := Option.some.inj hreply
  refine ⟨wire, ht, ?_⟩
  rw [← hwire, addressesOf_send]
  exact hlisted

theorem replies_step (L : Lookup) {s t : State δ κ} {a : Label δ κ} (hstep : step L s a = some t) :
    s.replies <+: t.replies := by
  cases a with
  | start d =>
    obtain ⟨_, rfl⟩ := step_start L hstep
    exact List.prefix_refl _
  | update d =>
    obtain ⟨_, _, _, _, rfl⟩ := step_update L hstep
    exact List.prefix_refl _
  | register p =>
    obtain ⟨_, rfl⟩ := step_register L hstep
    exact List.prefix_refl _
  | proceed =>
    obtain ⟨_, _, rfl⟩ | ⟨_, _, rfl⟩ := step_proceed L hstep <;> exact List.prefix_refl _
  | subscribe c path wd =>
    obtain ⟨_, _, wire, _, _, rfl⟩ := step_subscribe L hstep
    exact List.prefix_append _ _

/-- No reply is taken back. -/
theorem replies_run (L : Lookup) {labels : List (Label δ κ)} {s t : State δ κ}
    (hr : (cluster L).exec s labels = some t) : s.replies <+: t.replies :=
  (cluster L).invariant (fun u => s.replies <+: u.replies)
    (fun _ _ _ hu hstep => hu.trans (replies_step L hstep)) labels s t (List.prefix_refl _) hr

/-! ### Routes -/

variable [DecidableEq κ]

/-- The addresses that a client was told in some replies. -/
def told (c : κ) (replies : List (κ × Wire)) : List CString :=
  replies.flatMap fun reply => if reply.1 = c then addressesOf reply.2 else []

/-- The socket for an event of a path, the dispatcher's key being the registrar's. -/
def route (L : Lookup) (info : PublishersInfo) (path : CString) (rand : Nat) : Option DispatchSocket :=
  socketFor L info (registrarKey path (rand % replicationFactor + 1))

/-- The publisher at the other end of a socket, as it last registered, publishes at an address that
the client was told since a state. -/
def Covered (h : List (Label δ κ)) (c : κ) (t s : State δ κ) (sock : DispatchSocket) : Prop :=
  ∃ p ∈ lastAt (registrations h) sock.endpoint, p.publishAddr ∈ told c (s.replies.drop t.replies.length)

instance (h : List (Label δ κ)) (c : κ) (t s : State δ κ) (sock : DispatchSocket) :
    Decidable (Covered h c t s sock) :=
  inferInstanceAs (Decidable (∃ p ∈ lastAt (registrations h) sock.endpoint, _))

variable {P : Type} [LinearOrder P]

/-- A publisher chosen for an event is one that the registrar selected at an earlier state, if it was
on the registrar's ring then and the dispatcher has the registrar's choice on its own. -/
theorem route_selected (C : Circle CString (List Byte) P) {info : PublishersInfo} (hinfo : Wired info)
    {ring : Ring} {path : CString} {rand : Nat} {sock : DispatchSocket}
    (hroute : route (ownerLookup C) info path rand = some sock) (hthere : sock.endpoint ∈ ring)
    (hheard : ∀ n, (ownerLookup C).findNode ring (registrarKey path (rand % replicationFactor + 1)) = some n →
      n ∈ info.publisherRing) :
    sock.endpoint ∈ selected (ownerLookup C) path ring := by
  have hchosen := findNode_of_socketFor hinfo hroute
  obtain ⟨n, _, hn⟩ := (ownerLookup C).findNode_nonempty ring ⟨_, hthere⟩
    (registrarKey path (rand % replicationFactor + 1))
  have hsame : sock.endpoint = n := C.owner_unique hchosen hn hthere (hheard n hn)
  refine (mem_selected _).mpr ⟨rand % replicationFactor + 1, mem_instances.mp (drawn_mem_instances rand), ?_⟩
  rw [hsame]
  exact hn

/-- **Routes stay covered.** A client subscribes to a path and later a dispatcher routes an event of
it. If the publisher chosen was on the registrar's ring when the client subscribed, and the dispatcher
has on its ring the one that the registrar chose then, and the publisher's last registration since, if it
has one, gave the publish address it had, the client was told where the event is published. -/
theorem routed_covered (C : Circle CString (List Byte) P) {h₁ h₂ : List (Label δ κ)} {c : κ} {path : CString}
    {wd : Int} {t s : State δ κ}
    (ht : (cluster (ownerLookup C)).exec (cluster (ownerLookup C)).initial h₁ = some t)
    (hs : (cluster (ownerLookup C)).exec (cluster (ownerLookup C)).initial
      (h₁ ++ .subscribe c path wd :: h₂) = some s)
    {d : δ} {st : Dispatcher.State} {rand : Nat} {sock : DispatchSocket} (hd : s.dispatchers d = some st)
    (hroute : route (ownerLookup C) st.info path rand = some sock)
    (hthere : sock.endpoint ∈ t.registrar.publisherRing)
    (hheard : ∀ n, (ownerLookup C).findNode t.registrar.publisherRing
      (registrarKey path (rand % replicationFactor + 1)) = some n → n ∈ st.info.publisherRing)
    (hstays : ∀ p ∈ lastAt (registrations h₂) sock.endpoint,
      ∀ q ∈ lastAt (registrations h₁) sock.endpoint, p.publishAddr = q.publishAddr) :
    Covered (h₁ ++ .subscribe c path wd :: h₂) c t s sock := by
  have hwatch := watches_run (ownerLookup C) d hs
  rw [hd] at hwatch
  have hsel := route_selected C hwatch.1.wired hroute hthere hheard
  -- the reply
  rw [(cluster _).exec_append, ht, Option.bind_some, (cluster _).exec_cons, Option.bind_eq_some_iff] at hs
  obtain ⟨u, hsub, hrest⟩ := hs
  have hholds := holds_run (ownerLookup C) ht
  rw [(step_subscribe _ hsub).1] at hholds
  obtain ⟨wire, rfl, hlisted⟩ := subscribe_told (ownerLookup C) hholds.consistent hsub
  obtain ⟨q, hq, htold⟩ := hlisted.mem _ hsel
  rw [hholds.kept] at hq
  obtain ⟨later, hlater⟩ := replies_run (ownerLookup C) hrest
  have hlog : s.replies.drop t.replies.length = (c, wire) :: later := by
    rw [← hlater, List.append_assoc, List.drop_left]
    rfl
  have hin : q.publishAddr ∈ told c (s.replies.drop t.replies.length) := by
    rw [hlog, told, List.flatMap_cons, if_pos rfl]
    exact List.mem_append_left _ htold
  -- the registrations since
  have hreg : registrations (h₁ ++ .subscribe c path wd :: h₂) = registrations h₁ ++ registrations h₂ :=
    registrations_append h₁ _
  unfold Covered
  rw [hreg, lastAt_append]
  cases hlast : lastAt (registrations h₂) sock.endpoint with
  | none => exact ⟨q, hq, hin⟩
  | some p =>
    refine ⟨p, rfl, ?_⟩
    rw [hstays p hlast q hq]
    exact hin

/-- A publisher registers. -/
def joins (p : Publisher) : List (Label Unit Unit) := [.register p, .proceed, .proceed]

/-- The dispatcher's updater processes an announcement. -/
def processed : List (Label Unit Unit) := [.update (), .update (), .update (), .update ()]

/-- The second publisher joins, and the first comes back with another publish port and then with its own. -/
def joinAndReturn : List (Label Unit Unit) :=
  joins secondPublisher ++ processed ++ joins { firstPublisher with publishPort := literal "6003" } ++
    joins firstPublisher

/-- A client that subscribes before all that, and an event that the dispatcher routes after it. -/
theorem routed_covered_joinAndReturn : ∃ t s st sock,
    (cluster (hashRing strlen)).exec (cluster (hashRing strlen)).initial startFirst = some t ∧
    (cluster (hashRing strlen)).exec (cluster (hashRing strlen)).initial
      (startFirst ++ .subscribe () (literal "/srv") 1 :: joinAndReturn) = some s ∧
    s.dispatchers () = some st ∧ secondPublisher.acceptAddr ∈ st.info.publisherRing ∧
    route (hashRing strlen) st.info (literal "/srv") 0 = some sock ∧
    Covered (startFirst ++ .subscribe () (literal "/srv") 1 :: joinAndReturn) () t s sock := by
  have hrun : ∃ t s st sock,
      (cluster (hashRing strlen)).exec (cluster (hashRing strlen)).initial startFirst = some t ∧
      (cluster (hashRing strlen)).exec (cluster (hashRing strlen)).initial
        (startFirst ++ .subscribe () (literal "/srv") 1 :: joinAndReturn) = some s ∧
      s.dispatchers () = some st ∧ secondPublisher.acceptAddr ∈ st.info.publisherRing ∧
      route (hashRing strlen) st.info (literal "/srv") 0 = some sock ∧
      sock.endpoint ∈ t.registrar.publisherRing ∧ t.registrar.publisherRing ⊆ st.info.publisherRing ∧
      ∀ p ∈ lastAt (registrations joinAndReturn) sock.endpoint,
        ∀ q ∈ lastAt (registrations startFirst) sock.endpoint, p.publishAddr = q.publishAddr :=
    ⟨_, _, _, ⟨0, firstPublisher.acceptAddr⟩, rfl, rfl, rfl, by decide, by decide, by decide, by decide, by decide⟩
  obtain ⟨t, s, st, sock, ht, hs, hd, hjoined, hroute, hthere, hsub, hstays⟩ := hrun
  refine ⟨t, s, st, sock, ht, hs, hd, hjoined, hroute, ?_⟩
  exact routed_covered (circle strlen) ht hs hd hroute hthere
    (fun n hn => hsub ((hashRing strlen).mem_of_findNode hn)) hstays

/-! ### Routes that are not covered -/

/-- The dispatcher connects and hears of the second publisher. -/
def secondHeard : List (Label Unit Unit) := [.start (), .update ()] ++ joins secondPublisher ++ processed

/-- A run with a subscription to `/srv`, after which an event of it goes where the client was not told. -/
def NotCovered (h₁ h₂ : List (Label Unit Unit)) : Prop :=
  ∃ t s st sock,
    (cluster (hashRing strlen)).exec (cluster (hashRing strlen)).initial h₁ = some t ∧
    (cluster (hashRing strlen)).exec (cluster (hashRing strlen)).initial
      (h₁ ++ .subscribe () (literal "/srv") 1 :: h₂) = some s ∧
    s.dispatchers () = some st ∧
    route (hashRing strlen) st.info (literal "/srv") 0 = some sock ∧
    ¬ Covered (h₁ ++ .subscribe () (literal "/srv") 1 :: h₂) () t s sock

/-- A publisher that joins after the subscription, one that the dispatcher still uses when the
registrar has moved on, and one that comes back with another publish port. -/
theorem routes_not_covered :
    NotCovered secondHeard (joins firstPublisher ++ processed) ∧
      NotCovered (secondHeard ++ joins firstPublisher) [] ∧
      NotCovered secondHeard (joins { secondPublisher with publishPort := literal "6003" }) := by
  refine ⟨?_, ?_, ?_⟩
  · exact ⟨_, _, _, ⟨1, firstPublisher.acceptAddr⟩, rfl, rfl, rfl, by decide, by decide⟩
  · exact ⟨_, _, _, ⟨0, secondPublisher.acceptAddr⟩, rfl, rfl, rfl, by decide, by decide⟩
  · exact ⟨_, _, _, ⟨0, secondPublisher.acceptAddr⟩, rfl, rfl, rfl, by decide, by decide⟩

end Rnotify.Cluster
