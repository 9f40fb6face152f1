import Rnotify.Registrar.Service

/-! What the registrar answers, over whole runs.

After any sequence of well-formed registrations the table is the directory of what
their frames describe and the ring has its keys (`run_registered`, by induction on
the sequence). A file registration that follows is answered with `REGISTER_OK`,
the id the proxy gave for its path and one address, the last one registered, for
each publisher that the ring gives for the path. -/
namespace Rnotify.Registrar
open Library

variable (L : Lookup)

/-- A publisher's registration in four frames with no `':'` in its ports, or a file's
after a publisher's. -/
def WellFormed (seen : Bool) (r : Request) : Prop :=
  (r.IsPublisher ∧ r.frames.length = 4 ∧ ∀ port ∈ r.frames.drop 2, ColonFree (cstr port)) ∨
    (r.IsFile ∧ 2 ≤ r.frames.length ∧ seen = true)

instance (seen : Bool) (r : Request) : Decidable (WellFormed seen r) :=
  inferInstanceAs (Decidable ((_ ∧ _ ∧ ∀ port ∈ _, _) ∨ (_ ∧ _ ∧ _)))

/-- What `publisher.c` sends is well formed: a port printed with `%d` has no `':'`. -/
theorem registerPublisherService_wellFormed (seen : Bool) (ip : CString) (acceptPort publishPort : Nat) :
    WellFormed seen (registerPublisherService ip acceptPort publishPort) := by
  have hport : ∀ n : Nat, ColonFree (cstr (decimal n).bytes) := by
    intro n h
    rw [cstr_bytes] at h
    exact absurd (digits_of_decimalNat h).2 (by decide)
  refine Or.inl ⟨by simp [Request.IsPublisher, Request.code, registerPublisherService], rfl, ?_⟩
  intro port hmem
  simp only [registerPublisherService, List.drop_succ_cons, List.drop_zero, List.mem_cons,
    List.not_mem_nil, or_false] at hmem
  rcases hmem with rfl | rfl
  · exact hport acceptPort
  · exact hport publishPort

/-- The publisher that a request's four frames describe: after the code its ip, its accept port and its
publish port. -/
def Request.publisher (r : Request) : Option Publisher :=
  if r.IsPublisher then
    match r.frames with
    | [_, ip, acceptPort, publishPort] =>
      some { ip := cstr ip, acceptPort := cstr acceptPort, publishPort := cstr publishPort }
    | _ => none
  else none

/-- The publishers that a sequence of requests registers, in order. -/
def registrations (reqs : List Request) : List Publisher := reqs.filterMap Request.publisher

/-- The registrar makes of the frames the publisher that they describe. -/
theorem publisher_of_newPublisher {r : Request} (hr : r.IsPublisher) (hlen : r.frames.length = 4) {p : Publisher}
    (hp : newPublisher r.frames = .ok p) : r.publisher = some p := by
  rw [newPublisher_ok (show 4 ≤ r.frames.length by omega), Except.ok.injEq] at hp
  obtain ⟨code, rest, hframes⟩ := List.exists_cons_of_ne_nil r.nonempty
  obtain ⟨ip, acceptPort, publishPort, rfl⟩ :
      ∃ ip acceptPort publishPort, rest = [ip, acceptPort, publishPort] := by
    rw [hframes, List.length_cons, Nat.add_right_cancel_iff] at hlen
    exact List.length_eq_three.mp hlen
  simp only [hframes, List.getElem_cons_succ, List.getElem_cons_zero] at hp
  simp only [Request.publisher, if_pos hr, hframes, hp]

theorem registrations_cons_publisher {r : Request} (hr : r.IsPublisher) (hlen : r.frames.length = 4)
    {p : Publisher} (hp : newPublisher r.frames = .ok p) (rest : List Request) :
    registrations (r :: rest) = p :: registrations rest := by
  simp only [registrations, List.filterMap_cons, publisher_of_newPublisher hr hlen hp]

theorem registrations_cons_file {r : Request} (hr : r.IsFile) (rest : List Request) :
    registrations (r :: rest) = registrations rest := by
  have : r.publisher = none := by
    rw [Request.publisher, if_neg fun hp : r.IsPublisher => hp.not_file hr]
  simp only [registrations, List.filterMap_cons, this]

/-- A run of well-formed requests ends, with nothing owed and its registrations recorded. -/
theorem run_registered (reqs : List Request) (seen : Bool) (ps : List Publisher) (s : State)
    (hs : Registered ps s) (hseen : seen = true → ps ≠ []) (h : Throughout WellFormed seen reqs) :
    ∃ t, (acceptRegistrations L ⟨s, false⟩ reqs).result = .ok ⟨t, false⟩ ∧
      Registered (ps ++ registrations reqs) t := by
  induction reqs generalizing seen ps s with
  | nil => exact ⟨s, rfl, by simpa [registrations] using hs⟩
  | cons r rest ih =>
    obtain ⟨hr, hrest⟩ := h
    rcases hr with ⟨hp, hlen, _⟩ | ⟨hf, hlen, hsome⟩
    · obtain ⟨p, hnew, hserve⟩ := serve_publisher L (s := s) hp (by omega)
      obtain ⟨t, ht, hreg⟩ := ih _ (ps ++ [p]) _ (registered_record hs p) (by simp) hrest
      refine ⟨t, ?_, ?_⟩
      · rw [acceptRegistrations_ok L hserve]
        exact ht
      · rwa [registrations_cons_publisher hp hlen hnew, List.append_cons]
    · have hne : s.publisherRing.Nonempty := hs.nonempty_iff.mpr (hseen hsome)
      obtain ⟨path, addresses, _, _, hserve⟩ := serve_file L hf hlen hs.consistent hne
      obtain ⟨t, ht, hreg⟩ := ih _ ps s hs (fun _ => hseen hsome) hrest
      refine ⟨t, ?_, ?_⟩
      · rw [acceptRegistrations_ok L hserve]
        exact ht
      · rwa [registrations_cons_file hf]

/-- The ports of well-formed registrations. -/
theorem registrations_colonFree (reqs : List Request) (seen : Bool) (h : Throughout WellFormed seen reqs) :
    ∀ p ∈ registrations reqs, ColonFree p.acceptPort := by
  induction reqs generalizing seen with
  | nil => exact nofun
  | cons r rest ih =>
    obtain ⟨hr, hrest⟩ := h
    rcases hr with ⟨hp, hlen, hports⟩ | ⟨hf, _, _⟩
    · have hnew := newPublisher_ok (show 4 ≤ r.frames.length by omega)
      rw [registrations_cons_publisher hp hlen hnew, List.forall_mem_cons]
      exact ⟨hports _ (List.mem_drop_iff_getElem.mpr ⟨0, by omega, rfl⟩), ih _ hrest⟩
    · rw [registrations_cons_file hf]
      exact ih _ hrest

/-- The addresses of a reply, in terms of the registrations before it: in some order, for each
publisher that the ring gives for the path, the publish address it registered last. -/
def ListsLatest (ps : List Publisher) (ring : Ring) (path : CString) (addresses : List CString) : Prop :=
  ∃ names : List CString, names.Nodup ∧ names.toFinset = selected L path ring ∧
    List.Forall₂ (fun n a => ∃ p, latest ps p.ip p.acceptPort = some p ∧
      n = p.ip ++ colon ++ p.acceptPort ∧ a = p.ip ++ colon ++ p.publishPort) names addresses

theorem Registered.listsLatest {ps : List Publisher} {s : State} (h : Registered ps s)
    (hps : ∀ p ∈ ps, ColonFree p.acceptPort) {path : CString} {addresses : List CString}
    (hl : Listed L s path addresses) : ListsLatest L ps s.publisherRing path addresses := by
  obtain ⟨names, hnodup, hnames, hall⟩ := hl
  refine ⟨names, hnodup, hnames, hall.imp ?_⟩
  rintro n a ⟨p, hp, ha⟩
  refine ⟨p, h.latest hps hp, ?_, ?_⟩
  · rw [← (lastAt_some ((h.kept n).symm.trans hp)).1, Publisher.acceptAddr, address_eq]
  · rw [ha, Publisher.publishAddr, address_eq]

/-- **Registrar replies.** After any well-formed sequence of requests the ring has the table's
names, each name is the address of the last registration with its ip and accept port, no two
registrations that differ in these share a name, and a file registration that comes next is
answered with the proxy's id for its path and the latest address of each selected publisher. -/
theorem replies_with_latest (reqs : List Request) (h : Throughout WellFormed false reqs) :
    ∃ s, (acceptRegistrations L start reqs).result = .ok ⟨s, false⟩ ∧
      s.publisherRing = Table.names s.publishers ∧
      (∀ n p, s.publishers.lookup n = some p →
        n = p.ip ++ colon ++ p.acceptPort ∧ latest (registrations reqs) p.ip p.acceptPort = some p) ∧
      (∀ p ∈ registrations reqs, s.publishers.lookup (p.ip ++ colon ++ p.acceptPort) =
        latest (registrations reqs) p.ip p.acceptPort) ∧
      (∀ p ∈ registrations reqs, ∀ q ∈ registrations reqs, p.acceptAddr = q.acceptAddr →
        p.ip = q.ip ∧ p.acceptPort = q.acceptPort) ∧
      ∀ r path, WellFormed (decide (registrations reqs ≠ [])) r → r.IsFile →
        r.frames[1]?.map cstr = some path →
        ∃ wire addresses, serve L ⟨s, false⟩ r =
            ⟨[.receive, .watch path (decimal (r.addWatch path)), .reply wire], .ok ⟨s, false⟩⟩ ∧
          multiPartReceive wire = some (registerOk.bytes :: (decimal (r.addWatch path)).bytes ::
            addresses.map CString.bytes) ∧
          ListsLatest L (registrations reqs) s.publisherRing path addresses ∧
          1 ≤ addresses.length ∧
          addresses.length ≤ min replicationFactor (Table.names s.publishers).card := by
  obtain ⟨s, hrun, hreg⟩ := run_registered L reqs false [] initial registered_initial nofun h
  rw [List.nil_append] at hreg
  have hports := registrations_colonFree reqs false h
  have hkeyed : ∀ n p, s.publishers.lookup n = some p → n = p.ip ++ colon ++ p.acceptPort := by
    intro n p hp
    rw [← (lastAt_some ((hreg.kept n).symm.trans hp)).1, Publisher.acceptAddr, address_eq]
  refine ⟨s, hrun, hreg.consistent, fun n p hp => ⟨hkeyed n p hp, hreg.latest hports hp⟩, ?_, ?_, ?_⟩
  · intro p hp
    rw [← address_eq, hreg.kept, lastAt_address hports (hports p hp)]
  · intro p hp q hq hpq
    exact address_injective (hports p hp) (hports q hq) hpq
  · intro r path hr hf hpath
    have hwf : 2 ≤ r.frames.length ∧ registrations reqs ≠ [] := by
      rcases hr with ⟨hp, _⟩ | ⟨_, hlen, hsome⟩
      · exact absurd hf hp.not_file
      · exact ⟨hlen, of_decide_eq_true hsome⟩
    have hne := hreg.nonempty_iff.mpr hwf.2
    obtain ⟨path', addresses, hpath', hlisted, hserve⟩ := serve_file L hf hwf.1 hreg.consistent hne
    obtain ⟨frame, hframe, hcstr⟩ := Option.map_eq_some_iff.mp hpath
    simp only [part, hframe, hcstr, Except.ok.injEq] at hpath'
    subst hpath'
    refine ⟨_, addresses, hserve, multiPartReceive_send _ _, hreg.listsLatest L hports hlisted, ?_, ?_⟩
    · rw [hlisted.length]
      exact (selected_nonempty L path hne).card_pos
    · rw [hlisted.length, ← hreg.consistent]
      exact le_min (selected_card_le L path _) (Finset.card_le_card (selected_subset L path _))

/-- Two publishers, the first of which comes back with another publish port. -/
def enrolments : List Request :=
  [registerPublisherService (literal "10.0.0.1") 5001 6001, registerPublisherService (literal "10.0.0.2") 5001 6002,
    registerPublisherService (literal "10.0.0.1") 5001 6003]

/-- The publishers that these register. -/
def enrolled : List Publisher :=
  [⟨literal "tcp://10.0.0.1", literal "5001", literal "6001"⟩,
    ⟨literal "tcp://10.0.0.2", literal "5001", literal "6002"⟩,
    ⟨literal "tcp://10.0.0.1", literal "5001", literal "6003"⟩]

theorem replies_with_latest_enrolments :
    Throughout WellFormed false enrolments ∧ registrations enrolments = enrolled ∧
      ∃ s wire addresses,
        (acceptRegistrations (hashRing strlen) start enrolments).result = .ok ⟨s, false⟩ ∧
        (serve (hashRing strlen) ⟨s, false⟩ (register (literal "/srv") fun _ => 1)).actions =
          [.receive, .watch (literal "/srv") (decimal 1), .reply wire] ∧
        ListsLatest (hashRing strlen) enrolled s.publisherRing (literal "/srv") addresses := by
  have hregistered : registrations enrolments = enrolled := by decide
  refine ⟨by decide, hregistered, ?_⟩
  obtain ⟨s, hrun, _, _, _, _, hfile⟩ := replies_with_latest (hashRing strlen) enrolments (by decide)
  obtain ⟨wire, addresses, hserve, _, hlists, _⟩ :=
    hfile (register (literal "/srv") fun _ => 1) (literal "/srv") (by decide) (by decide) (by decide)
  rw [hregistered] at hlists
  exact ⟨s, wire, addresses, hrun, by rw [hserve]; rfl, hlists⟩

end Rnotify.Registrar
