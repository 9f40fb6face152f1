import Rnotify.Registrar.Directory

/-! The registrar's loop over a sequence of requests.

The REP socket takes a receive only when no reply is owed; `serve` is one turn of
the loop, from the receive on, and `acceptRegistrations` the loop. Its run ends at
the first fault. `Provided` requests have the frames their kind needs and come, if
they register a file, after a publisher; on these a turn never faults, and what it
does depends on the kind alone (`serve_publisher`, `serve_file`, `serve_silent`). -/
namespace Rnotify.Registrar
open Library

variable (L : Lookup)

/-! ### Kinds of requests -/

namespace Request

/-- The string `registration[0]`. -/
def code (r : Request) : CString := cstr (r.frames.head r.nonempty)

def IsPublisher (r : Request) : Prop := r.code = registerPublisherSanityCheck
def IsDispatcher (r : Request) : Prop := r.code = registerDispatcherSanityCheck
def IsFile (r : Request) : Prop := r.code = registerFileObjectSanityCheck

instance (r : Request) : Decidable r.IsPublisher := inferInstanceAs (Decidable (_ = _))
instance (r : Request) : Decidable r.IsDispatcher := inferInstanceAs (Decidable (_ = _))
instance (r : Request) : Decidable r.IsFile := inferInstanceAs (Decidable (_ = _))

theorem part_zero (r : Request) : part r.frames 0 = .ok r.code := by
  rw [part, List.getElem?_eq_getElem (List.length_pos_of_ne_nil r.nonempty), code, List.head_eq_getElem]

theorem IsPublisher.not_file {r : Request} (h : r.IsPublisher) : ¬ r.IsFile := by
  unfold IsFile
  rw [show r.code = _ from h]
  decide

theorem IsDispatcher.not_publisher {r : Request} (h : r.IsDispatcher) : ¬ r.IsPublisher := by
  unfold IsPublisher
  rw [show r.code = _ from h]
  decide

theorem IsDispatcher.not_file {r : Request} (h : r.IsDispatcher) : ¬ r.IsFile := by
  unfold IsFile
  rw [show r.code = _ from h]
  decide

end Request

theorem register_isFile (filePath : CString) (addWatch : CString → Int) :
    (register filePath addWatch).IsFile :=
  cstr_bytes _

theorem handle_eq (s : State) (r : Request) :
    handle L s r =
      if r.IsPublisher then registerPublisher s r.frames
      else if r.IsDispatcher then registerDispatcher s r.frames
      else if r.IsFile then registerFile L r.addWatch s r.frames
      else ⟨[], .ok s⟩ := by
  simp only [handle, r.part_zero]
  rfl

theorem handle_publisher (s : State) {r : Request} (h : r.IsPublisher) :
    handle L s r = registerPublisher s r.frames := by
  rw [handle_eq, if_pos h]

theorem handle_dispatcher (s : State) {r : Request} (h : r.IsDispatcher) :
    handle L s r = registerDispatcher s r.frames := by
  rw [handle_eq, if_neg h.not_publisher, if_pos h]

theorem handle_file (s : State) {r : Request} (h : r.IsFile) :
    handle L s r = registerFile L r.addWatch s r.frames := by
  rw [handle_eq, if_neg (fun hp : r.IsPublisher => hp.not_file h), if_neg (fun hd : r.IsDispatcher => hd.not_file h),
    if_pos h]

theorem handle_other (s : State) {r : Request} (hp : ¬ r.IsPublisher) (hd : ¬ r.IsDispatcher)
    (hf : ¬ r.IsFile) : handle L s r = ⟨[], .ok s⟩ := by
  rw [handle_eq, if_neg hp, if_neg hd, if_neg hf]

/-! ### Frames -/

theorem part_ok {registration : List Frame} {k : Nat} (h : k < registration.length) :
    part registration k = .ok (cstr registration[k]) := by
  rw [part, List.getElem?_eq_getElem h]

theorem part_error {registration : List Frame} {k : Nat} (h : registration.length ≤ k) :
    part registration k = .error (.index k) := by
  rw [part, List.getElem?_eq_none h]

theorem newPublisher_ok {registration : List Frame} (h : 4 ≤ registration.length) :
    newPublisher registration =
      .ok ⟨cstr registration[1], cstr registration[2], cstr registration[3]⟩ := by
  rw [newPublisher, part_ok (k := 1) (by omega), part_ok (k := 2) (by omega), part_ok (k := 3) (by omega)]

theorem newPublisher_short {registration : List Frame} (h : registration.length < 4) :
    ∃ k, newPublisher registration = .error (.index k) := by
  unfold newPublisher
  by_cases h1 : registration.length ≤ 1
  · rw [part_error h1]
    exact ⟨1, rfl⟩
  · rw [part_ok (k := 1) (by omega)]
    by_cases h2 : registration.length ≤ 2
    · rw [part_error h2]
      exact ⟨2, rfl⟩
    · rw [part_ok (k := 2) (by omega), part_error (k := 3) (by omega)]
      exact ⟨3, rfl⟩

/-! ### The loop -/

/-- The registrar and its REP socket: whether a reply is owed. -/
structure Service where
  registrar : State
  owed : Bool

def start : Service := ⟨initial, false⟩

/-- What an operation leaves owed on the REP socket. -/
def Action.owes : Bool → Action → Bool
  | _, .receive => true
  | _, .reply _ => false
  | owed, _ => owed

/-- The socket after some operations, if it takes them all: whether a reply is owed. -/
def repAccepts : Bool → List Action → Option Bool
  | owed, [] => some owed
  | owed, .receive :: rest => if owed then none else repAccepts true rest
  | owed, .reply _ :: rest => if owed then repAccepts false rest else none
  | owed, .announce _ :: rest => repAccepts owed rest
  | owed, .watch _ _ :: rest => repAccepts owed rest

theorem repAccepts_append (owed : Bool) (a b : List Action) :
    repAccepts owed (a ++ b) = (repAccepts owed a).bind fun after => repAccepts after b := by
  induction a generalizing owed with
  | nil => rfl
  | cons action rest ih => cases action <;> cases owed <;> simp [repAccepts, ih]

structure Run where
  actions : List Action
  result : Except Fault Service

/-- One turn of the loop: the receive and the body. -/
def serve (v : Service) (r : Request) : Run :=
  if v.owed then ⟨[], .error .receive⟩
  else
    let pass := handle L v.registrar r
    let actions := .receive :: pass.actions
    ⟨actions, pass.next.map fun s => ⟨s, actions.foldl Action.owes v.owed⟩⟩

/-- `accept_registrations`. -/
def acceptRegistrations : Service → List Request → Run
  | v, [] => ⟨[], .ok v⟩
  | v, r :: rest =>
    match (serve L v r).result with
    | .error fault => ⟨(serve L v r).actions, .error fault⟩
    | .ok w => ⟨(serve L v r).actions ++ (acceptRegistrations w rest).actions,
        (acceptRegistrations w rest).result⟩

theorem acceptRegistrations_ok {v w : Service} {r : Request} {actions : List Action}
    (h : serve L v r = ⟨actions, .ok w⟩) (rest : List Request) :
    acceptRegistrations L v (r :: rest) = ⟨actions ++ (acceptRegistrations L w rest).actions,
      (acceptRegistrations L w rest).result⟩ := by
  simp only [acceptRegistrations, h]

theorem acceptRegistrations_error {v : Service} {r : Request} {actions : List Action} {fault : Fault}
    (h : serve L v r = ⟨actions, .error fault⟩) (rest : List Request) :
    acceptRegistrations L v (r :: rest) = ⟨actions, .error fault⟩ := by
  simp only [acceptRegistrations, h]

/-- With a reply owed, nothing more is received. -/
theorem serve_owed {v : Service} (h : v.owed = true) (r : Request) :
    serve L v r = ⟨[], .error .receive⟩ := by
  rw [serve, if_pos h]

/-! ### Requests in their place -/

/-- A condition on every request of a sequence, told whether a publisher registered before it. -/
def Throughout (ok : Bool → Request → Prop) : Bool → List Request → Prop
  | _, [] => True
  | seen, r :: rest => ok seen r ∧ Throughout ok (seen || decide r.IsPublisher) rest

/-- The request has the frames its kind needs, and a file is registered after a publisher. -/
def Provided (seen : Bool) (r : Request) : Prop :=
  (r.IsPublisher → 4 ≤ r.frames.length) ∧ (r.IsDispatcher → 2 ≤ r.frames.length) ∧
    (r.IsFile → 2 ≤ r.frames.length ∧ seen = true)

instance (seen : Bool) (r : Request) : Decidable (Provided seen r) :=
  inferInstanceAs (Decidable ((_ → _) ∧ (_ → _) ∧ (_ → _)))

instance (ok : Bool → Request → Prop) [∀ seen r, Decidable (ok seen r)] :
    ∀ seen reqs, Decidable (Throughout ok seen reqs)
  | _, [] => inferInstanceAs (Decidable True)
  | _, _ :: rest => @instDecidableAnd _ _ _ (instDecidableThroughout ok _ rest)

/-- Between requests: the ring and the table agree, and the ring has a node once a publisher
has registered. -/
structure Ready (seen : Bool) (s : State) : Prop where
  consistent : Consistent s
  nonempty : s.publisherRing.Nonempty ↔ seen = true

theorem ready_initial : Ready false initial := ⟨rfl, by simp [initial]⟩

theorem ready_record {seen : Bool} {s : State} (h : Ready seen s) (p : Publisher) :
    Ready true (record (enlist s p) p) := by
  refine ⟨?_, by simp [record, enlist, addNode]⟩
  show insert p.acceptAddr s.publisherRing = Table.names (s.publishers.insert p.acceptAddr p)
  rw [Table.names_insert, h.consistent]

/-! ### A turn, by kind of request -/

theorem serve_publisher {s : State} {r : Request} (hr : r.IsPublisher) (hlen : 4 ≤ r.frames.length) :
    ∃ p, newPublisher r.frames = .ok p ∧
      serve L ⟨s, false⟩ r =
        ⟨[.receive, .reply (sendText registerOk), .announce (notifyDispatchers p)],
          .ok ⟨record (enlist s p) p, false⟩⟩ := by
  refine ⟨_, newPublisher_ok hlen, ?_⟩
  simp only [serve, handle_publisher L s hr, registerPublisher, newPublisher_ok hlen]
  rfl

theorem serve_file {s : State} {r : Request} (hr : r.IsFile) (hlen : 2 ≤ r.frames.length)
    (hs : Consistent s) (hne : s.publisherRing.Nonempty) :
    ∃ path addresses, part r.frames 1 = .ok path ∧ Listed L s path addresses ∧
      serve L ⟨s, false⟩ r =
        ⟨[.receive, .watch path (decimal (r.addWatch path)),
          .reply (send (registerOk :: decimal (r.addWatch path) :: addresses))], .ok ⟨s, false⟩⟩ := by
  have hpath : part r.frames 1 = .ok (cstr r.frames[1]) := part_ok (by omega)
  obtain ⟨addresses, hlisted, hfile⟩ := registerFile_ok L s hs hne r.addWatch r.frames _ hpath
  refine ⟨_, addresses, hpath, hlisted, ?_⟩
  simp only [serve, handle_file L s hr, hfile]
  rfl

/-- Any other request is received and not answered. -/
theorem serve_silent {s : State} {r : Request} (hp : ¬ r.IsPublisher) (hf : ¬ r.IsFile)
    (hd : r.IsDispatcher → 2 ≤ r.frames.length) :
    serve L ⟨s, false⟩ r = ⟨[.receive], .ok ⟨s, true⟩⟩ := by
  have hhandle : handle L s r = ⟨[], .ok s⟩ := by
    by_cases hdisp : r.IsDispatcher
    · rw [handle_dispatcher L s hdisp, registerDispatcher, part_ok (k := 1) (by have := hd hdisp; omega)]
    · exact handle_other L s hp hdisp hf
  simp only [serve, hhandle]
  rfl

/-- A request that lacks what its kind needs stops the registrar. -/
theorem serve_broken {seen : Bool} {s : State} {r : Request} (hs : Ready seen s) (h : ¬ Provided seen r) :
    ∃ actions fault, serve L ⟨s, false⟩ r = ⟨actions, .error fault⟩ ∧ fault ≠ .receive := by
  have hfault : ∀ acts fault, handle L s r = ⟨acts, .error fault⟩ →
      serve L ⟨s, false⟩ r = ⟨.receive :: acts, .error fault⟩ := by
    intro acts fault hh
    simp only [serve, hh]
    rfl
  by_cases hp : r.IsPublisher
  · have hlen : r.frames.length < 4 := by
      by_contra hlen
      exact h ⟨fun _ => by omega, fun hd => absurd hp hd.not_publisher, fun hf => absurd hf hp.not_file⟩
    obtain ⟨k, hk⟩ := newPublisher_short hlen
    exact ⟨_, _, hfault [] (.index k) (by rw [handle_publisher L s hp, registerPublisher, hk]), by simp⟩
  · by_cases hd : r.IsDispatcher
    · have hlen : r.frames.length ≤ 1 := by
        by_contra hlen
        exact h ⟨fun hq => absurd hq hp, fun _ => by omega, fun hf => absurd hf hd.not_file⟩
      exact ⟨_, _, hfault [] (.index 1)
        (by rw [handle_dispatcher L s hd, registerDispatcher, part_error hlen]), by simp⟩
    · have hf : r.IsFile := by
        by_contra hf
        exact h ⟨fun hq => absurd hq hp, fun hq => absurd hq hd, fun hq => absurd hq hf⟩
      by_cases hlen : r.frames.length ≤ 1
      · exact ⟨_, _, hfault [] (.index 1)
          (by rw [handle_file L s hf, registerFile, part_error hlen]), by simp⟩
      · have hempty : s.publisherRing = ∅ := by
          rw [← Finset.not_nonempty_iff_eq_empty, hs.nonempty]
          intro hseen
          exact h ⟨fun hq => absurd hq hp, fun hq => absurd hq hd, fun _ => ⟨by omega, hseen⟩⟩
        have hpath : part r.frames 1 = .ok (cstr r.frames[1]) := part_ok (by omega)
        exact ⟨_, _, hfault _ .nullNode
          (by rw [handle_file L s hf, registerFile_empty L s hempty r.addWatch r.frames _ hpath]), by simp⟩

/-- What a turn does, whatever the request. -/
theorem serve_cases {seen : Bool} {s : State} (hs : Ready seen s) (r : Request) :
    ((r.IsPublisher ∨ r.IsFile) ∧ Provided seen r ∧ ∃ actions t,
      serve L ⟨s, false⟩ r = ⟨actions, .ok ⟨t, false⟩⟩ ∧ repAccepts false actions = some false ∧
        Ready (seen || decide r.IsPublisher) t) ∨
    (¬ (r.IsPublisher ∨ r.IsFile) ∧ Provided seen r ∧
      serve L ⟨s, false⟩ r = ⟨[.receive], .ok ⟨s, true⟩⟩) ∨
    (¬ Provided seen r ∧ ∃ actions fault,
      serve L ⟨s, false⟩ r = ⟨actions, .error fault⟩ ∧ fault ≠ .receive) := by
  by_cases hprov : Provided seen r
  · by_cases hp : r.IsPublisher
    · obtain ⟨p, _, hserve⟩ := serve_publisher L (s := s) hp (hprov.1 hp)
      exact .inl ⟨.inl hp, hprov, _, _, hserve, rfl, by simpa [hp] using ready_record hs p⟩
    · by_cases hf : r.IsFile
      · obtain ⟨hlen, hseen⟩ := hprov.2.2 hf
        obtain ⟨path, addresses, _, _, hserve⟩ :=
          serve_file L hf hlen hs.consistent (hs.nonempty.mpr hseen)
        exact .inl ⟨.inr hf, hprov, _, s, hserve, rfl, by simpa [hp] using hs⟩
      · exact .inr (.inl ⟨not_or.mpr ⟨hp, hf⟩, hprov, serve_silent L hp hf hprov.2.1⟩)
  · exact .inr (.inr ⟨hprov, serve_broken L hs hprov⟩)

end Rnotify.Registrar
