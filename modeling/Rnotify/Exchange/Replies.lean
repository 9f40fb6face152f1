import Rnotify.Exchange.Lockstep

/-! Every request has one reply.

The replies that a peer got are to its first requests, in order, and are of their
kinds; each reply that the registrar made to a file registration was got once, by the
peer that asked, or is on its way to it; and each is made of a call of
`inotify_add_watch` of its own, for the path that was asked about (`lockstep`). So no
reply is lost, made twice or given to another, whatever the order of steps. -/
namespace Rnotify.Exchange
open Library Registrar

variable {δ κ : Type}

/-! ### Replies and what they are to -/

/-- The reply to a file registration. -/
def Obtained.file (o : Obtained κ) : Option (Answer κ) :=
  match dispatchOn o.peer o.frames with
  | .ask c path => some ⟨c, path, o.wire⟩
  | _ => none

/-- A reply is REGISTER_OK, to a publisher's registration, or it is to a file's. -/
def Obtained.Fits (o : Obtained κ) : Prop :=
  (∃ p, dispatchOn o.peer o.frames = .confirm o.peer p ∧ o.wire = sendText registerOk) ∨
    ∃ path, dispatchOn o.peer o.frames = .ask o.peer path

/-- Replies on their way, with what their peers had asked. -/
def underway (waiting : κ → Option (List Frame)) (replies : List (κ × Wire)) : List (Obtained κ) :=
  replies.filterMap fun r => (waiting r.1).map fun frames => ⟨r.1, frames, r.2⟩

def State.pending (s : State δ κ) : List (Obtained κ) := underway s.waiting s.replies

/-- The replies that the registrar made, wherever they are. -/
def State.replied (s : State δ κ) : List (Obtained κ) := s.obtained ++ s.pending

theorem underway_append (waiting : κ → Option (List Frame)) (replies : List (κ × Wire)) {c : κ}
    {frames : List Frame} (hc : waiting c = some frames) (wire : Wire) :
    underway waiting (replies ++ [(c, wire)]) = underway waiting replies ++ [⟨c, frames, wire⟩] := by
  rw [underway, List.filterMap_append]
  simp [underway, hc]

theorem underway_cons {waiting : κ → Option (List Frame)} {reply : κ × Wire} {frames : List Frame}
    (h : waiting reply.1 = some frames) (replies : List (κ × Wire)) :
    underway waiting (reply :: replies) = ⟨reply.1, frames, reply.2⟩ :: underway waiting replies :=
  List.filterMap_cons_some (congrArg (Option.map _) h)

/-- What the registrar is about to reply is to what the peer had asked. -/
def Serves (waiting : κ → Option (List Frame)) : Phase κ → Prop
  | .confirm c p => ∃ frames, waiting c = some frames ∧ dispatchOn c frames = .confirm c p
  | .ask c path => ∃ frames, waiting c = some frames ∧ dispatchOn c frames = .ask c path
  | .await c path => ∃ frames, waiting c = some frames ∧ dispatchOn c frames = .ask c path
  | .select c path _ => ∃ frames, waiting c = some frames ∧ dispatchOn c frames = .ask c path
  | _ => True

theorem serves_dispatchOn {waiting : κ → Option (List Frame)} {c : κ} {frames : List Frame}
    (hc : waiting c = some frames) : Serves waiting (dispatchOn c frames) := by
  have hserving := serving_dispatchOn c frames
  have halone := alone_dispatchOn c frames
  cases hphase : dispatchOn c frames with
  | confirm c' p =>
    rw [hphase] at hserving
    obtain rfl : c' = c := List.singleton_inj.mp hserving
    exact ⟨frames, hc, hphase⟩
  | ask c' path =>
    rw [hphase] at hserving
    obtain rfl : c' = c := List.singleton_inj.mp hserving
    exact ⟨frames, hc, hphase⟩
  | await | select =>
    rw [hphase] at halone
    exact halone.elim
  | receive | silent | announce | enlist | record | stopped => trivial

/-- A request on its way is what its peer sent. -/
def Sent (waiting : κ → Option (List Frame)) (request : κ × Wire) : Prop :=
  ∃ frames, waiting request.1 = some frames ∧ frames ≠ [] ∧ request.2 = multiPartSend frames

/-- The registrar receives the frames that the peer sent. -/
theorem Sent.received {waiting : κ → Option (List Frame)} {request : κ × Wire} (h : Sent waiting request)
    {registration : List Frame} (hr : multiPartReceive request.2 = some registration) :
    waiting request.1 = some registration := by
  obtain ⟨frames, hc, hne, hwire⟩ := h
  obtain ⟨frame, rest, rfl⟩ := List.exists_cons_of_ne_nil hne
  rw [hwire, multiPartReceive_cons, Option.some.injEq] at hr
  rw [hc, hr]

/-- What is on its way or in the registrar's hands belongs to what was asked. -/
structure Accounted (s : State δ κ) : Prop where
  sent : ∀ request ∈ s.requests, Sent s.waiting request
  serves : Serves s.waiting s.phase
  fits : ∀ o ∈ s.replied, o.Fits
  once : (s.replied.filterMap Obtained.file).Perm s.answers

/-! ### Steps -/

variable {waiting : κ → Option (List Frame)} {c : κ} {s t : State δ κ}

/-- The registrar's reply goes on its way. -/
theorem replied_reply {frames : List Frame} (hframes : s.waiting c = some frames) (wire : Wire)
    (answers : List (Answer κ)) (phase : Phase κ) :
    State.replied { s with replies := s.replies ++ [(c, wire)], answers := answers, phase := phase } =
      s.replied ++ [⟨c, frames, wire⟩] := by
  show s.obtained ++ underway s.waiting (s.replies ++ [(c, wire)]) = _
  rw [underway_append s.waiting s.replies hframes wire, ← List.append_assoc]
  rfl

theorem accounted_reply (h : Accounted s) {wire : Wire} {frames : List Frame} (hframes : s.waiting c = some frames)
    (hfits : (⟨c, frames, wire⟩ : Obtained κ).Fits) {answers : List (Answer κ)}
    (hanswers : s.answers ++ (⟨c, frames, wire⟩ : Obtained κ).file.toList = answers) {phase : Phase κ}
    (hserves : Serves s.waiting phase) : Accounted { s with
      replies := s.replies ++ [(c, wire)], answers := answers, phase := phase } := by
  have hreplied := replied_reply hframes wire answers phase
  refine ⟨h.sent, hserves, ?_, ?_⟩
  · rw [hreplied]
    intro o ho
    obtain hold | hnew := List.mem_append.mp ho
    · exact h.fits o hold
    · rwa [List.mem_singleton.mp hnew]
  · rw [hreplied, List.filterMap_append]
    show List.Perm _ answers
    rw [← hanswers]
    refine List.Perm.append h.once ?_
    cases hfile : (⟨c, frames, wire⟩ : Obtained κ).file <;> simp [hfile]

/-- A peer that is nowhere. -/
theorem absent {requests serving replies : List κ} (h : c ∉ requests ++ serving ++ replies) :
    c ∉ requests ∧ c ∉ serving ∧ c ∉ replies := by
  simpa [and_assoc] using h

/-- Past a reply that reaches its peer, the peer is nowhere else. -/
theorem absent_deliver (hplaced : Placed s) {n : Nat} {reply : κ × Wire} (hreply : s.replies[n]? = some reply) :
    reply.1 ∉ s.requests.map Prod.fst ∧ reply.1 ∉ s.phase.serving ∧
      reply.1 ∉ (s.replies.eraseIdx n).map Prod.fst := by
  have honce := hplaced.once
  rw [places, (List.Perm.append_left _ ((perm_eraseIdx hreply).map Prod.fst).symm).nodup_iff, List.map_cons,
    List.perm_middle.nodup_iff] at honce
  exact absent (List.nodup_cons.mp honce).1

variable [DecidableEq κ]

/-- What happens to a peer does not matter to the requests and replies of others. -/
theorem sent_update {requests : List (κ × Wire)} (h : ∀ request ∈ requests, Sent waiting request)
    (hc : c ∉ requests.map Prod.fst) (v : Option (List Frame)) :
    ∀ request ∈ requests, Sent (Function.update waiting c v) request := by
  intro request hmem
  have hne : request.1 ≠ c := fun he => hc (List.mem_map.mpr ⟨request, hmem, he⟩)
  rw [Sent, Function.update_of_ne hne]
  exact h request hmem

theorem Serves.update {phase : Phase κ} (h : Serves waiting phase) (hc : c ∉ phase.serving)
    (v : Option (List Frame)) : Serves (Function.update waiting c v) phase := by
  cases phase with
  | confirm | ask | await | select =>
    obtain ⟨frames, hframes, hphase⟩ := h
    exact ⟨frames, by rwa [Function.update_of_ne (List.ne_of_not_mem_cons hc).symm], hphase⟩
  | receive | silent | announce | enlist | record | stopped => trivial

theorem underway_update {replies : List (κ × Wire)} (hc : c ∉ replies.map Prod.fst) (v : Option (List Frame)) :
    underway (Function.update waiting c v) replies = underway waiting replies := by
  apply List.filterMap_congr
  intro r hr
  rw [Function.update_of_ne]
  intro he
  exact hc (he ▸ List.mem_map_of_mem hr)

variable [DecidableEq δ] {L : Lookup}

theorem accounted_initial : Accounted (exchange L δ κ).initial := ⟨nofun, trivial, nofun, .refl _⟩

omit [DecidableEq δ] in
/-- A peer that does not wait yet has no reply on its way. -/
theorem replied_request (hplaced : Placed s) (hc : s.waiting c = none) (frames : List Frame)
    (requests : List (κ × Wire)) : State.replied { s with
      waiting := Function.update s.waiting c (some frames), requests := requests } = s.replied := by
  have hnot : c ∉ places s := fun hmem => (hplaced.waiting c).mp hmem hc
  obtain ⟨_, _, hreplies⟩ := absent hnot
  exact congrArg (s.obtained ++ ·) (underway_update hreplies _)

omit [DecidableEq δ] in
theorem accounted_request (hplaced : Placed s) (h : Accounted s) {frames : List Frame} (hne : frames ≠ [])
    (hc : s.waiting c = none) : Accounted { s with
      waiting := Function.update s.waiting c (some frames)
      requests := s.requests ++ [(c, multiPartSend frames)] } := by
  have hreplied := replied_request hplaced hc frames (s.requests ++ [(c, multiPartSend frames)])
  have hnot : c ∉ places s := fun hmem => (hplaced.waiting c).mp hmem hc
  obtain ⟨hrequests, hserving, _⟩ := absent hnot
  refine ⟨?_, h.serves.update hserving _, ?_, ?_⟩
  · intro request hmem
    obtain hold | hnew := List.mem_append.mp hmem
    · exact sent_update h.sent hrequests _ request hold
    · rw [List.mem_singleton.mp hnew]
      exact ⟨frames, Function.update_self .., hne, rfl⟩
  · rw [hreplied]
    exact h.fits
  · rw [hreplied]
    exact h.once

omit [DecidableEq δ] in
/-- A reply that reaches its peer was on its way before. -/
theorem replied_deliver (hplaced : Placed s) {n : Nat} {reply : κ × Wire} {frames : List Frame}
    (hreply : s.replies[n]? = some reply) (hframes : s.waiting reply.1 = some frames) : (State.replied { s with
      waiting := Function.update s.waiting reply.1 none
      replies := s.replies.eraseIdx n
      obtained := s.obtained ++ [⟨reply.1, frames, reply.2⟩] }).Perm s.replied := by
  obtain ⟨_, _, hreplies⟩ := absent_deliver hplaced hreply
  show ((s.obtained ++ [⟨reply.1, frames, reply.2⟩] : List (Obtained κ)) ++
    underway (Function.update s.waiting reply.1 none) (s.replies.eraseIdx n)).Perm _
  rw [underway_update hreplies, List.append_assoc, List.singleton_append, ← underway_cons hframes]
  exact List.Perm.append_left _ ((perm_eraseIdx hreply).filterMap _)

omit [DecidableEq δ] in
theorem accounted_deliver (hplaced : Placed s) (h : Accounted s) {n : Nat} {reply : κ × Wire}
    {frames : List Frame} (hreply : s.replies[n]? = some reply) (hframes : s.waiting reply.1 = some frames) :
    Accounted { s with
      waiting := Function.update s.waiting reply.1 none
      replies := s.replies.eraseIdx n
      obtained := s.obtained ++ [⟨reply.1, frames, reply.2⟩] } := by
  have hmoved := replied_deliver hplaced hreply hframes
  obtain ⟨hrequests, hserving, _⟩ := absent_deliver hplaced hreply
  refine ⟨sent_update h.sent hrequests _, h.serves.update hserving _, ?_, ?_⟩
  · intro o ho
    exact h.fits o (hmoved.mem_iff.mp ho)
  · exact (hmoved.filterMap _).trans h.once

theorem accounted_step (hplaced : Placed s) (h : Accounted s) {a : Label δ κ} (hstep : step L s a = some t) :
    Accounted t := by
  cases a with
  | start d =>
    obtain ⟨_, rfl⟩ := step_start hstep
    exact ⟨h.sent, h.serves, h.fits, h.once⟩
  | update d =>
    obtain ⟨_, _, _, _, rfl⟩ := step_update hstep
    exact ⟨h.sent, h.serves, h.fits, h.once⟩
  | request c frames =>
    obtain ⟨hc, hne, rfl⟩ := step_request hstep
    exact accounted_request hplaced h hne hc
  | receive n =>
    obtain ⟨_, request, registration, hrequest, hreceived, rfl⟩ := step_receive hstep
    have hsent := h.sent request (List.mem_of_getElem? hrequest)
    refine ⟨?_, serves_dispatchOn (hsent.received hreceived), h.fits, h.once⟩
    intro other hmem
    exact h.sent other (List.mem_of_mem_eraseIdx hmem)
  | proceed =>
    have hserves := h.serves
    cases step_proceed hstep with
    | silent | announce | enlist | record | fault => exact ⟨h.sent, trivial, h.fits, h.once⟩
    | ask hphase | await hphase =>
      rw [hphase] at hserves
      exact ⟨h.sent, hserves, h.fits, h.once⟩
    | confirm hphase =>
      rw [hphase] at hserves
      obtain ⟨frames, hframes, hconfirm⟩ := hserves
      refine accounted_reply h hframes (.inl ⟨_, hconfirm, rfl⟩) ?_ trivial
      simp [Obtained.file, hconfirm]
    | select hphase =>
      rw [hphase] at hserves
      obtain ⟨frames, hframes, hask⟩ := hserves
      refine accounted_reply h hframes (.inr ⟨_, hask⟩) ?_ trivial
      simp [Obtained.file, hask]
  | proxyReceive =>
    obtain ⟨_, _, _, _, _, _, rfl⟩ := step_proxyReceive hstep
    exact ⟨h.sent, h.serves, h.fits, h.once⟩
  | addWatch wd =>
    obtain ⟨_, _, rfl⟩ := step_addWatch hstep
    exact ⟨h.sent, h.serves, h.fits, h.once⟩
  | proxyAnswer =>
    obtain ⟨_, _, rfl⟩ := step_proxyAnswer hstep
    exact ⟨h.sent, h.serves, h.fits, h.once⟩
  | deliver n =>
    obtain ⟨reply, frames, hreply, hframes, rfl⟩ := step_deliver hstep
    exact accounted_deliver hplaced h hreply hframes

/-! ### Histories -/

/-- The requests that a peer sent, in order. -/
def asked (c : κ) (h : List (Label δ κ)) : List (List Frame) :=
  h.filterMap fun
    | .request c' frames => if c' = c then some frames else none
    | _ => none

/-- The replies that a peer got, in order. -/
def State.got (s : State δ κ) (c : κ) : List (Obtained κ) := s.obtained.filter (·.peer = c)

/-- What is between the peers, the registrar and the proxy, after a history. -/
structure Lockstep (h : List (Label δ κ)) (s : State δ κ) : Prop where
  /-- The replies that a peer got are to its first requests, in order, and it waits for one at most. -/
  order : ∀ c, asked c h = (s.got c).map Obtained.frames ++ (s.waiting c).toList
  /-- While it waits, its request or the reply to it is in one place. -/
  placed : Placed s
  /-- A reply is of the kind that the request asks for. -/
  fits : ∀ o ∈ s.obtained, o.Fits
  /-- Each reply made to a file registration was got once, or is on its way. -/
  once : (s.replied.filterMap Obtained.file).Perm s.answers
  /-- The calls of `inotify_add_watch` are one for each such reply and perhaps one more. -/
  watches : ∃ done, Paired done s.answers ∧ (s.watches = done ∨ ∃ last, s.watches = done ++ [last])
  /-- One message at most is between the registrar and the proxy. -/
  single : s.toProxy.length + s.fromProxy.length ≤ 1

omit [DecidableEq δ] in
theorem asked_append (c : κ) (a b : List (Label δ κ)) : asked c (a ++ b) = asked c a ++ asked c b :=
  List.filterMap_append

/-- The requests of a peer are those that it got replies to and the one that it waits on. -/
theorem order_step {h : List (Label δ κ)} {a : Label δ κ} {c : κ}
    (hs : asked c h = (s.got c).map Obtained.frames ++ (s.waiting c).toList) (hstep : step L s a = some t) :
    asked c (h ++ [a]) = (t.got c).map Obtained.frames ++ (t.waiting c).toList := by
  rw [asked_append, hs]
  cases a with
  | start d =>
    obtain ⟨_, rfl⟩ := step_start hstep
    exact List.append_nil _
  | update d =>
    obtain ⟨_, _, _, _, rfl⟩ := step_update hstep
    exact List.append_nil _
  | request c' frames =>
    obtain ⟨hnone, _, rfl⟩ := step_request hstep
    by_cases hc : c' = c
    · rw [← hc, hnone]
      simp [asked, State.got]
    · simp [asked, State.got, hc, Function.update_of_ne (Ne.symm hc)]
  | receive n =>
    obtain ⟨_, _, _, _, _, rfl⟩ := step_receive hstep
    exact List.append_nil _
  | proceed =>
    cases step_proceed hstep <;> exact List.append_nil _
  | proxyReceive =>
    obtain ⟨_, _, _, _, _, _, rfl⟩ := step_proxyReceive hstep
    exact List.append_nil _
  | addWatch wd =>
    obtain ⟨_, _, rfl⟩ := step_addWatch hstep
    exact List.append_nil _
  | proxyAnswer =>
    obtain ⟨_, _, rfl⟩ := step_proxyAnswer hstep
    exact List.append_nil _
  | deliver n =>
    obtain ⟨reply, frames, _, hframes, rfl⟩ := step_deliver hstep
    by_cases hc : reply.1 = c
    · rw [← hc, hframes]
      simp [asked, State.got]
    · simp [asked, State.got, hc, Function.update_of_ne (Ne.symm hc)]

/-- What every step keeps. -/
structure Kept (h : List (Label δ κ)) (s : State δ κ) : Prop where
  placed : Placed s
  linked : Linked s
  accounted : Accounted s
  order : ∀ c, asked c h = (s.got c).map Obtained.frames ++ (s.waiting c).toList

theorem kept_run {h : List (Label δ κ)} (hr : (exchange L δ κ).exec (exchange L δ κ).initial h = some s) :
    Kept h s := by
  refine (exchange L δ κ).history_invariant Kept ?_ ?_ h s hr
  · exact ⟨placed_initial (L := L), linked_initial (L := L), accounted_initial (L := L), fun _ => rfl⟩
  · intro h s a t hs hstep
    exact ⟨placed_step hs.placed hstep, linked_step hs.linked hstep, accounted_step hs.placed hs.accounted hstep,
      fun c => order_step (hs.order c) hstep⟩

/-- **Lockstep.** In every run, each peer's requests are answered in turn, each file registration by a reply
of its own that is made of one call of `inotify_add_watch` for its path, and none is lost or given to another. -/
theorem lockstep {h : List (Label δ κ)} (hr : (exchange L δ κ).exec (exchange L δ κ).initial h = some s) :
    Lockstep h s := by
  have hkept := kept_run hr
  obtain ⟨hwatches, hsingle⟩ := hkept.linked.watches
  refine ⟨hkept.order, hkept.placed, ?_, hkept.accounted.once, hwatches, hsingle⟩
  intro o ho
  exact hkept.accounted.fits o (List.mem_append_left _ ho)

/-- A publisher registers and a file's registration overtakes its reply. -/
def crossing : List (Label Unit Bool) :=
  [.request true (registerPublisherService (literal "10.0.0.1") 5001 6001).frames,
    .request false (register (literal "/srv") fun _ => 1).frames,
    .receive 0, .proceed, .proceed, .proceed, .proceed,
    .receive 0, .proceed, .proxyReceive, .addWatch 1, .proxyAnswer, .proceed, .proceed, .deliver 1]

theorem lockstep_crossing : ∃ s,
    (exchange (hashRing strlen) Unit Bool).exec (exchange (hashRing strlen) Unit Bool).initial crossing = some s ∧
    s.obtained.length = 1 ∧ Lockstep crossing s := by
  have hrun : ∃ s, (exchange (hashRing strlen) Unit Bool).exec (exchange (hashRing strlen) Unit Bool).initial
      crossing = some s ∧ s.obtained.length = 1 := ⟨_, rfl, by decide⟩
  obtain ⟨s, hr, hlen⟩ := hrun
  exact ⟨s, hr, hlen, lockstep hr⟩

end Rnotify.Exchange
