import Rnotify.Cluster.Model

/-! Requests and replies, one message at a time.

The cluster takes a request, the work on it and its reply in one step. Here they are
apart, as they are in the processes. A peer sends a request, whatever its frames, and
waits; the request waits at the registrar's REP socket until it is received, in any
order among those of other peers; for a file registration the registrar asks the
proxy over a socket of its own and waits; the proxy receives the path, adds the watch
and answers, in steps of its own; and a reply is on its way until its peer gets it.
In between, any other process may move. -/
namespace Rnotify.Exchange
open Library Registrar Dispatcher

/-- What the registrar does next. -/
inductive Phase (κ : Type) where
  /-- A receive on its REP socket. -/
  | receive
  /-- A receive, with the reply to a peer still owed. -/
  | silent (c : κ)
  /-- The reply to a publisher's registration. -/
  | confirm (c : κ) (p : Publisher)
  /-- The broadcast to the dispatchers. -/
  | announce (p : Publisher)
  /-- The ring, for a publisher that was announced. -/
  | enlist (p : Publisher)
  /-- The table, for a publisher that is on the ring. -/
  | record (p : Publisher)
  /-- The request to the proxy. -/
  | ask (c : κ) (path : CString)
  /-- The receive of the proxy's answer. -/
  | await (c : κ) (path : CString)
  /-- The reply to a file registration. -/
  | select (c : κ) (path id : CString)
  /-- A fault, in the service of a peer. -/
  | stopped (c : κ) (fault : Fault)

/-- What the proxy's thread does next. -/
inductive Proxy where
  /-- A receive on its REP socket. -/
  | receive
  | addWatch (fileName : CString)
  /-- The reply, with the descriptor's text. -/
  | answer (registrationId : CString)

/-- A reply to a file registration. -/
structure Answer (κ : Type) where
  client : κ
  path : CString
  wire : Wire

/-- A reply that a peer got, and what it had asked. -/
structure Obtained (κ : Type) where
  peer : κ
  frames : List Frame
  wire : Wire

structure State (δ κ : Type) where
  registrar : Registrar.State
  phase : Phase κ
  /-- The dispatchers that have started. -/
  dispatchers : δ → Option Dispatcher.State
  proxy : Proxy
  /-- The peers that wait for a reply, and the frames that each has sent. -/
  waiting : κ → Option (List Frame)
  /-- Requests sent and not yet received by the registrar. -/
  requests : List (κ × Wire)
  /-- Replies sent and not yet received. -/
  replies : List (κ × Wire)
  toProxy : List Wire
  fromProxy : List Wire
  /-- The calls of `inotify_add_watch` so far, and what they returned. -/
  watches : List (CString × Int)
  /-- The replies to file registrations that were sent so far. -/
  answers : List (Answer κ)
  /-- The replies that peers got so far. -/
  obtained : List (Obtained κ)

inductive Label (δ κ : Type) where
  /-- A dispatcher's `main`, up to its forks. -/
  | start (d : δ)
  /-- A step of a dispatcher's updater. -/
  | update (d : δ)
  /-- A peer sends a request and waits for the reply. -/
  | request (c : κ) (frames : List Frame)
  /-- The registrar receives one of the requests, up to what depends on its code. -/
  | receive (n : Nat)
  /-- The registrar's next step. -/
  | proceed
  | proxyReceive
  /-- `inotify_add_watch` returns. -/
  | addWatch (wd : Int)
  | proxyAnswer
  /-- One of the replies reaches its peer. -/
  | deliver (n : Nat)

variable {δ κ : Type} [DecidableEq δ] [DecidableEq κ]

/-- The chain of comparisons on the code, and the frames that its branches begin with. -/
def dispatchOn (c : κ) (registration : List Frame) : Phase κ :=
  match part registration 0 with
  | .error fault => .stopped c fault
  | .ok code =>
    if code = registerPublisherSanityCheck then
      match newPublisher registration with
      | .error fault => .stopped c fault
      | .ok p => .confirm c p
    else if code = registerDispatcherSanityCheck then
      match part registration 1 with
      | .error fault => .stopped c fault
      | .ok _ => .silent c
    else if code = registerFileObjectSanityCheck then
      match part registration 1 with
      | .error fault => .stopped c fault
      | .ok path => .ask c path
    else .silent c

/-- The addresses for a file: the table of its publishers, and the publish address of each. -/
def addressesFor (L : Lookup) (r : Registrar.State) (path : CString) : Except Fault (List CString) :=
  match getPublishersTable L path r.publisherRing with
  | .error fault => .error fault
  | .ok table => publishersList r.publishers table

/-- The registrar's next step after a receive. -/
def proceed (L : Lookup) (s : State δ κ) : Option (State δ κ) :=
  match s.phase with
  | .receive => none
  | .silent c => some { s with phase := .stopped c .receive }
  | .confirm c p => some { s with replies := s.replies ++ [(c, sendText registerOk)], phase := .announce p }
  | .announce p => some { s with
      dispatchers := fun d => (s.dispatchers d).map fun st => Dispatcher.deliver st (notifyDispatchers p)
      phase := .enlist p }
  | .enlist p => some { s with registrar := Registrar.enlist s.registrar p, phase := .record p }
  | .record p => some { s with registrar := Registrar.record s.registrar p, phase := .receive }
  | .ask c path => some { s with toProxy := s.toProxy ++ [sendText path], phase := .await c path }
  | .await c path =>
    match s.fromProxy with
    | [] => none
    | wire :: rest => (recvText wire).map fun id => { s with fromProxy := rest, phase := .select c path id }
  | .select c path id =>
    match addressesFor L s.registrar path with
    | .error fault => some { s with phase := .stopped c fault }
    | .ok addresses =>
      let wire := send (registerOk :: id :: addresses)
      some { s with
        replies := s.replies ++ [(c, wire)]
        answers := s.answers ++ [⟨c, path, wire⟩]
        phase := .receive }
  | .stopped _ _ => none

def step (L : Lookup) (s : State δ κ) : Label δ κ → Option (State δ κ)
  | .start d =>
    match s.dispatchers d with
    | none => some { s with dispatchers := Function.update s.dispatchers d (some Dispatcher.initial) }
    | some _ => none
  | .update d => ((s.dispatchers d).bind publisherUpdater).map fun st =>
    { s with dispatchers := Function.update s.dispatchers d (some st) }
  | .request c frames =>
    if s.waiting c = none ∧ frames ≠ [] then
      some { s with
        waiting := Function.update s.waiting c (some frames)
        requests := s.requests ++ [(c, multiPartSend frames)] }
    else none
  | .receive n =>
    match s.phase with
    | .receive => s.requests[n]?.bind fun request =>
      (multiPartReceive request.2).map fun registration =>
        { s with requests := s.requests.eraseIdx n, phase := dispatchOn request.1 registration }
    | _ => none
  | .proceed => proceed L s
  | .proxyReceive =>
    match s.proxy, s.toProxy with
    | .receive, wire :: rest => (recvText wire).map fun fileName =>
      { s with toProxy := rest, proxy := .addWatch fileName }
    | _, _ => none
  | .addWatch wd =>
    match s.proxy with
    | .addWatch fileName => some { s with
        proxy := .answer (registerNotification (fun _ => wd) fileName)
        watches := s.watches ++ [(fileName, wd)] }
    | _ => none
  | .proxyAnswer =>
    match s.proxy with
    | .answer id => some { s with proxy := .receive, fromProxy := s.fromProxy ++ [sendText id] }
    | _ => none
  | .deliver n => s.replies[n]?.bind fun reply => (s.waiting reply.1).map fun frames =>
    { s with
      waiting := Function.update s.waiting reply.1 none
      replies := s.replies.eraseIdx n
      obtained := s.obtained ++ [⟨reply.1, frames, reply.2⟩] }

/-- The registrar and the proxy run, and no peer has sent anything. -/
def exchange (L : Lookup) (δ κ : Type) [DecidableEq δ] [DecidableEq κ] : System (State δ κ) (Label δ κ) where
  initial :=
    { registrar := Registrar.initial, phase := .receive, dispatchers := fun _ => none, proxy := .receive
      waiting := fun _ => none, requests := [], replies := [], toProxy := [], fromProxy := []
      watches := [], answers := [], obtained := [] }
  step := step L

/-! ### What a step does -/

variable {L : Lookup} {s t : State δ κ}

theorem step_start {d : δ} (h : step L s (.start d) = some t) :
    s.dispatchers d = none ∧
      t = { s with dispatchers := Function.update s.dispatchers d (some Dispatcher.initial) } := by
  cases hd : s.dispatchers d with
  | some st =>
    simp only [step, hd] at h
    cases h
  | none =>
    simp only [step, hd, Option.some.injEq] at h
    exact ⟨rfl, h.symm⟩

theorem step_update {d : δ} (h : step L s (.update d) = some t) :
    ∃ st st', s.dispatchers d = some st ∧ publisherUpdater st = some st' ∧
      t = { s with dispatchers := Function.update s.dispatchers d (some st') } := by
  obtain ⟨st', hst', rfl⟩ := Option.map_eq_some_iff.mp h
  obtain ⟨st, hd, hupdate⟩ := Option.bind_eq_some_iff.mp hst'
  exact ⟨st, st', hd, hupdate, rfl⟩

theorem step_request {c : κ} {frames : List Frame} (h : step L s (.request c frames) = some t) :
    s.waiting c = none ∧ frames ≠ [] ∧ t = { s with
      waiting := Function.update s.waiting c (some frames)
      requests := s.requests ++ [(c, multiPartSend frames)] } := by
  simp only [step] at h
  split at h
  · next hguard => exact ⟨hguard.1, hguard.2, (Option.some.inj h).symm⟩
  · cases h

theorem step_receive {n : Nat} (h : step L s (.receive n) = some t) :
    s.phase = .receive ∧ ∃ request registration, s.requests[n]? = some request ∧
      multiPartReceive request.2 = some registration ∧
      t = { s with requests := s.requests.eraseIdx n, phase := dispatchOn request.1 registration } := by
  simp only [step] at h
  split at h
  · next hphase =>
    obtain ⟨request, hrequest, h⟩ := Option.bind_eq_some_iff.mp h
    obtain ⟨registration, hregistration, rfl⟩ := Option.map_eq_some_iff.mp h
    exact ⟨hphase, request, registration, hrequest, hregistration, rfl⟩
  · cases h

theorem step_proxyReceive (h : step L s .proxyReceive = some t) :
    s.proxy = .receive ∧ ∃ wire rest fileName, s.toProxy = wire :: rest ∧ recvText wire = some fileName ∧
      t = { s with toProxy := rest, proxy := .addWatch fileName } := by
  simp only [step] at h
  split at h
  · next wire rest hproxy hto =>
    obtain ⟨fileName, hname, rfl⟩ := Option.map_eq_some_iff.mp h
    exact ⟨hproxy, wire, rest, fileName, hto, hname, rfl⟩
  · cases h

theorem step_addWatch {wd : Int} (h : step L s (.addWatch wd) = some t) :
    ∃ fileName, s.proxy = .addWatch fileName ∧
      t = { s with proxy := .answer (decimal wd), watches := s.watches ++ [(fileName, wd)] } := by
  simp only [step] at h
  split at h
  · next fileName hproxy => exact ⟨fileName, hproxy, (Option.some.inj h).symm⟩
  · cases h

theorem step_proxyAnswer (h : step L s .proxyAnswer = some t) :
    ∃ id, s.proxy = .answer id ∧
      t = { s with proxy := .receive, fromProxy := s.fromProxy ++ [sendText id] } := by
  simp only [step] at h
  split at h
  · next id hproxy => exact ⟨id, hproxy, (Option.some.inj h).symm⟩
  · cases h

theorem step_deliver {n : Nat} (h : step L s (.deliver n) = some t) :
    ∃ reply frames, s.replies[n]? = some reply ∧ s.waiting reply.1 = some frames ∧ t = { s with
      waiting := Function.update s.waiting reply.1 none
      replies := s.replies.eraseIdx n
      obtained := s.obtained ++ [⟨reply.1, frames, reply.2⟩] } := by
  obtain ⟨reply, hreply, h⟩ := Option.bind_eq_some_iff.mp h
  obtain ⟨frames, hframes, rfl⟩ := Option.map_eq_some_iff.mp h
  exact ⟨reply, frames, hreply, hframes, rfl⟩

/-- The registrar's next step, by where it is. -/
inductive Proceeds (L : Lookup) (s : State δ κ) : State δ κ → Prop where
  | silent {c : κ} : s.phase = .silent c → Proceeds L s { s with phase := .stopped c .receive }
  | confirm {c : κ} {p : Publisher} : s.phase = .confirm c p →
    Proceeds L s { s with replies := s.replies ++ [(c, sendText registerOk)], phase := .announce p }
  | announce {p : Publisher} : s.phase = .announce p → Proceeds L s { s with
      dispatchers := fun d => (s.dispatchers d).map fun st => Dispatcher.deliver st (notifyDispatchers p)
      phase := .enlist p }
  | enlist {p : Publisher} : s.phase = .enlist p →
    Proceeds L s { s with registrar := Registrar.enlist s.registrar p, phase := .record p }
  | record {p : Publisher} : s.phase = .record p →
    Proceeds L s { s with registrar := Registrar.record s.registrar p, phase := .receive }
  | ask {c : κ} {path : CString} : s.phase = .ask c path →
    Proceeds L s { s with toProxy := s.toProxy ++ [sendText path], phase := .await c path }
  | await {c : κ} {path : CString} {wire : Wire} {rest : List Wire} {id : CString} :
    s.phase = .await c path → s.fromProxy = wire :: rest → recvText wire = some id →
    Proceeds L s { s with fromProxy := rest, phase := .select c path id }
  | fault {c : κ} {path id : CString} {fault : Fault} : s.phase = .select c path id →
    addressesFor L s.registrar path = .error fault → Proceeds L s { s with phase := .stopped c fault }
  | select {c : κ} {path id : CString} {addresses : List CString} : s.phase = .select c path id →
    addressesFor L s.registrar path = .ok addresses → Proceeds L s { s with
      replies := s.replies ++ [(c, send (registerOk :: id :: addresses))]
      answers := s.answers ++ [⟨c, path, send (registerOk :: id :: addresses)⟩]
      phase := .receive }

theorem step_proceed (h : step L s .proceed = some t) : Proceeds L s t := by
  have h : proceed L s = some t := h
  unfold proceed at h
  cases hphase : s.phase <;> simp only [hphase] at h
  case receive => cases h
  case stopped => cases h
  case silent c => exact Option.some.inj h ▸ .silent hphase
  case confirm c p => exact Option.some.inj h ▸ .confirm hphase
  case announce p => exact Option.some.inj h ▸ .announce hphase
  case enlist p => exact Option.some.inj h ▸ .enlist hphase
  case record p => exact Option.some.inj h ▸ .record hphase
  case ask c path => exact Option.some.inj h ▸ .ask hphase
  case await c path =>
    cases hfrom : s.fromProxy with
    | nil =>
      rw [hfrom] at h
      cases h
    | cons wire rest =>
      rw [hfrom] at h
      obtain ⟨id, hid, rfl⟩ := Option.map_eq_some_iff.mp h
      exact .await hphase hfrom hid
  case select c path id =>
    cases hlist : addressesFor L s.registrar path with
    | error fault =>
      rw [hlist] at h
      exact Option.some.inj h ▸ .fault hphase hlist
    | ok addresses =>
      rw [hlist] at h
      exact Option.some.inj h ▸ .select hphase hlist

end Rnotify.Exchange
