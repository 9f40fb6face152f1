import Rnotify.Exchange.Refinement
import Rnotify.Library.Places
import Rnotify.Library.Progress

/-! What the processes do when no more is asked of them.

The system's own steps are all but the start of a dispatcher and a new request.
Each of them lowers a rank: a request is worth more than what it turns into, a
broadcast being worth its steps at every dispatcher (`rank_step`). So a run of own
steps comes to an end, whichever steps it chooses. Where it ends, the registrar is at
its receive and nobody waits, unless it was stopped, and it is not stopped by a
publisher's registration in four frames, nor by a file's while there is a publisher
(`served`). -/
namespace Rnotify.Exchange
open Library Registrar Dispatcher

variable {δ κ : Type}

/-! ### The rank -/

/-- All but what the surroundings do. -/
def Label.own : Label δ κ → Prop
  | .start _ => False
  | .request _ _ => False
  | _ => True

/-- The steps of a dispatcher's updater, without new announcements. -/
def updaterRank : Updater → ℕ
  | .connect => 1
  | .receive => 0
  | .addNode _ => 3
  | .createSocket _ => 2
  | .insert _ _ => 1

def dispatcherRank : Option Dispatcher.State → ℕ
  | none => 0
  | some st => updaterRank st.updater + 4 * st.inbox.length

/-- What is left of the work on a request, a broadcast reaching `n` dispatchers. -/
def Phase.rank (n : ℕ) : Phase κ → ℕ
  | .receive => 0
  | .silent _ => 1
  | .confirm _ _ => 5 + 4 * n
  | .announce _ => 3 + 4 * n
  | .enlist _ => 2
  | .record _ => 1
  | .ask _ _ => 7
  | .await _ _ => 3
  | .select _ _ _ => 2
  | .stopped _ _ => 0

def Proxy.rank : Proxy → ℕ
  | .receive => 0
  | .addWatch _ => 2
  | .answer _ => 1

theorem rank_dispatchOn (c : κ) (registration : List Frame) (n : ℕ) :
    (dispatchOn c registration).rank n < 8 + 4 * n := by
  unfold dispatchOn
  repeat' split
  all_goals
    simp only [Phase.rank]
    omega

/-- A step of the updater. -/
theorem dispatcherRank_update {st st' : Dispatcher.State} (h : publisherUpdater st = some st') :
    dispatcherRank (some st') < dispatcherRank (some st) := by
  obtain ⟨hu, rfl⟩ | ⟨wire, rest, addr, hu, hinbox, _, rfl⟩ | ⟨addr, hu, rfl⟩ | ⟨addr, hu, rfl⟩ | ⟨addr, sock, hu, rfl⟩ :=
    publisherUpdater_cases h
  all_goals simp only [dispatcherRank, updaterRank, hu]
  · omega
  · rw [hinbox, List.length_cons]
    omega
  all_goals omega

/-- An announcement is four steps more. -/
theorem dispatcherRank_deliver (st : Option Dispatcher.State) (wire : Wire) :
    dispatcherRank (st.map fun st => Dispatcher.deliver st wire) ≤ dispatcherRank st + 4 := by
  cases st with
  | none => exact Nat.zero_le _
  | some st =>
    simp only [Option.map_some, dispatcherRank, deliver_updater]
    unfold Dispatcher.deliver
    split
    · omega
    · simp only [List.length_append, List.length_singleton]
      omega

section Rank
variable [Fintype δ]

def State.rank (s : State δ κ) : ℕ :=
  (8 + 4 * Fintype.card δ) * s.requests.length + s.phase.rank (Fintype.card δ) + s.replies.length +
    3 * s.toProxy.length + s.proxy.rank + ∑ d, dispatcherRank (s.dispatchers d)

theorem sum_deliver (dispatchers : δ → Option Dispatcher.State) (wire : Wire) :
    ∑ d, dispatcherRank ((dispatchers d).map fun st => Dispatcher.deliver st wire) ≤
      ∑ d, dispatcherRank (dispatchers d) + 4 * Fintype.card δ := by
  calc ∑ d, dispatcherRank ((dispatchers d).map fun st => Dispatcher.deliver st wire)
      ≤ ∑ d, (dispatcherRank (dispatchers d) + 4) := Finset.sum_le_sum fun d _ => dispatcherRank_deliver _ wire
    _ = ∑ d, dispatcherRank (dispatchers d) + 4 * Fintype.card δ := by
        rw [Finset.sum_add_distrib, Finset.sum_const, Finset.card_univ, smul_eq_mul, mul_comm]

variable {L : Lookup} {s t : State δ κ}

theorem rank_proceed (hstep : Proceeds L s t) : t.rank < s.rank := by
  cases hstep with
  | silent hphase | enlist hphase | record hphase | fault hphase =>
    simp only [State.rank, hphase, Phase.rank]
    omega
  | confirm hphase | select hphase =>
    simp only [State.rank, hphase, Phase.rank, List.length_append, List.length_singleton]
    omega
  | @announce p hphase =>
    have hsum := sum_deliver s.dispatchers (notifyDispatchers p)
    simp only [State.rank, hphase, Phase.rank]
    omega
  | ask hphase =>
    simp only [State.rank, hphase, Phase.rank, List.length_append, List.length_singleton]
    omega
  | await hphase =>
    simp only [State.rank, hphase, Phase.rank]
    omega

variable [DecidableEq δ] [DecidableEq κ]

theorem rank_step {a : Label δ κ} (hown : a.own) (hstep : step L s a = some t) : t.rank < s.rank := by
  cases a with
  | start | request => exact hown.elim
  | update d =>
    obtain ⟨st, st', hd, hupdate, rfl⟩ := step_update hstep
    obtain ⟨c, hc⟩ := Nat.exists_eq_add_of_lt (dispatcherRank_update hupdate)
    rw [← hd, Nat.add_assoc] at hc
    have hsum : ∑ j, dispatcherRank (Function.update s.dispatchers d (some st') j) + (c + 1) =
      ∑ j, dispatcherRank (s.dispatchers j) := total_remove hc.symm
    simp only [State.rank]
    omega
  | receive n =>
    obtain ⟨hphase, request, registration, hrequest, _, rfl⟩ := step_receive hstep
    have hlen := (perm_eraseIdx hrequest).length_eq
    have hrank := rank_dispatchOn request.1 registration (Fintype.card δ)
    have hreceive : s.phase.rank (Fintype.card δ) = 0 := by
      rw [hphase]
      rfl
    simp only [State.rank, hreceive, ← hlen, List.length_cons, Nat.mul_succ]
    omega
  | proceed => exact rank_proceed (step_proceed hstep)
  | proxyReceive =>
    obtain ⟨hproxy, wire, rest, fileName, hto, _, rfl⟩ := step_proxyReceive hstep
    simp only [State.rank, hproxy, hto, Proxy.rank, List.length_cons]
    omega
  | addWatch wd =>
    obtain ⟨fileName, hproxy, rfl⟩ := step_addWatch hstep
    simp only [State.rank, hproxy, Proxy.rank]
    omega
  | proxyAnswer =>
    obtain ⟨id, hproxy, rfl⟩ := step_proxyAnswer hstep
    simp only [State.rank, hproxy, Proxy.rank]
    omega
  | deliver n =>
    obtain ⟨reply, frames, hreply, _, rfl⟩ := step_deliver hstep
    have hlen := (perm_eraseIdx hreply).length_eq
    simp only [State.rank, ← hlen, List.length_cons]
    omega

end Rank

/-! ### A registrar that is not stopped -/

/-- The frames that the registrar can do with: a publisher's registration of four, or a file's of two when the
ring has a publisher. -/
def Proper (r : Registrar.State) (frames : List Frame) : Prop :=
  part frames 0 = .ok registerPublisherSanityCheck ∧ 4 ≤ frames.length ∨
    part frames 0 = .ok registerFileObjectSanityCheck ∧ 2 ≤ frames.length ∧ r.publisherRing.Nonempty

instance (r : Registrar.State) (frames : List Frame) : Decidable (Proper r frames) :=
  inferInstanceAs (Decidable (_ ∧ _ ∨ _ ∧ _ ∧ _))

/-- The registrar is at no request that it would stop at, or leave unanswered. -/
def Phase.Able (r : Registrar.State) : Phase κ → Prop
  | .silent _ => False
  | .ask _ _ => r.publisherRing.Nonempty
  | .await _ _ => r.publisherRing.Nonempty
  | .select _ _ _ => r.publisherRing.Nonempty
  | .stopped _ _ => False
  | _ => True

theorem able_dispatchOn {r : Registrar.State} {frames : List Frame} (h : Proper r frames) (c : κ) :
    (dispatchOn c frames).Able r := by
  obtain ⟨hcode, hlen⟩ | ⟨hcode, hlen, hne⟩ := h
  · simp only [dispatchOn, hcode, if_pos, newPublisher_ok hlen]
    trivial
  · have hp : registerFileObjectSanityCheck ≠ registerPublisherSanityCheck := by decide
    have hd : registerFileObjectSanityCheck ≠ registerDispatcherSanityCheck := by decide
    have hpath : part frames 1 = .ok (cstr frames[1]) := part_ok (by omega)
    simp only [dispatchOn, hcode, if_neg hp, if_neg hd, if_pos, hpath]
    exact hne

structure Able (s : State δ κ) : Prop where
  phase : s.phase.Able s.registrar
  requests : ∀ request ∈ s.requests, ∃ frames, s.waiting request.1 = some frames ∧ Proper s.registrar frames

/-- A label that asks nothing improper. -/
def Asks (s : State δ κ) : Label δ κ → Prop
  | .request _ frames => Proper s.registrar frames
  | _ => True

instance (s : State δ κ) : ∀ a, Decidable (Asks s a)
  | .request _ frames => inferInstanceAs (Decidable (Proper s.registrar frames))
  | .start _ | .update _ | .receive _ | .proceed | .proxyReceive | .addWatch _ | .proxyAnswer | .deliver _ =>
    isTrue trivial

/-- A larger ring serves as well. -/
theorem Proper.mono {r r' : Registrar.State} (hsub : r.publisherRing ⊆ r'.publisherRing) {frames : List Frame}
    (h : Proper r frames) : Proper r' frames :=
  h.imp_right fun hfile => ⟨hfile.1, hfile.2.1, hfile.2.2.mono hsub⟩

theorem requests_mono {r r' : Registrar.State} (hsub : r.publisherRing ⊆ r'.publisherRing)
    {waiting : κ → Option (List Frame)} {requests : List (κ × Wire)}
    (h : ∀ request ∈ requests, ∃ frames, waiting request.1 = some frames ∧ Proper r frames) :
    ∀ request ∈ requests, ∃ frames, waiting request.1 = some frames ∧ Proper r' frames := by
  intro request hmem
  obtain ⟨frames, hframes, hproper⟩ := h request hmem
  exact ⟨frames, hframes, hproper.mono hsub⟩

variable {L : Lookup} {s t : State δ κ}

/-- The addresses are found when the ring and the table agree. -/
theorem addressesFor_ok {r : Registrar.State} (hr : Consistent r) (hne : r.publisherRing.Nonempty)
    (path : CString) : ∃ addresses, addressesFor L r path = .ok addresses := by
  obtain ⟨table, htable, hnames⟩ := getPublishersTable_ok L path hne
  have hsub : Table.names table ⊆ Table.names r.publishers := by
    rw [hnames, ← hr]
    exact selected_subset L path r.publisherRing
  obtain ⟨addresses, haddresses, _⟩ := publishersList_ok r.publishers table hsub
  refine ⟨addresses, ?_⟩
  simp only [addressesFor, htable, haddresses]

theorem able_proceed (hconsistent : s.phase.abs = .receive → Consistent s.registrar) (h : Able s)
    (hstep : Proceeds L s t) : Able t := by
  have hphase := h.phase
  cases hstep with
  | silent hs =>
    rw [hs] at hphase
    exact hphase.elim
  | confirm | announce | record => exact ⟨trivial, h.requests⟩
  | enlist => exact ⟨trivial, requests_mono (Finset.subset_insert _ _) h.requests⟩
  | ask hs | await hs =>
    rw [hs] at hphase
    exact ⟨hphase, h.requests⟩
  | select => exact ⟨trivial, h.requests⟩
  | fault hs hfault =>
    rw [hs] at hphase hconsistent
    obtain ⟨addresses, haddresses⟩ := addressesFor_ok (L := L) (hconsistent rfl) hphase _
    rw [hfault] at haddresses
    cases haddresses

variable [DecidableEq κ] [DecidableEq δ]

theorem able_step (hplaced : Placed s) (haccounted : Accounted s)
    (hconsistent : s.phase.abs = .receive → Consistent s.registrar) (h : Able s) {a : Label δ κ} (ha : Asks s a)
    (hstep : step L s a = some t) : Able t := by
  cases a with
  | start d =>
    obtain ⟨_, rfl⟩ := step_start hstep
    exact ⟨h.phase, h.requests⟩
  | update d =>
    obtain ⟨_, _, _, _, rfl⟩ := step_update hstep
    exact ⟨h.phase, h.requests⟩
  | request c frames =>
    obtain ⟨hc, _, rfl⟩ := step_request hstep
    have hnot : c ∉ places s := fun hmem => (hplaced.waiting c).mp hmem hc
    obtain ⟨hrequests, _, _⟩ := absent hnot
    refine ⟨h.phase, ?_⟩
    intro request hmem
    obtain hold | hnew := List.mem_append.mp hmem
    · have hne : request.1 ≠ c := fun he => hrequests (List.mem_map.mpr ⟨request, hold, he⟩)
      show ∃ frames', Function.update s.waiting c (some frames) request.1 = some frames' ∧ _
      rw [Function.update_of_ne hne]
      exact h.requests request hold
    · rw [List.mem_singleton.mp hnew]
      exact ⟨frames, Function.update_self .., ha⟩
  | receive n =>
    obtain ⟨hphase, request, registration, hrequest, hreceived, rfl⟩ := step_receive hstep
    have hmem := List.mem_of_getElem? hrequest
    obtain ⟨frames, hframes, hproper⟩ := h.requests request hmem
    have hregistration := (haccounted.sent request hmem).received hreceived
    rw [hframes, Option.some.injEq] at hregistration
    rw [← hregistration]
    refine ⟨able_dispatchOn hproper request.1, ?_⟩
    intro other hother
    exact h.requests other (List.mem_of_mem_eraseIdx hother)
  | proceed => exact able_proceed hconsistent h (step_proceed hstep)
  | proxyReceive =>
    obtain ⟨_, _, _, _, _, _, rfl⟩ := step_proxyReceive hstep
    exact ⟨h.phase, h.requests⟩
  | addWatch wd =>
    obtain ⟨_, _, rfl⟩ := step_addWatch hstep
    exact ⟨h.phase, h.requests⟩
  | proxyAnswer =>
    obtain ⟨_, _, rfl⟩ := step_proxyAnswer hstep
    exact ⟨h.phase, h.requests⟩
  | deliver n =>
    obtain ⟨reply, frames, hreply, hframes, rfl⟩ := step_deliver hstep
    obtain ⟨hrequests, _, _⟩ := absent_deliver hplaced hreply
    refine ⟨h.phase, ?_⟩
    intro request hmem
    have hne : request.1 ≠ reply.1 := fun he => hrequests (List.mem_map.mpr ⟨request, hmem, he⟩)
    show ∃ frames', Function.update s.waiting reply.1 none request.1 = some frames' ∧ _
    rw [Function.update_of_ne hne]
    exact h.requests request hmem

/-! ### Where it ends -/

/-- A dispatcher whose updater cannot move has processed all that it was sent. -/
theorem resting_of_stuck {names : Finset CString} {st : Dispatcher.State} (h : Follows names st)
    (hstuck : publisherUpdater st = none) : Resting st := by
  obtain ⟨pending, hinbox, _⟩ := h.inbox
  obtain ⟨info, updater, inbox, sockets⟩ := st
  cases updater with
  | connect | addNode | createSocket | insert => cases hstuck
  | receive =>
    cases pending with
    | nil => exact ⟨hinbox, .inr rfl⟩
    | cons addr rest =>
      obtain rfl : inbox = sendText addr :: rest.map sendText := hinbox
      simp [publisherUpdater] at hstuck

/-- The registrar is at its receive: in any other phase it or the proxy can move. -/
theorem settled_phase (hlinked : Linked s) (hable : Able s)
    (hsettled : (exchange L δ κ).Settled Label.own s) : s.phase = .receive := by
  have hproceed : proceed L s = none := hsettled .proceed trivial
  have hphase := hable.phase
  cases hs : s.phase with
  | receive => rfl
  | silent | stopped =>
    rw [hs] at hphase
    exact hphase.elim
  | confirm | announce | enlist | record | ask =>
    simp only [proceed, hs] at hproceed
    cases hproceed
  | select c path id =>
    simp only [proceed, hs] at hproceed
    split at hproceed <;> cases hproceed
  | await c path =>
    cases hlinked with
    | alone halone =>
      rw [hs] at halone
      exact halone.elim
    | asked _ hto hproxy =>
      have hreceive : step L s .proxyReceive = none := hsettled .proxyReceive trivial
      simp [step, hproxy, hto] at hreceive
    | received _ _ hproxy =>
      have hadd : step L s (.addWatch 0) = none := hsettled (.addWatch 0) trivial
      simp [step, hproxy] at hadd
    | added _ _ hproxy =>
      have hanswer : step L s .proxyAnswer = none := hsettled .proxyAnswer trivial
      simp [step, hproxy] at hanswer
    | answered _ _ _ hfrom => simp [proceed, hs, hfrom] at hproceed
    | selecting hother | failed hother =>
      rw [hother] at hs
      cases hs

/-- No request waits for a registrar that is at its receive. -/
theorem settled_requests (haccounted : Accounted s) (hphase : s.phase = .receive)
    (hsettled : (exchange L δ κ).Settled Label.own s) : s.requests = [] := by
  cases hrequests : s.requests with
  | nil => rfl
  | cons request rest =>
    have hreceive : step L s (.receive 0) = none := hsettled (.receive 0) trivial
    obtain ⟨frames, _, hne, hwire⟩ := haccounted.sent request (by rw [hrequests]; exact List.mem_cons_self)
    obtain ⟨frame, others, rfl⟩ := List.exists_cons_of_ne_nil hne
    simp [step, hphase, hrequests, hwire] at hreceive

/-- No reply waits for its peer. -/
theorem settled_replies (hplaced : Placed s) (hsettled : (exchange L δ κ).Settled Label.own s) : s.replies = [] := by
  cases hreplies : s.replies with
  | nil => rfl
  | cons reply rest =>
    have hdeliver : step L s (.deliver 0) = none := hsettled (.deliver 0) trivial
    have hmem : reply.1 ∈ places s := by simp [places, hreplies]
    obtain ⟨frames, hframes⟩ := Option.ne_none_iff_exists'.mp ((hplaced.waiting reply.1).mp hmem)
    simp [step, hreplies, hframes] at hdeliver

/-- Nobody waits. -/
theorem settled_waiting {h : List (Label δ κ)} (hkept : Kept h s) (hable : Able s) (hsettled : (exchange L δ κ).Settled Label.own s)
    (c : κ) : s.waiting c = none := by
  have hphase := settled_phase hkept.linked hable hsettled
  by_contra hc
  have hmem := (hkept.placed.waiting c).mpr hc
  rw [places, settled_requests hkept.accounted hphase hsettled, hphase, settled_replies hkept.placed hsettled] at hmem
  cases hmem

/-! ### Runs -/

/-- A state that a run leads to and in which the registrar is not stopped. -/
def Reached (L : Lookup) (s : State δ κ) : Prop :=
  (∃ h, (exchange L δ κ).exec (exchange L δ κ).initial h = some s) ∧ Able s

theorem reached_step (h : Reached L s) {a : Label δ κ} (ha : Asks s a) (hstep : step L s a = some t) :
    Reached L t := by
  obtain ⟨⟨run, hr⟩, hable⟩ := h
  have hkept := kept_run hr
  refine ⟨⟨run ++ [a], (exchange L δ κ).exec_concat_some hr hstep⟩, ?_⟩
  exact able_step hkept.placed hkept.accounted (fun hphase => (registered_run hr hphase).consistent) hable ha hstep

theorem reached_run {h : List (Label δ κ)} (hr : (exchange L δ κ).exec (exchange L δ κ).initial h = some s)
    (hasks : (exchange L δ κ).Along Asks (exchange L δ κ).initial h) : Reached L s :=
  (exchange L δ κ).invariant_along Asks (Reached L) (fun _ _ _ hs ha hstep => reached_step hs ha hstep) h _ s
    ⟨⟨[], rfl⟩, trivial, nofun⟩ hasks hr

omit [DecidableEq κ] [DecidableEq δ] in
theorem asks_own {a : Label δ κ} (ha : a.own) : Asks s a := by
  cases a with
  | request => exact ha.elim
  | start | update | receive | proceed | proxyReceive | addWatch | proxyAnswer | deliver => trivial

omit [DecidableEq δ] in
theorem asked_own {labels : List (Label δ κ)} (hown : ∀ a ∈ labels, a.own) (c : κ) : asked c labels = [] := by
  apply List.filterMap_eq_nil_iff.mpr
  intro a ha
  have howns := hown a ha
  cases a with
  | request => exact howns.elim
  | start | update | receive | proceed | proxyReceive | addWatch | proxyAnswer | deliver => rfl

/-- Own steps lower the rank. -/
theorem ranked [Fintype δ] (L : Lookup) : (exchange L δ κ).Ranked Label.own (Reached L) State.rank where
  keeps := fun _ _ _ hs ha hstep => reached_step hs (asks_own ha) hstep
  lowers := fun _ _ _ _ ha hstep => rank_step ha hstep

/-- What the processes come to, after the history `h` and their own steps since. -/
structure Served (L : Lookup) (h labels : List (Label δ κ)) (t : State δ κ) : Prop where
  /-- Every request of `h` was replied to. -/
  answered : ∀ c, t.waiting c = none ∧ (t.got c).map Obtained.frames = asked c h
  /-- The registrar is at its receive, and its ring has the publishers that it acknowledged. -/
  registrar : t.phase = .receive ∧ t.registrar.publisherRing = t.acknowledged
  /-- A dispatcher's ring has the publishers announced since it connected, and its tables have the ring's names. -/
  dispatchers : ∀ d st, t.dispatchers d = some st →
    InStep st.info ∧ st.info.publisherRing = Cluster.heard d (clusterRun L (h ++ labels))

theorem served_of_settled {h labels : List (Label δ κ)}
    (hr : (exchange L δ κ).exec (exchange L δ κ).initial (h ++ labels) = some t) (hown : ∀ a ∈ labels, a.own)
    (hable : Able t) (hsettled : (exchange L δ κ).Settled Label.own t) : Served L h labels t := by
  have hkept := kept_run hr
  have hwaiting := settled_waiting hkept hable hsettled
  have hphase := settled_phase hkept.linked hable hsettled
  refine ⟨fun c => ⟨hwaiting c, ?_⟩, ⟨hphase, ?_⟩, ?_⟩
  · have horder := hkept.order c
    rw [asked_append, asked_own hown, hwaiting c] at horder
    simpa using horder.symm
  · have heq := acknowledged_eq (registrations_run hr)
    rw [hphase] at heq
    rw [heq, (registered_run hr (by rw [hphase]; rfl)).ring]
    exact (Finset.union_empty _).symm
  · intro d st hd
    have hfollows := follows_run hr hd
    have hstuck : step L t (.update d) = none := hsettled (.update d) trivial
    have hupdater : publisherUpdater st = none := by simpa [step, hd] using hstuck
    exact hfollows.resting (resting_of_stuck hfollows hupdater)

/-- **Progress.** After any history in which nothing improper was asked, the processes' own steps come to an
end, whichever are taken, and then every request has its reply and every ring what was announced to it. -/
theorem served [Fintype δ] {h : List (Label δ κ)} (hr : (exchange L δ κ).exec (exchange L δ κ).initial h = some s)
    (hasks : (exchange L δ κ).Along Asks (exchange L δ κ).initial h) :
    (∃ labels t, (∀ a ∈ labels, a.own) ∧ (exchange L δ κ).exec s labels = some t ∧
        (exchange L δ κ).Settled Label.own t) ∧
      ∀ labels t, (∀ a ∈ labels, a.own) → (exchange L δ κ).exec s labels = some t →
        labels.length ≤ s.rank ∧ ((exchange L δ κ).Settled Label.own t → Served L h labels t) := by
  have hs := reached_run hr hasks
  refine ⟨?_, ?_⟩
  · obtain ⟨labels, t, hown, ht, _, hsettled⟩ := (ranked L).exists_settled hs
    exact ⟨labels, t, hown, ht, hsettled⟩
  · intro labels t hown ht
    refine ⟨(ranked L).length_le labels hown hs ht, fun hsettled => ?_⟩
    have hall : (exchange L δ κ).exec (exchange L δ κ).initial (h ++ labels) = some t := by
      rw [System.exec_append, hr]
      exact ht
    exact served_of_settled hall hown ((ranked L).run labels hown hs ht).1.2 hsettled

/-- A publisher has registered with a dispatcher connected, and a file's registration is sent. -/
def asking : List (Label Unit Bool) :=
  [.start (), .update (), .request true (registerPublisherService (literal "10.0.0.1") 5001 6001).frames,
    .receive 0, .proceed, .proceed, .proceed, .proceed,
    .request false (register (literal "/srv") fun _ => 1).frames]

theorem served_asking : ∃ s,
    (exchange (hashRing strlen) Unit Bool).exec (exchange (hashRing strlen) Unit Bool).initial asking = some s ∧
    s.requests ≠ [] ∧ ∃ labels t, (∀ a ∈ labels, a.own) ∧
      (exchange (hashRing strlen) Unit Bool).exec s labels = some t ∧ Served (hashRing strlen) asking labels t := by
  have hrun : ∃ s, (exchange (hashRing strlen) Unit Bool).exec (exchange (hashRing strlen) Unit Bool).initial
      asking = some s ∧ s.requests ≠ [] := ⟨_, rfl, by simp⟩
  obtain ⟨s, hr, hrequests⟩ := hrun
  obtain ⟨⟨labels, t, hown, ht, hsettled⟩, hend⟩ := served hr (by decide)
  exact ⟨s, hr, hrequests, labels, t, hown, ht, (hend labels t hown ht).2 hsettled⟩

end Rnotify.Exchange
