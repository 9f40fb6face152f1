import Rnotify.Cluster.Agreement
import Rnotify.Exchange.Replies
import Rnotify.Library.Refinement

/-! The exchange is the cluster, seen closer.

A message-level state stands for a state of the cluster, in which a request that is
still to be handled, or a reply on its way, does not show. A broadcast stands for the
registration of its publisher and a reply to a file registration for the whole
subscription, with the descriptor that the last call of `inotify_add_watch` gave; the
other steps of peers, registrar and proxy stand for nothing. Every message-level run
is then a run of the cluster, with the same steps of the dispatchers, the registrations
that were acknowledged (but for a publisher that is acknowledged and not yet announced,
`inHand`) and the subscriptions that were answered (`refines`), and what holds of the
cluster's runs holds here. -/
namespace Rnotify.Exchange
open Library Registrar Dispatcher

variable {δ κ : Type}

/-! ### The cluster's state and labels -/

def Phase.abs : Phase κ → Cluster.Phase
  | .enlist p => .enlist p
  | .record p => .record p
  | _ => .receive

def State.abs (s : State δ κ) : Cluster.State δ κ :=
  ⟨s.registrar, s.phase.abs, s.dispatchers, s.answers.map fun a => (a.client, a.wire)⟩

/-- What the registrar's next step stands for, given the calls of `inotify_add_watch` so far. -/
def proceedLabels (L : Lookup) (s : State δ κ) : List (Cluster.Label δ κ) :=
  match s.phase with
  | .announce p => [.register p]
  | .enlist _ => [.proceed]
  | .record _ => [.proceed]
  | .select c path _ =>
    match addressesFor L s.registrar path with
    | .error _ => []
    | .ok _ => s.watches.getLast?.toList.map fun watch => .subscribe c path watch.2
  | _ => []

def labels (L : Lookup) (s : State δ κ) : Label δ κ → List (Cluster.Label δ κ)
  | .start d => [.start d]
  | .update d => [.update d]
  | .proceed => proceedLabels L s
  | _ => []

theorem abs_dispatchOn (c : κ) (registration : List Frame) : (dispatchOn c registration).abs = .receive := by
  unfold dispatchOn
  repeat' split
  all_goals rfl

/-! ### What the cluster's run is made of -/

/-- The publisher whose registration a reply is to. -/
def Obtained.publisher (o : Obtained κ) : Option Publisher :=
  match dispatchOn o.peer o.frames with
  | .confirm _ p => some p
  | _ => none

/-- A publisher that is acknowledged and not announced yet. -/
def Phase.inHand : Phase κ → List Publisher
  | .announce p => [p]
  | _ => []

/-- A dispatcher's step, as the cluster's label. -/
def Label.ofDispatcher : Label δ κ → Option (Cluster.Label δ κ)
  | .start d => some (.start d)
  | .update d => some (.update d)
  | _ => none

def isDispatcher : Cluster.Label δ κ → Bool
  | .start _ => true
  | .update _ => true
  | _ => false

def subscription : Cluster.Label δ κ → Option (κ × CString × Int)
  | .subscribe c path wd => some (c, path, wd)
  | _ => none

/-- The subscription that a reply to a file registration and its call of `inotify_add_watch` make. -/
def subscribed (a : Answer κ) (watch : CString × Int) : κ × CString × Int := (a.client, a.path, watch.2)

/-- A call whose reply is still to be made is no part of a subscription. -/
theorem zipWith_concat {watches : List (CString × Int)} {answers : List (Answer κ)} (h : Paired watches answers)
    (last : CString × Int) :
    List.zipWith subscribed answers (watches ++ [last]) = List.zipWith subscribed answers watches := by
  have happend := @List.zipWith_append _ _ _ subscribed answers [] watches [last] h.length_eq.symm
  rwa [List.append_nil, List.zipWith_nil_left, List.append_nil] at happend

variable {L : Lookup} {s t : State δ κ}

theorem dispatchers_step (s : State δ κ) (a : Label δ κ) :
    (labels L s a).filter isDispatcher = a.ofDispatcher.toList := by
  cases a with
  | start | update | request | receive | proxyReceive | addWatch | proxyAnswer | deliver => rfl
  | proceed =>
    show (proceedLabels L s).filter isDispatcher = []
    unfold proceedLabels
    split
    · rfl
    · rfl
    · rfl
    · split
      · rfl
      · cases s.watches.getLast? <;> rfl
    · rfl

theorem inHand_dispatchOn (c : κ) (registration : List Frame) : (dispatchOn c registration).inHand = [] := by
  unfold dispatchOn
  repeat' split
  all_goals rfl

/-- The registrar's next step announces what it has in hand, and takes in hand what it acknowledges. -/
theorem registrations_proceed (haccounted : Accounted s) (hstep : Proceeds L s t) {ps : List Publisher}
    (h : (s.replied.filterMap Obtained.publisher).Perm (ps ++ s.phase.inHand)) :
    (t.replied.filterMap Obtained.publisher).Perm
      (ps ++ (Cluster.registrations (proceedLabels L s) ++ t.phase.inHand)) := by
  have hserves := haccounted.serves
  cases hstep with
  | silent hphase | ask hphase | await hphase | enlist hphase | record hphase | announce hphase =>
    rw [hphase] at h
    rw [proceedLabels, hphase]
    exact h
  | fault hphase hfault =>
    rw [hphase] at h
    simp only [proceedLabels, hphase, hfault]
    exact h
  | @confirm c p hphase =>
    rw [hphase] at hserves h
    obtain ⟨frames, hframes, hconfirm⟩ := hserves
    have hpublisher : (⟨c, frames, sendText registerOk⟩ : Obtained κ).publisher = some p := by
      rw [Obtained.publisher, hconfirm]
    have hreplied := replied_reply hframes (sendText registerOk) s.answers (.announce p)
    rw [show (Phase.confirm c p).inHand = [] from rfl, List.append_nil] at h
    rw [proceedLabels, hphase, hreplied, List.filterMap_append, List.filterMap_cons_some hpublisher]
    exact h.append_right [p]
  | @select c path id addresses hphase haddresses =>
    rw [hphase] at hserves h
    obtain ⟨frames, hframes, hask⟩ := hserves
    have hpublisher : ∀ wire, (⟨c, frames, wire⟩ : Obtained κ).publisher = none := by
      intro wire
      rw [Obtained.publisher, hask]
    have hnone : Cluster.registrations (proceedLabels L s) = [] := by
      simp only [proceedLabels, hphase, haddresses]
      cases s.watches.getLast? <;> rfl
    rw [hnone, replied_reply hframes, List.filterMap_append, List.filterMap_cons_none (hpublisher _)]
    simpa [Phase.inHand] using h

/-- Each reply to a file registration adds the subscription with the descriptor of the last call. -/
theorem subscriptions_proceed (hlinked : Linked s) (hstep : Proceeds L s t) :
    List.zipWith subscribed t.answers t.watches =
      List.zipWith subscribed s.answers s.watches ++ (proceedLabels L s).filterMap subscription := by
  cases hstep with
  | silent hphase | confirm hphase | ask hphase | await hphase | enlist hphase | record hphase | announce hphase =>
    rw [proceedLabels, hphase]
    exact (List.append_nil _).symm
  | fault hphase hfault =>
    simp only [proceedLabels, hphase, hfault]
    exact (List.append_nil _).symm
  | select hphase haddresses =>
    cases hlinked with
    | selecting hsame _ hwatches hpaired =>
      rw [hsame, Phase.select.injEq] at hphase
      obtain ⟨rfl, rfl, rfl⟩ := hphase
      simp only [proceedLabels, hsame, haddresses, hwatches, List.getLast?_concat]
      rw [List.zipWith_append hpaired.length_eq.symm, zipWith_concat hpaired]
      rfl
    | alone halone =>
      rw [hphase] at halone
      exact halone.elim
    | asked hother | received hother | added hother | answered hother | failed hother =>
      rw [hother] at hphase
      cases hphase

/-! ### Steps -/

/-- The pass over a file registration whose addresses are found. -/
theorem registerFile_addresses {L : Lookup} {r : Registrar.State} {path : CString} {addresses : List CString}
    (h : addressesFor L r path = .ok addresses) (wd : Int) :
    registerFile L (fun _ => wd) r (Registrar.register path fun _ => wd).frames =
      ⟨[.watch path (decimal wd), .reply (send (registerOk :: decimal wd :: addresses))], .ok r⟩ := by
  unfold addressesFor at h
  unfold registerFile
  rw [part_register]
  cases htable : getPublishersTable L path r.publisherRing with
  | error fault =>
    rw [htable] at h
    cases h
  | ok table =>
    rw [htable] at h
    have hlist : publishersList r.publishers table = .ok addresses := h
    simp only [htable, registerNotification, hlist]

variable [DecidableEq δ]

/-- A reply to a file registration is the cluster's subscription. -/
theorem subscribe_select {L : Lookup} {s : Cluster.State δ κ} (hphase : s.phase = .receive) {path : CString}
    {addresses : List CString} (h : addressesFor L s.registrar path = .ok addresses) (c : κ) (wd : Int) :
    Cluster.step L s (.subscribe c path wd) =
      some { s with replies := s.replies ++ [(c, send (registerOk :: decimal wd :: addresses))] } := by
  simp only [Cluster.step, hphase, Cluster.answer, handle_file L _ (register_isFile path fun _ => wd)]
  rw [show (Registrar.register path fun _ => wd).addWatch = fun _ => wd from rfl, registerFile_addresses h wd]
  rfl

/-- The registrar's step, in the cluster. -/
theorem abs_proceed (hlinked : Linked s) (hstep : Proceeds L s t) :
    (Cluster.cluster L).exec s.abs (proceedLabels L s) = some t.abs := by
  cases hstep with
  | silent hphase | confirm hphase | ask hphase | await hphase =>
    simp [proceedLabels, hphase, State.abs, Phase.abs]
  | announce hphase | enlist hphase | record hphase =>
    simp only [proceedLabels, hphase, System.exec_cons, State.abs, Phase.abs]
    rfl
  | fault hphase hfault =>
    simp [proceedLabels, hphase, hfault, State.abs, Phase.abs]
  | select hphase haddresses =>
    cases hlinked with
    | selecting hsame _ hwatches =>
      rw [hsame, Phase.select.injEq] at hphase
      obtain ⟨rfl, rfl, rfl⟩ := hphase
      have hreceive : s.abs.phase = .receive := by
        rw [State.abs, hsame]
        rfl
      simp only [proceedLabels, hsame, haddresses, hwatches, List.getLast?_concat, Option.toList_some,
        List.map_singleton, System.exec_cons]
      rw [show (Cluster.cluster L).step = Cluster.step L from rfl, subscribe_select hreceive haddresses]
      simp [State.abs, Phase.abs, hsame]
    | alone halone =>
      rw [hphase] at halone
      exact halone.elim
    | asked hother | received hother | added hother | answered hother | failed hother =>
      rw [hother] at hphase
      cases hphase

variable [DecidableEq κ]

theorem abs_step (hlinked : Linked s) {a : Label δ κ} (hstep : step L s a = some t) :
    (Cluster.cluster L).exec s.abs (labels L s a) = some t.abs := by
  cases a with
  | start d =>
    obtain ⟨hd, rfl⟩ := step_start hstep
    simp only [labels, System.exec_cons, Cluster.cluster, Cluster.step, State.abs, hd]
    rfl
  | update d =>
    obtain ⟨st, st', hd, hupdate, rfl⟩ := step_update hstep
    simp only [labels, System.exec_cons, Cluster.cluster, Cluster.step, State.abs, hd, Option.bind_some, hupdate]
    rfl
  | request c frames =>
    obtain ⟨_, _, rfl⟩ := step_request hstep
    rfl
  | receive n =>
    obtain ⟨hphase, request, registration, _, _, rfl⟩ := step_receive hstep
    have hreceive : (dispatchOn request.1 registration).abs = s.phase.abs := by
      rw [hphase, abs_dispatchOn]
      rfl
    simp only [labels, System.exec_nil, State.abs, hreceive]
  | proceed => exact abs_proceed hlinked (step_proceed hstep)
  | proxyReceive =>
    obtain ⟨_, _, _, _, _, _, rfl⟩ := step_proxyReceive hstep
    rfl
  | addWatch wd =>
    obtain ⟨_, _, rfl⟩ := step_addWatch hstep
    rfl
  | proxyAnswer =>
    obtain ⟨_, _, rfl⟩ := step_proxyAnswer hstep
    rfl
  | deliver n =>
    obtain ⟨_, _, _, _, rfl⟩ := step_deliver hstep
    rfl

/-- The exchange refines the cluster. -/
def refinement (L : Lookup) (δ κ : Type) [DecidableEq δ] [DecidableEq κ] :
    Refinement (exchange L δ κ) (Cluster.cluster (δ := δ) (κ := κ) L) where
  inv := Linked
  abs := State.abs
  labels := labels L
  inv_initial := linked_initial (L := L)
  abs_initial := rfl
  step := fun _ _ _ hlinked hstep => ⟨linked_step hlinked hstep, abs_step hlinked hstep⟩

/-- The cluster's run that a history stands for. -/
def clusterRun (L : Lookup) (h : List (Label δ κ)) : List (Cluster.Label δ κ) :=
  (refinement L δ κ).trace (exchange L δ κ).initial h

/-! ### Runs -/

/-- What a history and the cluster's run that it stands for have in common. -/
structure Refines (L : Lookup) (h : List (Label δ κ)) (s : State δ κ) (run : List (Cluster.Label δ κ)) : Prop where
  /-- The run is one, and leads to the same rings, tables, dispatchers and replies to file registrations. -/
  exec : (Cluster.cluster L).exec (Cluster.cluster L).initial run = some s.abs
  /-- The dispatchers take the same steps. -/
  dispatchers : run.filter isDispatcher = h.filterMap Label.ofDispatcher
  /-- The registrations are those that were acknowledged, but for the publisher that the registrar has acknowledged and
  is about to announce. -/
  registrations : (s.replied.filterMap Obtained.publisher).Perm (Cluster.registrations run ++ s.phase.inHand)
  /-- The subscriptions are the replies to file registrations, each with the descriptor of its own call. -/
  subscriptions : run.filterMap subscription =
    List.zipWith subscribed s.answers s.watches

theorem registrations_step {h : List (Label δ κ)} (hkept : Kept h s) {a : Label δ κ} (hstep : step L s a = some t)
    {ps : List Publisher} (hs : (s.replied.filterMap Obtained.publisher).Perm (ps ++ s.phase.inHand)) :
    (t.replied.filterMap Obtained.publisher).Perm
      (ps ++ (Cluster.registrations (labels L s a) ++ t.phase.inHand)) := by
  cases a with
  | start d =>
    obtain ⟨_, rfl⟩ := step_start hstep
    exact hs
  | update d =>
    obtain ⟨_, _, _, _, rfl⟩ := step_update hstep
    exact hs
  | request c frames =>
    obtain ⟨hc, _, rfl⟩ := step_request hstep
    rw [replied_request hkept.placed hc]
    exact hs
  | receive n =>
    obtain ⟨hphase, request, registration, _, _, rfl⟩ := step_receive hstep
    rw [hphase] at hs
    rw [inHand_dispatchOn]
    exact hs
  | proceed => exact registrations_proceed hkept.accounted (step_proceed hstep) hs
  | proxyReceive =>
    obtain ⟨_, _, _, _, _, _, rfl⟩ := step_proxyReceive hstep
    exact hs
  | addWatch wd =>
    obtain ⟨_, _, rfl⟩ := step_addWatch hstep
    exact hs
  | proxyAnswer =>
    obtain ⟨_, _, rfl⟩ := step_proxyAnswer hstep
    exact hs
  | deliver n =>
    obtain ⟨reply, frames, hreply, hframes, rfl⟩ := step_deliver hstep
    exact ((replied_deliver hkept.placed hreply hframes).filterMap _).trans hs

theorem subscriptions_step (hlinked : Linked s) {a : Label δ κ} (hstep : step L s a = some t) :
    List.zipWith subscribed t.answers t.watches =
      List.zipWith subscribed s.answers s.watches ++ (labels L s a).filterMap subscription := by
  cases a with
  | start d =>
    obtain ⟨_, rfl⟩ := step_start hstep
    exact (List.append_nil _).symm
  | update d =>
    obtain ⟨_, _, _, _, rfl⟩ := step_update hstep
    exact (List.append_nil _).symm
  | request c frames =>
    obtain ⟨_, _, rfl⟩ := step_request hstep
    exact (List.append_nil _).symm
  | receive n =>
    obtain ⟨_, _, _, _, _, rfl⟩ := step_receive hstep
    exact (List.append_nil _).symm
  | proceed => exact subscriptions_proceed hlinked (step_proceed hstep)
  | proxyReceive =>
    obtain ⟨_, _, _, _, _, _, rfl⟩ := step_proxyReceive hstep
    exact (List.append_nil _).symm
  | addWatch wd =>
    obtain ⟨fileName, hproxy, rfl⟩ := step_addWatch hstep
    cases hlinked with
    | received _ _ _ _ hpaired => exact (zipWith_concat hpaired _).trans (List.append_nil _).symm
    | alone _ hidle | selecting _ hidle | failed _ hidle =>
      rw [hidle.waits] at hproxy
      cases hproxy
    | asked _ _ hother | added _ _ hother | answered _ _ hother =>
      rw [hother] at hproxy
      cases hproxy
  | proxyAnswer =>
    obtain ⟨_, _, rfl⟩ := step_proxyAnswer hstep
    exact (List.append_nil _).symm
  | deliver n =>
    obtain ⟨_, _, _, _, rfl⟩ := step_deliver hstep
    exact (List.append_nil _).symm

theorem dispatchers_run {h : List (Label δ κ)} (hr : (exchange L δ κ).exec (exchange L δ κ).initial h = some s) :
    (clusterRun L h).filter isDispatcher = h.filterMap Label.ofDispatcher := by
  refine (refinement L δ κ).trace_invariant (fun h run _ => run.filter isDispatcher = h.filterMap Label.ofDispatcher)
    rfl ?_ h s hr
  intro h s a t _ hs _
  rw [List.filter_append, hs, List.filterMap_append]
  show _ ++ (labels L s a).filter isDispatcher = _
  rw [dispatchers_step]
  cases hlabel : a.ofDispatcher <;> simp [hlabel]

theorem registrations_run {h : List (Label δ κ)} (hr : (exchange L δ κ).exec (exchange L δ κ).initial h = some s) :
    (s.replied.filterMap Obtained.publisher).Perm (Cluster.registrations (clusterRun L h) ++ s.phase.inHand) := by
  refine (refinement L δ κ).trace_invariant (fun _ run s => (s.replied.filterMap Obtained.publisher).Perm
    (Cluster.registrations run ++ s.phase.inHand)) (.refl _) ?_ h s hr
  intro h s a t hm hs hstep
  rw [Cluster.registrations_append, List.append_assoc]
  exact registrations_step (kept_run hm) hstep hs

theorem subscriptions_run {h : List (Label δ κ)} (hr : (exchange L δ κ).exec (exchange L δ κ).initial h = some s) :
    (clusterRun L h).filterMap subscription = List.zipWith subscribed s.answers s.watches := by
  refine (refinement L δ κ).trace_invariant (fun _ run s => run.filterMap subscription =
    List.zipWith subscribed s.answers s.watches) rfl ?_ h s hr
  intro h s a t hm hs hstep
  rw [List.filterMap_append, hs]
  exact (subscriptions_step (kept_run hm).linked hstep).symm

/-- **Refinement.** A message-level run is a run of the cluster in which the dispatchers take the same steps, the
registrations are those acknowledged, without the one publisher that may be acknowledged and about to be announced,
and the subscriptions are those answered. -/
theorem refines {h : List (Label δ κ)} (hr : (exchange L δ κ).exec (exchange L δ κ).initial h = some s) :
    Refines L h s (clusterRun L h) :=
  ⟨((refinement L δ κ).exec_initial h hr).2, dispatchers_run hr, registrations_run hr, subscriptions_run hr⟩

theorem refines_crossing : ∃ s,
    (exchange (hashRing strlen) Unit Bool).exec (exchange (hashRing strlen) Unit Bool).initial crossing = some s ∧
    Refines (hashRing strlen) crossing s (clusterRun (hashRing strlen) crossing) := by
  have hrun : ∃ s, (exchange (hashRing strlen) Unit Bool).exec (exchange (hashRing strlen) Unit Bool).initial
      crossing = some s := ⟨_, rfl⟩
  obtain ⟨s, hr⟩ := hrun
  exact ⟨s, hr, refines hr⟩

/-! ### Acknowledged publishers -/

/-- The names of the publishers that the registrar replied to. -/
def State.acknowledged (s : State δ κ) : Finset CString := acceptAddrs (s.replied.filterMap Obtained.publisher)

/-- Where the publishers that the registrar replied to are known. -/
structure Acknowledged (s : State δ κ) : Prop where
  /-- Nothing else is on the registrar's ring. -/
  ring : s.registrar.publisherRing ⊆ s.acknowledged
  /-- A dispatcher has nothing else on its ring or on the way to it. -/
  dispatchers : ∀ d st, s.dispatchers d = some st → ∃ names ⊆ s.acknowledged, Follows names st
  /-- They are all on the ring and in the table, unless the registrar is still at one's registration. -/
  settled : s.phase.abs = .receive → s.phase.inHand = [] →
    s.registrar.publisherRing = s.acknowledged ∧ Table.names s.registrar.publishers = s.acknowledged

/-- What the cluster's runs keep, at message level. -/
theorem holds_run {h : List (Label δ κ)} (hr : (exchange L δ κ).exec (exchange L δ κ).initial h = some s) :
    Cluster.Holds (Cluster.registrations (clusterRun L h)) s.registrar s.phase.abs :=
  (refinement L δ κ).transfer (fun _ _ hm => Cluster.holds_run L hm) h hr

theorem registered_run {h : List (Label δ κ)} (hr : (exchange L δ κ).exec (exchange L δ κ).initial h = some s)
    (hphase : s.phase.abs = .receive) : Registered (Cluster.registrations (clusterRun L h)) s.registrar := by
  have hholds := holds_run hr
  rwa [hphase] at hholds

theorem follows_run {h : List (Label δ κ)} (hr : (exchange L δ κ).exec (exchange L δ κ).initial h = some s) {d : δ}
    {st : Dispatcher.State} (hd : s.dispatchers d = some st) : Follows (Cluster.heard d (clusterRun L h)) st := by
  have hwatch := (refinement L δ κ).transfer (fun _ _ hm => Cluster.watches_run L d hm) h hr
  rw [show ((refinement L δ κ).abs s).dispatchers d = some st from hd] at hwatch
  exact hwatch.1

omit [DecidableEq δ] [DecidableEq κ] in
theorem acknowledged_eq {ps : List Publisher}
    (h : (s.replied.filterMap Obtained.publisher).Perm (ps ++ s.phase.inHand)) :
    s.acknowledged = acceptAddrs ps ∪ acceptAddrs s.phase.inHand := by
  ext n
  simp only [State.acknowledged, Finset.mem_union, mem_acceptAddrs, h.mem_iff, List.mem_append]
  constructor
  · intro ⟨p, hp, hn⟩
    exact hp.imp (⟨p, ·, hn⟩) (⟨p, ·, hn⟩)
  · intro hn
    obtain ⟨p, hp, hn⟩ | ⟨p, hp, hn⟩ := hn
    · exact ⟨p, .inl hp, hn⟩
    · exact ⟨p, .inr hp, hn⟩

/-- The registrar's ring has registered names only, in every phase. -/
theorem ring_subset {ps : List Publisher} {r : Registrar.State} {phase : Cluster.Phase}
    (h : Cluster.Holds ps r phase) : r.publisherRing ⊆ acceptAddrs ps := by
  cases phase with
  | receive => exact h.ring.subset
  | enlist p =>
    obtain ⟨qs, hqs, hregistered⟩ := h
    rw [hqs, acceptAddrs_concat, hregistered.ring]
    exact Finset.subset_insert _ _
  | record p =>
    obtain ⟨qs, _, hring, _⟩ := h
    exact hring.subset

/-- **Acknowledged publishers.** Whatever the order of steps, what is on a ring was acknowledged, and what was
acknowledged is on the registrar's ring and in its table as soon as it has done its work on it. -/
theorem acknowledged {h : List (Label δ κ)} (hr : (exchange L δ κ).exec (exchange L δ κ).initial h = some s) :
    Acknowledged s := by
  have hholds := holds_run hr
  have heq := acknowledged_eq (registrations_run hr)
  have hsub : acceptAddrs (Cluster.registrations (clusterRun L h)) ⊆ s.acknowledged := by
    rw [heq]
    exact Finset.subset_union_left
  refine ⟨?_, ?_, ?_⟩
  · exact (ring_subset hholds).trans hsub
  · intro d st hd
    refine ⟨_, Finset.Subset.trans ?_ hsub, follows_run hr hd⟩
    rw [Cluster.acceptAddrs_eq d]
    exact Finset.subset_union_right
  · intro hphase hinHand
    have hregistered := registered_run hr hphase
    rw [hinHand, show acceptAddrs [] = ∅ from rfl, Finset.union_empty] at heq
    rw [heq]
    exact ⟨hregistered.ring, hregistered.kept.names⟩

theorem acknowledged_crossing : ∃ s,
    (exchange (hashRing strlen) Unit Bool).exec (exchange (hashRing strlen) Unit Bool).initial crossing = some s ∧
    Acknowledged s := by
  have hrun : ∃ s, (exchange (hashRing strlen) Unit Bool).exec (exchange (hashRing strlen) Unit Bool).initial
      crossing = some s := ⟨_, rfl⟩
  obtain ⟨s, hr⟩ := hrun
  exact ⟨s, hr, acknowledged hr⟩

end Rnotify.Exchange
