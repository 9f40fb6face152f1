import Rnotify.Client.Rounds
import Rnotify.Flow.Conservation
import Rnotify.Journey.Model
import Rnotify.Library.Refinement

/-! Where every event is, once the flow has passed it on.

The flow's part of a run is a run of the flow and the cluster's part one of the
cluster, so both keep what they keep alone. Beyond the flow an event is a message, in
transit or at a client's sockets, that holds the event's bytes as they were read
(`Sent`), and a handler that is called for it is called on that event, or not at all
(`handled_sent`). So what the flow passed on is in transit, published or dropped, and
a client's handler is called on nothing else than what was published, at most as
often (`Accounts`). -/
namespace Rnotify.Journey
open Library Registrar Dispatcher Client

variable {δ κ : Type}

/-! ### Messages -/

/-- A message with an event that the flow passed on. -/
structure Sent (m : Message) : Prop where
  named : Flow.Named m.event
  size : m.event.size < 2 ^ 31
  wire : notify m.event = some m.wire

def events (messages : List Message) : Multiset InotifyEvent := (messages.map Message.event : List InotifyEvent)

theorem events_concat (messages : List Message) (m : Message) :
    events (messages ++ [m]) = events messages + {m.event} := by
  rw [events, List.map_append, ← Multiset.coe_add]
  rfl

theorem events_eraseIdx {messages : List Message} {n : ℕ} {m : Message} (h : messages[n]? = some m) :
    events (messages.eraseIdx n) + {m.event} = events messages := by
  have hperm := (perm_eraseIdx h).map Message.event
  rw [add_comm, Multiset.singleton_add]
  exact Multiset.coe_eq_coe.mpr hperm

/-- The handler is called on the event itself, or not at all. -/
theorem handled_sent {m : Message} (h : Sent m) (heap : Nat → Byte) :
    (handled heap m.wire : Multiset InotifyEvent) = Multiset.filter Audible {m.event} := by
  rw [handled_of_lt h.wire h.size, ← Multiset.filter_coe]
  rfl

/-- An event that a parser passes on has a name, and a size that its chunk's read had room for. -/
theorem toNotify_sent {s : Flow.State δ} (hs : Flow.Sound s) {p : δ × Fin 10} {w : Flow.Walk}
    (hw : s.parsers p = some w) {heap : Nat → Byte} {e : InotifyEvent} (he : toNotify w heap = some e) :
    Flow.Named e ∧ e.size < 2 ^ 31 := by
  obtain ⟨walked, left, hmid⟩ := hs.parsers p w hw
  unfold toNotify at he
  split at he
  · next hi =>
    obtain ⟨e', rest, rfl, hview, _⟩ := Flow.turn hmid hi heap
    dsimp only at he
    rw [hview] at he
    split at he
    · next hname =>
      rw [Option.some.injEq] at he
      rw [← he]
      refine ⟨hname, ?_⟩
      have hfits := hmid.whole.fits
      rw [Flow.allBytes_append, List.length_append, InotifyEvent.allBytes_cons, List.length_append,
        InotifyEvent.bytes_length] at hfits
      have hbound : Flow.buffSize < 2 ^ 31 := by decide
      omega
    · cases he
  · cases he

variable [DecidableEq δ]

/-- A turn of a parser passes on what the message is made of. -/
theorem notified_parseTurn (s : Flow.State δ) (p : δ × Fin 10) (w : Flow.Walk) (heap : Nat → Byte) :
    (Flow.parseTurn s p w heap).notified = s.notified + (toNotify w heap).elim 0 fun e => {e} := by
  unfold Flow.parseTurn toNotify
  split
  · dsimp only
    split
    · exact (Multiset.singleton_add _ _).symm.trans (add_comm _ _)
    · exact (add_zero _).symm
  · exact (add_zero _).symm

/-- Nothing else is passed on in a step of the flow. -/
theorem notified_flow {s : State δ κ} {l : Flow.Label δ} (hruns : Runs s l) {flow : Flow.State δ}
    (hstep : Flow.step s.flow l = some flow) : flow.notified = s.flow.notified := by
  cases l with
  | parse => exact hruns.elim
  | read k events =>
    simp only [Flow.step] at hstep
    split at hstep
    · cases hstep
    · split at hstep
      · exact (congrArg Flow.State.notified (Option.some.inj hstep)).symm
      · cases hstep
  | submit k =>
    simp only [Flow.step] at hstep
    split at hstep
    · cases hstep
    · obtain ⟨wire, _, rfl⟩ := Option.map_eq_some_iff.mp hstep
      rfl
  | flusherReceive | flush | mainReceive | mainSend | parserReceive =>
    obtain ⟨_, _, rfl⟩ := Option.map_eq_some_iff.mp hstep
    rfl

/-! ### The flow's part and the cluster's -/

variable [DecidableEq κ] {L : Lookup} {s t : State δ κ}

def flowLabels : Label δ κ → List (Flow.Label δ)
  | .flow l => [l]
  | .parse d k heap _ => [.parse d k heap]
  | _ => []

def clusterLabels : Label δ κ → List (Cluster.Label δ κ)
  | .cluster l => [l]
  | _ => []

omit [DecidableEq κ] in
/-- A turn of a parser is a step of the flow. -/
theorem exec_parse {d : δ} {k : Fin 10} {w : Flow.Walk} (hw : s.flow.parsers (d, k) = some w) (heap : Nat → Byte) :
    (Flow.flow δ).exec s.flow [.parse d k heap] = some (Flow.parseTurn s.flow (d, k) w heap) := by
  simp only [System.exec_cons, Flow.flow, Flow.step, hw]
  rfl

theorem flow_step {a : Label δ κ} (hstep : step L s a = some t) :
    (Flow.flow δ).exec s.flow (flowLabels a) = some t.flow := by
  cases a with
  | flow l =>
    obtain ⟨_, flow, hflow, rfl⟩ := step_flow hstep
    have hflow : (Flow.flow δ).step s.flow l = some flow := hflow
    simp [flowLabels, hflow]
  | parse d k heap rand =>
    obtain ⟨w, hw, ⟨_, rfl⟩ | ⟨_, _, _, _, _, _, _, rfl⟩⟩ := step_parse hstep <;> exact exec_parse hw heap
  | cluster l =>
    obtain ⟨_, _, ⟨_, rfl⟩ | ⟨_, _, _, _, _, _, _, _, rfl⟩⟩ := step_cluster hstep <;> rfl
  | drop n =>
    obtain ⟨_, _, rfl⟩ := step_drop hstep
    rfl
  | publish n p reaches =>
    obtain ⟨_, _, _, rfl⟩ := step_publish hstep
    rfl
  | listen c n heap =>
    obtain ⟨_, _, rfl⟩ := step_listen hstep
    rfl

theorem cluster_step {a : Label δ κ} (hstep : step L s a = some t) :
    (Cluster.cluster L).exec s.cluster (clusterLabels a) = some t.cluster := by
  cases a with
  | cluster l =>
    obtain ⟨next, hnext, ht⟩ := step_cluster hstep
    have hcluster : (Cluster.cluster L).step s.cluster l = some next := hnext
    obtain ⟨_, rfl⟩ | ⟨_, _, _, _, _, _, _, _, rfl⟩ := ht <;> simp [clusterLabels, hcluster]
  | flow l =>
    obtain ⟨_, _, _, rfl⟩ := step_flow hstep
    rfl
  | parse d k heap rand =>
    obtain ⟨_, _, ⟨_, rfl⟩ | ⟨_, _, _, _, _, _, _, rfl⟩⟩ := step_parse hstep <;> rfl
  | drop n =>
    obtain ⟨_, _, rfl⟩ := step_drop hstep
    rfl
  | publish n p reaches =>
    obtain ⟨_, _, _, rfl⟩ := step_publish hstep
    rfl
  | listen c n heap =>
    obtain ⟨_, _, rfl⟩ := step_listen hstep
    rfl

/-- The threads of proxy and dispatchers do what they do in the flow. -/
def toFlow (L : Lookup) (δ κ : Type) [DecidableEq δ] [DecidableEq κ] :
    Refinement (journey L δ κ) (Flow.flow δ) where
  inv := fun _ => True
  abs := State.flow
  labels := fun _ => flowLabels
  inv_initial := trivial
  abs_initial := rfl
  step := fun _ _ _ _ hstep => ⟨trivial, flow_step (L := L) hstep⟩

/-- Registrar, updaters and subscriptions do what they do in the cluster. -/
def toCluster (L : Lookup) (δ κ : Type) [DecidableEq δ] [DecidableEq κ] :
    Refinement (journey L δ κ) (Cluster.cluster (δ := δ) (κ := κ) L) where
  inv := fun _ => True
  abs := State.cluster
  labels := fun _ => clusterLabels
  inv_initial := trivial
  abs_initial := rfl
  step := fun _ _ _ _ hstep => ⟨trivial, cluster_step (L := L) hstep⟩

/-- The flow's part of a run. -/
theorem flow_run {h : List (Label δ κ)} (hr : (journey L δ κ).exec (journey L δ κ).initial h = some s) :
    (Flow.flow δ).exec (Flow.flow δ).initial (h.flatMap flowLabels) = some s.flow := by
  rw [← (toFlow L δ κ).trace_eq_flatMap (f := flowLabels) (fun _ _ => rfl) h hr]
  exact ((toFlow L δ κ).exec_initial h hr).2

/-- The cluster's part. -/
theorem cluster_run {h : List (Label δ κ)} (hr : (journey L δ κ).exec (journey L δ κ).initial h = some s) :
    (Cluster.cluster L).exec (Cluster.cluster L).initial (h.flatMap clusterLabels) = some s.cluster := by
  rw [← (toCluster L δ κ).trace_eq_flatMap (f := clusterLabels) (fun _ _ => rfl) h hr]
  exact ((toCluster L δ κ).exec_initial h hr).2

/-! ### The accounts -/

/-- The events that the flow passed on are in transit, published or dropped, and what a client's handler was called
on, or will be if it receives what is at its sockets, was published. -/
structure Accounts (s : State δ κ) : Prop where
  transit : ∀ m ∈ s.transit, Sent m
  arrived : ∀ c, ∀ m ∈ s.arrived c, Sent m
  passed : s.flow.notified = events s.transit + s.published + s.dropped
  calls : ∀ c, s.calls c + (events (s.arrived c)).filter Audible ≤ s.published.filter Audible

theorem accounts_initial : Accounts (journey L δ κ).initial := ⟨nofun, fun _ => nofun, rfl, fun _ => le_rfl⟩

theorem accounts_parse (hsound : Flow.Sound s.flow) (h : Accounts s) {d : δ} {k : Fin 10} {heap : Nat → Byte}
    {rand : Nat} (hstep : step L s (.parse d k heap rand) = some t) : Accounts t := by
  obtain ⟨w, hw, ⟨hnone, rfl⟩ | ⟨e, st, sock, wire, he, _, hsent, rfl⟩⟩ := step_parse hstep
  · refine ⟨h.transit, h.arrived, ?_, h.calls⟩
    show (Flow.parseTurn s.flow (d, k) w heap).notified = _
    rw [notified_parseTurn, hnone, Option.elim_none, add_zero]
    exact h.passed
  · obtain ⟨hnamed, hsize⟩ := toNotify_sent hsound hw he
    refine ⟨?_, h.arrived, ?_, h.calls⟩
    · intro m hm
      obtain hold | hnew := List.mem_append.mp hm
      · exact h.transit m hold
      · rw [List.mem_singleton.mp hnew]
        exact ⟨hnamed, hsize, notify_of_sent hsent⟩
    · show (Flow.parseTurn s.flow (d, k) w heap).notified = events (s.transit ++ [_]) + _ + _
      rw [notified_parseTurn, he, Option.elim_some, h.passed, events_concat]
      abel

theorem accounts_publish (h : Accounts s) {n : Nat} {p : Publisher} {reaches : κ → Bool}
    (hstep : step L s (.publish n p reaches) = some t) : Accounts t := by
  obtain ⟨m, hm, _, rfl⟩ := step_publish hstep
  have hsent := h.transit m (List.mem_of_getElem? hm)
  refine ⟨fun m' hm' => h.transit m' (List.mem_of_mem_eraseIdx hm'), ?_, ?_, ?_⟩
  · intro c m' hm'
    have hm' : m' ∈ hear s p.publishAddr reaches m c := hm'
    unfold hear at hm'
    split at hm'
    · obtain hold | hnew := List.mem_append.mp hm'
      · exact h.arrived c m' hold
      · rw [List.mem_singleton.mp hnew]
        exact hsent
    · exact h.arrived c m' hm'
  · show s.flow.notified = events (s.transit.eraseIdx n) + m.event ::ₘ s.published + s.dropped
    rw [h.passed, ← events_eraseIdx hm, ← Multiset.singleton_add]
    abel
  · intro c
    show s.calls c + (events (hear s p.publishAddr reaches m c)).filter Audible ≤
      (m.event ::ₘ s.published).filter Audible
    have hcalls := h.calls c
    rw [← Multiset.singleton_add, Multiset.filter_add, add_comm (Multiset.filter _ _)]
    unfold hear
    split
    · rw [events_concat, Multiset.filter_add, ← add_assoc]
      exact add_le_add_left hcalls _
    · exact hcalls.trans (Multiset.le_add_right _ _)

theorem accounts_listen (h : Accounts s) {c : κ} {n : Nat} {heap : Nat → Byte}
    (hstep : step L s (.listen c n heap) = some t) : Accounts t := by
  obtain ⟨m, hm, rfl⟩ := step_listen hstep
  have hsent := h.arrived c m (List.mem_of_getElem? hm)
  have hleft : ∀ m' ∈ (s.arrived c).eraseIdx n, Sent m' := fun m' hm' =>
    h.arrived c m' (List.mem_of_mem_eraseIdx hm')
  refine ⟨h.transit, forall_update (P := fun messages => ∀ m ∈ messages, Sent m) h.arrived hleft, h.passed, ?_⟩
  · intro c'
    by_cases hc : c' = c
    · have hcalls := h.calls c
      rw [← events_eraseIdx hm, Multiset.filter_add] at hcalls
      rw [hc]
      simp only [Function.update_self]
      rw [handled_sent hsent, add_right_comm, add_assoc]
      exact hcalls
    · simp only [Function.update_of_ne hc]
      exact h.calls c'

theorem accounts_step (hsound : Flow.Sound s.flow) (h : Accounts s) {a : Label δ κ} (hstep : step L s a = some t) :
    Accounts t := by
  cases a with
  | flow l =>
    obtain ⟨hruns, flow, hflow, rfl⟩ := step_flow hstep
    exact ⟨h.transit, h.arrived, (notified_flow hruns hflow).trans h.passed, h.calls⟩
  | parse d k heap rand => exact accounts_parse hsound h hstep
  | cluster l =>
    obtain ⟨_, _, ⟨_, rfl⟩ | ⟨_, _, _, _, _, _, _, _, rfl⟩⟩ := step_cluster hstep <;>
      exact ⟨h.transit, h.arrived, h.passed, h.calls⟩
  | drop n =>
    obtain ⟨m, hm, rfl⟩ := step_drop hstep
    refine ⟨fun m' hm' => h.transit m' (List.mem_of_mem_eraseIdx hm'), h.arrived, ?_, h.calls⟩
    show s.flow.notified = events (s.transit.eraseIdx n) + s.published + m.event ::ₘ s.dropped
    rw [h.passed, ← events_eraseIdx hm, ← Multiset.singleton_add]
    abel
  | publish n p reaches => exact accounts_publish h hstep
  | listen c n heap => exact accounts_listen h hstep

/-- In every state that the processes can reach, in whatever order they take their steps. -/
theorem accounts_run [Fintype δ] {h : List (Label δ κ)}
    (hr : (journey L δ κ).exec (journey L δ κ).initial h = some s) : Flow.Intact s.flow ∧ Accounts s := by
  refine ⟨Flow.intact_run (flow_run hr), ?_⟩
  refine (journey L δ κ).reachable_invariant (fun _ s => Accounts s) accounts_initial ?_ h s hr
  intro h s a t hr hs hstep
  exact accounts_step (Flow.intact_run (flow_run hr)).toSound hs hstep

end Rnotify.Journey
