import Rnotify.Registrar.Discipline

/-! What it takes to break the registrar.

Nothing in the loop checks how many frames a request has, whether a ring lookup
found a node or whether the table has an entry. The last never matters: every node
on the ring has its entry. The others do: a run dereferences or indexes past the
end exactly when, before the registrar has left a request unanswered and so can
receive no more, one comes that lacks a frame its kind needs or registers a file
with no publisher registered (`unbroken_iff`). A request that is not served and
does not break the registrar leaves the ring and the table as they were. -/
namespace Rnotify.Registrar
open Library

variable (L : Lookup)

/-- The requests the registrar can serve. -/
def Serves (s : State) (r : Request) : Prop :=
  (r.IsPublisher ∧ 4 ≤ r.frames.length) ∨
    (r.IsFile ∧ 2 ≤ r.frames.length ∧ s.publisherRing.Nonempty)

/-- No request of the run makes the registrar use a frame that is not there, a NULL node or a
NULL entry, and one that it cannot serve leaves its ring and table as they were. -/
def Unbroken (reqs : List Request) : Prop :=
  (∀ fault, (acceptRegistrations L start reqs).result = .error fault → fault = .receive) ∧
    ∀ before r after v w, reqs = before ++ r :: after →
      (acceptRegistrations L start before).result = .ok v → (serve L v r).result = .ok w →
      ¬ Serves v.registrar r → w.registrar = v.registrar

/-- Every request up to the first that is left unanswered has what its kind needs. -/
def Survivable : Bool → List Request → Prop
  | _, [] => True
  | seen, r :: rest => Provided seen r ∧
      (r.IsPublisher ∨ r.IsFile → Survivable (seen || decide r.IsPublisher) rest)

theorem ready_of_run (reqs : List Request) (seen : Bool) (s : State) (hs : Ready seen s) {v : Service}
    (h : (acceptRegistrations L ⟨s, false⟩ reqs).result = .ok v) : ∃ seen', Ready seen' v.registrar := by
  induction reqs generalizing seen s with
  | nil =>
    cases h
    exact ⟨seen, hs⟩
  | cons r rest ih =>
    rcases serve_cases L hs r with ⟨_, _, actions, t, hserve, _, ht⟩ | ⟨_, _, hserve⟩ |
      ⟨_, actions, fault, hserve, _⟩
    · rw [acceptRegistrations_ok L hserve] at h
      exact ih _ t ht h
    · rw [acceptRegistrations_ok L hserve] at h
      cases rest with
      | nil =>
        cases h
        exact ⟨seen, hs⟩
      | cons next others =>
        rw [acceptRegistrations_error L (serve_owed L rfl next)] at h
        cases h
    · rw [acceptRegistrations_error L hserve] at h
      cases h

/-- A request that is taken and not served changes neither the ring nor the table. -/
theorem serve_unserved {seen : Bool} {v w : Service} {r : Request} (hs : Ready seen v.registrar)
    (h : (serve L v r).result = .ok w) (hr : ¬ Serves v.registrar r) : w.registrar = v.registrar := by
  obtain ⟨s, owed⟩ := v
  cases owed with
  | true =>
    rw [serve_owed L rfl] at h
    cases h
  | false =>
    rcases serve_cases L hs r with ⟨hkind, hprov, _⟩ | ⟨_, _, hserve⟩ | ⟨_, actions, fault, hserve, _⟩
    · exfalso
      rcases hkind with hp | hf
      · exact hr (Or.inl ⟨hp, hprov.1 hp⟩)
      · obtain ⟨hlen, hseen⟩ := hprov.2.2 hf
        exact hr (Or.inr ⟨hf, hlen, hs.nonempty.mpr hseen⟩)
    · rw [hserve, Except.ok.injEq] at h
      rw [← h]
    · rw [hserve] at h
      cases h

/-- The faults of a run are those of the REP socket alone exactly on survivable requests. -/
theorem fault_eq_receive_iff (reqs : List Request) (seen : Bool) (s : State) (hs : Ready seen s) :
    (∀ fault, (acceptRegistrations L ⟨s, false⟩ reqs).result = .error fault → fault = .receive) ↔
      Survivable seen reqs := by
  induction reqs generalizing seen s with
  | nil => exact ⟨fun _ => trivial, fun _ => nofun⟩
  | cons r rest ih =>
    rw [Survivable]
    rcases serve_cases L hs r with ⟨hkind, hprov, actions, t, hserve, _, ht⟩ | ⟨hkind, hprov, hserve⟩ |
      ⟨hnot, actions, fault, hserve, hne⟩
    · rw [acceptRegistrations_ok L hserve, ih _ t ht, and_iff_right hprov, forall_prop_of_true hkind]
    · -- the run ends here, or at the receive that the socket refuses
      refine iff_of_true ?_ ⟨hprov, fun hanswered => absurd hanswered hkind⟩
      intro fault hfault
      rw [acceptRegistrations_ok L hserve] at hfault
      cases rest with
      | nil => cases hfault
      | cons next others =>
        rw [acceptRegistrations_error L (serve_owed L rfl next)] at hfault
        cases hfault
        rfl
    · rw [acceptRegistrations_error L hserve]
      exact iff_of_false (fun hall => hne (hall fault rfl)) fun hsurv => hnot hsurv.1

/-- **What breaks the registrar.** A run uses no missing frame, no NULL node and no NULL entry,
and keeps its state at requests it cannot serve, exactly when every request up to the first
unanswered one has the frames its kind needs and registers a file only after a publisher. -/
theorem unbroken_iff (reqs : List Request) : Unbroken L reqs ↔ Survivable false reqs := by
  have hfault := fault_eq_receive_iff L reqs false initial ready_initial
  refine ⟨fun h => hfault.mp h.1, fun h => ⟨hfault.mpr h, ?_⟩⟩
  intro before r after v w _ hv hw hr
  obtain ⟨seen, hs⟩ := ready_of_run L before false initial ready_initial hv
  exact serve_unserved L hs hw hr

/-- A file registered before any publisher: the ring has no node for it. -/
theorem register_first_breaks : ¬ Unbroken (hashRing strlen) [register (literal "/srv") fun _ => 1] := by
  intro h
  have hempty := registerFile_empty (hashRing strlen) initial rfl (fun _ => 1)
    (register (literal "/srv") fun _ => 1).frames (literal "/srv") (by decide)
  have hrun : (acceptRegistrations (hashRing strlen) start [register (literal "/srv") fun _ => 1]).result =
      .error .nullNode := by
    have hserve : serve (hashRing strlen) start (register (literal "/srv") fun _ => 1) =
        ⟨[.receive, .watch (literal "/srv") (decimal 1)], .error .nullNode⟩ := by
      simp only [serve, handle_file (hashRing strlen) start.registrar
        (r := register (literal "/srv") fun _ => 1) (by decide)]
      rw [show (register (literal "/srv") fun _ => 1).addWatch = fun _ => 1 from rfl,
        show start.registrar = initial from rfl, hempty]
      rfl
    rw [acceptRegistrations_error _ hserve]
  exact absurd (h.1 _ hrun) (by decide)

end Rnotify.Registrar
