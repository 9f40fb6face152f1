import Rnotify.Cluster.Model

/-! Whether the rings agree.

Two facts are kept by every step of a run. The registrar's ring and table hold the
registrations so far, the last one perhaps only in part (`Holds`); each
dispatcher has, on its ring or on the way to it, the names it was sent
(`Watches`). In a quiet state nothing is on the way, so a dispatcher's ring is the
names announced since it connected, the registrar's is all names registered, and
what is missing from the first is what registered before and has not come back
(`quiet_rings`). -/
namespace Rnotify.Cluster
open Library Registrar Dispatcher

variable {δ κ : Type} [DecidableEq δ] (L : Lookup)

/-! ### What a step does -/

/-- A file registration adds the registrar's reply, and changes nothing else. -/
theorem step_subscribe {s t : State δ κ} {c : κ} {path : CString} {wd : Int}
    (hstep : step L s (.subscribe c path wd) = some t) :
    s.phase = .receive ∧ ∃ actions wire,
      registerFile L (fun _ => wd) s.registrar (Registrar.register path fun _ => wd).frames =
        ⟨actions, .ok s.registrar⟩ ∧
      replyOf actions = some wire ∧ t = { s with replies := s.replies ++ [(c, wire)] } := by
  cases hphase : s.phase with
  | enlist | record =>
    simp only [step, hphase] at hstep
    cases hstep
  | receive =>
    simp only [step, hphase, answer, handle_file L _ (register_isFile path fun _ => wd)] at hstep
    split at hstep
    · cases hstep
    · next actions next hpass =>
      obtain ⟨wire, hwire, rfl⟩ := Option.map_eq_some_iff.mp hstep
      have hnext : next = s.registrar := registerFile_next L (congrArg Pass.next hpass)
      rw [hnext] at hpass
      exact ⟨rfl, actions, wire, hpass, hwire, by rw [hnext]⟩

theorem step_proceed {s t : State δ κ} (hstep : step L s .proceed = some t) :
    (∃ p, s.phase = .enlist p ∧ t = { s with registrar := enlist s.registrar p, phase := .record p }) ∨
      ∃ p, s.phase = .record p ∧ t = { s with registrar := record s.registrar p, phase := .receive } := by
  cases hphase : s.phase with
  | receive =>
    simp only [step, hphase] at hstep
    cases hstep
  | enlist p =>
    simp only [step, hphase, Option.some.injEq] at hstep
    exact Or.inl ⟨p, rfl, hstep.symm⟩
  | record p =>
    simp only [step, hphase, Option.some.injEq] at hstep
    exact Or.inr ⟨p, rfl, hstep.symm⟩

theorem step_register {s t : State δ κ} {p : Publisher} (hstep : step L s (.register p) = some t) :
    s.phase = .receive ∧
      t = { s with phase := .enlist p, dispatchers := announce s (notifyDispatchers p) } := by
  cases hphase : s.phase with
  | receive =>
    simp only [step, hphase, Option.some.injEq] at hstep
    exact ⟨rfl, hstep.symm⟩
  | enlist | record =>
    simp only [step, hphase] at hstep
    cases hstep

theorem step_start {s t : State δ κ} {d : δ} (hstep : step L s (.start d) = some t) :
    s.dispatchers d = none ∧ t = setDispatcher s d Dispatcher.initial := by
  cases hd : s.dispatchers d with
  | some st =>
    simp only [step, hd] at hstep
    cases hstep
  | none =>
    simp only [step, hd, Option.some.injEq] at hstep
    exact ⟨rfl, hstep.symm⟩

theorem step_update {s t : State δ κ} {d : δ} (hstep : step L s (.update d) = some t) :
    ∃ st st', s.dispatchers d = some st ∧ publisherUpdater st = some st' ∧ t = setDispatcher s d st' := by
  obtain ⟨st', hst', rfl⟩ := Option.map_eq_some_iff.mp hstep
  obtain ⟨st, hd, hupdate⟩ := Option.bind_eq_some_iff.mp hst'
  exact ⟨st, st', hd, hupdate, rfl⟩

/-- What a step does to one dispatcher. -/
theorem dispatcher_cases {s t : State δ κ} {a : Label δ κ} (hstep : step L s a = some t) (d : δ) :
    (a = .start d ∧ s.dispatchers d = none ∧ t.dispatchers d = some Dispatcher.initial) ∨
      (a = .update d ∧ ∃ st st', s.dispatchers d = some st ∧ publisherUpdater st = some st' ∧
        t.dispatchers d = some st') ∨
      (∃ p, a = .register p ∧
        t.dispatchers d = (s.dispatchers d).map fun st => deliver st (notifyDispatchers p)) ∨
      (a.publisher = none ∧ a ≠ .update d ∧ t.dispatchers d = s.dispatchers d) := by
  cases a with
  | start d' =>
    obtain ⟨hnone, rfl⟩ := step_start L hstep
    by_cases he : d = d'
    · rw [← he] at hnone ⊢
      exact Or.inl ⟨rfl, hnone, by simp [setDispatcher]⟩
    · exact Or.inr (Or.inr (Or.inr ⟨rfl, nofun, by simp [setDispatcher, he]⟩))
  | update d' =>
    obtain ⟨st, st', hst, hupdate, rfl⟩ := step_update L hstep
    by_cases he : d = d'
    · rw [← he] at hst ⊢
      exact Or.inr (Or.inl ⟨rfl, st, st', hst, hupdate, by simp [setDispatcher]⟩)
    · refine Or.inr (Or.inr (Or.inr ⟨rfl, ?_, by simp [setDispatcher, he]⟩))
      exact fun hlabel => he (Label.update.inj hlabel).symm
  | register p =>
    obtain ⟨_, rfl⟩ := step_register L hstep
    exact Or.inr (Or.inr (Or.inl ⟨p, rfl, rfl⟩))
  | proceed =>
    refine Or.inr (Or.inr (Or.inr ⟨rfl, nofun, ?_⟩))
    obtain ⟨p, _, rfl⟩ | ⟨p, _, rfl⟩ := step_proceed L hstep <;> rfl
  | subscribe c path wd =>
    obtain ⟨_, _, wire, _, _, rfl⟩ := step_subscribe L hstep
    exact Or.inr (Or.inr (Or.inr ⟨rfl, nofun, rfl⟩))

/-! ### The registrar -/

/-- What the registrar holds of the registrations `ps`. -/
def Holds (ps : List Publisher) (r : Registrar.State) : Phase → Prop
  | .receive => Registered ps r
  | .enlist p => ∃ qs, ps = qs ++ [p] ∧ Registered qs r
  | .record p => ∃ qs, ps = qs ++ [p] ∧ r.publisherRing = acceptAddrs ps ∧ Kept qs r.publishers

theorem holds_step {h : List (Label δ κ)} {s t : State δ κ} {a : Label δ κ}
    (hs : Holds (registrations h) s.registrar s.phase) (hstep : step L s a = some t) :
    Holds (registrations (h ++ [a])) t.registrar t.phase := by
  cases a with
  | start d =>
    obtain ⟨_, rfl⟩ := step_start L hstep
    rwa [registrations_quiet h rfl]
  | update d =>
    obtain ⟨_, _, _, _, rfl⟩ := step_update L hstep
    rwa [registrations_quiet h rfl]
  | register p =>
    obtain ⟨hphase, rfl⟩ := step_register L hstep
    rw [hphase] at hs
    exact ⟨registrations h, registrations_append h _, hs⟩
  | proceed =>
    rw [registrations_quiet h rfl]
    obtain ⟨p, hphase, rfl⟩ | ⟨p, hphase, rfl⟩ := step_proceed L hstep
    · rw [hphase] at hs
      obtain ⟨qs, hqs, hring, hkept⟩ := hs
      refine ⟨qs, hqs, ?_, hkept⟩
      show insert p.acceptAddr s.registrar.publisherRing = _
      rw [hring, hqs, acceptAddrs_concat]
    · rw [hphase] at hs
      obtain ⟨qs, hqs, hring, hkept⟩ := hs
      refine ⟨hring, ?_⟩
      rw [hqs]
      exact kept_insert hkept p
  | subscribe c path wd =>
    obtain ⟨_, _, wire, _, _, rfl⟩ := step_subscribe L hstep
    rwa [registrations_quiet h rfl]

theorem holds_run {h : List (Label δ κ)} {s : State δ κ} (hr : (cluster L).exec (cluster L).initial h = some s) :
    Holds (registrations h) s.registrar s.phase :=
  (cluster L).history_invariant (fun h s => Holds (registrations h) s.registrar s.phase) registered_initial
    (fun _ _ _ _ hs hstep => holds_step L hs hstep) h s hr

/-! ### A dispatcher -/

/-- What one dispatcher has of the history: nothing if it has not started, else the names it was sent. -/
def Watches (d : δ) (h : List (Label δ κ)) : Option Dispatcher.State → Prop
  | none => Label.update d ∉ h
  | some st => Follows (heard d h) st ∧ (st.updater = .connect ↔ Label.update d ∉ h)

/-- Past its first step the updater never connects again. -/
theorem publisherUpdater_connected {st st' : Dispatcher.State} (h : publisherUpdater st = some st') :
    st'.updater ≠ .connect := by
  obtain ⟨_, rfl⟩ | ⟨_, _, _, _, _, _, rfl⟩ | ⟨_, _, rfl⟩ | ⟨_, _, rfl⟩ | ⟨_, _, _, rfl⟩ :=
    publisherUpdater_cases h <;> simp

theorem watches_step {d : δ} {h : List (Label δ κ)} {s t : State δ κ} {a : Label δ κ}
    (hs : Watches d h (s.dispatchers d)) (hstep : step L s a = some t) :
    Watches d (h ++ [a]) (t.dispatchers d) := by
  have hmem : a ≠ .update d → (Label.update d ∉ h ++ [a] ↔ Label.update d ∉ h) := by
    intro ha
    simp [Ne.symm ha]
  obtain ⟨rfl, hnone, ht⟩ | ⟨rfl, st, st', hst, hupdate, ht⟩ | ⟨p, rfl, ht⟩ | ⟨hquiet, ha, ht⟩ :=
    dispatcher_cases L hstep d
  · rw [hnone] at hs
    rw [ht]
    refine ⟨?_, iff_of_true rfl ((hmem nofun).mpr hs)⟩
    rw [heard_quiet d h rfl, heard_of_not_mem hs]
    exact follows_initial
  · rw [hst] at hs
    rw [ht]
    refine ⟨?_, iff_of_false (publisherUpdater_connected hupdate) (by simp)⟩
    rw [heard_quiet d h rfl]
    exact follows_update hs.1 hupdate
  · rw [ht]
    cases hd : s.dispatchers d with
    | none =>
      rw [hd] at hs
      exact (hmem nofun).mpr hs
    | some st =>
      rw [hd] at hs
      refine ⟨?_, ?_⟩
      · rw [heard_register hs.2]
        exact follows_deliver hs.1 p.acceptAddr
      · rw [hmem nofun, ← hs.2]
        exact iff_of_eq (congrArg (· = Updater.connect) (deliver_updater st _))
  · rw [ht]
    cases hd : s.dispatchers d with
    | none =>
      rw [hd] at hs
      exact (hmem ha).mpr hs
    | some st =>
      rw [hd] at hs
      refine ⟨?_, hs.2.trans (hmem ha).symm⟩
      rw [heard_quiet d h hquiet]
      exact hs.1

theorem watches_run (d : δ) {h : List (Label δ κ)} {s : State δ κ}
    (hr : (cluster L).exec (cluster L).initial h = some s) : Watches d h (s.dispatchers d) :=
  (cluster L).history_invariant (fun h s => Watches d h (s.dispatchers d)) List.not_mem_nil
    (fun _ _ _ _ hs hstep => watches_step L hs hstep) h s hr

/-! ### Quiet states -/

/-- No announcement is on its way or half processed, at the registrar or at a dispatcher. -/
def Quiet (s : State δ κ) : Prop :=
  s.phase = .receive ∧ ∀ d st, s.dispatchers d = some st → Resting st

/-- **Ring agreement.** In every quiet state that a run reaches, a dispatcher's ring has the names
announced since its socket was connected and its tables have these for keys; they are the names of
the registrar's ring exactly when every publisher registered before that has come back since. -/
theorem quiet_rings {h : List (Label δ κ)} {s : State δ κ}
    (hr : (cluster L).exec (cluster L).initial h = some s) (hq : Quiet s) {d : δ} {st : Dispatcher.State}
    (hd : s.dispatchers d = some st) :
    st.info.publisherRing = heard d h ∧
      Table.names st.info.publisherSocks = heard d h ∧
      Table.names st.info.publisherSocksLocks = heard d h ∧
      s.registrar.publisherRing = acceptAddrs (registrations h) ∧
      Table.names s.registrar.publishers = s.registrar.publisherRing ∧
      (st.info.publisherRing = s.registrar.publisherRing ↔
        ∀ p ∈ registrations (before d h), p.acceptAddr ∈ heard d h) := by
  have hholds := holds_run L hr
  rw [hq.1] at hholds
  have hwatch := watches_run L d hr
  rw [hd] at hwatch
  obtain ⟨hstep, hring⟩ := hwatch.1.resting (hq.2 d st hd)
  refine ⟨hring, hstep.socks.trans hring, hstep.locks.trans hring, hholds.ring, hholds.consistent.symm, ?_⟩
  rw [hring, hholds.ring, acceptAddrs_eq d h, eq_comm, Finset.union_eq_right]
  constructor
  · intro hsub p hp
    exact hsub (mem_acceptAddrs.mpr ⟨p, hp, rfl⟩)
  · intro hback n hn
    obtain ⟨p, hp, rfl⟩ := mem_acceptAddrs.mp hn
    exact hback p hp

/-- A dispatcher connects, and a publisher registers. -/
def startFirst : List (Label Unit Unit) :=
  [.start (), .update (), .register firstPublisher, .proceed, .proceed,
    .update (), .update (), .update (), .update ()]

theorem quiet_rings_startFirst : ∃ s st,
    (cluster (hashRing strlen)).exec (cluster (hashRing strlen)).initial startFirst = some s ∧ Quiet s ∧
    s.dispatchers () = some st ∧
    (st.info.publisherRing = s.registrar.publisherRing ↔
      ∀ p ∈ registrations (before () startFirst), p.acceptAddr ∈ heard () startFirst) := by
  have hrun : ∃ s st,
      (cluster (hashRing strlen)).exec (cluster (hashRing strlen)).initial startFirst = some s ∧ Quiet s ∧
      s.dispatchers () = some st := by
    refine ⟨_, _, rfl, ⟨rfl, ?_⟩, rfl⟩
    intro d st hst
    cases hst
    exact ⟨rfl, Or.inr rfl⟩
  obtain ⟨s, st, hr, hq, hd⟩ := hrun
  exact ⟨s, st, hr, hq, hd, (quiet_rings (hashRing strlen) hr hq hd).2.2.2.2.2⟩

/-- A dispatcher that connects after a publisher registered never hears of it. -/
theorem late_dispatcher_differs : ∃ s st,
    (cluster (hashRing strlen)).exec (cluster (hashRing strlen)).initial
      ([.register firstPublisher, .proceed, .proceed, .start (), .update ()] : List (Label Unit Unit)) = some s ∧
    Quiet s ∧ s.dispatchers () = some st ∧ st.info.publisherRing ≠ s.registrar.publisherRing := by
  refine ⟨_, _, rfl, ⟨rfl, ?_⟩, rfl, by decide⟩
  intro d st hst
  cases hst
  exact ⟨rfl, Or.inr rfl⟩

end Rnotify.Cluster
