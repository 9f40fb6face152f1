import Rnotify.Dispatcher.Threads

/-! Whether one parser thread at a time sends on a socket.

ZeroMQ sockets are not thread safe, and the mutex taken around `notify` is what
keeps two threads off one. All entries of the table of locks point to one cell, so
it is in fact one lock for all sockets: a thread that has it keeps every other out
(`Guarded`), as long as the cell says so. The updater's `g_mutex_init` makes the
cell say unlocked whoever has it, with each announcement it processes, and that
alone breaks the lock (`one_sender`, `join_between_sends`). -/
namespace Rnotify.Dispatcher
open Library

/-- The mutex that a parser thread has locked and not yet unlocked. -/
def Parser.holding : Parser → Option MutexCell
  | .notifying _ _ mutex => some mutex
  | .unlocking mutex => some mutex
  | _ => none

variable {τ : Type}

/-- One thread at most is inside `notify` on a socket, and a thread that comes to unlock a mutex holds it. -/
structure Exclusive (s : Threads τ) : Prop where
  one : ∀ t u e f sock mutex mutex', s.parsers t = .notifying e sock mutex →
    s.parsers u = .notifying f sock mutex' → t = u
  held : ∀ t mutex, s.parsers t = .unlocking mutex → s.cells mutex = some t

/-- Whether the updater's next step initializes the mutex. -/
def Updater.inserting : Updater → Bool
  | .insert _ _ => true
  | _ => false

/-- The mutex is free when the updater comes to initialize it. -/
def InitWhenFree (s : Threads τ) : Label τ → Prop
  | .update => s.dispatcher.updater.inserting = true → s.cells .m = none
  | _ => True

instance [DecidableEq τ] (s : Threads τ) : ∀ a, Decidable (InitWhenFree s a)
  | .update => inferInstanceAs (Decidable (_ = true → s.cells .m = none))
  | .announce _ | .lookup _ _ _ | .lock _ | .notify _ | .unlock _ => isTrue trivial

/-- A mutex that a thread has locked shows that thread. -/
def Guarded (s : Threads τ) : Prop :=
  ∀ t mutex, (s.parsers t).holding = some mutex → s.cells mutex = some t

theorem Guarded.exclusive {s : Threads τ} (h : Guarded s) : Exclusive s where
  one := by
    intro t u e f sock mutex mutex' ht hu
    have htm : s.cells mutex = some t := h t mutex (by rw [ht]; rfl)
    have hum : s.cells mutex' = some u := h u mutex' (by rw [hu]; rfl)
    -- there is only one mutex
    cases mutex
    cases mutex'
    rw [htm, Option.some.injEq] at hum
    exact hum
  held := fun t mutex ht => h t mutex (by rw [ht]; rfl)

variable [DecidableEq τ] {L : Lookup} {s s' : Threads τ} {t : τ}

theorem guarded_initial : Guarded (threads L τ).initial := nofun

theorem setParser_parsers (s : Threads τ) (t : τ) (p : Parser) : (setParser s t p).parsers t = p :=
  Function.update_self ..

theorem setParser_parsers_ne (s : Threads τ) {t u : τ} (h : u ≠ t) (p : Parser) :
    (setParser s t p).parsers u = s.parsers u :=
  Function.update_of_ne h ..

/-- A thread that moves without touching a mutex, and holds what it held. -/
theorem guarded_move (h : Guarded s) {p : Parser} (hp : p.holding = (s.parsers t).holding)
    (hs' : s'.parsers = (setParser s t p).parsers) (hcells : s'.cells = s.cells) : Guarded s' := by
  intro u mutex hu
  rw [hs'] at hu
  rw [hcells]
  by_cases hut : u = t
  · rw [hut, setParser_parsers, hp] at hu
    rw [hut]
    exact h t mutex hu
  · rw [setParser_parsers_ne s hut] at hu
    exact h u mutex hu

/-- The free mutex is taken: nobody else held it. -/
theorem guarded_lock (h : Guarded s) (hstep : threadStep L s (.lock t) = some s') : Guarded s' := by
  obtain ⟨pevent, ret, mutex, _, hfree, rfl⟩ := step_lock hstep
  intro u mutex' hu
  cases mutex'
  cases mutex
  show Function.update s.cells .m (some t) .m = some u
  rw [Function.update_self]
  by_cases hut : u = t
  · rw [hut]
  · rw [setParser_parsers_ne _ hut] at hu
    have hold : s.cells .m = some u := h u .m hu
    rw [hfree] at hold
    cases hold

/-- The mutex is given back by the thread that holds it: nobody else does. -/
theorem guarded_unlock (h : Guarded s) (hstep : threadStep L s (.unlock t) = some s') : Guarded s' := by
  obtain ⟨mutex, hp, rfl⟩ := step_unlock hstep
  intro u mutex' hu
  cases mutex'
  cases mutex
  have hmine : s.cells .m = some t := h t .m (by rw [hp]; rfl)
  by_cases hut : u = t
  · rw [hut, setParser_parsers] at hu
    cases hu
  · rw [setParser_parsers_ne _ hut] at hu
    have hother : s.cells .m = some u := h u .m hu
    rw [hmine, Option.some.injEq] at hother
    exact absurd hother.symm hut

/-- A mutex that is free when it is initialized is held by no thread. -/
theorem guarded_update (h : Guarded s) (hfree : InitWhenFree s .update)
    (hstep : threadStep L s .update = some s') : Guarded s' := by
  obtain ⟨d, _, rfl⟩ := step_update hstep
  intro u mutex hu
  have hold : s.cells mutex = some u := h u mutex hu
  cases hup : s.dispatcher.updater with
  | insert addr sock =>
    cases mutex
    rw [hfree (by rw [hup]; rfl)] at hold
    cases hold
  | connect | receive | addNode | createSocket => exact hold

theorem guarded_step {a : Label τ} (h : Guarded s) (hfree : InitWhenFree s a)
    (hstep : threadStep L s a = some s') : Guarded s' := by
  cases a with
  | announce addr =>
    cases hstep
    exact h
  | update => exact guarded_update h hfree hstep
  | lookup t pevent rand =>
    -- from `idle` to `locking`
    obtain ⟨ret, mutex, hp, _, rfl⟩ := step_lookup hstep
    exact guarded_move h (p := .locking pevent ret mutex) (by rw [hp]; rfl) rfl rfl
  | lock t => exact guarded_lock h hstep
  | notify t =>
    obtain ⟨pevent, ret, mutex, wire, hp, _, rfl⟩ := step_notify hstep
    exact guarded_move h (p := .unlocking mutex) (by rw [hp]; rfl) rfl rfl
  | unlock t => exact guarded_unlock h hstep

/-- **One sender per socket.** In every run in which the updater never initializes the mutex while it is
locked, at most one parser thread at a time is inside `notify` on a socket, and every unlock is made
by the thread that holds the mutex. -/
theorem one_sender {labels : List (Label τ)}
    (hfree : (threads L τ).Along InitWhenFree (threads L τ).initial labels)
    (hr : (threads L τ).exec (threads L τ).initial labels = some s) : Exclusive s := by
  have hguarded := (threads L τ).invariant_along InitWhenFree Guarded
    (fun _ _ _ h hfree hstep => guarded_step h hfree hstep) labels _ s guarded_initial hfree hr
  exact hguarded.exclusive

/-- A thread that holds the mutex: a turn of the updater's loop goes by and two threads look up a socket. -/
def firstLocks : List (Label (Fin 2)) :=
  [.update, .announce (literal "tcp://10.0.0.1:5001"), .update, .update, .update, .update,
    .lookup 0 (created 1) 0, .lookup 1 (created 1) 0, .lock 0]

theorem one_sender_firstLocks : ∃ s, (threads (hashRing strlen) (Fin 2)).exec
    (threads (hashRing strlen) (Fin 2)).initial firstLocks = some s ∧ Exclusive s := by
  have hrun : ∃ s, (threads (hashRing strlen) (Fin 2)).exec (threads (hashRing strlen) (Fin 2)).initial
      firstLocks = some s := ⟨_, rfl⟩
  obtain ⟨s, hs⟩ := hrun
  exact ⟨s, hs, one_sender (by decide) hs⟩

/-- Another publisher joins while the first thread is inside `notify`: the second thread takes the mutex
and is there too, on the same socket, and when the first comes to unlock the mutex, the second has it. -/
theorem join_between_sends :
    (∃ s, (threads (hashRing strlen) (Fin 2)).exec (threads (hashRing strlen) (Fin 2)).initial
        (firstLocks ++ [.announce (literal "tcp://10.0.0.2:5001"), .update, .update, .update, .update, .lock 1]) =
          some s ∧ ¬ Exclusive s) ∧
      ∃ s mutex, (threads (hashRing strlen) (Fin 2)).exec (threads (hashRing strlen) (Fin 2)).initial
        (firstLocks ++ [.announce (literal "tcp://10.0.0.2:5001"), .update, .update, .update, .update, .lock 1,
          .notify 0]) = some s ∧ s.parsers 0 = .unlocking mutex ∧ s.cells mutex ≠ some 0 := by
  refine ⟨⟨_, rfl, fun h => ?_⟩, ⟨_, .m, rfl, rfl, by decide⟩⟩
  exact absurd (h.one 0 1 _ _ _ _ _ rfl rfl) (by decide)

end Rnotify.Dispatcher
