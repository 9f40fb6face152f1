import Rnotify.Dispatcher.Updater
import Rnotify.Library.System

/-! The threads of a dispatcher (`dispatcher.c`).

The updater and any number of parser threads share the ring, the two tables and
the mutexes that the second table points to. A parser thread in
`notify_random_publisher` makes its lookups under the reader lock, which is one
step, since the inserts are made under the writer lock; then it takes the mutex it
found, sends and gives the mutex back. The updater's `GMutex m` is a local of its
loop: each turn initializes the same cell again and inserts its address once more.
A NULL dereferenced, as a node, a socket or a mutex, stops the process, and such
a step has no next state. -/
namespace Rnotify.Dispatcher
open Library

/-- The ring lookup and the two table lookups that follow it. -/
def lookups (L : Lookup) (info : PublishersInfo) (key : List Byte) : Option (DispatchSocket × MutexCell) :=
  match L.findNode info.publisherRing key with
  | none => none
  | some node =>
    match info.publisherSocks.lookup node, info.publisherSocksLocks.lookup node with
    | some ret, some mutex => some (ret, mutex)
    | _, _ => none

/-- The lookups of a call that sends on a socket found that socket. -/
theorem lookups_of_sent {L : Lookup} {info : PublishersInfo} {pevent : InotifyEvent} {rand : Nat}
    {ret : DispatchSocket} {wire : Wire} (h : notifyRandomPublisher L info pevent rand = some (ret, wire)) :
    lookups L info (dispatcherKey pevent rand) = some (ret, .m) := by
  obtain ⟨ret', hfind, hret⟩ := Option.bind_eq_some_iff.mp h
  obtain ⟨_, _, hpair⟩ := Option.map_eq_some_iff.mp hret
  obtain rfl := (Prod.mk.inj hpair).1
  unfold findPublisher socketFor at hfind
  split at hfind
  · cases hfind
  · next node hnode =>
    split at hfind
    · next sock mutex hsock hmutex =>
      cases mutex
      rw [← Option.some.inj hfind]
      simp only [lookups, hnode, hsock, hmutex]
    · cases hfind

/-- Where a parser thread is in `notify_random_publisher`. -/
inductive Parser where
  /-- Outside of it. -/
  | idle
  /-- At `g_mutex_lock`. -/
  | locking (pevent : InotifyEvent) (ret : DispatchSocket) (mutex : MutexCell)
  /-- In `notify`. -/
  | notifying (pevent : InotifyEvent) (ret : DispatchSocket) (mutex : MutexCell)
  /-- At `g_mutex_unlock`. -/
  | unlocking (mutex : MutexCell)

structure Threads (τ : Type) where
  dispatcher : State
  /-- What each mutex holds: nothing when it is unlocked, else the thread that locked it. -/
  cells : MutexCell → Option τ
  parsers : τ → Parser
  /-- The messages sent so far. -/
  sent : List (DispatchSocket × Wire)

inductive Label (τ : Type) where
  /-- The registrar broadcasts an address. -/
  | announce (publisherAddr : CString)
  /-- A step of the updater. -/
  | update
  | lookup (t : τ) (pevent : InotifyEvent) (rand : Nat)
  | lock (t : τ)
  | notify (t : τ)
  | unlock (t : τ)

variable {τ : Type}

/-- What a step of the updater does to the mutexes: `g_mutex_init` comes with the inserts. -/
def initCells (cells : MutexCell → Option τ) : Updater → MutexCell → Option τ
  | .insert _ _ => Function.update cells .m none
  | _ => cells

variable [DecidableEq τ]

def setParser (s : Threads τ) (t : τ) (p : Parser) : Threads τ :=
  { s with parsers := Function.update s.parsers t p }

def threadStep (L : Lookup) (s : Threads τ) : Label τ → Option (Threads τ)
  | .announce addr => some { s with dispatcher := deliver s.dispatcher (sendText addr) }
  | .update => (publisherUpdater s.dispatcher).map fun d =>
    { s with dispatcher := d, cells := initCells s.cells s.dispatcher.updater }
  | .lookup t pevent rand =>
    match s.parsers t with
    | .idle => (lookups L s.dispatcher.info (dispatcherKey pevent rand)).map fun found =>
      setParser s t (.locking pevent found.1 found.2)
    | _ => none
  | .lock t =>
    match s.parsers t with
    | .locking pevent ret mutex =>
      if s.cells mutex = none then
        some (setParser { s with cells := Function.update s.cells mutex (some t) } t
          (.notifying pevent ret mutex))
      else none
    | _ => none
  | .notify t =>
    match s.parsers t with
    | .notifying pevent ret mutex => (Rnotify.notify pevent).map fun wire =>
      setParser { s with sent := s.sent ++ [(ret, wire)] } t (.unlocking mutex)
    | _ => none
  | .unlock t =>
    match s.parsers t with
    | .unlocking mutex =>
      some (setParser { s with cells := Function.update s.cells mutex none } t .idle)
    | _ => none

/-- The forks are done, and nothing has been announced. -/
def threads (L : Lookup) (τ : Type) [DecidableEq τ] : System (Threads τ) (Label τ) where
  initial := ⟨initial, fun _ => none, fun _ => .idle, []⟩
  step := threadStep L

/-! ### What a step does -/

variable {L : Lookup} {s s' : Threads τ} {t : τ}

/-- A parser thread that is not held up does what `notifyRandomPublisher` says. -/
theorem notify_undisturbed {pevent : InotifyEvent} {rand : Nat} {ret : DispatchSocket} {wire : Wire}
    (hidle : s.parsers t = .idle) (hfree : s.cells .m = none)
    (h : notifyRandomPublisher L s.dispatcher.info pevent rand = some (ret, wire)) :
    (threads L τ).exec s [.lookup t pevent rand, .lock t, .notify t, .unlock t] =
      some { s with sent := s.sent ++ [(ret, wire)] } := by
  have hwire := notify_of_sent h
  have hfound : lookups L s.dispatcher.info (dispatcherKey pevent rand) = some (ret, .m) :=
    lookups_of_sent h
  have hparsers : Function.update s.parsers t .idle = s.parsers := by rw [← hidle, Function.update_eq_self]
  have hcells : Function.update s.cells .m none = s.cells := by rw [← hfree, Function.update_eq_self]
  simp [threads, threadStep, setParser, hidle, hfound, hfree, hwire, hparsers, hcells]

theorem step_update (hstep : threadStep L s .update = some s') :
    ∃ d, publisherUpdater s.dispatcher = some d ∧
      s' = { s with dispatcher := d, cells := initCells s.cells s.dispatcher.updater } := by
  obtain ⟨d, hd, rfl⟩ := Option.map_eq_some_iff.mp hstep
  exact ⟨d, hd, rfl⟩

theorem step_lookup {pevent : InotifyEvent} {rand : Nat}
    (hstep : threadStep L s (.lookup t pevent rand) = some s') :
    ∃ ret mutex, s.parsers t = .idle ∧
      lookups L s.dispatcher.info (dispatcherKey pevent rand) = some (ret, mutex) ∧
      s' = setParser s t (.locking pevent ret mutex) := by
  cases hp : s.parsers t with
  | idle =>
    simp only [threadStep, hp] at hstep
    obtain ⟨⟨ret, mutex⟩, hfound, rfl⟩ := Option.map_eq_some_iff.mp hstep
    exact ⟨ret, mutex, rfl, hfound, rfl⟩
  | locking | notifying | unlocking =>
    simp only [threadStep, hp] at hstep
    cases hstep

theorem step_lock (hstep : threadStep L s (.lock t) = some s') :
    ∃ pevent ret mutex, s.parsers t = .locking pevent ret mutex ∧ s.cells mutex = none ∧
      s' = setParser { s with cells := Function.update s.cells mutex (some t) } t
        (.notifying pevent ret mutex) := by
  cases hp : s.parsers t with
  | locking pevent ret mutex =>
    simp only [threadStep, hp] at hstep
    split at hstep
    · next hfree =>
      rw [Option.some.injEq] at hstep
      exact ⟨pevent, ret, mutex, rfl, hfree, hstep.symm⟩
    · cases hstep
  | idle | notifying | unlocking =>
    simp only [threadStep, hp] at hstep
    cases hstep

theorem step_notify (hstep : threadStep L s (.notify t) = some s') :
    ∃ pevent ret mutex wire, s.parsers t = .notifying pevent ret mutex ∧ Rnotify.notify pevent = some wire ∧
      s' = setParser { s with sent := s.sent ++ [(ret, wire)] } t (.unlocking mutex) := by
  cases hp : s.parsers t with
  | notifying pevent ret mutex =>
    simp only [threadStep, hp] at hstep
    obtain ⟨wire, hwire, rfl⟩ := Option.map_eq_some_iff.mp hstep
    exact ⟨pevent, ret, mutex, wire, rfl, hwire, rfl⟩
  | idle | locking | unlocking =>
    simp only [threadStep, hp] at hstep
    cases hstep

theorem step_unlock (hstep : threadStep L s (.unlock t) = some s') :
    ∃ mutex, s.parsers t = .unlocking mutex ∧
      s' = setParser { s with cells := Function.update s.cells mutex none } t .idle := by
  cases hp : s.parsers t with
  | unlocking mutex =>
    simp only [threadStep, hp, Option.some.injEq] at hstep
    exact ⟨mutex, rfl, hstep.symm⟩
  | idle | locking | notifying =>
    simp only [threadStep, hp] at hstep
    cases hstep

/-- The dispatcher's part of a step: parser threads change nothing of it. -/
theorem step_dispatcher {a : Label τ} (hstep : threadStep L s a = some s') :
    (∃ addr, s'.dispatcher = deliver s.dispatcher (sendText addr)) ∨
      publisherUpdater s.dispatcher = some s'.dispatcher ∨ s'.dispatcher = s.dispatcher := by
  cases a with
  | announce addr =>
    cases hstep
    exact Or.inl ⟨addr, rfl⟩
  | update =>
    obtain ⟨d, hd, rfl⟩ := step_update hstep
    exact Or.inr (Or.inl hd)
  | lookup t pevent rand =>
    obtain ⟨_, _, _, _, rfl⟩ := step_lookup hstep
    exact Or.inr (Or.inr rfl)
  | lock t =>
    obtain ⟨_, _, _, _, _, rfl⟩ := step_lock hstep
    exact Or.inr (Or.inr rfl)
  | notify t =>
    obtain ⟨_, _, _, _, _, _, rfl⟩ := step_notify hstep
    exact Or.inr (Or.inr rfl)
  | unlock t =>
    obtain ⟨_, _, rfl⟩ := step_unlock hstep
    exact Or.inr (Or.inr rfl)

/-- Whatever the parser threads do, the dispatcher follows the announcements. -/
theorem follows_run {labels : List (Label τ)} (hr : (threads L τ).exec (threads L τ).initial labels = some s) :
    ∃ names, Follows names s.dispatcher := by
  refine (threads L τ).invariant (fun s => ∃ names, Follows names s.dispatcher) ?_ labels _ s
    ⟨∅, follows_initial⟩ hr
  rintro s a s' ⟨names, h⟩ hstep
  obtain ⟨addr, ht⟩ | hupdate | ht := step_dispatcher hstep
  · rw [ht]
    exact ⟨_, follows_deliver h addr⟩
  · exact ⟨names, follows_update h hupdate⟩
  · rw [ht]
    exact ⟨names, h⟩

end Rnotify.Dispatcher
