import Rnotify.Dispatcher.Updater
import Rnotify.Library.System
import Rnotify.Registrar.Service

/-! Registrar, dispatchers and clients together.

Any number of dispatchers may start at any moment, publishers register, clients
register files, and each dispatcher's updater takes its steps in between, in any
order. The registrar handles one request at a time; a publisher's registration
takes it three steps, the broadcast first, then the ring, then the table
(`registration_handled`). A broadcast reaches at once the inboxes of the sockets
that are connected, and waits there. Dispatching an event changes none of this: it
is a question to ask of a reachable state. -/
namespace Rnotify.Cluster
open Library Registrar Dispatcher

/-- What the registrar does next. -/
inductive Phase where
  /-- A receive on its REP socket. -/
  | receive
  /-- The ring, for a publisher that was announced. -/
  | enlist (p : Publisher)
  /-- The table, for a publisher that is on the ring. -/
  | record (p : Publisher)

/-- The processes: dispatchers are named by `δ`, clients by `κ`. -/
structure State (δ κ : Type) where
  registrar : Registrar.State
  phase : Phase
  /-- The dispatchers that have started. -/
  dispatchers : δ → Option Dispatcher.State
  /-- The replies to file registrations, and which client got each. -/
  replies : List (κ × Wire)

inductive Label (δ κ : Type) where
  /-- A dispatcher's `main`, up to its forks. -/
  | start (d : δ)
  /-- A step of a dispatcher's updater, of which the first connects its socket. -/
  | update (d : δ)
  /-- A publisher's registration is received, answered and announced. -/
  | register (p : Publisher)
  /-- The registrar's next step of a publisher's registration. -/
  | proceed
  /-- A client's `rsubscribe`, the watch id being what `inotify_add_watch` gives. -/
  | subscribe (c : κ) (path : CString) (wd : Int)
deriving DecidableEq

variable {δ κ : Type} [DecidableEq δ]

/-- A broadcast to every dispatcher. -/
def announce (s : State δ κ) (wire : Wire) : δ → Option Dispatcher.State :=
  fun d => (s.dispatchers d).map fun st => deliver st wire

def setDispatcher (s : State δ κ) (d : δ) (st : Dispatcher.State) : State δ κ :=
  { s with dispatchers := Function.update s.dispatchers d (some st) }

/-- The reply among what a pass did. -/
def replyOf : List Action → Option Wire
  | [] => none
  | .reply wire :: _ => some wire
  | _ :: rest => replyOf rest

/-- A file registration is answered, or it stops the registrar. -/
def answer (L : Lookup) (s : State δ κ) (c : κ) (path : CString) (wd : Int) : Option (State δ κ) :=
  match handle L s.registrar (Registrar.register path fun _ => wd) with
  | ⟨_, .error _⟩ => none
  | ⟨actions, .ok next⟩ =>
    (replyOf actions).map fun wire => { s with registrar := next, replies := s.replies ++ [(c, wire)] }

def step (L : Lookup) (s : State δ κ) : Label δ κ → Option (State δ κ)
  | .start d =>
    match s.dispatchers d with
    | none => some (setDispatcher s d Dispatcher.initial)
    | some _ => none
  | .update d => ((s.dispatchers d).bind publisherUpdater).map (setDispatcher s d)
  | .register p =>
    match s.phase with
    | .receive => some { s with phase := .enlist p, dispatchers := announce s (notifyDispatchers p) }
    | _ => none
  | .proceed =>
    match s.phase with
    | .receive => none
    | .enlist p => some { s with registrar := Registrar.enlist s.registrar p, phase := .record p }
    | .record p => some { s with registrar := Registrar.record s.registrar p, phase := .receive }
  | .subscribe c path wd =>
    match s.phase with
    | .receive => answer L s c path wd
    | _ => none

/-- The registrar runs, and no dispatcher yet. -/
def cluster (L : Lookup) : System (State δ κ) (Label δ κ) where
  initial := ⟨Registrar.initial, .receive, fun _ => none, []⟩
  step := step L

/-- The three steps of a registration are what `handle` does with the request. -/
theorem registration_handled (L : Lookup) (s : State δ κ) (hs : s.phase = .receive) {r : Request}
    (hr : r.IsPublisher) {p : Publisher} (hp : newPublisher r.frames = .ok p) :
    ∃ next, handle L s.registrar r =
        ⟨[.reply (sendText registerOk), .announce (notifyDispatchers p)], .ok next⟩ ∧
      (cluster L).exec s [.register p, .proceed, .proceed] =
        some { s with registrar := next, dispatchers := announce s (notifyDispatchers p) } := by
  refine ⟨Registrar.record (Registrar.enlist s.registrar p) p, ?_, ?_⟩
  · rw [handle_publisher L _ hr, registerPublisher, hp]
  · obtain ⟨registrar, phase, dispatchers, replies⟩ := s
    cases hs
    rfl

/-! ### Histories -/

def Label.publisher : Label δ κ → Option Publisher
  | .register p => some p
  | _ => none

/-- The registrations of a history, in order. -/
def registrations (h : List (Label δ κ)) : List Publisher := h.filterMap Label.publisher

omit [DecidableEq δ] in
theorem registrations_append (a b : List (Label δ κ)) :
    registrations (a ++ b) = registrations a ++ registrations b := List.filterMap_append

def Label.isUpdate (d : δ) : Label δ κ → Bool
  | .update d' => d' = d
  | _ => false

@[simp] theorem Label.isUpdate_update (d : δ) : (Label.update d : Label δ κ).isUpdate d = true :=
  decide_eq_true rfl

theorem Label.isUpdate_of_ne {d : δ} {l : Label δ κ} (h : l ≠ .update d) : l.isUpdate d = false := by
  cases l with
  | update d' => exact decide_eq_false fun he => h (congrArg Label.update he)
  | start | register | proceed | subscribe => rfl

/-- The history before the SUB socket of a dispatcher was connected, and from then on. -/
def before (d : δ) (h : List (Label δ κ)) : List (Label δ κ) := h.takeWhile fun l => !l.isUpdate d
def since (d : δ) (h : List (Label δ κ)) : List (Label δ κ) := h.dropWhile fun l => !l.isUpdate d

theorem before_append_since (d : δ) (h : List (Label δ κ)) : before d h ++ since d h = h :=
  List.takeWhile_append_dropWhile

/-- The names that a dispatcher was sent. -/
def heard (d : δ) (h : List (Label δ κ)) : Finset CString := acceptAddrs (registrations (since d h))

/-- Every name registered was heard, or registered before the socket was connected. -/
theorem acceptAddrs_eq (d : δ) (h : List (Label δ κ)) :
    acceptAddrs (registrations h) = acceptAddrs (registrations (before d h)) ∪ heard d h := by
  rw [heard]
  conv_lhs => rw [← before_append_since d h]
  rw [registrations_append, acceptAddrs, List.map_append, List.toFinset_append]
  rfl

theorem heard_of_not_mem {d : δ} {h : List (Label δ κ)} (hd : Label.update d ∉ h) : heard d h = ∅ := by
  have hnil : since d h = [] := by
    apply List.dropWhile_eq_nil_iff.mpr
    intro l hl
    rw [Label.isUpdate_of_ne fun he => hd (he ▸ hl)]
    rfl
  rw [heard, hnil]
  rfl

/-- Once the socket is connected, each registration is heard. -/
theorem heard_concat {d : δ} {h : List (Label δ κ)} (hd : Label.update d ∈ h) (l : Label δ κ) :
    heard d (h ++ [l]) = heard d h ∪ acceptAddrs (registrations [l]) := by
  have hne : since d h ≠ [] := by
    intro hnil
    have hall := List.dropWhile_eq_nil_iff.mp hnil _ hd
    simp at hall
  have hsince : since d (h ++ [l]) = since d h ++ [l] := by
    rw [since, List.dropWhile_append, if_neg (by simpa [since] using hne)]
    rfl
  rw [heard, hsince, registrations_append, acceptAddrs, List.map_append, List.toFinset_append]
  rfl

/-- Before that, nothing is. -/
theorem heard_concat_of_not_mem {d : δ} {h : List (Label δ κ)} (hd : Label.update d ∉ h) (l : Label δ κ) :
    heard d (h ++ [l]) = ∅ := by
  by_cases hl : l = .update d
  · have hsince : since d (h ++ [l]) = [l] := by
      rw [since, List.dropWhile_append_of_pos, hl]
      · simp
      · intro m hm
        rw [Label.isUpdate_of_ne fun he => hd (he ▸ hm)]
        rfl
    rw [heard, hsince, hl]
    rfl
  · apply heard_of_not_mem
    rw [List.mem_append, List.mem_singleton]
    exact fun h => h.elim hd fun he => hl he.symm

/-- What is no registration changes nothing of what is heard. -/
theorem heard_quiet (d : δ) (h : List (Label δ κ)) {l : Label δ κ} (hl : l.publisher = none) :
    heard d (h ++ [l]) = heard d h := by
  by_cases hd : Label.update d ∈ h
  · rw [heard_concat hd, registrations, List.filterMap_cons, hl]
    exact Finset.union_empty _
  · rw [heard_concat_of_not_mem hd, heard_of_not_mem hd]

/-- A registration is heard unless the socket is still to be connected. -/
theorem heard_register {d : δ} {h : List (Label δ κ)} {unconnected : Prop} [Decidable unconnected]
    (hd : unconnected ↔ Label.update d ∉ h) (p : Publisher) :
    heard d (h ++ [.register p]) = if unconnected then heard d h else insert p.acceptAddr (heard d h) := by
  by_cases hmem : Label.update d ∈ h
  · rw [if_neg fun hu => hd.mp hu hmem, heard_concat hmem, Finset.insert_eq, Finset.union_comm]
    rfl
  · rw [if_pos (hd.mpr hmem), heard_concat_of_not_mem hmem, heard_of_not_mem hmem]

omit [DecidableEq δ] in
theorem registrations_quiet (h : List (Label δ κ)) {l : Label δ κ} (hl : l.publisher = none) :
    registrations (h ++ [l]) = registrations h := by
  rw [registrations_append, registrations, registrations, List.filterMap_cons, hl]
  exact List.append_nil _

end Rnotify.Cluster
