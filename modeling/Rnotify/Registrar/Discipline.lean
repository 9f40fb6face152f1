import Rnotify.Registrar.Replies

/-! The request/reply discipline of the registrar's REP socket.

A REP socket takes a receive with no reply owed and a reply with one owed, and
refuses both otherwise (`repAccepts`). A run is disciplined when the socket takes
all of its receives and replies and the receive with which the loop goes on: there
is then exactly one reply between a receive and the next. It is, exactly when every
request is a publisher's or a file's (`disciplined_iff`). The branch of dispatcher
registrations sends nothing, and neither does the end of the chain of comparisons. -/
namespace Rnotify.Registrar
open Library

variable (L : Lookup)

/-- From a state of the service, every request is served and the socket takes every
operation, the receive after the last request included. -/
def DisciplinedFrom (v : Service) (reqs : List Request) : Prop :=
  (∃ w, (acceptRegistrations L v reqs).result = .ok w) ∧
    repAccepts v.owed ((acceptRegistrations L v reqs).actions ++ [.receive]) = some true

def Disciplined (reqs : List Request) : Prop := DisciplinedFrom L start reqs

/-- After a turn that was answered, discipline is that of the rest. -/
theorem disciplinedFrom_answered {s t : State} {r : Request} {actions : List Action}
    (h : serve L ⟨s, false⟩ r = ⟨actions, .ok ⟨t, false⟩⟩) (ha : repAccepts false actions = some false)
    (rest : List Request) :
    DisciplinedFrom L ⟨s, false⟩ (r :: rest) ↔ DisciplinedFrom L ⟨t, false⟩ rest := by
  unfold DisciplinedFrom
  rw [acceptRegistrations_ok L h]
  simp only [List.append_assoc, repAccepts_append, ha, Option.bind_some]

/-- After a turn that was not, the socket refuses the next receive. -/
theorem not_disciplinedFrom_silent {s : State} {r : Request}
    (h : serve L ⟨s, false⟩ r = ⟨[.receive], .ok ⟨s, true⟩⟩) (rest : List Request) :
    ¬ DisciplinedFrom L ⟨s, false⟩ (r :: rest) := by
  rintro ⟨⟨w, hw⟩, hactions⟩
  cases rest with
  | nil =>
    rw [acceptRegistrations_ok L h] at hactions
    simp [acceptRegistrations, repAccepts] at hactions
  | cons next others =>
    rw [acceptRegistrations_ok L h, acceptRegistrations_error L (serve_owed L rfl next)] at hw
    cases hw

theorem disciplinedFrom_iff (reqs : List Request) (seen : Bool) (s : State) (hs : Ready seen s)
    (h : Throughout Provided seen reqs) :
    DisciplinedFrom L ⟨s, false⟩ reqs ↔ ∀ r ∈ reqs, r.IsPublisher ∨ r.IsFile := by
  induction reqs generalizing seen s with
  | nil => exact ⟨nofun, fun _ => ⟨⟨_, rfl⟩, rfl⟩⟩
  | cons r rest ih =>
    obtain ⟨hprov, hrest⟩ := h
    rw [List.forall_mem_cons]
    rcases serve_cases L hs r with ⟨hkind, _, actions, t, hserve, hrep, ht⟩ | ⟨hkind, _, hserve⟩ | ⟨hnot, _⟩
    · rw [disciplinedFrom_answered L hserve hrep, ih _ t ht hrest, and_iff_right hkind]
    · exact iff_of_false (not_disciplinedFrom_silent L hserve rest) fun hall => hkind hall.1
    · exact absurd hprov hnot

/-- **Request/reply discipline.** On requests with the frames they need, and with a publisher
before any file, the registrar sends one reply for each request, before it receives the next,
exactly when every request registers a publisher or a file. -/
theorem disciplined_iff (reqs : List Request) (h : Throughout Provided false reqs) :
    Disciplined L reqs ↔ ∀ r ∈ reqs, r.IsPublisher ∨ r.IsFile :=
  disciplinedFrom_iff L reqs false initial ready_initial h

theorem disciplined_iff_enrolments :
    Throughout Provided false enrolments ∧
      (Disciplined (hashRing strlen) enrolments ↔ ∀ r ∈ enrolments, r.IsPublisher ∨ r.IsFile) :=
  ⟨by decide, disciplined_iff (hashRing strlen) enrolments (by decide)⟩

/-- `self_register`, as a dispatcher calls it. -/
def selfRegister (myIpAddress myPort : CString) : Request where
  frames := [registerDispatcherSanityCheck.bytes,
    (literal "tcp://" ++ myIpAddress ++ literal ":" ++ myPort).bytes]
  nonempty := nofun
  addWatch := fun _ => -1

/-- A dispatcher that registers is owed a reply for ever. -/
theorem selfRegister_undisciplined :
    Throughout Provided false [selfRegister (literal "10.0.0.3") (literal "4000")] ∧
      ¬ Disciplined (hashRing strlen) [selfRegister (literal "10.0.0.3") (literal "4000")] := by
  refine ⟨by decide, ?_⟩
  have hsilent := serve_silent (hashRing strlen) (s := initial)
    (r := selfRegister (literal "10.0.0.3") (literal "4000")) (by decide) (by decide) (by decide)
  exact not_disciplinedFrom_silent (hashRing strlen) hsilent []

end Rnotify.Registrar
