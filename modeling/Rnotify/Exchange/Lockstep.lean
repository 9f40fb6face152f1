import Rnotify.Exchange.Model
import Rnotify.Library.Places

/-! Where each message is.

A peer that waits has its request in exactly one place: at the REP socket, in the
registrar's hands, or as a reply on its way (`Placed`). Between the registrar and the
proxy there is at most one message, and where it is tells how far the exchange about a
path has come (`Linked`); the calls of `inotify_add_watch` and the replies to file
registrations are paired one by one, in order. Every step keeps both, whatever the
order of steps. -/
namespace Rnotify.Exchange
open Library Registrar Dispatcher

variable {δ κ : Type} {s t : State δ κ}

/-! ### Where a request is -/

/-- The peer that the registrar owes a reply. -/
def Phase.serving : Phase κ → List κ
  | .silent c => [c]
  | .confirm c _ => [c]
  | .ask c _ => [c]
  | .await c _ => [c]
  | .select c _ _ => [c]
  | .stopped c _ => [c]
  | _ => []

/-- The peers whose request or reply is somewhere, once for each place. -/
def places (s : State δ κ) : List κ := s.requests.map Prod.fst ++ s.phase.serving ++ s.replies.map Prod.fst

/-- A peer that waits has one place, and others have none. -/
structure Placed (s : State δ κ) : Prop where
  once : (places s).Nodup
  waiting : ∀ c, c ∈ places s ↔ s.waiting c ≠ none

theorem serving_dispatchOn (c : κ) (registration : List Frame) : (dispatchOn c registration).serving = [c] := by
  unfold dispatchOn
  repeat' split
  all_goals rfl

/-- A place changed for another. -/
theorem Placed.of_perm (h : Placed s) (hperm : (places t).Perm (places s)) (hwaiting : t.waiting = s.waiting) :
    Placed t where
  once := hperm.nodup_iff.mpr h.once
  waiting := fun c => by rw [hperm.mem_iff, hwaiting, h.waiting]

/-! ### The exchange with the proxy -/

/-- The calls of `inotify_add_watch` and the replies to file registrations, one by one. -/
def Paired (watches : List (CString × Int)) (answers : List (Answer κ)) : Prop :=
  List.Forall₂ (fun w a => a.path = w.1 ∧ ∃ addresses, a.wire = send (registerOk :: decimal w.2 :: addresses))
    watches answers

/-- The registrar is not in an exchange with the proxy. -/
def Phase.Alone : Phase κ → Prop
  | .await _ _ => False
  | .select _ _ _ => False
  | _ => True

/-- No message is between the registrar and the proxy, and the proxy waits for one. -/
structure Idle (toProxy : List Wire) (proxy : Proxy) (fromProxy : List Wire) : Prop where
  asked : toProxy = []
  waits : proxy = .receive
  answered : fromProxy = []

/-- How far the exchange about a path has come: where its one message is, and whether the watch was added. -/
inductive Link (phase : Phase κ) (toProxy : List Wire) (proxy : Proxy) (fromProxy : List Wire)
    (watches : List (CString × Int)) (answers : List (Answer κ)) : Prop where
  | alone : phase.Alone → Idle toProxy proxy fromProxy → Paired watches answers →
    Link phase toProxy proxy fromProxy watches answers
  | asked {c : κ} {path : CString} : phase = .await c path → toProxy = [sendText path] → proxy = .receive →
    fromProxy = [] → Paired watches answers → Link phase toProxy proxy fromProxy watches answers
  | received {c : κ} {path : CString} : phase = .await c path → toProxy = [] → proxy = .addWatch path →
    fromProxy = [] → Paired watches answers → Link phase toProxy proxy fromProxy watches answers
  | added {c : κ} {path : CString} {wd : Int} {before : List (CString × Int)} : phase = .await c path →
    toProxy = [] → proxy = .answer (decimal wd) → fromProxy = [] → watches = before ++ [(path, wd)] →
    Paired before answers → Link phase toProxy proxy fromProxy watches answers
  | answered {c : κ} {path : CString} {wd : Int} {before : List (CString × Int)} : phase = .await c path →
    toProxy = [] → proxy = .receive → fromProxy = [sendText (decimal wd)] → watches = before ++ [(path, wd)] →
    Paired before answers → Link phase toProxy proxy fromProxy watches answers
  | selecting {c : κ} {path : CString} {wd : Int} {before : List (CString × Int)} :
    phase = .select c path (decimal wd) → Idle toProxy proxy fromProxy → watches = before ++ [(path, wd)] →
    Paired before answers → Link phase toProxy proxy fromProxy watches answers
  | failed {c : κ} {fault : Fault} {before : List (CString × Int)} {last : CString × Int} :
    phase = .stopped c fault → Idle toProxy proxy fromProxy → watches = before ++ [last] →
    Paired before answers → Link phase toProxy proxy fromProxy watches answers

def Linked (s : State δ κ) : Prop := Link s.phase s.toProxy s.proxy s.fromProxy s.watches s.answers

theorem alone_dispatchOn (c : κ) (registration : List Frame) : (dispatchOn c registration).Alone := by
  unfold dispatchOn
  repeat' split
  all_goals trivial

/-- Where the registrar is on its own and has not stopped, nothing is under way. -/
theorem Linked.idle (h : Linked s) (halone : s.phase.Alone) (hruns : ∀ c fault, s.phase ≠ .stopped c fault) :
    Idle s.toProxy s.proxy s.fromProxy ∧ Paired s.watches s.answers := by
  cases h with
  | alone _ hidle hpaired => exact ⟨hidle, hpaired⟩
  | failed hphase => exact absurd hphase (hruns _ _)
  | asked hphase | received hphase | added hphase | answered hphase | selecting hphase =>
    rw [hphase] at halone
    exact halone.elim

/-- The registrar's next step on its own leads to another such. -/
theorem Linked.stay (h : Linked s) (halone : s.phase.Alone) (hruns : ∀ c fault, s.phase ≠ .stopped c fault)
    {phase : Phase κ} (hnext : phase.Alone) :
    Link phase s.toProxy s.proxy s.fromProxy s.watches s.answers :=
  .alone hnext (h.idle halone hruns).1 (h.idle halone hruns).2

theorem linked_proceed {L : Lookup} (h : Linked s) (hstep : Proceeds L s t) : Linked t := by
  cases hstep with
  | silent hphase | confirm hphase | announce hphase | enlist hphase | record hphase =>
    exact h.stay (by rw [hphase]; trivial) (by simp [hphase]) trivial
  | ask hphase =>
    obtain ⟨hidle, hpaired⟩ := h.idle (by rw [hphase]; trivial) (by simp [hphase])
    refine .asked rfl ?_ hidle.waits hidle.answered hpaired
    show s.toProxy ++ _ = _
    rw [hidle.asked, List.nil_append]
  | await hphase hfrom hid =>
    cases h with
    | alone halone =>
      rw [hphase] at halone
      exact halone.elim
    | asked _ _ _ hnone | received _ _ _ hnone | added _ _ _ hnone =>
      rw [hnone] at hfrom
      cases hfrom
    | selecting hother | failed hother =>
      rw [hother] at hphase
      cases hphase
    | answered hsame hto hproxy hanswer hwatches hpaired =>
      rw [hsame, Phase.await.injEq] at hphase
      obtain ⟨rfl, rfl⟩ := hphase
      rw [hanswer, List.cons.injEq] at hfrom
      obtain ⟨rfl, rfl⟩ := hfrom
      rw [recvText_sendText, Option.some.injEq] at hid
      rw [← hid]
      exact .selecting rfl ⟨hto, hproxy, rfl⟩ hwatches hpaired
  | fault hphase =>
    cases h with
    | selecting _ hidle hwatches hpaired => exact .failed rfl hidle hwatches hpaired
    | alone halone =>
      rw [hphase] at halone
      exact halone.elim
    | asked hother | received hother | added hother | answered hother | failed hother =>
      rw [hother] at hphase
      cases hphase
  | select hphase =>
    cases h with
    | selecting hsame hidle hwatches hpaired =>
      rw [hsame, Phase.select.injEq] at hphase
      obtain ⟨rfl, rfl, rfl⟩ := hphase
      refine .alone trivial hidle ?_
      show Paired s.watches _
      rw [hwatches]
      exact List.rel_append hpaired (.cons ⟨rfl, _, rfl⟩ .nil)
    | alone halone =>
      rw [hphase] at halone
      exact halone.elim
    | asked hother | received hother | added hother | answered hother | failed hother =>
      rw [hother] at hphase
      cases hphase

/-- What the exchange with the proxy leaves of watches and replies. -/
theorem Linked.watches (h : Linked s) :
    (∃ done, Paired done s.answers ∧ (s.watches = done ∨ ∃ last, s.watches = done ++ [last])) ∧
      s.toProxy.length + s.fromProxy.length ≤ 1 := by
  cases h with
  | alone _ hidle hpaired => exact ⟨⟨_, hpaired, .inl rfl⟩, by simp [hidle.asked, hidle.answered]⟩
  | asked _ hto _ hfrom hpaired | received _ hto _ hfrom hpaired =>
    exact ⟨⟨_, hpaired, .inl rfl⟩, by simp [hto, hfrom]⟩
  | added _ hto _ hfrom hwatches hpaired | answered _ hto _ hfrom hwatches hpaired =>
    exact ⟨⟨_, hpaired, .inr ⟨_, hwatches⟩⟩, by simp [hto, hfrom]⟩
  | selecting _ hidle hwatches hpaired | failed _ hidle hwatches hpaired =>
    exact ⟨⟨_, hpaired, .inr ⟨_, hwatches⟩⟩, by simp [hidle.asked, hidle.answered]⟩

/-! ### Steps -/

variable [DecidableEq κ]

/-- A peer that begins to wait has a new place. -/
theorem Placed.add (h : Placed s) {c : κ} {frames : List Frame} (hc : s.waiting c = none)
    (hperm : (places t).Perm (c :: places s)) (hwaiting : t.waiting = Function.update s.waiting c (some frames)) :
    Placed t := by
  have hnot : c ∉ places s := fun hmem => (h.waiting c).mp hmem hc
  refine ⟨hperm.nodup_iff.mpr (List.nodup_cons.mpr ⟨hnot, h.once⟩), fun c' => ?_⟩
  rw [hperm.mem_iff, List.mem_cons, hwaiting]
  by_cases hc' : c' = c
  · simp [hc']
  · rw [or_iff_right hc', h.waiting c', Function.update_of_ne hc']

/-- A peer that stops to wait gives up its place. -/
theorem Placed.remove (h : Placed s) {c : κ} (hperm : (c :: places t).Perm (places s))
    (hwaiting : t.waiting = Function.update s.waiting c none) : Placed t := by
  obtain ⟨hnot, honce⟩ := List.nodup_cons.mp (hperm.nodup_iff.mpr h.once)
  refine ⟨honce, fun c' => ?_⟩
  rw [hwaiting]
  by_cases hc' : c' = c
  · rw [hc', Function.update_self]
    exact iff_of_false hnot (not_not.mpr rfl)
  · rw [Function.update_of_ne hc', ← h.waiting c', ← hperm.mem_iff, List.mem_cons, or_iff_right hc']

variable [DecidableEq δ] {L : Lookup}

theorem placed_initial : Placed (exchange L δ κ).initial :=
  ⟨List.nodup_nil, fun _ => by simp [places, exchange, Phase.serving]⟩

theorem placed_step {a : Label δ κ} (h : Placed s) (hstep : step L s a = some t) : Placed t := by
  cases a with
  | start d =>
    obtain ⟨_, rfl⟩ := step_start hstep
    exact h.of_perm (List.Perm.refl _) rfl
  | update d =>
    obtain ⟨_, _, _, _, rfl⟩ := step_update hstep
    exact h.of_perm (List.Perm.refl _) rfl
  | request c frames =>
    obtain ⟨hc, _, rfl⟩ := step_request hstep
    refine h.add hc ?_ rfl
    simp only [places, List.map_append, List.map_singleton, List.append_assoc]
    exact List.perm_middle
  | receive n =>
    obtain ⟨hphase, request, registration, hrequest, _, rfl⟩ := step_receive hstep
    refine h.of_perm (List.Perm.append_right _ ?_) rfl
    show ((s.requests.eraseIdx n).map Prod.fst ++ (dispatchOn request.1 registration).serving).Perm
      (s.requests.map Prod.fst ++ s.phase.serving)
    rw [serving_dispatchOn, hphase, show (Phase.receive : Phase κ).serving = [] from rfl, List.append_nil]
    exact (List.perm_append_singleton _ _).trans ((perm_eraseIdx hrequest).map Prod.fst)
  | proceed =>
    cases step_proceed hstep with
    | silent hphase | announce hphase | enlist hphase | record hphase | ask hphase | await hphase | fault hphase =>
      refine h.of_perm (List.Perm.of_eq ?_) rfl
      simp only [places, hphase, Phase.serving]
    | confirm hphase | select hphase =>
      refine h.of_perm ?_ rfl
      simp only [places, hphase, Phase.serving, List.append_nil, List.map_append, List.map_singleton,
        List.append_assoc]
      exact List.Perm.append_left _ (List.perm_append_singleton _ _)
  | proxyReceive =>
    obtain ⟨_, _, _, _, _, _, rfl⟩ := step_proxyReceive hstep
    exact h.of_perm (List.Perm.refl _) rfl
  | addWatch wd =>
    obtain ⟨_, _, rfl⟩ := step_addWatch hstep
    exact h.of_perm (List.Perm.refl _) rfl
  | proxyAnswer =>
    obtain ⟨_, _, rfl⟩ := step_proxyAnswer hstep
    exact h.of_perm (List.Perm.refl _) rfl
  | deliver n =>
    obtain ⟨reply, frames, hreply, _, rfl⟩ := step_deliver hstep
    refine h.remove ?_ rfl
    refine List.perm_middle.symm.trans (List.Perm.append_left _ ?_)
    exact (perm_eraseIdx hreply).map Prod.fst

theorem linked_initial : Linked (exchange L δ κ).initial := .alone trivial ⟨rfl, rfl, rfl⟩ .nil

theorem linked_step {a : Label δ κ} (h : Linked s) (hstep : step L s a = some t) : Linked t := by
  cases a with
  | start d =>
    obtain ⟨_, rfl⟩ := step_start hstep
    exact h
  | update d =>
    obtain ⟨_, _, _, _, rfl⟩ := step_update hstep
    exact h
  | request c frames =>
    obtain ⟨_, _, rfl⟩ := step_request hstep
    exact h
  | deliver n =>
    obtain ⟨_, _, _, _, rfl⟩ := step_deliver hstep
    exact h
  | receive n =>
    obtain ⟨hphase, request, registration, _, _, rfl⟩ := step_receive hstep
    exact h.stay (by rw [hphase]; trivial) (by simp [hphase]) (alone_dispatchOn request.1 registration)
  | proceed => exact linked_proceed h (step_proceed hstep)
  | proxyReceive =>
    obtain ⟨_, wire, rest, fileName, hto, hname, rfl⟩ := step_proxyReceive hstep
    cases h with
    | asked hphase hasked _ hfrom hpaired =>
      rw [hasked, List.cons.injEq] at hto
      obtain ⟨rfl, rfl⟩ := hto
      rw [recvText_sendText, Option.some.injEq] at hname
      rw [← hname]
      exact .received hphase rfl rfl hfrom hpaired
    | alone _ hidle | selecting _ hidle | failed _ hidle =>
      rw [hidle.asked] at hto
      cases hto
    | received _ hnone | added _ hnone | answered _ hnone =>
      rw [hnone] at hto
      cases hto
  | addWatch wd =>
    obtain ⟨fileName, hproxy, rfl⟩ := step_addWatch hstep
    cases h with
    | received hphase hto hsame hfrom hpaired =>
      rw [hsame, Proxy.addWatch.injEq] at hproxy
      rw [← hproxy]
      exact .added hphase hto rfl hfrom rfl hpaired
    | alone _ hidle | selecting _ hidle | failed _ hidle =>
      rw [hidle.waits] at hproxy
      cases hproxy
    | asked _ _ hother | added _ _ hother | answered _ _ hother =>
      rw [hother] at hproxy
      cases hproxy
  | proxyAnswer =>
    obtain ⟨id, hproxy, rfl⟩ := step_proxyAnswer hstep
    cases h with
    | added hphase hto hsame hfrom hwatches hpaired =>
      rw [hsame, Proxy.answer.injEq] at hproxy
      rw [← hproxy]
      refine .answered hphase hto rfl ?_ hwatches hpaired
      show s.fromProxy ++ _ = _
      rw [hfrom, List.nil_append]
    | alone _ hidle | selecting _ hidle | failed _ hidle =>
      rw [hidle.waits] at hproxy
      cases hproxy
    | asked _ _ hother | received _ _ hother | answered _ _ hother =>
      rw [hother] at hproxy
      cases hproxy

end Rnotify.Exchange
