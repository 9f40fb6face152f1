import Rnotify.Library.System

/-! One system inside another.

A finer system refines a coarser one when its states stand for states of the other
and each of its steps for a list of the other's labels, none where nothing happens
that the other can see. A run then stands for a run (`Refinement.exec`), and what
holds of every state that the coarser system reaches holds of what the finer one's
states stand for (`Refinement.transfer`). -/
namespace Rnotify.Library

/-- What the states and steps of `C` stand for in `A`, among the states with `inv`. -/
structure Refinement {σ α τ β : Type*} (C : System σ α) (A : System τ β) where
  inv : σ → Prop
  abs : σ → τ
  labels : σ → α → List β
  inv_initial : inv C.initial
  abs_initial : abs C.initial = A.initial
  step : ∀ s a t, inv s → C.step s a = some t → inv t ∧ A.exec (abs s) (labels s a) = some (abs t)

namespace Refinement
variable {σ α τ β : Type*} {C : System σ α} {A : System τ β} (R : Refinement C A)

/-- The labels that a run stands for. -/
def trace : σ → List α → List β
  | _, [] => []
  | s, a :: rest => R.labels s a ++ (C.step s a).elim [] fun t => trace t rest

/-- One step more. -/
theorem trace_concat {s m : σ} {run : List α} (hr : C.exec s run = some m) (a : α) :
    R.trace s (run ++ [a]) = R.trace s run ++ R.labels m a := by
  induction run generalizing s with
  | nil =>
    cases hr
    rw [List.nil_append, trace, trace, List.nil_append]
    cases C.step m a <;> exact List.append_nil _
  | cons b rest ih =>
    rw [System.exec_cons, Option.bind_eq_some_iff] at hr
    obtain ⟨t, ht, hr⟩ := hr
    rw [List.cons_append, trace, trace, ht, Option.elim_some, Option.elim_some, ih hr, List.append_assoc]

theorem exec (run : List α) {s t : σ} (hs : R.inv s) (hr : C.exec s run = some t) :
    R.inv t ∧ A.exec (R.abs s) (R.trace s run) = some (R.abs t) := by
  induction run generalizing s with
  | nil =>
    cases hr
    exact ⟨hs, rfl⟩
  | cons a rest ih =>
    rw [System.exec_cons, Option.bind_eq_some_iff] at hr
    obtain ⟨m, hm, hr⟩ := hr
    obtain ⟨hinv, hlabels⟩ := R.step s a m hs hm
    obtain ⟨ht, htrace⟩ := ih hinv hr
    refine ⟨ht, ?_⟩
    rw [trace, hm, Option.elim_some, System.exec_append, hlabels]
    exact htrace

/-- Where what a label stands for does not depend on the state, a run stands for what its labels do. -/
theorem trace_eq_flatMap {f : α → List β} (hf : ∀ s a, R.labels s a = f a) (run : List α) {s t : σ}
    (hr : C.exec s run = some t) : R.trace s run = run.flatMap f := by
  induction run generalizing s with
  | nil => rfl
  | cons a rest ih =>
    rw [System.exec_cons, Option.bind_eq_some_iff] at hr
    obtain ⟨m, hm, hr⟩ := hr
    rw [trace, hm, Option.elim_some, ih hr, hf, List.flatMap_cons]

/-- A run of the finer system, from its start. -/
theorem exec_initial (run : List α) {t : σ} (hr : C.exec C.initial run = some t) :
    R.inv t ∧ A.exec A.initial (R.trace C.initial run) = some (R.abs t) := by
  have h := R.exec run R.inv_initial hr
  rwa [R.abs_initial] at h

/-- What holds of a state, the history that led to it and the run that it stands for. -/
theorem trace_invariant (P : List α → List β → σ → Prop) (hinit : P [] [] C.initial)
    (hstep : ∀ h s a t, C.exec C.initial h = some s → P h (R.trace C.initial h) s → C.step s a = some t →
      P (h ++ [a]) (R.trace C.initial h ++ R.labels s a) t)
    (h : List α) (s : σ) (hr : C.exec C.initial h = some s) : P h (R.trace C.initial h) s := by
  refine C.reachable_invariant (fun h s => P h (R.trace C.initial h) s) hinit ?_ h s hr
  intro h s a t hm hs ha
  rw [R.trace_concat hm a]
  exact hstep h s a t hm hs ha

/-- What every reachable state of the coarser system has, with the history that led to it. -/
theorem transfer {P : List β → τ → Prop} (hP : ∀ h s, A.exec A.initial h = some s → P h s) (run : List α) {t : σ}
    (hr : C.exec C.initial run = some t) : P (R.trace C.initial run) (R.abs t) :=
  hP _ _ (R.exec_initial run hr).2

end Refinement

end Rnotify.Library
