import Mathlib

/-! Labelled systems.

A system is a starting state and a partial step: `step s a` is the state after
the label `a`, or `none` where `a` cannot happen. A run is the list of its
labels, so that a property of a run may speak of its history: what has happened
before (`history_invariant`), or of its state alone (`invariant`). `Along` says that
every step of a run meets a condition; `invariant_along` is for what a step keeps
only then, and `exec_iff_along` for what lasts exactly then. -/
namespace Rnotify.Library

structure System (σ α : Type*) where
  initial : σ
  step : σ → α → Option σ

namespace System
variable {σ α : Type*} (S : System σ α)

/-- The state after a list of labels, if each could happen in its turn. -/
def exec : σ → List α → Option σ
  | s, [] => some s
  | s, a :: rest => (S.step s a).bind fun t => exec t rest

@[simp] theorem exec_nil (s : σ) : S.exec s [] = some s := rfl

@[simp] theorem exec_cons (s : σ) (a : α) (rest : List α) :
    S.exec s (a :: rest) = (S.step s a).bind fun t => S.exec t rest := rfl

theorem exec_append (s : σ) (a b : List α) :
    S.exec s (a ++ b) = (S.exec s a).bind fun t => S.exec t b := by
  induction a generalizing s with
  | nil => rfl
  | cons label rest ih =>
    simp only [List.cons_append, exec_cons, Option.bind_assoc]
    exact congrArg _ (funext fun t => ih t)

/-- The last label of a run is one step from where the rest of the run led. -/
theorem exec_concat {s t : σ} {h : List α} {a : α} (hr : S.exec s (h ++ [a]) = some t) :
    ∃ m, S.exec s h = some m ∧ S.step m a = some t := by
  rw [exec_append, Option.bind_eq_some_iff] at hr
  obtain ⟨m, hm, hstep⟩ := hr
  refine ⟨m, hm, ?_⟩
  simpa using hstep

/-- A run goes on with a label that can happen where it led. -/
theorem exec_concat_some {s m t : σ} {h : List α} {a : α} (hm : S.exec s h = some m)
    (ht : S.step m a = some t) :
    S.exec s (h ++ [a]) = some t := by
  rw [exec_append, hm, Option.bind_some, exec_cons, ht]
  rfl

/-- What holds of a state and the history that led to it. -/
theorem history_invariant (P : List α → σ → Prop) (hinit : P [] S.initial)
    (hstep : ∀ h s a t, P h s → S.step s a = some t → P (h ++ [a]) t)
    (h : List α) (s : σ) (hr : S.exec S.initial h = some s) : P h s := by
  induction h using List.reverseRecOn generalizing s with
  | nil =>
    cases hr
    exact hinit
  | append_singleton rest a ih =>
    obtain ⟨m, hm, ha⟩ := S.exec_concat hr
    exact hstep rest m a s (ih m hm) ha

/-- The same where what a step keeps it keeps in the states that a run leads to. -/
theorem reachable_invariant (P : List α → σ → Prop) (hinit : P [] S.initial)
    (hstep : ∀ h s a t, S.exec S.initial h = some s → P h s → S.step s a = some t → P (h ++ [a]) t)
    (h : List α) (s : σ) (hr : S.exec S.initial h = some s) : P h s := by
  have hall := S.history_invariant (fun h s => S.exec S.initial h = some s ∧ P h s) ⟨rfl, hinit⟩ ?_ h s hr
  · exact hall.2
  · intro h s a t ⟨hm, hs⟩ ha
    exact ⟨S.exec_concat_some hm ha, hstep h s a t hm hs ha⟩

/-- What every step keeps, every run keeps. -/
theorem invariant (P : σ → Prop) (hstep : ∀ s a t, P s → S.step s a = some t → P t)
    (labels : List α) (s t : σ) (hs : P s) (hr : S.exec s labels = some t) : P t := by
  induction labels generalizing s with
  | nil =>
    cases hr
    exact hs
  | cons a rest ih =>
    rw [exec_cons, Option.bind_eq_some_iff] at hr
    obtain ⟨m, hm, hrest⟩ := hr
    exact ih m (hstep s a m hs hm) hrest

/-! ### Runs that meet a condition -/

/-- Every step of a run meets a condition on the state it is made in. -/
def Along (C : σ → α → Prop) : σ → List α → Prop
  | _, [] => True
  | s, a :: rest => C s a ∧ ∀ t ∈ S.step s a, Along C t rest

instance decidableAlong (C : σ → α → Prop) [∀ s a, Decidable (C s a)] :
    ∀ s labels, Decidable (S.Along C s labels)
  | _, [] => isTrue trivial
  | s, a :: rest =>
    have : ∀ t, Decidable (S.Along C t rest) := fun t => decidableAlong C t rest
    inferInstanceAs (Decidable (C s a ∧ ∀ t ∈ S.step s a, S.Along C t rest))

/-- What every step that meets the condition keeps, every run of such steps keeps. -/
theorem invariant_along (C : σ → α → Prop) (P : σ → Prop)
    (hstep : ∀ s a t, P s → C s a → S.step s a = some t → P t) (labels : List α) (s t : σ) (hs : P s)
    (hc : S.Along C s labels) (hr : S.exec s labels = some t) : P t := by
  induction labels generalizing s with
  | nil =>
    cases hr
    exact hs
  | cons a rest ih =>
    obtain ⟨ha, hrest⟩ := hc
    rw [exec_cons, Option.bind_eq_some_iff] at hr
    obtain ⟨m, hm, hr⟩ := hr
    exact ih m (hstep s a m hs ha hm) (hrest m hm) hr

/-- Where a property lasts through a step exactly when the step meets the condition, it lasts through a run
exactly when every step does. -/
theorem exec_iff_along (C : σ → α → Prop) (P Q : σ → Prop)
    (hstep : ∀ s a t, P s → S.step s a = some t → P t ∧ (Q t ↔ Q s ∧ C s a)) (labels : List α) (s t : σ)
    (hs : P s) (hr : S.exec s labels = some t) : Q t ↔ Q s ∧ S.Along C s labels := by
  induction labels generalizing s with
  | nil =>
    cases hr
    exact (and_iff_left trivial).symm
  | cons a rest ih =>
    rw [exec_cons, Option.bind_eq_some_iff] at hr
    obtain ⟨m, hm, hr⟩ := hr
    obtain ⟨hpm, hqm⟩ := hstep s a m hs hm
    have halong : S.Along C s (a :: rest) ↔ C s a ∧ S.Along C m rest := by simp [Along, hm]
    rw [ih m hpm hr, hqm, halong, and_assoc]

end System

end Rnotify.Library
