import Rnotify.Library.System

/-! What a system does by itself.

Some of a system's labels are its own: the others are what its surroundings do to
it. A rank that every own step lowers bounds a run of own steps (`Ranked.length_le`),
so that such a run, whichever steps it chooses, comes to a state where no own step is
left (`Ranked.exists_settled`). What holds of all such states is then what the system
arrives at when it is left to itself. -/
namespace Rnotify.Library.System
variable {σ α : Type*} (S : System σ α)

/-- No own step can happen. -/
def Settled (own : α → Prop) (s : σ) : Prop := ∀ a, own a → S.step s a = none

/-- Among the states with `P`, own steps lead to lower ranks. -/
structure Ranked (own : α → Prop) (P : σ → Prop) (rank : σ → ℕ) : Prop where
  keeps : ∀ s a t, P s → own a → S.step s a = some t → P t
  lowers : ∀ s a t, P s → own a → S.step s a = some t → rank t < rank s

namespace Ranked
variable {S} {own : α → Prop} {P : σ → Prop} {rank : σ → ℕ}

/-- A run of own steps keeps what each of them keeps, and its steps are no more than the rank. -/
theorem run (h : S.Ranked own P rank) (labels : List α) (hown : ∀ a ∈ labels, own a) {s t : σ} (hs : P s)
    (hr : S.exec s labels = some t) : P t ∧ labels.length + rank t ≤ rank s := by
  induction labels generalizing s with
  | nil =>
    cases hr
    exact ⟨hs, (Nat.zero_add _).le⟩
  | cons a rest ih =>
    rw [List.forall_mem_cons] at hown
    rw [exec_cons, Option.bind_eq_some_iff] at hr
    obtain ⟨m, hm, hr⟩ := hr
    obtain ⟨ht, hlen⟩ := ih hown.2 (h.keeps s a m hs hown.1 hm) hr
    have hlower := h.lowers s a m hs hown.1 hm
    refine ⟨ht, ?_⟩
    rw [List.length_cons]
    omega

theorem length_le (h : S.Ranked own P rank) (labels : List α) (hown : ∀ a ∈ labels, own a) {s t : σ} (hs : P s)
    (hr : S.exec s labels = some t) : labels.length ≤ rank s :=
  Nat.le_of_add_right_le (h.run labels hown hs hr).2

/-- Left to itself, the system settles. -/
theorem exists_settled (h : S.Ranked own P rank) {s : σ} (hs : P s) :
    ∃ labels t, (∀ a ∈ labels, own a) ∧ S.exec s labels = some t ∧ P t ∧ S.Settled own t := by
  -- on the rank: a state with an own step left has a successor of lower rank
  induction hrank : rank s using Nat.strongRecOn generalizing s with
  | ind n ih =>
    by_cases hsettled : S.Settled own s
    · exact ⟨[], s, nofun, rfl, hs, hsettled⟩
    · unfold Settled at hsettled
      push Not at hsettled
      obtain ⟨a, ha, hstep⟩ := hsettled
      obtain ⟨m, hm⟩ := Option.ne_none_iff_exists'.mp hstep
      have hlower := h.lowers s a m hs ha hm
      obtain ⟨labels, t, hown, hr, ht, hdone⟩ := ih (rank m) (hrank ▸ hlower) (h.keeps s a m hs ha hm) rfl
      refine ⟨a :: labels, t, List.forall_mem_cons.mpr ⟨ha, hown⟩, ?_, ht, hdone⟩
      rw [exec_cons, hm]
      exact hr

end Ranked

end Rnotify.Library.System
