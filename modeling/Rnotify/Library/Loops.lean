import Mathlib

/-! Loops over a list: what a loop that may stop at an error leaves when every turn
succeeds, and what a loop collects when only one of its turns finds anything. -/
namespace Rnotify.Library

variable {α β σ ε : Type*}

/-- Every element succeeds, so the list does, element by element. -/
theorem mapM_ok (f : α → Except ε β) (l : List α) (h : ∀ a ∈ l, ∃ b, f a = .ok b) :
    ∃ bs, l.mapM f = .ok bs ∧ List.Forall₂ (fun a b => f a = .ok b) l bs := by
  induction l with
  | nil => exact ⟨[], rfl, .nil⟩
  | cons a rest ih =>
    obtain ⟨b, hb⟩ := h a List.mem_cons_self
    obtain ⟨bs, hbs, hall⟩ := ih fun c hc => h c (List.mem_cons_of_mem a hc)
    refine ⟨b :: bs, ?_, .cons hb hall⟩
    rw [List.mapM_cons, hb, hbs]
    rfl

/-- A loop keeps what each of its turns keeps, and ends if each of them does. -/
theorem foldlM_ok (f : σ → α → Except ε σ) (P : List α → σ → Prop) (l : List α) (s : σ)
    (hstep : ∀ a rest t, a ∈ l → P (a :: rest) t → ∃ u, f t a = .ok u ∧ P rest u) (hs : P l s) :
    ∃ t, l.foldlM f s = .ok t ∧ P [] t := by
  induction l generalizing s with
  | nil => exact ⟨s, rfl, hs⟩
  | cons a rest ih =>
    obtain ⟨u, hu, hP⟩ := hstep a rest s List.mem_cons_self hs
    obtain ⟨t, ht, hPt⟩ := ih u (fun b tail t hb => hstep b tail t (List.mem_cons_of_mem a hb)) hP
    refine ⟨t, ?_, hPt⟩
    rw [List.foldlM_cons, hu]
    exact ht

/-- A loop over some of the elements collects what one over all of them does that skips the others. -/
theorem flatMap_filter (p : α → Bool) (f : α → List β) (l : List α) :
    (l.filter p).flatMap f = l.flatMap fun a => if p a then f a else [] := by
  induction l with
  | nil => rfl
  | cons a rest ih =>
    rw [List.flatMap_cons, ← ih]
    by_cases ha : p a <;> simp [ha]

/-- A loop over distinct elements collects what it finds at the only one where it finds anything. -/
theorem flatMap_of_only [DecidableEq α] {l : List α} (hl : l.Nodup) {f : α → List β} (a : α)
    (h : ∀ b ∈ l, b ≠ a → f b = []) : l.flatMap f = if a ∈ l then f a else [] := by
  induction l with
  | nil => simp
  | cons b rest ih =>
    obtain ⟨hb, hrest⟩ := List.nodup_cons.mp hl
    have ih := ih hrest fun c hc => h c (List.mem_cons_of_mem b hc)
    rw [List.flatMap_cons, ih]
    by_cases hab : b = a
    · have hmem : a ∈ b :: rest := by rw [hab]; exact List.mem_cons_self
      rw [if_neg (hab ▸ hb), if_pos hmem, List.append_nil, hab]
    · have hiff : a ∈ b :: rest ↔ a ∈ rest := by
        rw [List.mem_cons, or_iff_right (Ne.symm hab)]
      rw [h b List.mem_cons_self hab, List.nil_append]
      simp only [hiff]

end Rnotify.Library
