import Mathlib

/-! Counting things that move between places.

A place holds something, and what it holds counts for a value of a commutative
monoid. When what one place holds is replaced, the total changes by what came in
(`total_add`) or by what went out (`total_remove`); taking one element off a queue
takes out what the element counts for (`sum_erase`), and an element of a list with the rest
of it is the whole list again (`perm_eraseIdx`). -/
namespace Rnotify.Library

variable {ι σ M α : Type*} [AddCommMonoid M]

/-- What every place holds still has a property when what one holds is replaced by something that has. -/
theorem forall_update [DecidableEq ι] {f : ι → σ} {P : σ → Prop} (h : ∀ j, P (f j)) {i : ι} {new : σ}
    (hnew : P new) (j : ι) : P (Function.update f i new j) :=
  (Function.forall_update_iff f fun _ => P).mpr ⟨hnew, fun j _ => h j⟩ j

section Total
variable [Fintype ι] [DecidableEq ι]

theorem total_update (f : ι → σ) (count : σ → M) (i : ι) (new : σ) :
    ∑ j, count (Function.update f i new j) = count new + ∑ j ∈ Finset.univ.erase i, count (f j) := by
  rw [← Finset.add_sum_erase _ _ (Finset.mem_univ i), Function.update_self]
  refine congrArg _ (Finset.sum_congr rfl fun j hj => ?_)
  rw [Function.update_of_ne (Finset.ne_of_mem_erase hj)]

/-- Something comes into a place. -/
theorem total_add {f : ι → σ} {count : σ → M} {i : ι} {new : σ} {c : M} (h : count new = count (f i) + c) :
    ∑ j, count (Function.update f i new j) = ∑ j, count (f j) + c := by
  rw [total_update, h, ← Finset.add_sum_erase _ (fun j => count (f j)) (Finset.mem_univ i)]
  exact add_right_comm _ _ _

/-- Something goes out of a place. -/
theorem total_remove {f : ι → σ} {count : σ → M} {i : ι} {new : σ} {c : M} (h : count new + c = count (f i)) :
    ∑ j, count (Function.update f i new j) + c = ∑ j, count (f j) := by
  rw [total_update, ← Finset.add_sum_erase _ (fun j => count (f j)) (Finset.mem_univ i), ← h]
  exact add_right_comm _ _ _

end Total

/-- Taking one element off a queue. -/
theorem sum_erase [DecidableEq α] {queue : Multiset α} {a : α} (h : a ∈ queue) (count : α → M) :
    ((queue.erase a).map count).sum + count a = (queue.map count).sum := by
  conv_rhs => rw [← Multiset.cons_erase h]
  rw [Multiset.map_cons, Multiset.sum_cons, add_comm]

/-- A member and the rest are the whole. -/
theorem perm_eraseIdx {l : List α} {n : ℕ} {a : α} (h : l[n]? = some a) : (a :: l.eraseIdx n).Perm l := by
  obtain ⟨hn, rfl⟩ := List.getElem?_eq_some_iff.mp h
  exact List.getElem_cons_eraseIdx_perm hn

end Rnotify.Library
