import Mathlib

/-! Blocks of memory and who owns them.

A heap is the set of the blocks that are allocated. A program over it stops at a
block that it frees or uses when it is not allocated, and may stop for reasons of its
own (`halt`). What a program does to memory is said by the blocks that it owns:
`Spec P m Q` says that from the blocks `P`, whatever else is allocated, `m` runs
without a misuse, and owns afterwards what `Q` says of its result, all else being as
it was. `Follows P m plain Q` says that `m` ends as `plain` does, which is the same program
without its memory. Both compose with what is not touched put aside (`Spec.step`,
`Follows.step`), and loops keep what their turns keep. -/
namespace Rnotify.Library

inductive Misuse (ε : Type) where
  /-- A block is freed that is not allocated. -/
  | free (b : ℕ)
  /-- A block is read or written that is not allocated. -/
  | use (b : ℕ)
  /-- Memory is freed that `malloc` did not give. -/
  | static
  /-- The program stops. -/
  | halt (e : ε)
deriving DecidableEq

structure Heap where
  live : Finset ℕ
  /-- The next block that `malloc` gives. -/
  next : ℕ
  fresh : ∀ b ∈ live, b < next

abbrev Mem (ε : Type) := StateT Heap (Except (Misuse ε))

namespace Heap

def empty : Heap := ⟨∅, 0, by simp⟩

theorem next_not_mem (h : Heap) : h.next ∉ h.live := fun hmem => (h.fresh _ hmem).false

def alloc (h : Heap) : Heap where
  live := insert h.next h.live
  next := h.next + 1
  fresh := by
    intro b hb
    obtain rfl | hold := Finset.mem_insert.mp hb
    · exact Nat.lt_succ_self _
    · exact (h.fresh b hold).trans (Nat.lt_succ_self _)

def release (h : Heap) (b : ℕ) : Heap where
  live := h.live.erase b
  next := h.next
  fresh := fun c hc => h.fresh c (Finset.mem_of_mem_erase hc)

end Heap

namespace Mem
variable {ε : Type}

def malloc : Mem ε ℕ := fun h => .ok (h.next, h.alloc)

def free (b : ℕ) : Mem ε Unit := fun h => if b ∈ h.live then .ok ((), h.release b) else .error (.free b)

/-- A read or a write. -/
def use (b : ℕ) : Mem ε Unit := fun h => if b ∈ h.live then .ok ((), h) else .error (.use b)

def halt {α : Type} (e : ε) : Mem ε α := fun _ => .error (.halt e)

/-- `free` on memory that `malloc` did not give. -/
def freeStatic : Mem ε Unit := fun _ => .error .static

/-- `free` on a pointer that may be NULL. -/
def freePtr : Option ℕ → Mem ε Unit
  | none => pure ()
  | some b => free b

end Mem

open Mem

/-- What a pointer owns that may be NULL. -/
def pointee (p : Option ℕ) : Multiset ℕ := p.elim 0 fun b => {b}

/-- From the blocks `P`, with anything else put aside, the program runs and is left with what `Q` says. -/
def Spec {ε α : Type} (P : Multiset ℕ) (m : Mem ε α) (Q : α → Multiset ℕ → Prop) : Prop :=
  ∀ (h : Heap) (F : Multiset ℕ), h.live.val = F + P →
    ∃ a t R, m h = .ok (a, t) ∧ t.live.val = F + R ∧ Q a R

namespace Spec
variable {ε α β σ : Type} {P : Multiset ℕ}

theorem pure {a : α} {Q : α → Multiset ℕ → Prop} (h : Q a P) : Spec P (pure a : Mem ε α) Q :=
  fun t _ ht => ⟨a, t, P, rfl, ht, h⟩

/-- What a part of the program does, and then the rest, with `F` put aside in between. -/
theorem step {m : Mem ε α} {f : α → Mem ε β} {Q : α → Multiset ℕ → Prop} {S : β → Multiset ℕ → Prop}
    {P₀ : Multiset ℕ} (F : Multiset ℕ) (hm : Spec P m Q) (hP : P₀ = P + F)
    (hf : ∀ a R, Q a R → Spec (R + F) (f a) S) : Spec P₀ (m >>= f) S := by
  intro h G hlive
  obtain ⟨a, t, R, hrun, ht, hQ⟩ := hm h (G + F) (by rw [hlive, hP]; abel)
  obtain ⟨b, u, T, hrest, hu, hS⟩ := hf a R hQ t G (by rw [ht]; abel)
  refine ⟨b, u, T, ?_, hu, hS⟩
  show (m h >>= fun p => f p.1 p.2) = _
  rw [hrun]
  exact hrest

/-- The same with nothing put aside. -/
theorem next {m : Mem ε α} {f : α → Mem ε β} {Q : α → Multiset ℕ → Prop} {S : β → Multiset ℕ → Prop}
    (hm : Spec P m Q) (hf : ∀ a R, Q a R → Spec R (f a) S) : Spec P (m >>= f) S := by
  refine step 0 hm (add_zero P).symm fun a R hQ => ?_
  rw [add_zero]
  exact hf a R hQ

/-- The last part of a program, with `F` put aside. -/
theorem last {m : Mem ε α} {Q S : α → Multiset ℕ → Prop} {P₀ : Multiset ℕ} (F : Multiset ℕ) (hm : Spec P m Q)
    (hP : P₀ = P + F) (hQ : ∀ a R, Q a R → S a (R + F)) : Spec P₀ m S := by
  intro h G hlive
  obtain ⟨a, t, R, hrun, ht, hR⟩ := hm h (G + F) (by rw [hlive, hP]; abel)
  exact ⟨a, t, R + F, hrun, by rw [ht]; abel, hQ a R hR⟩

/-! ### The operations -/

theorem malloc : Spec 0 (malloc : Mem ε ℕ) fun b R => R = {b} := by
  intro h F hlive
  refine ⟨h.next, h.alloc, {h.next}, rfl, ?_, rfl⟩
  rw [Heap.alloc, Finset.insert_val_of_notMem h.next_not_mem, hlive, add_zero, add_comm, Multiset.singleton_add]

theorem free (b : ℕ) : Spec {b} (free b : Mem ε Unit) fun _ R => R = 0 := by
  intro h F hlive
  have hmem : b ∈ h.live := by
    rw [← Finset.mem_val, hlive]
    exact Multiset.mem_add.mpr (Or.inr (Multiset.mem_singleton_self b))
  refine ⟨(), h.release b, 0, if_pos hmem, ?_, rfl⟩
  rw [Heap.release, Finset.erase_val, hlive, add_comm, Multiset.singleton_add, Multiset.erase_cons_head, add_zero]

theorem use {b : ℕ} (hb : b ∈ P) : Spec P (use b : Mem ε Unit) fun _ R => R = P := by
  intro h F hlive
  have hmem : b ∈ h.live := by
    rw [← Finset.mem_val, hlive]
    exact Multiset.mem_add.mpr (Or.inr hb)
  exact ⟨(), h, P, if_pos hmem, hlive, rfl⟩

theorem freePtr (p : Option ℕ) : Spec (pointee p) (freePtr p : Mem ε Unit) fun _ R => R = 0 := by
  cases p with
  | none => exact pure rfl
  | some b => exact free b

/-! ### Loops -/

/-- A loop that makes something of each element, what each turn makes being owned beside what it needs. -/
theorem collect {f : α → Mem ε β} (own : β → Multiset ℕ) (rel : α → β → Prop) (l : List α)
    (hstep : ∀ a ∈ l, Spec P (f a) fun b R => R = own b + P ∧ rel a b) :
    Spec P (l.mapM f) fun bs R => R = (bs.map own).sum + P ∧ List.Forall₂ rel l bs := by
  induction l with
  | nil => exact pure ⟨(zero_add P).symm, .nil⟩
  | cons a rest ih =>
    rw [List.mapM_cons]
    refine next (hstep a List.mem_cons_self) fun b R hb => ?_
    obtain ⟨rfl, hrel⟩ := hb
    refine step (own b) (ih fun c hc => hstep c (List.mem_cons_of_mem a hc)) (by abel) fun bs R hbs => ?_
    obtain ⟨rfl, hall⟩ := hbs
    refine pure ⟨?_, .cons hrel hall⟩
    rw [List.map_cons, List.sum_cons]
    abel

/-- A loop that gives up what it is handed, element by element. -/
theorem each {f : α → Mem ε PUnit} (own : α → Multiset ℕ) (l : List α)
    (hstep : ∀ a ∈ l, Spec (own a) (f a) fun _ R => R = 0) :
    Spec (l.map own).sum (forM l f) fun _ R => R = 0 := by
  induction l with
  | nil => exact pure rfl
  | cons a rest ih =>
    rw [List.forM_cons, List.map_cons, List.sum_cons]
    refine step (rest.map own).sum (hstep a List.mem_cons_self) rfl fun _ R hR => ?_
    rw [hR, zero_add]
    exact ih fun b hb => hstep b (List.mem_cons_of_mem a hb)

end Spec

/-- From the blocks `P`, with anything else put aside, the program stops at a misuse. -/
def Fails {ε α : Type} (P : Multiset ℕ) (m : Mem ε α) (misuse : Misuse ε) : Prop :=
  ∀ (h : Heap) (F : Multiset ℕ), h.live.val = F + P → m h = .error misuse

namespace Fails
variable {ε α β : Type} {P P₀ : Multiset ℕ} {misuse : Misuse ε}

theorem bind {m : Mem ε α} (F : Multiset ℕ) (h : Fails P m misuse) (hP : P₀ = P + F) (f : α → Mem ε β) :
    Fails P₀ (m >>= f) misuse := by
  intro t G ht
  show (m t >>= fun p => f p.1 p.2) = _
  rw [h t (G + F) (by rw [ht, hP]; abel)]
  rfl

/-- The first part runs, and the rest comes to the misuse. -/
theorem step {m : Mem ε α} {f : α → Mem ε β} {Q : α → Multiset ℕ → Prop} (F : Multiset ℕ)
    (hm : Spec P m Q) (hP : P₀ = P + F) (hf : ∀ a R, Q a R → Fails (R + F) (f a) misuse) :
    Fails P₀ (m >>= f) misuse := by
  intro h G hlive
  obtain ⟨a, t, R, hrun, ht, hQ⟩ := hm h (G + F) (by rw [hlive, hP]; abel)
  show (m h >>= fun p => f p.1 p.2) = _
  rw [hrun]
  exact hf a R hQ t G (by rw [ht]; abel)

end Fails

/-- From the blocks `P` the program ends as one does that has no memory: with a result that `Q`
relates to the other's, or stopped by the same error. -/
def Follows {ε α β : Type} (P : Multiset ℕ) (m : Mem ε α) (plain : Except ε β)
    (Q : β → α → Multiset ℕ → Prop) : Prop :=
  match plain with
  | .ok b => Spec P m (Q b)
  | .error e => Fails P m (.halt e)

namespace Follows
variable {ε α β γ δ : Type} {P P₀ : Multiset ℕ}

theorem pure {a : α} {b : β} {Q : β → α → Multiset ℕ → Prop} (h : Q b a P) :
    Follows P (pure a : Mem ε α) (.ok b) Q :=
  Spec.pure h

theorem halt {e : ε} {Q : β → α → Multiset ℕ → Prop} : Follows P (halt e : Mem ε α) (.error e) Q :=
  fun _ _ _ => rfl

/-- The two go on as they began, with `F` put aside. -/
theorem step {m : Mem ε α} {f : α → Mem ε γ} {plain : Except ε β} {g : β → Except ε δ}
    {Q : β → α → Multiset ℕ → Prop} {S : δ → γ → Multiset ℕ → Prop} (F : Multiset ℕ)
    (hm : Follows P m plain Q) (hP : P₀ = P + F)
    (hf : ∀ b a R, plain = .ok b → Q b a R → Follows (R + F) (f a) (g b) S) :
    Follows P₀ (m >>= f) (plain >>= g) S := by
  cases plain with
  | error e => exact Fails.bind F hm hP f
  | ok b =>
    show Follows P₀ (m >>= f) (g b) S
    have hrest := fun a R => hf b a R rfl
    cases hgb : g b with
    | ok d =>
      rw [hgb] at hrest
      exact Spec.step F hm hP hrest
    | error e =>
      rw [hgb] at hrest
      exact Fails.step F hm hP hrest

/-- The same with nothing put aside. -/
theorem next {m : Mem ε α} {f : α → Mem ε γ} {plain : Except ε β} {g : β → Except ε δ}
    {Q : β → α → Multiset ℕ → Prop} {S : δ → γ → Multiset ℕ → Prop} (hm : Follows P m plain Q)
    (hf : ∀ b a R, plain = .ok b → Q b a R → Follows R (f a) (g b) S) :
    Follows P (m >>= f) (plain >>= g) S := by
  refine step 0 hm (add_zero P).symm fun b a R hb hQ => ?_
  rw [add_zero]
  exact hf b a R hb hQ

/-- A part that only does something to memory, and then the rest. -/
theorem skip {m : Mem ε α} {f : α → Mem ε γ} {plain : Except ε δ} {Q : α → Multiset ℕ → Prop}
    {S : δ → γ → Multiset ℕ → Prop} (F : Multiset ℕ) (hm : Spec P m Q) (hP : P₀ = P + F)
    (hf : ∀ a R, Q a R → Follows (R + F) (f a) plain S) : Follows P₀ (m >>= f) plain S := by
  have hdone : Follows P m (.ok ()) fun _ => Q := hm
  have hplain : plain = Except.ok () >>= fun _ => plain := rfl
  rw [hplain]
  exact step F hdone hP fun _ a R _ => hf a R

/-- The same with nothing put aside. -/
theorem pass {m : Mem ε α} {f : α → Mem ε γ} {plain : Except ε δ} {Q : α → Multiset ℕ → Prop}
    {S : δ → γ → Multiset ℕ → Prop} (hm : Spec P m Q) (hf : ∀ a R, Q a R → Follows R (f a) plain S) :
    Follows P (m >>= f) plain S := by
  refine skip 0 hm (add_zero P).symm fun a R hQ => ?_
  rw [add_zero]
  exact hf a R hQ

theorem mono {m : Mem ε α} {plain : Except ε β} {Q S : β → α → Multiset ℕ → Prop} (hm : Follows P m plain Q)
    (hQ : ∀ b a R, Q b a R → S b a R) : Follows P m plain S := by
  cases plain with
  | error e => exact hm
  | ok b =>
    refine Spec.last 0 hm (add_zero P).symm fun a R h => ?_
    rw [add_zero]
    exact hQ b a R h

/-- Two loops over the same elements keep what their turns keep. -/
theorem loop {σ τ : Type} {f : σ → α → Mem ε σ} {g : τ → α → Except ε τ} (I : τ → σ → Multiset ℕ → Prop)
    (l : List α) {t : τ} {s : σ} (hstep : ∀ a t s R, a ∈ l → I t s R → Follows R (f s a) (g t a) I)
    (hs : I t s P) : Follows P (l.foldlM f s) (l.foldlM g t) I := by
  induction l generalizing s t P with
  | nil => exact pure hs
  | cons a rest ih =>
    rw [List.foldlM_cons, List.foldlM_cons]
    refine next (hstep a t s P List.mem_cons_self hs) fun t s R _ hI => ?_
    exact ih (fun b t s R hb => hstep b t s R (List.mem_cons_of_mem a hb)) hI

/-- Two loops that make something of each element, of which the memory owns what it makes. -/
theorem collect {f : α → Mem ε γ} {g : β → Except ε δ} (own : γ → Multiset ℕ) (rel : δ → γ → Prop) {l : List α}
    {k : List β} (h : List.Forall₂ (fun a b => Follows P (f a) (g b) fun d c R => R = own c + P ∧ rel d c) l k) :
    Follows P (l.mapM f) (k.mapM g) fun ds cs R => R = (cs.map own).sum + P ∧ List.Forall₂ rel ds cs := by
  induction h with
  | nil => exact pure ⟨(zero_add P).symm, .nil⟩
  | cons hhead _ ih =>
    rw [List.mapM_cons, List.mapM_cons]
    refine next hhead fun d c R _ hc => ?_
    obtain ⟨rfl, hrel⟩ := hc
    refine step (own c) ih (by abel) fun ds cs R _ hcs => ?_
    obtain ⟨rfl, hall⟩ := hcs
    refine pure ⟨?_, .cons hrel hall⟩
    rw [List.map_cons, List.sum_cons]
    abel

end Follows

end Rnotify.Library
