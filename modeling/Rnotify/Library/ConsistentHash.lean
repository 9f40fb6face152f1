import Mathlib

/-! Consistent hashing.

Nodes put a number of points on a circle and a key falls somewhere on it; the
node that owns the key is the one whose point comes first going clockwise from
the key, wrapping once. Points are of any linear order and may collide: two nodes
at one distance are told apart by their own order, so the owner is a function of
the set of nodes.

What makes the scheme consistent is `owner_unique`: if each of two rings holds
the other's owner of a key, the two owners are one. Growing or shrinking a ring
moves a key only to a node that came or from a node that went. -/
namespace Rnotify.Library

/-- Where nodes and keys fall on the circle. -/
structure Circle (N K P : Type*) where
  replicas : Nat
  point : N → Nat → P
  position : K → P

namespace Circle
variable {N K P : Type*} [LinearOrder N] [LinearOrder P] (C : Circle N K P)

/-- The order in which points are met from a key: the points after it, then the others. -/
def clockwise (key : K) (p : P) : Bool ×ₗ P := toLex (decide (p ≤ C.position key), p)

/-- The first point of a node met from a key. -/
def nearest (key : K) (n : N) : WithTop (Bool ×ₗ P) :=
  ((Finset.range C.replicas).image fun i => C.clockwise key (C.point n i)).min

def rank (key : K) (n : N) : WithTop (Bool ×ₗ P) ×ₗ N := toLex (C.nearest key n, n)

/-- The node a key belongs to. -/
def owner (nodes : Finset N) (key : K) : Option N :=
  match (nodes.image (C.rank key)).min with
  | none => none
  | some r => some (ofLex r).2

omit [LinearOrder N] in
theorem rank_injective (key : K) : Function.Injective (C.rank key) := by
  intro m n h
  exact congrArg (fun r => (ofLex r).2) h

/-- The owner is the node of least rank. -/
theorem owner_eq_some_iff {nodes : Finset N} {key : K} {n : N} :
    C.owner nodes key = some n ↔ n ∈ nodes ∧ ∀ m ∈ nodes, C.rank key n ≤ C.rank key m := by
  have hleast : ∀ r, (nodes.image (C.rank key)).min = some r →
      ∃ m ∈ nodes, C.rank key m = r ∧ ∀ k ∈ nodes, r ≤ C.rank key k := by
    intro r hr
    obtain ⟨m, hm, hrank⟩ := Finset.mem_image.mp (Finset.mem_of_min hr)
    exact ⟨m, hm, hrank, fun k hk => Finset.min_le_of_eq (Finset.mem_image_of_mem _ hk) hr⟩
  constructor
  · intro h
    unfold owner at h
    split at h
    · cases h
    · next r hr =>
      obtain ⟨m, hm, hrank, hmin⟩ := hleast r hr
      have hmn : m = n := by
        rw [← hrank] at h
        exact Option.some.inj h
      rw [← hmn, hrank]
      exact ⟨hm, hmin⟩
  · rintro ⟨hn, hmin⟩
    obtain ⟨r, hr⟩ := Finset.min_of_nonempty ⟨_, Finset.mem_image_of_mem (C.rank key) hn⟩
    obtain ⟨m, hm, hrank, hall⟩ := hleast r hr
    have hmn : m = n := by
      apply C.rank_injective key
      exact le_antisymm (hrank ▸ hall n hn) (hmin m hm)
    have howner : C.owner nodes key = some (ofLex r).2 := by
      unfold owner
      rw [hr]
    rw [howner, ← hrank, ← hmn]
    rfl

@[simp] theorem owner_empty (key : K) : C.owner ∅ key = none := rfl

/-- A ring with a node has an owner for every key. -/
theorem exists_owner {nodes : Finset N} (h : nodes.Nonempty) (key : K) :
    ∃ n ∈ nodes, C.owner nodes key = some n := by
  obtain ⟨n, hn, hmin⟩ := nodes.exists_min_image (C.rank key) h
  exact ⟨n, hn, C.owner_eq_some_iff.mpr ⟨hn, hmin⟩⟩

/-- Two rings that hold each other's owner of a key have the same owner. -/
theorem owner_unique {a b : Finset N} {key : K} {m n : N} (ha : C.owner a key = some m)
    (hb : C.owner b key = some n) (hmb : m ∈ b) (hna : n ∈ a) : m = n := by
  obtain ⟨_, hmin⟩ := C.owner_eq_some_iff.mp ha
  obtain ⟨_, hmin'⟩ := C.owner_eq_some_iff.mp hb
  exact C.rank_injective key (le_antisymm (hmin n hna) (hmin' m hmb))

end Circle

end Rnotify.Library
