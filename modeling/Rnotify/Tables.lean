import Rnotify.Library.ConsistentHash
import Rnotify.Wire

/-! Hash rings and hash tables.

A ring is the set of its node names; adding a name it holds changes nothing. How
`hash_ring_find_node` picks a node is a parameter, a `Lookup`: any function of
the nodes and of the key's bytes that answers one of the nodes, and NULL when
there is none. `hashRing` is consistent hashing over any hash function. A
`GHashTable` keyed by strings is an association list without repeated keys;
inserting under a key it holds replaces the value. -/
namespace Rnotify
open Library

abbrev Ring := Finset CString

/-- `hash_ring_add_node`. -/
def addNode (ring : Ring) (name : CString) : Ring := insert name ring

/-- `hash_ring_find_node`. -/
structure Lookup where
  findNode : Ring → List Byte → Option CString
  findNode_empty : ∀ key, findNode ∅ key = none
  findNode_nonempty : ∀ ring : Ring, ring.Nonempty → ∀ key, ∃ node ∈ ring, findNode ring key = some node

namespace Lookup
variable (L : Lookup)

theorem mem_of_findNode {ring : Ring} {key : List Byte} {node : CString}
    (h : L.findNode ring key = some node) : node ∈ ring := by
  by_cases hr : ring.Nonempty
  · obtain ⟨n, hn, hfind⟩ := L.findNode_nonempty ring hr key
    rw [h, Option.some.injEq] at hfind
    rwa [hfind]
  · rw [Finset.not_nonempty_iff_eq_empty.mp hr, L.findNode_empty] at h
    cases h

end Lookup

/-! ### Consistent hashing -/

variable {P : Type} [LinearOrder P]

/-- `hash_ring_create`: the points of a node are the hashes of its name followed by 0, 1, …. -/
def circle (hash : List Byte → P) : Circle CString (List Byte) P where
  replicas := replicationFactor
  point := fun name i => hash (name.bytes ++ (decimal i).bytes)
  position := hash

/-- The lookup of a circle: the node that owns the key. -/
def ownerLookup (C : Circle CString (List Byte) P) : Lookup where
  findNode := C.owner
  findNode_empty := C.owner_empty
  findNode_nonempty := fun _ h key => C.exists_owner h key

def hashRing (hash : List Byte → P) : Lookup := ownerLookup (circle hash)

/-! ### Tables -/

abbrev Table (V : Type) := AList (fun _ : CString => V)

namespace Table
variable {V : Type}

def names (t : Table V) : Finset CString := t.keys.toFinset

@[simp] theorem names_insert (t : Table V) (k : CString) (v : V) :
    names (t.insert k v) = insert k (names t) := by
  ext n
  simp only [names, List.mem_toFinset, Finset.mem_insert, ← AList.mem_keys, AList.mem_insert]

theorem mem_names {t : Table V} {k : CString} : k ∈ names t ↔ ∃ v, t.lookup k = some v := by
  rw [names, List.mem_toFinset, ← AList.mem_keys, ← AList.lookup_isSome, Option.isSome_iff_exists]

end Table

end Rnotify
