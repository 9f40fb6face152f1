import Rnotify.Library.Loops
import Rnotify.Registrar.Core

/-! The publishers a file registration is told of.

`selected` is the set of nodes the ring gives for the ten keys of a path. On a
ring with a node, `get_publishers_table` ends with exactly these as its keys; on
an empty ring its first turn dereferences NULL. When the publishers table has the
ring's names for keys, the loop over the keys finds every publisher, and the
reply has one address for each selected node (`Listed`). -/
namespace Rnotify.Registrar
open Library

variable (L : Lookup)

/-- The nodes picked for the given instances of a path. -/
def picked (fileName : CString) (ring : Ring) (is : List Nat) : Finset CString :=
  (is.filterMap fun i => L.findNode ring (registrarKey fileName i)).toFinset

def selected (fileName : CString) (ring : Ring) : Finset CString := picked L fileName ring instances

theorem mem_picked {fileName : CString} {ring : Ring} {is : List Nat} {n : CString} :
    n ∈ picked L fileName ring is ↔ ∃ i ∈ is, L.findNode ring (registrarKey fileName i) = some n := by
  simp [picked]

theorem mem_instances {i : Nat} : i ∈ instances ↔ 1 ≤ i ∧ i ≤ replicationFactor := by
  simp only [instances, List.mem_range'_1]
  omega

/-- The dispatcher draws one of them. -/
theorem drawn_mem_instances (rand : Nat) : rand % replicationFactor + 1 ∈ instances := by
  have hlt : rand % replicationFactor < replicationFactor := Nat.mod_lt _ (by decide)
  exact mem_instances.mpr ⟨by omega, by omega⟩

theorem mem_selected {fileName : CString} {ring : Ring} {n : CString} :
    n ∈ selected L fileName ring ↔ ∃ i, (1 ≤ i ∧ i ≤ replicationFactor) ∧
      L.findNode ring (registrarKey fileName i) = some n := by
  simp only [selected, mem_picked, mem_instances]

theorem selected_subset (fileName : CString) (ring : Ring) : selected L fileName ring ⊆ ring := by
  intro n hn
  obtain ⟨i, _, hfind⟩ := (mem_selected L).mp hn
  exact L.mem_of_findNode hfind

theorem selected_nonempty (fileName : CString) {ring : Ring} (h : ring.Nonempty) :
    (selected L fileName ring).Nonempty := by
  obtain ⟨n, _, hfind⟩ := L.findNode_nonempty ring h (registrarKey fileName 1)
  exact ⟨n, (mem_selected L).mpr ⟨1, by decide, hfind⟩⟩

theorem selected_card_le (fileName : CString) (ring : Ring) :
    (selected L fileName ring).card ≤ replicationFactor := by
  calc (selected L fileName ring).card
      ≤ (instances.filterMap fun i => L.findNode ring (registrarKey fileName i)).length :=
        List.toFinset_card_le _
    _ ≤ instances.length := List.length_filterMap_le ..
    _ = replicationFactor := by rw [instances, List.length_range']

/-! ### The loop of `get_publishers_table` -/

theorem picked_cons (fileName : CString) (ring : Ring) (i : Nat) (rest : List Nat) (n : CString)
    (h : L.findNode ring (registrarKey fileName i) = some n) :
    picked L fileName ring (i :: rest) = insert n (picked L fileName ring rest) := by
  simp only [picked, List.filterMap_cons, h, List.toFinset_cons]

/-- On a ring with a node the table's keys are the selected nodes. -/
theorem getPublishersTable_ok (fileName : CString) {ring : Ring} (h : ring.Nonempty) :
    ∃ table, getPublishersTable L fileName ring = .ok table ∧
      Table.names table = selected L fileName ring := by
  have hloop := foldlM_ok (pickInstance L fileName ring)
    (fun rest table => Table.names table ∪ picked L fileName ring rest = selected L fileName ring)
    instances ∅ ?_ (Finset.empty_union _)
  · obtain ⟨table, htable, hnames⟩ := hloop
    exact ⟨table, htable, by simpa [picked] using hnames⟩
  · intro i rest table _ hP
    obtain ⟨n, _, hfind⟩ := L.findNode_nonempty ring h (registrarKey fileName i)
    refine ⟨table.insert n n, by rw [pickInstance, hfind], ?_⟩
    rw [← hP, picked_cons L fileName ring i rest n hfind, Table.names_insert, Finset.insert_union,
      Finset.union_insert]

theorem getPublishersTable_empty (fileName : CString) :
    getPublishersTable L fileName ∅ = .error .nullNode := by
  have hfirst : pickInstance L fileName ∅ ∅ 1 = .error .nullNode := by
    rw [pickInstance, L.findNode_empty]
  rw [getPublishersTable, show instances = 1 :: List.range' 2 9 from rfl, List.foldlM_cons, hfirst]
  rfl

/-! ### The loop over the keys -/

/-- One address for each selected node, in some order: the publish address of the publisher
that the table holds for it. -/
def Listed (s : State) (fileName : CString) (addresses : List CString) : Prop :=
  ∃ names : List CString, names.Nodup ∧ names.toFinset = selected L fileName s.publisherRing ∧
    List.Forall₂ (fun n a => ∃ p, s.publishers.lookup n = some p ∧ a = p.publishAddr) names addresses

theorem publishersList_ok (publishers : Table Publisher) (table : Table CString)
    (h : Table.names table ⊆ Table.names publishers) :
    ∃ addresses, publishersList publishers table = .ok addresses ∧
      List.Forall₂ (fun n a => ∃ p, publishers.lookup n = some p ∧ a = p.publishAddr)
        table.keys addresses := by
  have hfound : ∀ n ∈ table.keys, ∃ a, publishAddrOf publishers n = .ok a := by
    intro n hn
    obtain ⟨p, hp⟩ := Table.mem_names.mp (h (List.mem_toFinset.mpr hn))
    exact ⟨p.publishAddr, by rw [publishAddrOf, hp]⟩
  obtain ⟨addresses, haddresses, hall⟩ := mapM_ok (publishAddrOf publishers) table.keys hfound
  refine ⟨addresses, haddresses, hall.imp ?_⟩
  intro n a hna
  unfold publishAddrOf at hna
  split at hna
  · cases hna
  · next p hp => exact ⟨p, hp, (Except.ok.inj hna).symm⟩

/-- The ring and the table have the same names. -/
def Consistent (s : State) : Prop := s.publisherRing = Table.names s.publishers

/-- A file registration on a ring with a node is answered: the code, the id and the listed addresses. -/
theorem registerFile_ok (s : State) (hs : Consistent s) (hne : s.publisherRing.Nonempty)
    (addWatch : CString → Int) (registration : List Frame) (path : CString)
    (hpath : part registration 1 = .ok path) :
    ∃ addresses, Listed L s path addresses ∧
      registerFile L addWatch s registration =
        ⟨[.watch path (decimal (addWatch path)),
          .reply (send (registerOk :: decimal (addWatch path) :: addresses))], .ok s⟩ := by
  obtain ⟨table, htable, hnames⟩ := getPublishersTable_ok L path hne
  have hsub : Table.names table ⊆ Table.names s.publishers := by
    rw [hnames, ← hs]
    exact selected_subset L path s.publisherRing
  obtain ⟨addresses, haddresses, hall⟩ := publishersList_ok s.publishers table hsub
  refine ⟨addresses, ⟨table.keys, table.keys_nodup, hnames, hall⟩, ?_⟩
  simp only [registerFile, hpath, htable, haddresses, registerNotification]

/-- A file registration on an empty ring dereferences NULL, after the path has gone to the proxy. -/
theorem registerFile_empty (s : State) (h : s.publisherRing = ∅) (addWatch : CString → Int)
    (registration : List Frame) (path : CString) (hpath : part registration 1 = .ok path) :
    registerFile L addWatch s registration =
      ⟨[.watch path (decimal (addWatch path))], .error .nullNode⟩ := by
  simp only [registerFile, hpath, h, getPublishersTable_empty, registerNotification]

/-- A file registration leaves the ring and the table as they are. -/
theorem registerFile_next {addWatch : CString → Int} {s t : State} {registration : List Frame}
    (h : (registerFile L addWatch s registration).next = .ok t) : t = s := by
  unfold registerFile at h
  split at h
  · cases h
  · dsimp only at h
    split at h
    · cases h
    · split at h
      · cases h
      · exact (Except.ok.inj h).symm

/-- How many addresses a reply can have. -/
theorem Listed.length {s : State} {fileName : CString} {addresses : List CString}
    (h : Listed L s fileName addresses) : addresses.length = (selected L fileName s.publisherRing).card := by
  obtain ⟨names, hnodup, hnames, hall⟩ := h
  rw [← hall.length_eq, ← List.toFinset_card_of_nodup hnodup, hnames]

/-- A selected node is in the table, and the reply has its publish address. -/
theorem Listed.mem {s : State} {fileName : CString} {addresses : List CString}
    (h : Listed L s fileName addresses) {n : CString} (hn : n ∈ selected L fileName s.publisherRing) :
    ∃ p, s.publishers.lookup n = some p ∧ p.publishAddr ∈ addresses := by
  obtain ⟨names, _, hnames, hall⟩ := h
  obtain ⟨i, hi, rfl⟩ := List.getElem_of_mem (List.mem_toFinset.mp (hnames ▸ hn))
  have hi' : i < addresses.length := hall.length_eq ▸ hi
  obtain ⟨p, hp, ha⟩ := hall.get hi hi'
  exact ⟨p, hp, ha ▸ List.getElem_mem hi'⟩

end Rnotify.Registrar
