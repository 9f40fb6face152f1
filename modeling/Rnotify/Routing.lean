import Rnotify.Dispatcher.Core
import Rnotify.Registrar.Service

/-! Whether registrar and dispatcher agree on the publisher of a path.

They ask the same ring, each with a key of its own making: the registrar hashes
the path, an instance number and the terminator that follows them, the dispatcher
the name in the event and an instance number. A registrar key always has a zero
byte and a dispatcher key never has one, so no two of them are equal, and a lookup
may send all of the first to one node and all of the second to another
(`selections_differ`). Only a ring with a single node leaves them no choice. -/
namespace Rnotify
open Library Dispatcher
open Registrar (firstPublisher secondPublisher)

theorem nul_mem_registrarKey (path : CString) (i : Nat) : 0 ∈ Registrar.registrarKey path i := by
  rw [Registrar.registrarKey_eq]
  exact List.mem_append_right _ (List.mem_singleton_self 0)

theorem nul_not_mem_dispatcherKey (pevent : InotifyEvent) (rand : Nat) : 0 ∉ dispatcherKey pevent rand := by
  rw [dispatcherKey_eq, List.mem_append]
  rintro (h | h)
  · exact pevent.text.nul_free h
  · exact (decimal _).nul_free h

/-- A lookup that answers `pick` on one ring, and as another lookup elsewhere. -/
def Lookup.override (base : Lookup) (ring : Ring) (hne : ring.Nonempty) (pick : List Byte → CString)
    (hpick : ∀ key, pick key ∈ ring) : Lookup where
  findNode := fun nodes key => if nodes = ring then some (pick key) else base.findNode nodes key
  findNode_empty := by
    intro key
    rw [if_neg hne.ne_empty.symm, base.findNode_empty]
  findNode_nonempty := by
    intro nodes hnodes key
    by_cases h : nodes = ring
    · exact ⟨pick key, h ▸ hpick key, if_pos h⟩
    · obtain ⟨node, hmem, hfind⟩ := base.findNode_nonempty nodes hnodes key
      exact ⟨node, hmem, by rw [if_neg h, hfind]⟩

/-- On a ring with two nodes a lookup may send all keys with a zero byte to one of them and all others
to the other. -/
theorem exists_apart {ring : Ring} {first second : CString} (hfirst : first ∈ ring) (hsecond : second ∈ ring) :
    ∃ L : Lookup, ∀ key, L.findNode ring key = some (if 0 ∈ key then first else second) := by
  have hpick : ∀ key : List Byte, (if 0 ∈ key then first else second) ∈ ring := by
    intro key
    split
    · exact hfirst
    · exact hsecond
  exact ⟨(hashRing strlen).override ring ⟨first, hfirst⟩ _ hpick, fun key => if_pos rfl⟩

/-- The event's socket leads to a publisher that the registrar selected for the path, and whose
publish address it tells a client that registers the path. -/
def Agrees (L : Lookup) (s : Registrar.State) (info : PublishersInfo) (path : CString)
    (addWatch : CString → Int) (pevent : InotifyEvent) (rand : Nat) : Prop :=
  ∃ sock table p addresses, findPublisher L info pevent rand = some sock ∧
    Registrar.getPublishersTable L path s.publisherRing = .ok table ∧
    sock.endpoint ∈ Table.names table ∧
    s.publishers.lookup sock.endpoint = some p ∧
    Registrar.handle L s (Registrar.register path addWatch) =
      ⟨[.watch path (decimal (addWatch path)),
        .reply (send (registerOk :: decimal (addWatch path) :: addresses))], .ok s⟩ ∧
    p.publishAddr ∈ addresses

variable {s : Registrar.State} {info : PublishersInfo} {path : CString} {addWatch : CString → Int}
  {pevent : InotifyEvent} {rand : Nat}

/-- Agreement is the dispatcher's node being among the registrar's. -/
theorem agrees_iff (L : Lookup) (hs : Registrar.Consistent s) (hne : s.publisherRing.Nonempty)
    (hinfo : InStep info) (hring : info.publisherRing = s.publisherRing) :
    Agrees L s info path addWatch pevent rand ↔
      ∃ node ∈ Registrar.selected L path s.publisherRing,
        L.findNode s.publisherRing (dispatcherKey pevent rand) = some node := by
  obtain ⟨table, htable, hnames⟩ := Registrar.getPublishersTable_ok L path hne
  obtain ⟨node, hmem, hnode⟩ := L.findNode_nonempty _ hne (dispatcherKey pevent rand)
  obtain ⟨sock, hsock, hend⟩ : ∃ sock, findPublisher L info pevent rand = some sock ∧ sock.endpoint = node :=
    socketFor_of_inStep hinfo (hring ▸ hnode)
  constructor
  · rintro ⟨sock', table', p, addresses, hsock', htable', hin, _⟩
    rw [hsock, Option.some.injEq] at hsock'
    rw [htable, Except.ok.injEq] at htable'
    rw [← htable', ← hsock', hnames, hend] at hin
    exact ⟨node, hin, hnode⟩
  · rintro ⟨node', hsel, hnode'⟩
    rw [hnode, Option.some.injEq] at hnode'
    rw [← hnode'] at hsel
    obtain ⟨addresses, hlisted, hreply⟩ :=
      Registrar.registerFile_ok L s hs hne addWatch (Registrar.register path addWatch).frames path
        (Registrar.part_register path addWatch)
    obtain ⟨p, hp, hpub⟩ := hlisted.mem L hsel
    refine ⟨sock, table, p, addresses, hsock, htable, ?_, ?_, ?_, hpub⟩
    · rw [hend, hnames]
      exact hsel
    · rw [hend]
      exact hp
    · rw [Registrar.handle_file L s (Registrar.register_isFile path addWatch)]
      exact hreply

variable (path addWatch pevent rand) in
/-- With two nodes there is a lookup that keeps the two keys apart. -/
theorem exists_not_agrees (hs : Registrar.Consistent s) {first second : CString}
    (hfirst : first ∈ s.publisherRing) (hsecond : second ∈ s.publisherRing) (hdiff : first ≠ second)
    (hinfo : InStep info) (hring : info.publisherRing = s.publisherRing) :
    ∃ L, ¬ Agrees L s info path addWatch pevent rand := by
  have hne : s.publisherRing.Nonempty := ⟨first, hfirst⟩
  obtain ⟨L, hanswer⟩ := exists_apart hfirst hsecond
  refine ⟨L, fun hagrees => ?_⟩
  obtain ⟨node, hsel, hnode⟩ := (agrees_iff L hs hne hinfo hring).mp hagrees
  obtain ⟨i, _, hi⟩ := (Registrar.mem_selected L).mp hsel
  rw [hanswer, Option.some.injEq] at hi hnode
  have hreg : node = first := by
    rw [← hi]
    exact if_pos (nul_mem_registrarKey path i)
  have hdis : node = second := by
    rw [← hnode]
    exact if_neg (nul_not_mem_dispatcherKey pevent rand)
  exact hdiff (hreg.symm.trans hdis)

/-- **Routing agreement.** On rings that agree and are not empty, registrar and dispatcher are
sure to agree on a publisher, whatever the lookup, exactly when there is only one. -/
theorem agrees_iff_single (hs : Registrar.Consistent s) (hne : s.publisherRing.Nonempty)
    (hinfo : InStep info) (hring : info.publisherRing = s.publisherRing) :
    (∀ L, Agrees L s info path addWatch pevent rand) ↔ s.publisherRing.card = 1 := by
  constructor
  · intro hall
    by_contra hcard
    have hmany : 1 < s.publisherRing.card := by
      have := hne.card_pos
      omega
    obtain ⟨first, hfirst, second, hsecond, hdiff⟩ := Finset.one_lt_card.mp hmany
    obtain ⟨L, hL⟩ := exists_not_agrees path addWatch pevent rand hs hfirst hsecond hdiff hinfo hring
    exact hL (hall L)
  · intro hcard L
    obtain ⟨only, honly⟩ := Finset.card_eq_one.mp hcard
    obtain ⟨node, hmem, hnode⟩ := L.findNode_nonempty _ hne (dispatcherKey pevent rand)
    obtain ⟨other, hsel⟩ := Registrar.selected_nonempty L path hne
    have hother := Registrar.selected_subset L path _ hsel
    rw [honly, Finset.mem_singleton] at hmem hother
    refine (agrees_iff L hs hne hinfo hring).mpr ⟨node, ?_, hnode⟩
    rw [hmem, ← hother]
    exact hsel

/-! ### The two selections of a name -/

/-- The dispatcher's key for a name in a padded name field is the registrar's without its last byte. -/
theorem registrarKey_eq_concat {fileName : CString} {pevent : InotifyEvent} {padding : Nat} (hpad : 1 ≤ padding)
    (hname : pevent.name = fileName.bytes ++ List.replicate padding 0) (rand : Nat) :
    Registrar.registrarKey fileName (rand % replicationFactor + 1) = dispatcherKey pevent rand ++ [0] := by
  obtain ⟨rest, hrest⟩ : ∃ rest, List.replicate padding (0 : Byte) = 0 :: rest :=
    ⟨List.replicate (padding - 1) 0, by rw [← List.replicate_succ, Nat.sub_add_cancel hpad]⟩
  have htext : pevent.text = fileName := by
    rw [InotifyEvent.text, hname, hrest, cstr_terminated]
  rw [Registrar.registrarKey_eq, dispatcherKey_eq, htext]

/-- **Registrar and dispatcher select by different functions of a name.** Whatever the name, its padding, the
instance number and the rest of the event, the registrar's key is one byte longer than the dispatcher's, and a
lookup may have the dispatcher pick a publisher that the registrar does not compute. -/
theorem selections_differ (fileName : CString) (pevent : InotifyEvent) (padding : Nat) (hpad : 1 ≤ padding)
    (hname : pevent.name = fileName.bytes ++ List.replicate padding 0) (rand : Nat) :
    dispatcherKey pevent rand ≠ Registrar.registrarKey fileName (rand % replicationFactor + 1) ∧
      (dispatcherKey pevent rand).length + 1 =
        (Registrar.registrarKey fileName (rand % replicationFactor + 1)).length ∧
      ∃ (L : Lookup) (ring : Ring) (node : CString), L.findNode ring (dispatcherKey pevent rand) = some node ∧
        node ∉ Registrar.selected L fileName ring := by
  have hkey := registrarKey_eq_concat hpad hname rand
  refine ⟨?_, ?_, ?_⟩
  · intro heq
    exact nul_not_mem_dispatcherKey pevent rand (heq ▸ nul_mem_registrarKey fileName _)
  · rw [hkey, List.length_append, List.length_singleton]
  · -- one node for every key of the registrar, the other for every key of the dispatcher
    let ring : Ring := {firstPublisher.acceptAddr, secondPublisher.acceptAddr}
    obtain ⟨L, hanswer⟩ : ∃ L : Lookup, ∀ key, L.findNode ring key =
        some (if 0 ∈ key then firstPublisher.acceptAddr else secondPublisher.acceptAddr) :=
      exists_apart (by decide) (by decide)
    refine ⟨L, ring, secondPublisher.acceptAddr, ?_, fun hsel => ?_⟩
    · rw [hanswer, if_neg (nul_not_mem_dispatcherKey pevent rand)]
    · obtain ⟨i, _, hi⟩ := (Registrar.mem_selected L).mp hsel
      rw [hanswer, if_pos (nul_mem_registrarKey fileName i), Option.some.injEq] at hi
      exact absurd hi (by decide)

theorem selections_differ_created :
    dispatcherKey (created 1) 0 ≠ Registrar.registrarKey (literal "a") (0 % replicationFactor + 1) ∧
      (dispatcherKey (created 1) 0).length + 1 =
        (Registrar.registrarKey (literal "a") (0 % replicationFactor + 1)).length ∧
      ∃ (L : Lookup) (ring : Ring) (node : CString), L.findNode ring (dispatcherKey (created 1) 0) = some node ∧
        node ∉ Registrar.selected L (literal "a") ring :=
  selections_differ (literal "a") (created 1) 15 (by decide) (by decide) 0

/-- The keys for an event of `a` and its first instance. -/
theorem keys_of_a : dispatcherKey (created 1) 0 = ascii "a1" ∧
    Registrar.registrarKey (literal "a") (0 % replicationFactor + 1) = ascii "a1" ++ [0] ∧
    dispatcherKey (created 1) 0 ≠ Registrar.registrarKey (literal "a") (0 % replicationFactor + 1) := by decide

/-! ### One publisher and two -/

/-- What the registrar holds after some publishers registered. -/
def enrolled (ps : List Registrar.Publisher) : Registrar.State :=
  ps.foldl (fun s p => Registrar.record (Registrar.enlist s p) p) Registrar.initial

/-- What a dispatcher holds after some addresses were announced. -/
def informed (addrs : List CString) : PublishersInfo :=
  addrs.foldl (fun info addr => info.learn addr ⟨info.publisherRing.card, addr⟩) initial.info

theorem informed_inStep (addrs : List CString) : InStep (informed addrs) :=
  List.foldlRecOn addrs _ inStep_initial fun _ h _ _ => inStep_learn h rfl

theorem agrees_iff_single_first :
    (∀ L, Agrees L (enrolled [firstPublisher]) (informed [firstPublisher.acceptAddr]) (literal "/srv")
      (fun _ => 1) (created 1) 0) ↔ (enrolled [firstPublisher]).publisherRing.card = 1 :=
  agrees_iff_single (by unfold Registrar.Consistent; decide) (by decide) (informed_inStep _) (by decide)

/-- With two publishers, a lookup that tells the keys apart sends the event to one and the
client to the other. -/
theorem two_publishers_disagree :
    ¬ ∀ L, Agrees L (enrolled [firstPublisher, secondPublisher])
      (informed [firstPublisher.acceptAddr, secondPublisher.acceptAddr]) (literal "/srv")
      (fun _ => 1) (created 1) 0 := by
  have hs : Registrar.Consistent (enrolled [firstPublisher, secondPublisher]) := by
    unfold Registrar.Consistent
    decide
  have hfirst : firstPublisher.acceptAddr ∈ (enrolled [firstPublisher, secondPublisher]).publisherRing := by
    decide
  have hsecond : secondPublisher.acceptAddr ∈ (enrolled [firstPublisher, secondPublisher]).publisherRing := by
    decide
  intro hall
  obtain ⟨L, hL⟩ := exists_not_agrees (literal "/srv") (fun _ => 1) (created 1) 0 hs hfirst hsecond
    (by decide) (informed_inStep [firstPublisher.acceptAddr, secondPublisher.acceptAddr]) (by decide)
  exact hL (hall L)

end Rnotify
