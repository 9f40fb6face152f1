import Rnotify.Ownership.Registrar

/-! What the registrar loses.

A turn of its loop that ends does no harm to memory: no block is freed twice or used
after it is freed. It leaves the table with what the table owns, and a known number of
blocks that nothing owns any more (`lost`). So over a run the blocks allocated are five
for each entry of the table and those lost, turn by turn (`registrar_memory`). -/
namespace Rnotify.Ownership
open Library Mem

variable {P : Multiset ℕ}

/-! ### Strings -/

theorem address_spec {ip port : Str} (hip : ip.block ∈ P) (hport : port.block ∈ P) :
    Spec P (address ip port) fun t R => R = {t.block} + P ∧ t.text = Registrar.address ip.text port.text := by
  refine .next (.use hip) fun _ R hR => ?_
  refine .next (.use (by rwa [hR])) fun _ R' hR' => ?_
  refine .last P (newStr_spec _) (by rw [hR', hR, zero_add]) fun t R hR => ?_
  exact ⟨by rw [hR.1, add_zero], hR.2⟩

/-- The frames of a request, as the strings that they are received as. -/
def Received (frames : List Frame) (registration : List Str) : Prop :=
  List.Forall₂ (fun frame s => s.text = cstr frame) frames registration

/-- A part is a string of the request, and is there in memory when it is there without. -/
theorem part_follows {frames : List Frame} {registration : List Str} (h : Received frames registration) (k : ℕ) :
    Follows P (part registration k) (Registrar.part frames k) fun text s R =>
      R = P ∧ s ∈ registration ∧ s.text = text := by
  unfold part Registrar.part
  by_cases hlt : k < frames.length
  · have hlt' : k < registration.length := h.length_eq ▸ hlt
    rw [List.getElem?_eq_getElem hlt, List.getElem?_eq_getElem hlt']
    exact .pure ⟨rfl, List.getElem_mem hlt', h.get hlt hlt'⟩
  · rw [List.getElem?_eq_none (not_lt.mp hlt), List.getElem?_eq_none (h.length_eq ▸ not_lt.mp hlt)]
    exact .halt

/-! ### Publisher registrations -/

theorem newPublisher_spec {ip acceptPort publishPort : Str} (hip : ip.block ∈ P) (haccept : acceptPort.block ∈ P)
    (hpublish : publishPort.block ∈ P) :
    Spec P (newPublisher ip acceptPort publishPort) fun p R =>
      R = p.owned + P ∧ p.publisher = ⟨ip.text, acceptPort.text, publishPort.text⟩ := by
  refine .step P .malloc (zero_add P).symm fun block R hR => ?_
  have hmem : ∀ {b} {B : Multiset ℕ}, b ∈ P → b ∈ B + P := fun h => Multiset.mem_add.mpr (Or.inr h)
  refine .next (copy_spec (hmem hip)) fun ip' R₁ h₁ => ?_
  refine .next (copy_spec (by rw [h₁.1, ← add_assoc]; exact hmem haccept)) fun accept' R₂ h₂ => ?_
  refine .next (copy_spec (by rw [h₂.1, h₁.1, ← add_assoc, ← add_assoc]; exact hmem hpublish)) fun publish' R₃ h₃ => ?_
  refine .pure ⟨?_, ?_⟩
  · rw [h₃.1, h₂.1, h₁.1, hR, PublisherStruct.owned]
    abel
  · rw [PublisherStruct.publisher, h₁.2, h₂.2, h₃.2]

theorem notifyDispatchers_spec (p : PublisherStruct) :
    Spec p.owned (notifyDispatchers p) fun out R => R = {out.1.block} + p.owned ∧
      out.1.text = p.publisher.acceptAddr ∧ out.2 = Registrar.notifyDispatchers p.publisher := by
  have hblock : p.block ∈ p.owned := by simp [PublisherStruct.owned]
  have hip : p.ip.block ∈ p.owned := by simp [PublisherStruct.owned]
  have haccept : p.acceptPort.block ∈ p.owned := by simp [PublisherStruct.owned]
  refine .next (.use hblock) fun _ R hR => ?_
  rw [hR]
  refine .next (address_spec hip haccept) fun addr R h₁ => ?_
  refine .next (.use (by rw [h₁.1]; simp)) fun _ R' hR' => ?_
  refine .step R' (sendString_spec _) (zero_add _).symm fun wire R h₂ => ?_
  refine .pure ⟨?_, h₁.2, ?_⟩
  · rw [h₂.1, hR', h₁.1, zero_add]
  · rw [h₂.2, h₁.2]
    rfl

theorem destroyPublisher_spec (p : PublisherStruct) :
    Spec p.owned (destroyPublisher p) fun _ R => R = {p.block} := by
  refine .next (.use (by simp [PublisherStruct.owned])) fun _ R hR => ?_
  refine .step ({p.block} + {p.acceptPort.block} + {p.publishPort.block}) (.free p.ip.block)
    (by rw [hR, PublisherStruct.owned]; abel) fun _ R hR => ?_
  refine .step ({p.block} + {p.publishPort.block}) (.free p.acceptPort.block) (by rw [hR]; abel) fun _ R hR => ?_
  refine .last {p.block} (.free p.publishPort.block) (by rw [hR]; abel) fun _ R hR => ?_
  rw [hR, zero_add]

/-- A publisher goes in the table; of one that is replaced the `publisher_struct` is lost. -/
theorem insertPublisher_spec (t : Table Entry) (key : Str) (p : PublisherStruct) :
    Spec ({key.block} + p.owned + tableOwned Entry.owned t) (insertPublisher t key p) fun t' R =>
      (∃ leaked : Multiset ℕ, R = tableOwned Entry.owned t' + leaked ∧
        leaked.card = if key.text ∈ t then 1 else 0) ∧
      ∃ k, t' = t.insert key.text ⟨k, p⟩ := by
  unfold insertPublisher
  cases hold : t.lookup key.text with
  | none =>
    have hinsert := tableOwned_insert Entry.owned t key.text ⟨key.block, p⟩
    have hmem : key.text ∉ t := AList.lookup_eq_none.mp hold
    rw [hold, Option.elim_none, add_zero] at hinsert
    refine .pure ⟨⟨0, ?_, by rw [if_neg hmem, Multiset.card_zero]⟩, _, rfl⟩
    rw [hinsert, Entry.owned]
    abel
  | some old =>
    have hinsert := tableOwned_insert Entry.owned t key.text ⟨old.key, p⟩
    have hmem : key.text ∈ t := AList.lookup_isSome.mp (by rw [hold]; rfl)
    obtain ⟨rest, hrest⟩ := Multiset.le_iff_exists_add.mp (own_le_tableOwned Entry.owned hold)
    rw [hold, Option.elim_some, hrest] at hinsert
    have hnew : tableOwned Entry.owned (t.insert key.text ⟨old.key, p⟩) = rest + {old.key} + p.owned := by
      rw [← add_right_cancel_iff (a := old.owned), hinsert]
      simp only [Entry.owned]
      abel
    refine .step (p.owned + tableOwned Entry.owned t) (.free key.block) (by rw [add_assoc]) fun _ R hR => ?_
    refine .step (p.owned + {old.key} + rest) (destroyPublisher_spec old.value)
      (by rw [hR, hrest, Entry.owned]; abel) fun _ R hR => ?_
    refine .pure ⟨⟨{old.value.block}, ?_, by rw [if_pos hmem, Multiset.card_singleton]⟩, _, rfl⟩
    rw [hR, hnew]
    abel

/-- What a pass leaves and what it did. -/
def outcome (pass : Registrar.Pass) : Except Registrar.Fault (Registrar.State × List Registrar.Action) :=
  pass.next.map fun r => (r, pass.actions)

theorem outcome_registerPublisher (r : Registrar.State) (frames : List Frame) :
    outcome (Registrar.registerPublisher r frames) = do
      let ip ← Registrar.part frames 1
      let acceptPort ← Registrar.part frames 2
      let publishPort ← Registrar.part frames 3
      let p : Registrar.Publisher := ⟨ip, acceptPort, publishPort⟩
      return (Registrar.record (Registrar.enlist r p) p,
        [.reply (sendText registerOk), .announce (Registrar.notifyDispatchers p)]) := by
  unfold Registrar.registerPublisher Registrar.newPublisher
  cases Registrar.part frames 1 <;> cases Registrar.part frames 2 <;> cases Registrar.part frames 3 <;> rfl

theorem Represents.mem {s : State} {r : Registrar.State} (h : Represents s r) (n : CString) :
    n ∈ s.publishers ↔ n ∈ r.publishers := by
  rw [← AList.lookup_isSome, ← AList.lookup_isSome, ← h.publishers n, Option.isSome_map]

/-- The new publisher goes on the ring and in the table, in memory and without. -/
theorem Represents.register {s : State} {r : Registrar.State} (h : Represents s r) {p : PublisherStruct}
    {q : Registrar.Publisher} (hp : p.publisher = q) (k : ℕ) :
    Represents ⟨addNode s.publisherRing q.acceptAddr, s.publishers.insert q.acceptAddr ⟨k, p⟩⟩
      (Registrar.record (Registrar.enlist r q) q) := by
  refine ⟨by rw [h.ring]; rfl, fun n => ?_⟩
  show Option.map _ (AList.lookup n (s.publishers.insert q.acceptAddr ⟨k, p⟩)) =
    AList.lookup n (r.publishers.insert q.acceptAddr q)
  by_cases hn : n = q.acceptAddr
  · rw [hn, AList.lookup_insert, AList.lookup_insert, Option.map_some, hp]
  · rw [AList.lookup_insert_ne hn, AList.lookup_insert_ne hn]
    exact h.publishers n

/-- The blocks that a publisher registration loses. -/
def lostByPublisher (r : Registrar.State) (frames : List Frame) : ℕ :=
  match Registrar.newPublisher frames with
  | .ok p => if p.acceptAddr ∈ r.publishers then 1 else 0
  | .error _ => 0

theorem registerPublisher_follows {s : State} {r : Registrar.State} (hs : Represents s r) {frames : List Frame}
    {registration : List Str} (hreg : Received frames registration) :
    Follows (blocks registration + s.owned) (registerPublisher s registration)
      (outcome (Registrar.registerPublisher r frames)) fun plain out R =>
        Represents out.1 plain.1 ∧ out.2 = plain.2 ∧
          ∃ leaked, R = blocks registration + out.1.owned + leaked ∧ leaked.card = lostByPublisher r frames := by
  have hmem : ∀ {a : Str}, a ∈ registration → a.block ∈ blocks registration + s.owned :=
    fun ha => Multiset.mem_add.mpr (Or.inl (mem_blocks ha))
  rw [outcome_registerPublisher]
  refine .next (part_follows hreg 1) fun ip ip' R h₁ hip => ?_
  obtain ⟨rfl, hip, rfl⟩ := hip
  refine .next (part_follows hreg 2) fun acceptPort accept' R h₂ haccept => ?_
  obtain ⟨rfl, haccept, rfl⟩ := haccept
  refine .next (part_follows hreg 3) fun publishPort publish' R h₃ hpublish => ?_
  obtain ⟨rfl, hpublish, rfl⟩ := hpublish
  refine .pass (newPublisher_spec (hmem hip) (hmem haccept) (hmem hpublish)) fun p R hp => ?_
  obtain ⟨rfl, hp⟩ := hp
  refine .skip (p.owned + (blocks registration + s.owned)) (sendString_spec _) (by simp) fun reply R hreply => ?_
  obtain ⟨rfl, rfl⟩ := hreply
  refine .skip (blocks registration + s.owned) (notifyDispatchers_spec p) (by simp) fun pubAddr R hpub => ?_
  obtain ⟨rfl, htext, hwire⟩ := hpub
  refine .pass (.use (b := pubAddr.1.block) (by simp)) fun _ R hR => ?_
  refine .skip (blocks registration) (insertPublisher_spec s.publishers pubAddr.1 p)
    (by rw [hR, State.owned]; abel) fun publishers R hins => ?_
  obtain ⟨⟨leaked, rfl, hcard⟩, k, rfl⟩ := hins
  rw [htext, hp] at hcard
  refine .pure ⟨?_, ?_, leaked, ?_, ?_⟩
  · rw [htext, hp]
    exact hs.register hp k
  · rw [hwire, hp]
    rfl
  · show _ = blocks registration + tableOwned Entry.owned _ + leaked
    abel
  · simp only [hcard, lostByPublisher, Registrar.newPublisher, h₁, h₂, h₃, hs.mem]

/-! ### File registrations -/

/-- A picked publisher goes in the copies, whose names are those of the table without memory. -/
theorem insertCopies_spec (t : Table Copies) (publisher value : Str) :
    Spec ({publisher.block} + {value.block} + tableOwned Copies.owned t) (insertCopies t publisher value) fun t' R =>
      R = tableOwned Copies.owned t' ∧ t'.keys = publisher.text :: t.keys.erase publisher.text := by
  unfold insertCopies
  cases hold : t.lookup publisher.text with
  | none =>
    have hinsert := tableOwned_insert Copies.owned t publisher.text (publisher.block, value.block)
    rw [hold, Option.elim_none, add_zero, add_comm] at hinsert
    exact .pure ⟨hinsert.symm, AList.keys_insert t⟩
  | some old =>
    have hinsert := tableOwned_insert Copies.owned t publisher.text (old.1, value.block)
    obtain ⟨rest, hrest⟩ := Multiset.le_iff_exists_add.mp (own_le_tableOwned Copies.owned hold)
    rw [hold, Option.elim_some, hrest] at hinsert
    have hnew : tableOwned Copies.owned (t.insert publisher.text (old.1, value.block)) =
        rest + {old.1} + {value.block} := by
      rw [← add_right_cancel_iff (a := old.owned), hinsert]
      simp only [Copies.owned]
      abel
    refine .step ({value.block} + tableOwned Copies.owned t) (.free publisher.block) (by abel) fun _ R hR => ?_
    refine .step (rest + {old.1} + {value.block}) (.free old.2)
      (by rw [hR, hrest, Copies.owned]; abel) fun _ R hR => ?_
    exact .pure ⟨by rw [hR, hnew, zero_add], AList.keys_insert t⟩

theorem pickInstance_follows (L : Lookup) {fileName : Str} (hfile : fileName.block ∈ P) (ring : Ring)
    {t : Table CString} {t' : Table Copies} (ht : t'.keys = t.keys) (i : ℕ) :
    Follows (tableOwned Copies.owned t' + P) (pickInstance L fileName ring t' i)
      (Registrar.pickInstance L fileName.text ring t i) fun t t' R =>
        t'.keys = t.keys ∧ R = tableOwned Copies.owned t' + P := by
  refine .skip (tableOwned Copies.owned t' + P) .malloc (zero_add _).symm fun instanceNum R h₁ => ?_
  refine .pass (.use (b := fileName.block) (by simp [hfile])) fun _ R' h₂ => ?_
  refine .skip ({instanceNum} + tableOwned Copies.owned t' + P) .malloc
    (by rw [h₂, h₁]; abel) fun publishable R h₃ => ?_
  unfold Registrar.pickInstance
  cases L.findNode ring (Registrar.registrarKey fileName.text i) with
  | none => exact .halt
  | some node =>
    refine .skip ({publishable} + {instanceNum} + tableOwned Copies.owned t' + P) (newStr_spec node)
      (by rw [h₃]; abel) fun publisher R h₄ => ?_
    refine .pass (copy_spec (s := publisher) (by rw [h₄.1]; simp)) fun value R h₅ => ?_
    refine .skip ({publishable} + {instanceNum} + P) (insertCopies_spec t' publisher value)
      (by rw [h₅.1, h₄.1]; abel) fun table R h₆ => ?_
    refine .skip ({instanceNum} + tableOwned Copies.owned table + P) (.free publishable)
      (by rw [h₆.1]; abel) fun _ R h₇ => ?_
    refine .skip (tableOwned Copies.owned table + P) (.free instanceNum) (by rw [h₇]; abel) fun _ R h₈ => ?_
    refine .pure ⟨?_, by rw [h₈, zero_add]⟩
    rw [h₆.2, ht, h₄.2, AList.keys_insert]

/-- The table of a path, of which the first `instance_num` stays beside. -/
theorem getPublishersTable_follows (L : Lookup) {fileName : Str} (hfile : fileName.block ∈ P) (ring : Ring) :
    Follows P (getPublishersTable L fileName ring) (Registrar.getPublishersTable L fileName.text ring) fun t out R =>
      out.2.keys = t.keys ∧
        ∃ instanceNum : ℕ, R = {instanceNum} + ({out.1} + tableOwned Copies.owned out.2 + P) := by
  refine .skip P .malloc (zero_add P).symm fun instanceNum R h₁ => ?_
  refine .skip ({instanceNum} + P) .malloc (by rw [h₁, zero_add]) fun publishersTable R h₂ => ?_
  have hloop : Follows (tableOwned Copies.owned ∅ + P)
      (Registrar.instances.foldlM (pickInstance L fileName ring) ∅)
      (Registrar.instances.foldlM (Registrar.pickInstance L fileName.text ring) ∅) fun t t' R =>
        t'.keys = t.keys ∧ R = tableOwned Copies.owned t' + P := by
    refine .loop (fun (t : Table CString) (t' : Table Copies) R => t'.keys = t.keys ∧ R = tableOwned Copies.owned t' + P) Registrar.instances ?_ ⟨rfl, rfl⟩
    intro i t t' R _ hI
    rw [hI.2]
    exact pickInstance_follows L hfile ring hI.1 i
  have hplain : Registrar.getPublishersTable L fileName.text ring =
      Registrar.instances.foldlM (Registrar.pickInstance L fileName.text ring) ∅ >>= pure := (bind_pure _).symm
  rw [hplain]
  refine .step ({publishersTable} + {instanceNum}) hloop ?_ fun t t' R _ hI => ?_
  · rw [h₂, show tableOwned Copies.owned ∅ = 0 from rfl]
    abel
  · refine .pure ⟨hI.1, instanceNum, ?_⟩
    rw [hI.2]
    abel

theorem destroyTable_spec (table : ℕ × Table Copies) :
    Spec ({table.1} + tableOwned Copies.owned table.2) (destroyTable table) fun _ R => R = 0 := by
  refine .step {table.1} (.each (fun e => Copies.owned e.2) table.2.entries fun e _ => ?_)
    (by rw [add_comm]; rfl) fun _ R hR => ?_
  · refine .step {e.2.2} (.free e.2.1) rfl fun _ R hR => ?_
    rw [hR, zero_add]
    exact .free e.2.2
  · rw [hR, zero_add]
    exact .free table.1

theorem publishAddr_follows {publishers : Table Entry} {r : Registrar.State} {name : CString} {key : ℕ}
    (hname : (publishers.lookup name).map (fun e => e.value.publisher) = r.publishers.lookup name) (hkey : key ∈ P)
    (hsub : ∀ b ∈ tableOwned Entry.owned publishers, b ∈ P) :
    Follows P (publishAddr publishers name key) (Registrar.publishAddrOf r.publishers name) fun a s R =>
      R = {s.block} + P ∧ s.text = a := by
  refine .pass (.use hkey) fun _ R hR => ?_
  rw [hR]
  unfold Registrar.publishAddrOf
  cases he : publishers.lookup name with
  | none =>
    rw [he, Option.map_none] at hname
    rw [← hname]
    exact .halt
  | some e =>
    have hmem : ∀ b ∈ e.value.owned, b ∈ P := by
      intro b hb
      refine hsub b (Multiset.mem_of_le (own_le_tableOwned Entry.owned he) ?_)
      exact Multiset.mem_add.mpr (Or.inr hb)
    rw [he, Option.map_some] at hname
    rw [← hname]
    refine .pass (.use (hmem e.value.block (by simp [PublisherStruct.owned]))) fun _ R hR => ?_
    rw [hR]
    exact address_spec (hmem _ (by simp [PublisherStruct.owned])) (hmem _ (by simp [PublisherStruct.owned]))

/-- The loop over the keys makes the addresses that it makes without memory. -/
theorem publishAddrs_follows {publishers : Table Entry} {r : Registrar.State}
    (hnames : ∀ n, (publishers.lookup n).map (fun e => e.value.publisher) = r.publishers.lookup n) {t : Table Copies}
    {plain : Table CString} (hkeys : t.keys = plain.keys) (hsub : ∀ b ∈ tableOwned Copies.owned t, b ∈ P)
    (hsub' : ∀ b ∈ tableOwned Entry.owned publishers, b ∈ P) :
    Follows P (t.entries.mapM fun e => publishAddr publishers e.1 e.2.1)
      (Registrar.publishersList r.publishers plain) fun texts addresses R =>
        R = blocks addresses + P ∧ addresses.map Str.text = texts := by
  have hall := Follows.collect (P := P) (f := fun e => publishAddr publishers e.1 e.2.1)
    (g := Registrar.publishAddrOf r.publishers) (fun s : Str => {s.block}) (fun a s => s.text = a) (l := t.entries)
    (k := plain.keys) ?_
  · refine hall.mono fun texts addresses R h => ⟨h.1, ?_⟩
    rw [eq_comm, ← List.forall₂_eq_eq_eq, List.forall₂_map_right_iff]
    exact h.2.imp fun _ _ htext => htext.symm
  · rw [← hkeys]
    refine List.forall₂_map_right_iff.mpr (List.forall₂_same.mpr fun e he => ?_)
    have hkey : e.2.1 ∈ tableOwned Copies.owned t :=
      Multiset.mem_of_le (own_le_of_mem Copies.owned he) (by simp [Copies.owned])
    exact publishAddr_follows (hnames e.1) (hsub _ hkey) hsub'

/-- A list of keys has a node for each entry. -/
theorem getKeys_spec (t : Table Copies) :
    Spec P (t.entries.mapM fun _ => (malloc : Mem Registrar.Fault ℕ)) fun nodes R =>
      R = framesOwned nodes + P ∧ (framesOwned nodes).card = t.keys.length := by
  refine .last P (Spec.collect (P := 0) (fun b => {b}) (fun _ _ => True) t.entries fun _ _ => ?_)
    (zero_add P).symm fun nodes R hR => ?_
  · refine .last 0 .malloc rfl fun b R hR => ?_
    exact ⟨by rw [hR], trivial⟩
  · refine ⟨by rw [hR.1, add_zero]; rfl, ?_⟩
    rw [card_framesOwned, ← hR.2.length_eq]
    exact (List.length_map _).symm

theorem outcome_registerFile (L : Lookup) (addWatch : CString → Int) (r : Registrar.State) (frames : List Frame) :
    outcome (Registrar.registerFile L addWatch r frames) = do
      let path ← Registrar.part frames 1
      let table ← Registrar.getPublishersTable L path r.publisherRing
      let addresses ← Registrar.publishersList r.publishers table
      let id := Registrar.registerNotification addWatch path
      return (r, [.watch path id, .reply (Rnotify.send (registerOk :: id :: addresses))]) := by
  cases hpath : Registrar.part frames 1 with
  | error fault =>
    simp only [Registrar.registerFile, hpath]
    rfl
  | ok path =>
    cases htable : Registrar.getPublishersTable L path r.publisherRing with
    | error fault =>
      simp only [Registrar.registerFile, hpath, htable, bind, Except.bind]
      rfl
    | ok table =>
      cases haddresses : Registrar.publishersList r.publishers table <;>
        simp only [Registrar.registerFile, hpath, htable, haddresses, bind, Except.bind] <;> rfl

/-- The blocks that a file registration loses: the first `instance_num`, and a node for each address. -/
def lostByFile (L : Lookup) (r : Registrar.State) (frames : List Frame) : ℕ :=
  match Registrar.part frames 1 with
  | .ok path => 1 + (Registrar.selected L path r.publisherRing).card
  | .error _ => 0

/-- How many addresses there are. -/
theorem length_keys (L : Lookup) {path : CString} {ring : Ring} {table : Table CString}
    (h : Registrar.getPublishersTable L path ring = .ok table) :
    table.keys.length = (Registrar.selected L path ring).card := by
  have hring : ring.Nonempty := by
    by_contra hempty
    rw [Finset.not_nonempty_iff_eq_empty.mp hempty, Registrar.getPublishersTable_empty] at h
    cases h
  obtain ⟨t, ht, hnames⟩ := Registrar.getPublishersTable_ok L path hring
  rw [h, Except.ok.injEq] at ht
  rw [← hnames, ← ht, Table.names, List.toFinset_card_of_nodup table.keys_nodup]

theorem registerFile_follows (L : Lookup) (addWatch : CString → Int) {s : State} {r : Registrar.State}
    (hs : Represents s r) {frames : List Frame} {registration : List Str} (hreg : Received frames registration) :
    Follows (blocks registration + s.owned) (registerFile L addWatch s registration)
      (outcome (Registrar.registerFile L addWatch r frames)) fun plain out R =>
        Represents out.1 plain.1 ∧ out.2 = plain.2 ∧
          ∃ leaked, R = blocks registration + out.1.owned + leaked ∧ leaked.card = lostByFile L r frames := by
  rw [outcome_registerFile]
  refine .next (part_follows hreg 1) fun text path R hpath h₁ => ?_
  obtain ⟨rfl, hpathmem, rfl⟩ := h₁
  have hblock : path.block ∈ blocks registration + s.owned := Multiset.mem_add.mpr (Or.inl (mem_blocks hpathmem))
  -- the request and the table, as `P₀`, and the copies, as `T`, stay put aside between the steps that use them
  generalize hP : blocks registration + s.owned = P₀ at hblock ⊢
  have hsub : ∀ b ∈ tableOwned Entry.owned s.publishers, b ∈ P₀ := by
    intro b hb
    rw [← hP]
    exact Multiset.mem_add.mpr (Or.inr hb)
  refine .pass (.use hblock) fun _ R h₂ => ?_
  refine .skip P₀ (sendString_spec _) (by rw [h₂]; abel) fun _ R h₃ => ?_
  refine .skip P₀ recvBuff_spec (by rw [h₃.1]) fun id R h₄ => ?_
  subst h₄
  rw [hs.ring]
  refine .next (getPublishersTable_follows L (Multiset.mem_add.mpr (Or.inr hblock)) r.publisherRing)
    fun plainTable table R hplain h₅ => ?_
  obtain ⟨hkeys, instanceNum, rfl⟩ := h₅
  generalize hT : {table.1} + tableOwned Copies.owned table.2 = T
  refine .skip ({instanceNum} + T + {id} + P₀) .malloc (by rw [← hT]; abel) fun publishersList R h₆ => ?_
  refine .skip ({publishersList} + {instanceNum} + T + {id} + P₀) (newStr_spec _) (by rw [h₆]; abel) fun ok R h₇ => ?_
  refine .pass (copy_spec (s := ⟨id, _⟩) (by rw [h₇.1]; simp)) fun registrationId R h₈ => ?_
  refine .pass (getKeys_spec table.2) fun nodes R h₉ => ?_
  refine .next (publishAddrs_follows hs.publishers hkeys ?_ ?_) fun plainAddresses addresses R _ h₁₀ => ?_
  · intro b hb
    rw [h₉.1, h₈.1, h₇.1, ← hT]
    simp [hb]
  · intro b hb
    rw [h₉.1, h₈.1, h₇.1]
    simp [hsub b hb]
  have htexts : (ok :: registrationId :: addresses).map Str.text =
      registerOk :: Registrar.registerNotification addWatch path.text :: plainAddresses := by
    rw [List.map_cons, List.map_cons, h₁₀.2, h₇.2, h₈.2]
  generalize hlist : ok :: registrationId :: addresses = list at htexts ⊢
  refine .skip (framesOwned nodes + {publishersList} + {instanceNum} + T + {id} + P₀) (send_spec list)
    (by rw [h₁₀.1, h₉.1, h₈.1, h₇.1, ← hlist, blocks_cons, blocks_cons, blocks]; abel) fun wire R h₁₁ => ?_
  refine .skip (framesOwned nodes + {publishersList} + {instanceNum} + T + {id} + P₀)
    (.each (fun s : Str => {s.block}) list fun s _ => .free s.block) (by rw [h₁₁.1]; rfl) fun _ R h₁₂ => ?_
  refine .skip (framesOwned nodes + {publishersList} + {instanceNum} + T + P₀) (.free id)
    (by rw [h₁₂]; abel) fun _ R h₁₃ => ?_
  refine .skip (framesOwned nodes + {publishersList} + {instanceNum} + T + P₀) (.freePtr none)
    (by rw [h₁₃]; rfl) fun _ R h₁₄ => ?_
  refine .skip (framesOwned nodes + {publishersList} + {instanceNum} + P₀) (destroyTable_spec table)
    (by rw [h₁₄, ← hT]; abel) fun _ R h₁₅ => ?_
  refine .skip (framesOwned nodes + {instanceNum} + P₀) (.free publishersList)
    (by rw [h₁₅]; abel) fun _ R h₁₆ => ?_
  refine .pure ⟨hs, ?_, framesOwned nodes + {instanceNum}, ?_, ?_⟩
  · rw [h₁₁.2, htexts]
  · rw [h₁₆, ← hP]
    abel
  · rw [Multiset.card_add, h₉.2, hkeys, length_keys L hplain, Multiset.card_singleton, lostByFile, hpath, add_comm]

/-! ### The loop -/

variable (L : Lookup)

/-- The blocks that a turn loses. -/
def lost (r : Registrar.State) (request : Registrar.Request) : ℕ :=
  if request.IsPublisher then lostByPublisher r request.frames
  else if request.IsFile then lostByFile L r request.frames
  else 0

theorem registerDispatcher_follows {s : State} {r : Registrar.State} (hs : Represents s r) {frames : List Frame}
    {registration : List Str} (hreg : Received frames registration) :
    Follows (blocks registration + s.owned) (registerDispatcher s registration)
      (outcome (Registrar.registerDispatcher r frames)) fun plain out R =>
        Represents out.1 plain.1 ∧ out.2 = plain.2 ∧ R = blocks registration + out.1.owned := by
  have houtcome : outcome (Registrar.registerDispatcher r frames) =
      Registrar.part frames 1 >>= fun _ => .ok (r, []) := by
    unfold Registrar.registerDispatcher
    cases Registrar.part frames 1 <;> rfl
  rw [houtcome]
  refine .next (part_follows hreg 1) fun text ip R _ h₁ => ?_
  obtain ⟨rfl, hip, rfl⟩ := h₁
  refine .pass (.use (b := ip.block) (by simp [mem_blocks hip])) fun _ R h₂ => ?_
  exact .pure ⟨hs, rfl, h₂⟩

/-- The loop body does in memory what it does without, and loses what `lost` says. -/
theorem handle_follows {s : State} {r : Registrar.State} (hs : Represents s r) {request : Registrar.Request}
    {registration : List Str} (hreg : Received request.frames registration) :
    Follows (blocks registration + s.owned) (handle L s request.addWatch registration)
      (outcome (Registrar.handle L r request)) fun plain out R =>
        Represents out.1 plain.1 ∧ out.2 = plain.2 ∧
          ∃ leaked, R = blocks registration + out.1.owned + leaked ∧ leaked.card = lost L r request := by
  have hcode := part_follows (P := blocks registration + s.owned) hreg 0
  rw [request.part_zero] at hcode
  have hhandle : outcome (Registrar.handle L r request) =
      (Except.ok request.code >>= fun _ => outcome (Registrar.handle L r request)) := rfl
  rw [hhandle]
  refine .next hcode fun text code R htext h₁ => ?_
  obtain ⟨rfl, hmem, h₁⟩ := h₁
  obtain rfl := Except.ok.inj htext
  refine .pass (.use (b := code.block) (by simp [mem_blocks hmem])) fun _ R h₂ => ?_
  rw [h₂, h₁, Registrar.handle_eq]
  show Follows _ (if request.IsPublisher then registerPublisher s registration
    else if request.IsDispatcher then registerDispatcher s registration
    else if request.IsFile then registerFile L request.addWatch s registration
    else return (s, [])) _ _
  by_cases hp : request.IsPublisher
  · rw [if_pos hp, if_pos hp, lost, if_pos hp]
    exact registerPublisher_follows hs hreg
  rw [if_neg hp, if_neg hp, lost, if_neg hp]
  by_cases hd : request.IsDispatcher
  · rw [if_pos hd, if_pos hd, if_neg hd.not_file]
    refine .mono (registerDispatcher_follows hs hreg) fun plain out R h => ?_
    exact ⟨h.1, h.2.1, 0, by rw [h.2.2, add_zero], rfl⟩
  rw [if_neg hd, if_neg hd]
  by_cases hf : request.IsFile
  · rw [if_pos hf, if_pos hf, if_pos hf]
    exact registerFile_follows L request.addWatch hs hreg
  · rw [if_neg hf, if_neg hf, if_neg hf]
    exact .pure ⟨hs, rfl, 0, (add_zero _).symm, rfl⟩

/-- The services have the same ring, table and socket. -/
structure Serves (v : Service) (w : Registrar.Service) : Prop where
  registrar : Represents v.registrar w.registrar
  owed : v.owed = w.owed

/-- What a run leaves and what it did. -/
def runOutcome (run : Registrar.Run) : Except Registrar.Fault (Registrar.Service × List Registrar.Action) :=
  run.result.map fun w => (w, run.actions)

theorem runOutcome_serve {w : Registrar.Service} (hw : w.owed = false) (request : Registrar.Request) :
    runOutcome (Registrar.serve L w request) = do
      let out ← outcome (Registrar.handle L w.registrar request)
      return (⟨out.1, (.receive :: out.2).foldl Registrar.Action.owes false⟩, .receive :: out.2) := by
  rw [Registrar.serve, hw, outcome]
  cases h : (Registrar.handle L w.registrar request).next <;> simp only [runOutcome, h] <;> rfl

theorem runOutcome_cons (w : Registrar.Service) (request : Registrar.Request) (rest : List Registrar.Request) :
    runOutcome (Registrar.acceptRegistrations L w (request :: rest)) = do
      let first ← runOutcome (Registrar.serve L w request)
      let others ← runOutcome (Registrar.acceptRegistrations L first.1 rest)
      return (others.1, first.2 ++ others.2) := by
  rw [Registrar.acceptRegistrations, runOutcome, runOutcome]
  cases (Registrar.serve L w request).result with
  | error fault => rfl
  | ok x =>
    show Except.map _ _ = (runOutcome (Registrar.acceptRegistrations L x rest) >>= _)
    rw [runOutcome]
    cases (Registrar.acceptRegistrations L x rest).result <;> rfl

/-- A turn of the loop does in memory what it does without, and of what it allocated the table
keeps its own and the rest is lost. -/
theorem serve_follows {v : Service} {w : Registrar.Service} (h : Serves v w) (request : Registrar.Request) :
    Follows v.registrar.owned (serve L v request) (runOutcome (Registrar.serve L w request)) fun plain out R =>
      Serves out.1 plain.1 ∧ out.2 = plain.2 ∧
        ∃ leaked, R = out.1.registrar.owned + leaked ∧ leaked.card = lost L w.registrar request := by
  unfold serve
  rw [h.owed]
  cases hw : w.owed with
  | true =>
    rw [Registrar.serve_owed L hw]
    exact .halt
  | false =>
    rw [runOutcome_serve L hw]
    refine .skip v.registrar.owned (multiPartReceive_spec request.frames) (zero_add _).symm fun received R h₁ => ?_
    obtain ⟨rfl, hreg⟩ := h₁
    refine .step {received.1} (handle_follows L h.registrar hreg) (by abel) fun plain out R _ h₂ => ?_
    obtain ⟨hs, hactions, leaked, rfl, hcard⟩ := h₂
    refine .skip (out.1.owned + leaked) (freeParts_spec received.1 received.2) (by abel) fun _ R h₃ => ?_
    refine .pure ⟨⟨hs, ?_⟩, ?_, leaked, by rw [h₃, zero_add], hcard⟩
    · rw [hactions]
    · rw [hactions]

/-- The blocks that a run loses, turn by turn. -/
def lostOver : Registrar.Service → List Registrar.Request → ℕ
  | _, [] => 0
  | w, request :: rest =>
    lost L w.registrar request +
      match (Registrar.serve L w request).result with
      | .ok x => lostOver x rest
      | .error _ => 0

theorem acceptRegistrations_follows (requests : List Registrar.Request) {v : Service} {w : Registrar.Service}
    (h : Serves v w) :
    Follows v.registrar.owned (acceptRegistrations L v requests)
      (runOutcome (Registrar.acceptRegistrations L w requests)) fun plain out R =>
        Serves out.1 plain.1 ∧ out.2 = plain.2 ∧
          ∃ leaked, R = out.1.registrar.owned + leaked ∧ leaked.card = lostOver L w requests := by
  induction requests generalizing v w with
  | nil => exact .pure ⟨h, rfl, 0, (add_zero _).symm, rfl⟩
  | cons request rest ih =>
    rw [runOutcome_cons]
    refine .next (serve_follows L h request) fun first out R hfirst h₁ => ?_
    obtain ⟨hx, hactions, leaked, rfl, hcard⟩ := h₁
    refine .step leaked (ih hx) rfl fun others out' R _ h₂ => ?_
    obtain ⟨hy, hmore, leaked', rfl, hcard'⟩ := h₂
    have hresult : (Registrar.serve L w request).result = .ok first.1 := by
      rw [runOutcome] at hfirst
      cases hr : (Registrar.serve L w request).result with
      | error fault =>
        rw [hr] at hfirst
        cases hfirst
      | ok x =>
        rw [hr] at hfirst
        obtain rfl := Except.ok.inj hfirst
        rfl
    refine .pure ⟨hy, by rw [hactions, hmore], leaked' + leaked, add_assoc .., ?_⟩
    rw [Multiset.card_add, hcard, hcard', lostOver, hresult, add_comm]

/-- Five blocks for each publisher. -/
theorem Represents.card_owned {s : State} {r : Registrar.State} (h : Represents s r) :
    s.owned.card = 5 * (Table.names r.publishers).card := by
  have hnames : Table.names s.publishers = Table.names r.publishers := by
    ext n
    rw [Table.names, Table.names, List.mem_toFinset, List.mem_toFinset, ← AList.mem_keys, ← AList.mem_keys, h.mem]
  have hsum : ∀ l : List (Sigma fun _ : CString => Entry),
      (l.map fun e => Entry.owned e.2).sum.card = 5 * l.length := by
    intro l
    induction l with
    | nil => rfl
    | cons e rest ih =>
      rw [List.map_cons, List.sum_cons, Multiset.card_add, ih, List.length_cons]
      simp only [Entry.owned, PublisherStruct.owned, Multiset.card_add, Multiset.card_singleton]
      omega
  rw [State.owned, tableOwned, hsum, ← hnames, Table.names, List.toFinset_card_of_nodup s.publishers.keys_nodup]
  congr 1
  exact (List.length_map _).symm

/-- **The registrar's memory.** Whatever requests come, the registrar frees no block twice and
uses none that is freed: with its memory it does what it does without, stopped by the same
faults, and the blocks allocated in the end are five for each publisher in the table and
those that its turns have lost. -/
theorem registrar_memory (requests : List Registrar.Request) :
    (∀ fault, (Registrar.acceptRegistrations L Registrar.start requests).result = .error fault →
      acceptRegistrations L start requests Heap.empty = .error (.halt fault)) ∧
    ∀ w, (Registrar.acceptRegistrations L Registrar.start requests).result = .ok w →
      ∃ v t, acceptRegistrations L start requests Heap.empty =
          .ok ((v, (Registrar.acceptRegistrations L Registrar.start requests).actions), t) ∧ Serves v w ∧
        t.live.card = 5 * (Table.names w.registrar.publishers).card + lostOver L Registrar.start requests := by
  have hrun := acceptRegistrations_follows L requests (v := start) (w := Registrar.start)
    ⟨⟨rfl, fun n => rfl⟩, rfl⟩
  refine ⟨fun fault hfault => ?_, fun w hw => ?_⟩
  · rw [runOutcome, hfault] at hrun
    exact hrun Heap.empty 0 rfl
  · rw [runOutcome, hw] at hrun
    obtain ⟨out, t, R, hmem, hlive, hserves, hactions, leaked, rfl, hcard⟩ := hrun Heap.empty 0 rfl
    have hactions : out.2 = (Registrar.acceptRegistrations L Registrar.start requests).actions := hactions
    refine ⟨out.1, t, ?_, hserves, ?_⟩
    · rw [hmem, ← hactions]
    · rw [Finset.card_def, hlive, zero_add, Multiset.card_add, hserves.registrar.card_owned, hcard]

end Rnotify.Ownership
