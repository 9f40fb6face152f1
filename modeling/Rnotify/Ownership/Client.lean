import Rnotify.Client.Rounds
import Rnotify.Ownership.Registrar

/-! What a client does to memory.

`rsubscribe` frees the code and the id of a reply, and its array. The addresses stay:
the table has no functions to destroy its keys with, so one that is new is a key from
then on, and one that is in the table already is lost. `start_listener` frees what it
receives, and keeps only the list of keys from which it laid out its poll items. So what
a client has allocated is settled when its listener starts, and no event changes it
(`client_memory`). -/
namespace Rnotify.Ownership
open Library Mem

/-- The client stops at a part of a message that is not there. -/
inductive Missing where
  | part
deriving DecidableEq

/-- A client, the block that `rnotify_init` made, and those of its table's keys. -/
structure Rnot where
  block : ℕ
  client : Client.Rnot
  keys : Table ℕ

/-- Each key of the table has its block. -/
def Rnot.Keyed (rn : Rnot) : Prop := Table.names rn.keys = Table.names rn.client.publisherSocks

def Rnot.owned (rn : Rnot) : Multiset ℕ := {rn.block} + keysOwned rn.keys

def rnotifyInit : Mem Missing Rnot := do
  let block ← malloc
  return ⟨block, Client.rnotifyInit, ∅⟩

/-! ### Subscriptions -/

/-- One turn of the loop in `rsubscribe`. -/
def subscribe (id : Str) (rn : Rnot) (publisher : Str) : Mem Missing Rnot := do
  use publisher.block
  use id.block
  let client := Client.subscribe id.text rn.client publisher.text
  match rn.client.publisherSocks.lookup publisher.text with
  | some _ => return ⟨rn.block, client, rn.keys⟩
  | none => return ⟨rn.block, client, rn.keys.insert publisher.text publisher.block⟩

def rsubscribe (rn : Rnot) (reply : List Frame) : Mem Missing Rnot := do
  let response ← register reply
  match response.2 with
  | code :: id :: publishers => do
    let rn ← publishers.foldlM (subscribe id) rn
    free code.block
    free id.block
    free response.1
    return rn
  | _ => halt .part

/-! ### Listening -/

/-- One message: it is received, walked over and freed. -/
def receiveEvent (wire : Wire) : Mem Missing Unit :=
  match Rnotify.multiPartReceive wire with
  | none => halt .part
  | some frames => do
    let buff ← multiPartReceive frames
    match buff.2 with
    | topic :: payload :: _ => do
      use payload.block
      free topic.block
      free payload.block
      free buff.1
    | _ => halt .part

/-- `start_listener`, up to the messages that it has received. -/
def startListener (rn : Rnot) (messages : List Wire) : Mem Missing Unit := do
  -- `g_hash_table_get_keys`
  let _ ← rn.keys.entries.mapM fun e => do
    use e.2
    malloc
  forM messages receiveEvent

/-- A client that subscribes and then listens. -/
def client (replies : List Client.Response) (messages : List Wire) : Mem Missing Rnot := do
  let rn ← rnotifyInit
  let rn ← replies.foldlM (fun rn r => rsubscribe rn r.frames) rn
  startListener rn messages
  return rn

/-! ### What stays -/

/-- A new address becomes a key. -/
theorem keyed_insert {rn : Rnot} (h : rn.Keyed) (id : CString) (publisher : Str)
    (hnew : rn.client.publisherSocks.lookup publisher.text = none) :
    keysOwned (rn.keys.insert publisher.text publisher.block) = {publisher.block} + keysOwned rn.keys ∧
    Table.names (rn.keys.insert publisher.text publisher.block) =
      Table.names (Client.subscribe id rn.client publisher.text).publisherSocks := by
  have hlookup : rn.keys.lookup publisher.text = none := by
    rw [AList.lookup_eq_none] at hnew ⊢
    intro hmem
    have hnames : publisher.text ∈ Table.names rn.keys := List.mem_toFinset.mpr hmem
    rw [h] at hnames
    exact hnew (List.mem_toFinset.mp hnames)
  have hinsert := tableOwned_insert (fun b => {b}) rn.keys publisher.text publisher.block
  rw [hlookup, Option.elim_none, add_zero, add_comm] at hinsert
  exact ⟨hinsert, by rw [Table.names_insert, Client.names_subscribe, h]⟩

/-- An address that the client is told of stays, as a key or lost. -/
theorem subscribe_spec {rn : Rnot} (h : rn.Keyed) {id publisher : Str} (P : Multiset ℕ) (hid : id.block ∈ P) :
    Spec ({publisher.block} + rn.owned + P) (subscribe id rn publisher) fun rn' R =>
      rn'.client = Client.subscribe id.text rn.client publisher.text ∧ rn'.Keyed ∧
        ∃ lost, R = rn'.owned + lost + P ∧ rn'.owned.card + lost.card = rn.owned.card + 1 := by
  refine .next (.use (by simp)) fun _ R hR => ?_
  rw [hR]
  refine .next (.use (by simp [hid])) fun _ R hR => ?_
  rw [hR]
  cases hold : rn.client.publisherSocks.lookup publisher.text with
  | some sock =>
    refine .pure ⟨rfl, ?_, {publisher.block}, ?_, ?_⟩
    · show Table.names rn.keys = _
      have hmem : publisher.text ∈ Table.names rn.client.publisherSocks := Table.mem_names.mpr ⟨sock, hold⟩
      rw [Client.names_subscribe, Finset.insert_eq_of_mem hmem]
      exact h
    · show _ = rn.owned + _ + _
      abel
    · rw [Multiset.card_singleton]
      rfl
  | none =>
    obtain ⟨howned, hnames⟩ := keyed_insert h id.text publisher hold
    refine .pure ⟨rfl, hnames, 0, ?_, ?_⟩
    · simp only [Rnot.owned, howned]
      abel
    · simp only [Rnot.owned, howned, Multiset.card_add, Multiset.card_singleton, Multiset.card_zero]
      omega

theorem subscribeAll_spec {rn : Rnot} (h : rn.Keyed) (id : Str) (publishers : List Str) (P : Multiset ℕ)
    (hid : id.block ∈ P) :
    Spec (blocks publishers + rn.owned + P) (publishers.foldlM (subscribe id) rn) fun rn' R =>
      rn'.client = (publishers.map Str.text).foldl (Client.subscribe id.text) rn.client ∧ rn'.Keyed ∧
        ∃ lost, R = rn'.owned + lost + P ∧ rn'.owned.card + lost.card = rn.owned.card + publishers.length := by
  induction publishers generalizing rn P with
  | nil =>
    refine .pure ⟨rfl, h, 0, ?_, rfl⟩
    show 0 + rn.owned + P = _
    abel
  | cons publisher rest ih =>
    rw [List.foldlM_cons, blocks_cons]
    refine .step (blocks rest) (subscribe_spec h P hid) (by abel) fun rn₁ R h₁ => ?_
    obtain ⟨hclient, hkeyed, lost, rfl, hcard⟩ := h₁
    refine .last 0 (ih hkeyed (lost + P) (Multiset.mem_add.mpr (Or.inr hid))) (by abel) fun rn₂ R h₂ => ?_
    obtain ⟨hclient₂, hkeyed₂, lost₂, rfl, hcard₂⟩ := h₂
    refine ⟨?_, hkeyed₂, lost₂ + lost, by abel, ?_⟩
    · rw [hclient₂, hclient]
      rfl
    · rw [Multiset.card_add, List.length_cons]
      omega

/-- **A subscription keeps its addresses**, and nothing else of the reply. -/
theorem rsubscribe_spec {rn : Rnot} (h : rn.Keyed) (r : Client.Response) :
    Spec rn.owned (rsubscribe rn r.frames) fun rn' R =>
      rn'.client = Client.subscribeAll rn.client r ∧ rn'.Keyed ∧
        ∃ lost, R = rn'.owned + lost ∧ rn'.owned.card + lost.card = rn.owned.card + r.addresses.length := by
  obtain ⟨code, id, publishers, hframes⟩ : ∃ code id publishers, r.frames = code :: id :: publishers := by
    obtain ⟨code, rest, hcode⟩ := List.exists_cons_of_length_pos (by have := r.size; omega : 0 < r.frames.length)
    obtain ⟨id, publishers, hid⟩ := List.exists_cons_of_length_pos (l := rest) (by
      have := r.size
      rw [hcode, List.length_cons] at this
      omega)
    exact ⟨code, id, publishers, by rw [hcode, hid]⟩
  have hid : r.id = cstr id := by
    rw [Client.Response.id]
    simp [hframes]
  have haddresses : r.addresses = publishers.map cstr := by rw [Client.Response.addresses, hframes]; rfl
  refine .step rn.owned (register_spec r.frames) (zero_add _).symm fun response R h₁ => ?_
  obtain ⟨rfl, hall⟩ := h₁
  rw [hframes] at hall
  obtain ⟨ret, strings⟩ := response
  obtain ⟨codeStr, rest, _, hrest, rfl⟩ := List.forall₂_cons_left_iff.mp hall
  obtain ⟨idStr, addresses, hidText, htexts, rfl⟩ := List.forall₂_cons_left_iff.mp hrest
  have htexts : publishers.map cstr = addresses.map Str.text := by
    rw [← List.forall₂_eq_eq_eq, List.forall₂_map_left_iff, List.forall₂_map_right_iff]
    exact htexts.imp fun _ _ htext => htext.symm
  rw [blocks_cons, blocks_cons]
  refine .step 0 (subscribeAll_spec h idStr addresses ({codeStr.block} + {idStr.block} + {ret}) (by simp))
    (by abel) fun rn' R h₂ => ?_
  obtain ⟨hclient, hkeyed, lost, rfl, hcard⟩ := h₂
  refine .step (rn'.owned + lost + {idStr.block} + {ret}) (.free codeStr.block) (by abel) fun _ R hR => ?_
  refine .step (rn'.owned + lost + {ret}) (.free idStr.block) (by rw [hR]; abel) fun _ R hR => ?_
  refine .step (rn'.owned + lost) (.free ret) (by rw [hR]; abel) fun _ R hR => ?_
  refine .pure ⟨?_, hkeyed, lost, by rw [hR, zero_add], ?_⟩
  · rw [hclient, Client.subscribeAll, haddresses, hid, htexts, hidText]
  · rw [hcard, haddresses, htexts, List.length_map]

/-- The addresses in some replies. -/
def addressCount (replies : List Client.Response) : ℕ := (replies.map fun r => r.addresses.length).sum

theorem rsubscribes_spec {rn : Rnot} (h : rn.Keyed) (replies : List Client.Response) (P : Multiset ℕ) :
    Spec (rn.owned + P) (replies.foldlM (fun rn r => rsubscribe rn r.frames) rn) fun rn' R =>
      rn'.client = replies.foldl Client.subscribeAll rn.client ∧ rn'.Keyed ∧
        ∃ lost, R = rn'.owned + lost + P ∧ rn'.owned.card + lost.card = rn.owned.card + addressCount replies := by
  induction replies generalizing rn P with
  | nil => exact .pure ⟨rfl, h, 0, by rw [add_zero], rfl⟩
  | cons r rest ih =>
    rw [List.foldlM_cons]
    refine .step P (rsubscribe_spec h r) rfl fun rn₁ R h₁ => ?_
    obtain ⟨hclient, hkeyed, lost, rfl, hcard⟩ := h₁
    refine .last 0 (ih hkeyed (lost + P)) (by abel) fun rn₂ R h₂ => ?_
    obtain ⟨hclient₂, hkeyed₂, lost₂, rfl, hcard₂⟩ := h₂
    refine ⟨by rw [hclient₂, hclient]; rfl, hkeyed₂, lost₂ + lost, by abel, ?_⟩
    simp only [addressCount, Multiset.card_add, List.map_cons, List.sum_cons] at hcard₂ ⊢
    omega

/-! ### Events -/

/-- Nothing of an event stays. -/
theorem receiveEvent_spec (p : Client.Published) : Spec 0 (receiveEvent p.wire) fun _ R => R = 0 := by
  obtain ⟨payload, _, hreceive, _⟩ := notify_received p.sent
  rw [receiveEvent, hreceive]
  refine .next (multiPartReceive_spec _) fun buff R h₁ => ?_
  obtain ⟨rfl, hall⟩ := h₁
  obtain ⟨array, strings⟩ := buff
  obtain ⟨topicStr, rest, _, hrest, rfl⟩ := List.forall₂_cons_left_iff.mp hall
  obtain ⟨payloadStr, none, _, hnone, rfl⟩ := List.forall₂_cons_left_iff.mp hrest
  cases hnone
  have hblocks : blocks [topicStr, payloadStr] = {topicStr.block} + {payloadStr.block} := by
    rw [blocks_cons, blocks_cons]
    exact congrArg _ (add_zero _)
  rw [hblocks]
  refine .next (.use (by simp)) fun _ R hR => ?_
  refine .step ({payloadStr.block} + {array}) (.free topicStr.block) (by rw [hR, add_assoc]) fun _ R hR => ?_
  refine .step {array} (.free payloadStr.block) (by rw [hR, zero_add]) fun _ R hR => ?_
  rw [hR, zero_add]
  exact .free array

/-- The listener keeps its list of keys, whatever it receives. -/
theorem startListener_spec (rn : Rnot) (messages : List Client.Published) :
    Spec rn.owned (startListener rn (messages.map Client.Published.wire)) fun _ R =>
      ∃ nodes, R = nodes + rn.owned ∧ nodes.card = (Table.names rn.keys).card := by
  have hkeys : Spec rn.owned (rn.keys.entries.mapM fun e => (do use e.2; malloc : Mem Missing ℕ)) fun nodes R =>
      R = framesOwned nodes + rn.owned ∧ List.Forall₂ (fun _ _ => True) rn.keys.entries nodes := by
    refine .collect (fun b => {b}) (fun _ _ => True) rn.keys.entries fun e he => ?_
    have hmem : e.2 ∈ rn.owned := Multiset.mem_add.mpr (Or.inr (mem_keysOwned he))
    refine .next (.use hmem) fun _ R hR => ?_
    refine .last rn.owned .malloc (by rw [hR, zero_add]) fun b R hb => ?_
    exact ⟨by rw [hb], trivial⟩
  refine .next hkeys fun nodes R hR => ?_
  have hloop : Spec 0 (forM (messages.map Client.Published.wire) receiveEvent) fun _ R => R = 0 := by
    have hall := Spec.each (fun _ => 0) (messages.map Client.Published.wire) fun wire hwire => by
      obtain ⟨p, _, rfl⟩ := List.mem_map.mp hwire
      exact receiveEvent_spec p
    rwa [List.map_const', List.sum_replicate, smul_zero] at hall
  refine .last (framesOwned nodes + rn.owned) hloop (by rw [hR.1, zero_add]) fun _ R hzero => ?_
  refine ⟨framesOwned nodes, by rw [hzero, zero_add], ?_⟩
  rw [card_framesOwned, ← hR.2.length_eq, Table.names, List.toFinset_card_of_nodup rn.keys.keys_nodup]
  exact (List.length_map _).symm

theorem rnotifyInit_spec :
    Spec 0 rnotifyInit fun rn R => R = rn.owned ∧ rn.client = Client.rnotifyInit ∧ rn.Keyed ∧ rn.owned.card = 1 := by
  refine .next .malloc fun block R hR => ?_
  have howned : Rnot.owned ⟨block, Client.rnotifyInit, ∅⟩ = {block} := add_zero _
  exact .pure ⟨by rw [hR, howned], rfl, rfl, by rw [howned, Multiset.card_singleton]⟩

theorem client_spec (replies : List Client.Response) (messages : List Client.Published) :
    Spec 0 (client replies (messages.map Client.Published.wire)) fun rn R =>
      rn.client = Client.table replies ∧ rn.Keyed ∧ rn.owned ≤ R ∧
        R.card = 1 + addressCount replies + (Table.names (Client.table replies).publisherSocks).card := by
  refine .next rnotifyInit_spec fun rn R h₁ => ?_
  obtain ⟨rfl, hinit, hkeyed, hone⟩ := h₁
  refine .step 0 (rsubscribes_spec hkeyed replies 0) (by rw [add_zero, add_zero]) fun rn R h₂ => ?_
  obtain ⟨hclient, hkeyed, lost, rfl, hcard⟩ := h₂
  refine .step lost (startListener_spec rn messages) (by abel) fun _ R h₃ => ?_
  obtain ⟨nodes, rfl, hnodes⟩ := h₃
  have htable : rn.client = Client.table replies := by rw [hclient, hinit, Client.table]
  refine .pure ⟨htable, hkeyed, ?_, ?_⟩
  · exact Multiset.le_iff_exists_add.mpr ⟨nodes + lost, by abel⟩
  · rw [Multiset.card_add, Multiset.card_add, hnodes, hkeyed, htable]
    omega

/-- **The client's memory.** Whatever replies a client subscribes with and whatever events then
reach its listener, it frees nothing twice and uses nothing that is freed. Its table's keys stay
allocated, and what is allocated in all does not depend on the events: the block of
`rnotify_init`, one for each address in a reply and one for each entry of the table. -/
theorem client_memory (replies : List Client.Response) (messages : List Client.Published) :
    ∃ rn t, client replies (messages.map Client.Published.wire) Heap.empty = .ok (rn, t) ∧
      rn.client = Client.table replies ∧ rn.Keyed ∧ (∀ e ∈ rn.keys.entries, e.2 ∈ t.live) ∧
      t.live.card = 1 + addressCount replies + (Table.names (Client.table replies).publisherSocks).card := by
  obtain ⟨rn, t, R, hrun, hlive, hclient, hkeyed, howned, hcard⟩ := client_spec replies messages Heap.empty 0 rfl
  rw [zero_add] at hlive
  refine ⟨rn, t, hrun, hclient, hkeyed, fun e he => ?_, by rw [Finset.card_def, hlive, hcard]⟩
  rw [← Finset.mem_val, hlive]
  exact Multiset.mem_of_le howned (Multiset.mem_add.mpr (Or.inr (mem_keysOwned he)))

end Rnotify.Ownership
