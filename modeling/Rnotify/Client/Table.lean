import Rnotify.Client.Core

/-! The table of sockets after any replies.

A reply with at least two frames is always handled, so a client after a sequence of
them is `table`. Each turn of the loop in `rsubscribe` keeps what is in the table,
puts the address there if it was missing, and adds the id to the filters of the
socket kept under it. What comes out (`Subscribes`) says what the table and each
socket in it are, in terms of the replies alone, and with it what the listener
polls (`Polled`). -/
namespace Rnotify.Client
open Library

/-- A registrar's reply as `rsubscribe` reads it: a code, an id and addresses. -/
structure Response where
  frames : List Frame
  size : 2 ≤ frames.length

namespace Response

def wire (r : Response) : Wire := multiPartSend r.frames

/-- `registration_response[1]`. -/
def id (r : Response) : CString := cstr (r.frames.get ⟨1, r.size⟩)

/-- `registration_response[2]` and what follows. -/
def addresses (r : Response) : List CString := (r.frames.drop 2).map cstr

end Response

/-- The loop of `rsubscribe` over a reply's addresses. -/
def subscribeAll (rn : Rnot) (r : Response) : Rnot := r.addresses.foldl (subscribe r.id) rn

/-- A client after some replies. -/
def table (replies : List Response) : Rnot := replies.foldl subscribeAll rnotifyInit

theorem table_concat (replies : List Response) (r : Response) :
    table (replies ++ [r]) = subscribeAll (table replies) r := List.foldl_concat ..

theorem rsubscribe_response (rn : Rnot) (r : Response) : rsubscribe rn r.wire = some (subscribeAll rn r) := by
  obtain ⟨frames, hsize⟩ := r
  have hsecond : frames[1]? = some (frames.get ⟨1, hsize⟩) := List.getElem?_eq_getElem hsize
  obtain ⟨frame, rest, rfl⟩ := List.exists_cons_of_length_pos (Nat.lt_of_lt_of_le Nat.zero_lt_two hsize)
  have hreceive : multiPartReceive (Response.wire ⟨frame :: rest, hsize⟩) = some (frame :: rest) :=
    multiPartReceive_cons frame rest
  rw [rsubscribe, hreceive, Option.bind_some, hsecond]
  simp only [subscribeAll, Response.addresses, Response.id, List.foldl_map]

theorem subscribed_responses (replies : List Response) :
    subscribed (replies.map Response.wire) = some (table replies) := by
  unfold subscribed table
  generalize rnotifyInit = start
  induction replies generalizing start with
  | nil => rfl
  | cons r rest ih =>
    rw [List.map_cons, List.foldlM_cons, rsubscribe_response, List.foldl_cons]
    exact ih _

/-! ### A turn of the loop -/

variable {rn : Rnot}

/-- The address is in the table after its turn, and so is what was there. -/
theorem names_subscribe (id addr : CString) :
    Table.names (subscribe id rn addr).publisherSocks = insert addr (Table.names rn.publisherSocks) := by
  unfold subscribe
  split
  · next sock hsock => exact (Finset.insert_eq_of_mem (Table.mem_names.mpr ⟨sock, hsock⟩)).symm
  · exact Table.names_insert ..

/-- No entry is replaced. -/
theorem lookup_subscribe {addr : CString} {k : Nat} (h : rn.publisherSocks.lookup addr = some k)
    (id other : CString) : (subscribe id rn other).publisherSocks.lookup addr = some k := by
  unfold subscribe
  split
  · exact h
  · next hnew =>
    have hne : addr ≠ other := by
      intro he
      rw [he, hnew] at h
      cases h
    exact (newSockets_lookup_ne hne).trans h

theorem names_subscribeAll (r : Response) :
    Table.names (subscribeAll rn r).publisherSocks = Table.names rn.publisherSocks ∪ r.addresses.toFinset := by
  unfold subscribeAll
  induction r.addresses generalizing rn with
  | nil => exact (Finset.union_empty _).symm
  | cons addr rest ih =>
    rw [List.foldl_cons, ih, names_subscribe, List.toFinset_cons, Finset.insert_union, Finset.union_insert]

theorem lookup_subscribeAll {addr : CString} {k : Nat} (h : rn.publisherSocks.lookup addr = some k)
    (r : Response) : (subscribeAll rn r).publisherSocks.lookup addr = some k :=
  List.foldlRecOn (motive := fun rn : Rnot => rn.publisherSocks.lookup addr = some k) _ _ h
    fun _ h other _ => lookup_subscribe h r.id other

theorem tabled_subscribeAll (h : Tabled rn) (r : Response) : Tabled (subscribeAll rn r) :=
  List.foldlRecOn _ _ h fun _ h addr _ => tabled_subscribe h r.id addr

theorem mem_filtersAt_addresses (h : Tabled rn) (id : CString) (addrs : List CString) (f addr : CString) :
    f ∈ filtersAt (addrs.foldl (subscribe id) rn) addr ↔ f ∈ filtersAt rn addr ∨ f = id ∧ addr ∈ addrs := by
  induction addrs generalizing rn with
  | nil => simp
  | cons a rest ih =>
    rw [List.foldl_cons, ih (tabled_subscribe h id a), filtersAt_subscribe h]
    by_cases ha : addr = a
    · simp [ha]
      tauto
    · simp [ha]

/-! ### Whole runs -/

/-- What the table and its sockets are after some replies. -/
structure Subscribes (replies : List Response) (rn : Rnot) : Prop where
  /-- The keys are the addresses that occurred. -/
  keys : ∀ addr, addr ∈ Table.names rn.publisherSocks ↔ ∃ r ∈ replies, addr ∈ r.addresses
  /-- Each is bound to a socket that is connected to it. -/
  tabled : Tabled rn
  /-- The filters of that socket are the ids of the replies with the address. -/
  filters : ∀ addr f, f ∈ filtersAt rn addr ↔ ∃ r ∈ replies, addr ∈ r.addresses ∧ f = r.id

theorem subscribes_init : Subscribes [] rnotifyInit where
  keys := by simp [rnotifyInit, Table.names]
  tabled := tabled_init
  filters := by simp [filtersAt, rnotifyInit]

theorem subscribes_subscribeAll {replies : List Response} (h : Subscribes replies rn) (r : Response) :
    Subscribes (replies ++ [r]) (subscribeAll rn r) where
  keys := by
    intro addr
    rw [names_subscribeAll, Finset.mem_union, h.keys, List.mem_toFinset]
    simp [or_and_right, exists_or]
  tabled := tabled_subscribeAll h.tabled r
  filters := by
    intro addr f
    rw [subscribeAll, mem_filtersAt_addresses h.tabled, h.filters]
    simp [or_and_right, exists_or, and_comm]

theorem subscribes_table (replies : List Response) : Subscribes replies (table replies) := by
  induction replies using List.reverseRecOn with
  | nil => exact subscribes_init
  | append_singleton rest r ih =>
    rw [table_concat]
    exact subscribes_subscribeAll ih r

/-- A socket that was bound to an address stays so. -/
theorem lookup_table {earlier : List Response} {addr : CString} {k : Nat}
    (h : (table earlier).publisherSocks.lookup addr = some k) (later : List Response) :
    (table (earlier ++ later)).publisherSocks.lookup addr = some k := by
  rw [table, List.foldl_append]
  exact List.foldlRecOn (motive := fun rn : Rnot => rn.publisherSocks.lookup addr = some k) _ _ h
    fun _ h r _ => lookup_subscribeAll h r

/-- Two addresses have two sockets. -/
theorem Tabled.injective (h : Tabled rn) {addr other : CString} {k : Nat}
    (ha : rn.publisherSocks.lookup addr = some k) (ho : rn.publisherSocks.lookup other = some k) :
    addr = other := by
  obtain ⟨s, hs, rfl⟩ := h addr k ha
  obtain ⟨t, ht, rfl⟩ := h other k ho
  rw [hs, Option.some.injEq] at ht
  rw [ht]

/-! ### The poll set -/

/-- The poll items are as many as the table has entries, and each socket of the table is one of them. -/
structure Polled (rn : Rnot) : Prop where
  size : (pollItems rn).length = rn.publisherSocks.keys.length
  nodup : (pollItems rn).Nodup
  mem : ∀ k, k ∈ pollItems rn ↔ ∃ addr, rn.publisherSocks.lookup addr = some k

theorem Tabled.polled (h : Tabled rn) : Polled rn where
  size := by
    rw [pollItems, List.filterMap_length_eq_length]
    intro addr haddr
    exact AList.lookup_isSome.mpr (AList.mem_keys.mpr haddr)
  nodup := by
    apply List.Nodup.filterMap _ rn.publisherSocks.keys_nodup
    intro addr other k haddr hother
    exact h.injective haddr hother
  mem := by
    intro k
    rw [pollItems, List.mem_filterMap]
    constructor
    · rintro ⟨addr, _, hk⟩
      exact ⟨addr, hk⟩
    · rintro ⟨addr, hk⟩
      exact ⟨addr, List.mem_toFinset.mp (Table.mem_names.mpr ⟨k, hk⟩), hk⟩

/-- **The subscription table.** After any replies the table's keys are the addresses that occurred in
them, each with one socket of its own that is connected there, that no later reply replaces and that
filters by the ids of the replies with the address; and the listener polls each of these sockets once. -/
theorem subscription_table (replies : List Response) :
    ∃ rn, subscribed (replies.map Response.wire) = some rn ∧ Subscribes replies rn ∧
      (∀ addr other k, rn.publisherSocks.lookup addr = some k → rn.publisherSocks.lookup other = some k →
        addr = other) ∧
      (∀ earlier later rn₀, replies = earlier ++ later →
        subscribed (earlier.map Response.wire) = some rn₀ → ∀ addr k,
          rn₀.publisherSocks.lookup addr = some k → rn.publisherSocks.lookup addr = some k) ∧
      Polled rn := by
  have hsub := subscribes_table replies
  refine ⟨table replies, subscribed_responses replies, hsub, ?_, ?_, hsub.tabled.polled⟩
  · intro addr other k
    exact hsub.tabled.injective
  · intro earlier later rn₀ hsplit hearlier addr k hk
    rw [subscribed_responses, Option.some.injEq] at hearlier
    rw [← hearlier] at hk
    rw [hsplit]
    exact lookup_table hk later

end Rnotify.Client
