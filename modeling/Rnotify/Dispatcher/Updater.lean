import Rnotify.Dispatcher.Core

/-! What a dispatcher knows of the announcements it was sent.

An announced name goes from the inbox to the ring and from there to the tables,
and is at every moment in one place on the way. So the ring, the name that the
updater holds and the inbox together are always the names announced (`Follows`),
and once the updater is back at its receive with nothing to receive, the ring
alone is, and the tables have it for keys (`Follows.resting`). -/
namespace Rnotify.Dispatcher
open Library

/-- The name received and not yet on the ring. -/
def Updater.received : Updater → Finset CString
  | .addNode addr => {addr}
  | _ => ∅

/-- The name on the ring and not yet in the tables. -/
def Updater.placed : Updater → Finset CString
  | .createSocket addr => {addr}
  | .insert addr _ => {addr}
  | _ => ∅

/-- The names announced since the SUB socket was connected, wherever they are. -/
structure Follows (names : Finset CString) (d : State) : Prop where
  inbox : ∃ pending : List CString, d.inbox = pending.map sendText ∧
    d.info.publisherRing ∪ d.updater.received ∪ pending.toFinset = names
  socks : Table.names d.info.publisherSocks ∪ d.updater.placed = d.info.publisherRing
  locks : Table.names d.info.publisherSocksLocks = Table.names d.info.publisherSocks
  wired : Wired d.info
  socket : ∀ addr sock, d.updater = .insert addr sock → sock.endpoint = addr

theorem follows_initial : Follows ∅ initial :=
  ⟨⟨[], rfl, rfl⟩, rfl, rfl, inStep_initial.wired, nofun⟩

/-- A broadcast adds its name if the socket is connected. -/
theorem follows_deliver {names : Finset CString} {d : State} (h : Follows names d) (addr : CString) :
    Follows (if d.updater = .connect then names else insert addr names) (deliver d (sendText addr)) := by
  by_cases hc : d.updater = .connect
  · rw [if_pos hc, deliver, if_pos hc]
    exact h
  · obtain ⟨pending, hinbox, hnames⟩ := h.inbox
    rw [if_neg hc, deliver, if_neg hc]
    refine ⟨⟨pending ++ [addr], ?_, ?_⟩, h.socks, h.locks, h.wired, h.socket⟩
    · show d.inbox ++ [sendText addr] = _
      rw [hinbox, List.map_append, List.map_singleton]
    · show d.info.publisherRing ∪ d.updater.received ∪ (pending ++ [addr]).toFinset = _
      rw [List.toFinset_append, ← Finset.union_assoc, hnames, List.toFinset_cons, List.toFinset_nil,
        Finset.insert_empty, Finset.union_comm, ← Finset.insert_eq]

/-! ### Steps of the updater -/

variable {names : Finset CString} {d d' : State}

/-- What a step of the updater does, by where it is. -/
theorem publisherUpdater_cases (hstep : publisherUpdater d = some d') :
    (d.updater = .connect ∧ d' = { d with updater := .receive }) ∨
      (∃ wire rest addr, d.updater = .receive ∧ d.inbox = wire :: rest ∧ recvText wire = some addr ∧
        d' = { d with inbox := rest, updater := .addNode addr }) ∨
      (∃ addr, d.updater = .addNode addr ∧ d' = { d with
        info := { d.info with publisherRing := addNode d.info.publisherRing addr }
        updater := .createSocket addr }) ∨
      (∃ addr, d.updater = .createSocket addr ∧
        d' = { d with sockets := d.sockets + 1, updater := .insert addr ⟨d.sockets, addr⟩ }) ∨
      ∃ addr sock, d.updater = .insert addr sock ∧
        d' = { d with info := d.info.insert addr sock, updater := .receive } := by
  obtain ⟨info, updater, inbox, sockets⟩ := d
  cases updater with
  | connect => exact Or.inl ⟨rfl, (Option.some.inj hstep).symm⟩
  | receive =>
    cases inbox with
    | nil => cases hstep
    | cons wire rest =>
      obtain ⟨addr, haddr, rfl⟩ := Option.map_eq_some_iff.mp hstep
      exact Or.inr (Or.inl ⟨wire, rest, addr, rfl, rfl, haddr, rfl⟩)
  | addNode addr => exact Or.inr (Or.inr (Or.inl ⟨addr, rfl, (Option.some.inj hstep).symm⟩))
  | createSocket addr => exact Or.inr (Or.inr (Or.inr (Or.inl ⟨addr, rfl, (Option.some.inj hstep).symm⟩)))
  | insert addr sock => exact Or.inr (Or.inr (Or.inr (Or.inr ⟨addr, sock, rfl, (Option.some.inj hstep).symm⟩)))

/-- The first announcement of the inbox is taken: its name is held. -/
theorem follows_receive (h : Follows names d) (hu : d.updater = .receive) {wire : Wire} {rest : List Wire}
    {addr : CString} (hinbox : d.inbox = wire :: rest) (haddr : recvText wire = some addr) :
    Follows names { d with inbox := rest, updater := .addNode addr } := by
  obtain ⟨pending, hpending, hnames⟩ := h.inbox
  cases pending with
  | nil =>
    rw [hinbox] at hpending
    cases hpending
  | cons first others =>
    rw [hinbox, List.map_cons, List.cons.injEq] at hpending
    obtain ⟨hwire, hrest⟩ := hpending
    rw [hwire, recvText_sendText, Option.some.injEq] at haddr
    have hsocks := h.socks
    rw [hu] at hsocks
    refine ⟨⟨others, hrest, ?_⟩, hsocks, h.locks, h.wired, nofun⟩
    rw [← hnames, hu, ← haddr, List.toFinset_cons]
    show d.info.publisherRing ∪ {first} ∪ others.toFinset =
      d.info.publisherRing ∪ ∅ ∪ insert first others.toFinset
    rw [Finset.union_empty, Finset.union_assoc, ← Finset.insert_eq]

/-- The name goes on the ring. -/
theorem follows_addNode (h : Follows names d) {addr : CString} (hu : d.updater = .addNode addr) :
    Follows names { d with
      info := { d.info with publisherRing := addNode d.info.publisherRing addr }
      updater := .createSocket addr } := by
  obtain ⟨pending, hpending, hnames⟩ := h.inbox
  have hsocks : Table.names d.info.publisherSocks = d.info.publisherRing := by
    rw [← h.socks, hu]
    exact (Finset.union_empty _).symm
  refine ⟨⟨pending, hpending, ?_⟩, ?_, h.locks, h.wired, nofun⟩
  · rw [← hnames, hu]
    show insert addr d.info.publisherRing ∪ ∅ ∪ pending.toFinset =
      d.info.publisherRing ∪ {addr} ∪ pending.toFinset
    rw [Finset.union_empty, Finset.insert_eq, Finset.union_comm {addr}]
  · show Table.names d.info.publisherSocks ∪ {addr} = insert addr d.info.publisherRing
    rw [hsocks, Finset.insert_eq, Finset.union_comm]

/-- The name goes into the tables. -/
theorem follows_insert (h : Follows names d) {addr : CString} {sock : DispatchSocket}
    (hu : d.updater = .insert addr sock) :
    Follows names { d with info := d.info.insert addr sock, updater := .receive } := by
  obtain ⟨pending, hpending, hnames⟩ := h.inbox
  rw [hu] at hnames
  have hsocks := h.socks
  rw [hu] at hsocks
  refine ⟨⟨pending, hpending, hnames⟩, ?_, ?_, wired_insert h.wired (h.socket addr sock hu), nofun⟩
  · show Table.names (d.info.publisherSocks.insert addr sock) ∪ ∅ = d.info.publisherRing
    rw [Table.names_insert, Finset.union_empty, Finset.insert_eq, Finset.union_comm]
    exact hsocks
  · show Table.names (d.info.publisherSocksLocks.insert addr .m) =
      Table.names (d.info.publisherSocks.insert addr sock)
    rw [Table.names_insert, Table.names_insert, h.locks]

/-- A step of the updater moves a name on and loses none. -/
theorem follows_update (h : Follows names d) (hstep : publisherUpdater d = some d') : Follows names d' := by
  have hinbox := h.inbox
  have hsocks := h.socks
  obtain ⟨hu, rfl⟩ | ⟨wire, rest, addr, hu, hfirst, haddr, rfl⟩ | ⟨addr, hu, rfl⟩ | ⟨addr, hu, rfl⟩ |
    ⟨addr, sock, hu, rfl⟩ := publisherUpdater_cases hstep
  · rw [hu] at hinbox hsocks
    exact ⟨hinbox, hsocks, h.locks, h.wired, nofun⟩
  · exact follows_receive h hu hfirst haddr
  · exact follows_addNode h hu
  · rw [hu] at hinbox hsocks
    refine ⟨hinbox, hsocks, h.locks, h.wired, ?_⟩
    intro addr' sock' he
    rw [Updater.insert.injEq] at he
    rw [← he.2, ← he.1]
  · exact follows_insert h hu

/-- Nothing waits to be received and nothing is half processed. -/
def Resting (d : State) : Prop := d.inbox = [] ∧ (d.updater = .connect ∨ d.updater = .receive)

theorem Follows.resting {names : Finset CString} {d : State} (h : Follows names d) (hd : Resting d) :
    InStep d.info ∧ d.info.publisherRing = names := by
  obtain ⟨hempty, hphase⟩ := hd
  have hreceived : d.updater.received = ∅ := by rcases hphase with hp | hp <;> rw [hp] <;> rfl
  have hplaced : d.updater.placed = ∅ := by rcases hphase with hp | hp <;> rw [hp] <;> rfl
  obtain ⟨pending, hinbox, hnames⟩ := h.inbox
  have hnil : pending = [] := List.map_eq_nil_iff.mp (hinbox.symm.trans hempty)
  have hsocks := h.socks
  rw [hplaced, Finset.union_empty] at hsocks
  rw [hnil, hreceived, List.toFinset_nil, Finset.union_empty, Finset.union_empty] at hnames
  exact ⟨⟨hsocks, h.locks.trans hsocks, h.wired⟩, hnames⟩

end Rnotify.Dispatcher
