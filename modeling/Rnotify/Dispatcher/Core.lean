import Rnotify.Tables

/-! The dispatcher's view of the publishers (`dispatcher.c`).

Each dispatcher keeps a ring, a table of sockets and a table of locks, all three
built by one thread, `publisher_updater`, from the addresses that the registrar
broadcasts. The thread does its work in several steps, and the parser threads may
look between any two of them, so `publisherUpdater` is one step and `Updater` says
which comes next. `notify_random_publisher` goes from an event to a socket
(`findPublisher`) and sends the event there. -/
namespace Rnotify.Dispatcher
open Library

/-- A PUB socket of the process, connected to where a publisher takes events. -/
structure DispatchSocket where
  id : Nat
  endpoint : CString
deriving DecidableEq

/-- What a pointer in the table of locks points to: the local `m` of the updater's loop. -/
inductive MutexCell where
  | m
deriving DecidableEq

structure PublishersInfo where
  publisherRing : Ring
  publisherSocks : Table DispatchSocket
  publisherSocksLocks : Table MutexCell

/-- What the updater thread does next. -/
inductive Updater where
  /-- Connecting its SUB socket. -/
  | connect
  /-- A receive. -/
  | receive
  | addNode (publisherAddr : CString)
  | createSocket (publisherAddr : CString)
  /-- Under the writer lock. -/
  | insert (publisherAddr : CString) (dispatchSocket : DispatchSocket)
deriving DecidableEq

structure State where
  info : PublishersInfo
  updater : Updater
  /-- Announcements at the SUB socket, in order of arrival. -/
  inbox : List Wire
  /-- How many PUB sockets the process has created. -/
  sockets : Nat

/-- `main`, up to the forks. -/
def initial : State := ⟨⟨∅, ∅, ∅⟩, .connect, [], 0⟩

/-- A broadcast reaches the SUB sockets that are connected when it is sent. -/
def deliver (d : State) (wire : Wire) : State :=
  if d.updater = .connect then d else { d with inbox := d.inbox ++ [wire] }

@[simp] theorem deliver_updater (d : State) (wire : Wire) : (deliver d wire).updater = d.updater := by
  unfold deliver
  split <;> rfl

/-- The two inserts into the tables. -/
def PublishersInfo.insert (info : PublishersInfo) (publisherAddr : CString) (sock : DispatchSocket) :
    PublishersInfo :=
  { info with
    publisherSocks := info.publisherSocks.insert publisherAddr sock
    publisherSocksLocks := info.publisherSocksLocks.insert publisherAddr .m }

/-- One step of `publisher_updater`; a receive waits for an announcement. -/
def publisherUpdater (d : State) : Option State :=
  match d.updater with
  | .connect => some { d with updater := .receive }
  | .receive =>
    match d.inbox with
    | [] => none
    | wire :: rest => (recvText wire).map fun addr => { d with inbox := rest, updater := .addNode addr }
  | .addNode addr =>
    some { d with
      info := { d.info with publisherRing := addNode d.info.publisherRing addr }
      updater := .createSocket addr }
  | .createSocket addr => some { d with sockets := d.sockets + 1, updater := .insert addr ⟨d.sockets, addr⟩ }
  | .insert addr sock => some { d with info := d.info.insert addr sock, updater := .receive }

/-! ### Routing an event -/

/-- The bytes hashed for an event: its name and an instance number, the terminator left out. -/
def dispatcherKey (pevent : InotifyEvent) (rand : Nat) : List Byte :=
  let instanceNum := decimal (rand % replicationFactor + 1 : Nat)
  let publishable := (toCString pevent.name pevent.len.toNat
    (pevent.len.toNat + instanceNum.length + 1)).strcat instanceNum
  publishable.data.take (strlen publishable.data)

theorem dispatcherKey_eq (pevent : InotifyEvent) (rand : Nat) :
    dispatcherKey pevent rand =
      pevent.text.bytes ++ (decimal (rand % replicationFactor + 1 : Nat)).bytes := by
  simp only [dispatcherKey, Buffer.take_strlen_data, Buffer.str_strcat, ← pevent.name_length,
    str_toCString_length, CString.bytes_append]
  rfl

/-- The socket that a key leads to, if no NULL is dereferenced on the way. -/
def socketFor (L : Lookup) (info : PublishersInfo) (key : List Byte) : Option DispatchSocket :=
  match L.findNode info.publisherRing key with
  | none => none
  | some node =>
    match info.publisherSocks.lookup node, info.publisherSocksLocks.lookup node with
    | some ret, some _ => some ret
    | _, _ => none

/-- The socket that `notify_random_publisher` looks up. -/
def findPublisher (L : Lookup) (info : PublishersInfo) (pevent : InotifyEvent) (rand : Nat) :
    Option DispatchSocket :=
  socketFor L info (dispatcherKey pevent rand)

/-- `notify_random_publisher`: the socket and what is sent on it. -/
def notifyRandomPublisher (L : Lookup) (info : PublishersInfo) (pevent : InotifyEvent) (rand : Nat) :
    Option (DispatchSocket × Wire) :=
  (findPublisher L info pevent rand).bind fun ret => (notify pevent).map fun wire => (ret, wire)

theorem notify_of_sent {L : Lookup} {info : PublishersInfo} {pevent : InotifyEvent} {rand : Nat}
    {sock : DispatchSocket} {wire : Wire} (h : notifyRandomPublisher L info pevent rand = some (sock, wire)) :
    notify pevent = some wire := by
  rw [notifyRandomPublisher, Option.bind_eq_some_iff] at h
  obtain ⟨ret, _, hret⟩ := h
  obtain ⟨w, hw, hpair⟩ := Option.map_eq_some_iff.mp hret
  rw [hw, (Prod.mk.inj hpair).2]

/-! ### The three structures together -/

/-- Each socket is connected to the address it is kept under. -/
def Wired (info : PublishersInfo) : Prop :=
  ∀ addr sock, info.publisherSocks.lookup addr = some sock → sock.endpoint = addr

/-- No announcement is half processed: the tables have the ring's names for keys. -/
structure InStep (info : PublishersInfo) : Prop where
  socks : Table.names info.publisherSocks = info.publisherRing
  locks : Table.names info.publisherSocksLocks = info.publisherRing
  wired : Wired info

theorem inStep_initial : InStep initial.info := ⟨rfl, rfl, nofun⟩

theorem wired_insert {info : PublishersInfo} (h : Wired info) {addr : CString} {sock : DispatchSocket}
    (hsock : sock.endpoint = addr) : Wired (info.insert addr sock) := by
  intro addr' sock' hlookup
  by_cases ha : addr' = addr
  · have : (info.insert addr sock).publisherSocks.lookup addr' = some sock := by
      rw [ha]
      exact AList.lookup_insert _
    rw [hlookup, Option.some.injEq] at this
    rw [this, ha, hsock]
  · have : (info.insert addr sock).publisherSocks.lookup addr' = info.publisherSocks.lookup addr' :=
      AList.lookup_insert_ne ha
    exact h addr' sock' (this ▸ hlookup)

/-- What an announcement leaves once it is processed. -/
def PublishersInfo.learn (info : PublishersInfo) (addr : CString) (sock : DispatchSocket) : PublishersInfo :=
  PublishersInfo.insert { info with publisherRing := addNode info.publisherRing addr } addr sock

theorem inStep_learn {info : PublishersInfo} (h : InStep info) {addr : CString} {sock : DispatchSocket}
    (hsock : sock.endpoint = addr) : InStep (info.learn addr sock) where
  socks := by
    show Table.names (info.publisherSocks.insert addr sock) = insert addr info.publisherRing
    rw [Table.names_insert, h.socks]
  locks := by
    show Table.names (info.publisherSocksLocks.insert addr .m) = insert addr info.publisherRing
    rw [Table.names_insert, h.locks]
  wired := by
    have hwired : Wired { info with publisherRing := addNode info.publisherRing addr } := h.wired
    exact wired_insert hwired hsock

/-- A round of the updater's loop takes one announcement and processes it. -/
theorem publisherUpdater_round (d : State) (addr : CString) (rest : List Wire)
    (hphase : d.updater = .receive) (hinbox : d.inbox = sendText addr :: rest) :
    (((publisherUpdater d).bind publisherUpdater).bind publisherUpdater).bind publisherUpdater =
      some ⟨d.info.learn addr ⟨d.sockets, addr⟩, .receive, rest, d.sockets + 1⟩ := by
  have hreceive : publisherUpdater d = some { d with inbox := rest, updater := .addNode addr } := by
    simp [publisherUpdater, hphase, hinbox]
  rw [hreceive]
  rfl

/-- The socket found is the one connected to the node of the ring. -/
theorem socketFor_of_inStep {L : Lookup} {info : PublishersInfo} (h : InStep info) {key : List Byte}
    {node : CString} (hnode : L.findNode info.publisherRing key = some node) :
    ∃ sock, socketFor L info key = some sock ∧ sock.endpoint = node := by
  have hmem := L.mem_of_findNode hnode
  obtain ⟨sock, hsock⟩ := Table.mem_names.mp (h.socks ▸ hmem)
  obtain ⟨lock, hlock⟩ := Table.mem_names.mp (h.locks ▸ hmem)
  refine ⟨sock, ?_, h.wired node sock hsock⟩
  simp only [socketFor, hnode, hsock, hlock]

/-- In step or not, the socket found is connected to the node of the ring. -/
theorem findNode_of_socketFor {L : Lookup} {info : PublishersInfo} (h : Wired info) {key : List Byte}
    {sock : DispatchSocket} (hsock : socketFor L info key = some sock) :
    L.findNode info.publisherRing key = some sock.endpoint := by
  unfold socketFor at hsock
  split at hsock
  · cases hsock
  · next node hnode =>
    split at hsock
    · next ret _ hret _ =>
      rw [Option.some.injEq] at hsock
      rw [hnode, ← hsock, h node ret hret]
    · cases hsock

end Rnotify.Dispatcher
