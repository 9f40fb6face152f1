import Rnotify.Tables

/-! The registrar (`registrar.c`).

Its state is the publisher ring and the publishers table. `handle` is the body of
the loop in `accept_registrations` for one request: what it sends, in order, and
the state it leaves, or the fault that stops it. A fault is a use of a frame that
the request does not have, of the NULL that `hash_ring_find_node` answers on an
empty ring, or of the NULL that a table answers for a key it does not hold. -/
namespace Rnotify.Registrar
open Library

inductive Fault where
  /-- `registration[k]` with `k` at or past the number of frames. -/
  | index (k : Nat)
  /-- `node->name` with no node. -/
  | nullNode
  /-- A field of a publisher that the table does not hold. -/
  | nullEntry
  /-- A receive that the REP socket refuses, a reply being owed. -/
  | receive
deriving DecidableEq

/-- `publisher_struct`. -/
structure Publisher where
  ip : CString
  acceptPort : CString
  publishPort : CString
deriving DecidableEq

def colon : CString := literal ":"

@[simp] theorem colon_bytes : colon.bytes = [58] := by decide

/-- An address, built as the registrar builds each: `ip`, `":"` and the port, in one buffer. -/
def address (ip port : CString) : CString :=
  (((toCString ip.bytes ip.length (ip.length + colon.length + port.length + 1)).strcat colon).strcat port).str

theorem address_eq (ip port : CString) : address ip port = ip ++ colon ++ port := by
  simp [address]

/-- Where the publisher takes events, and its name on the rings. -/
def Publisher.acceptAddr (p : Publisher) : CString := address p.ip p.acceptPort

/-- Where subscribers connect. -/
def Publisher.publishAddr (p : Publisher) : CString := address p.ip p.publishPort

structure State where
  publisherRing : Ring
  publishers : Table Publisher

/-- `hash_ring_create` and `g_hash_table_new_full`. -/
def initial : State := ⟨∅, ∅⟩

/-- What the registrar does to its sockets. -/
inductive Action where
  /-- A receive on the REP socket. -/
  | receive
  /-- A reply on the REP socket. -/
  | reply (wire : Wire)
  /-- A broadcast to the dispatchers. -/
  | announce (wire : Wire)
  /-- A path sent to the proxy and the watch id that came back. -/
  | watch (path id : CString)
deriving DecidableEq

/-- A request: its frames, at least one, and what `inotify_add_watch` answers for each path
while it is served. -/
structure Request where
  frames : List Frame
  nonempty : frames ≠ []
  addWatch : CString → Int

/-- `register_publisher_service`, on what `get_ip_address` gives. -/
def registerPublisherService (ip : CString) (acceptPort publishPort : Int) : Request where
  frames := [registerPublisherSanityCheck.bytes, (literal "tcp://" ++ ip).bytes,
    (decimal acceptPort).bytes, (decimal publishPort).bytes]
  nonempty := nofun
  addWatch := fun _ => -1

/-- `_register`, as `rsubscribe` calls it for a path. -/
def register (filePath : CString) (addWatch : CString → Int) : Request where
  frames := [registerFileObjectSanityCheck.bytes, filePath.bytes]
  nonempty := nofun
  addWatch := addWatch

/-- One pass through the loop. -/
structure Pass where
  actions : List Action
  next : Except Fault State

/-! ### Publisher registrations -/

/-- The string `registration[k]`. -/
def part (registration : List Frame) (k : Nat) : Except Fault CString :=
  match registration[k]? with
  | some frame => .ok (cstr frame)
  | none => .error (.index k)

/-- `new_publisher` on the frames of a registration. -/
def newPublisher (registration : List Frame) : Except Fault Publisher :=
  match part registration 1, part registration 2, part registration 3 with
  | .ok ip, .ok acceptPort, .ok publishPort => .ok ⟨ip, acceptPort, publishPort⟩
  | .error fault, _, _ => .error fault
  | _, .error fault, _ => .error fault
  | _, _, .error fault => .error fault

/-- The path that `_register` was called with. -/
@[simp] theorem part_register (filePath : CString) (addWatch : CString → Int) :
    part (register filePath addWatch).frames 1 = .ok filePath :=
  congrArg Except.ok (cstr_bytes filePath)

/-- `notify_dispatchers`. -/
def notifyDispatchers (p : Publisher) : Wire := sendText p.acceptAddr

/-- The new publisher goes on the ring. -/
def enlist (s : State) (p : Publisher) : State :=
  {s with publisherRing := addNode s.publisherRing p.acceptAddr}

/-- The new publisher goes in the table. -/
def record (s : State) (p : Publisher) : State :=
  {s with publishers := s.publishers.insert p.acceptAddr p}

def registerPublisher (s : State) (registration : List Frame) : Pass :=
  match newPublisher registration with
  | .error fault => ⟨[], .error fault⟩
  | .ok p => ⟨[.reply (sendText registerOk), .announce (notifyDispatchers p)], .ok (record (enlist s p) p)⟩

/-! ### File registrations -/

/-- The bytes hashed for an instance of a file: the name, the instance number and the terminator. -/
def registrarKey (fileName : CString) (i : Nat) : List Byte :=
  let instanceNum := decimal i
  let publishable := (toCString fileName.bytes fileName.length
    (fileName.length + instanceNum.length + 1)).strcat instanceNum
  publishable.data.take (strlen publishable.data + 1)

theorem registrarKey_eq (fileName : CString) (i : Nat) :
    registrarKey fileName i = fileName.bytes ++ (decimal i).bytes ++ [0] := by
  simp only [registrarKey, Buffer.take_strlen_succ, Buffer.str_strcat, str_toCString, CString.bytes_append]

/-- The instance numbers of the loop in `get_publishers_table`. -/
def instances : List Nat := List.range' 1 replicationFactor

/-- One turn of the loop in `get_publishers_table`. -/
def pickInstance (L : Lookup) (fileName : CString) (ring : Ring) (table : Table CString) (i : Nat) :
    Except Fault (Table CString) :=
  match L.findNode ring (registrarKey fileName i) with
  | none => .error .nullNode
  | some node => .ok (table.insert node node)

def getPublishersTable (L : Lookup) (fileName : CString) (ring : Ring) : Except Fault (Table CString) :=
  instances.foldlM (pickInstance L fileName ring) ∅

/-- One turn of the loop over the keys: the publish address of a publisher. -/
def publishAddrOf (publishers : Table Publisher) (name : CString) : Except Fault CString :=
  match publishers.lookup name with
  | none => .error .nullEntry
  | some p => .ok p.publishAddr

def publishersList (publishers : Table Publisher) (table : Table CString) : Except Fault (List CString) :=
  table.keys.mapM (publishAddrOf publishers)

/-- `register_notification` in the proxy: the watch descriptor as text. -/
def registerNotification (addWatch : CString → Int) (fileName : CString) : CString :=
  decimal (addWatch fileName)

def registerFile (L : Lookup) (addWatch : CString → Int) (s : State) (registration : List Frame) : Pass :=
  match part registration 1 with
  | .error fault => ⟨[], .error fault⟩
  | .ok path =>
    let id := registerNotification addWatch path
    match getPublishersTable L path s.publisherRing with
    | .error fault => ⟨[.watch path id], .error fault⟩
    | .ok table =>
      match publishersList s.publishers table with
      | .error fault => ⟨[.watch path id], .error fault⟩
      | .ok addresses => ⟨[.watch path id, .reply (send (registerOk :: id :: addresses))], .ok s⟩

/-! ### The loop body -/

/-- A dispatcher's registration is printed and not answered. -/
def registerDispatcher (s : State) (registration : List Frame) : Pass :=
  match part registration 1 with
  | .error fault => ⟨[], .error fault⟩
  | .ok _ => ⟨[], .ok s⟩

def handle (L : Lookup) (s : State) (r : Request) : Pass :=
  match part r.frames 0 with
  | .error fault => ⟨[], .error fault⟩
  | .ok code =>
    if code = registerPublisherSanityCheck then registerPublisher s r.frames
    else if code = registerDispatcherSanityCheck then registerDispatcher s r.frames
    else if code = registerFileObjectSanityCheck then registerFile L r.addWatch s r.frames
    else ⟨[], .ok s⟩

/-! ### The proxy's side of a file registration -/

/-- `subscription_receiver`: the answer to one request. -/
def subscriptionReceiver (addWatch : CString → Int) (request : Wire) : Option Wire :=
  (recvText request).map fun fileName => sendText (registerNotification addWatch fileName)

/-- The exchange over the proxy's socket gives the registrar the text that
`register_notification` made for the path it sent. -/
theorem exchange_eq (addWatch : CString → Int) (path : CString) :
    (subscriptionReceiver addWatch (sendText path)).bind recvText =
      some (registerNotification addWatch path) := by
  simp [subscriptionReceiver]

end Rnotify.Registrar
