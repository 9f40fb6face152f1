import Rnotify.Ownership.Helper
import Rnotify.Registrar.Service

/-! What the registrar does to memory.

The body of the loop in `accept_registrations` once more, with every block that it
allocates and frees. The publishers table owns its keys, its `publisher_struct`s and
their strings. What a turn of the loop does not own any more when it is over and has
not freed either is lost: the `publisher_struct` of an entry that is replaced, which
`destroy_publisher` leaves, and in a file registration the first `instance_num` and
the list of keys, of which only the end is given to `g_list_free`. -/
namespace Rnotify.Ownership
open Library Mem

/-! ### Tables -/

section tables
variable {V : Type}

/-- What the values of a table own, and their keys with them. -/
def tableOwned (own : V → Multiset ℕ) (t : Table V) : Multiset ℕ := (t.entries.map fun e => own e.2).sum

theorem sum_kerase (own : V → Multiset ℕ) (k : CString) (l : List (Sigma fun _ : CString => V)) :
    (l.map fun e => own e.2).sum =
      ((l.kerase k).map fun e => own e.2).sum + (l.dlookup k).elim 0 own := by
  induction l with
  | nil => rfl
  | cons e rest ih =>
    obtain ⟨n, v⟩ := e
    by_cases hn : k = n
    · have herase : List.kerase k (⟨n, v⟩ :: rest) = rest := List.kerase_cons_eq hn
      rw [herase, hn, List.dlookup_cons_eq, List.map_cons, List.sum_cons, add_comm]
      rfl
    · have herase : List.kerase k (⟨n, v⟩ :: rest) = ⟨n, v⟩ :: List.kerase k rest := List.kerase_cons_ne hn
      rw [herase, List.dlookup_cons_ne _ _ hn, List.map_cons, List.sum_cons, ih, List.map_cons, List.sum_cons, add_assoc]

/-- A value goes in, and what was there goes out. -/
theorem tableOwned_insert (own : V → Multiset ℕ) (t : Table V) (k : CString) (v : V) :
    tableOwned own (t.insert k v) + (t.lookup k).elim 0 own = tableOwned own t + own v := by
  have hentries : (t.insert k v).entries = ⟨k, v⟩ :: t.entries.kerase k := AList.entries_insert ..
  have hlookup : t.lookup k = t.entries.dlookup k := rfl
  rw [tableOwned, tableOwned, sum_kerase own k t.entries, hentries, hlookup, List.map_cons, List.sum_cons]
  abel

theorem own_le_of_mem (own : V → Multiset ℕ) {t : Table V} {e : Sigma fun _ : CString => V} (h : e ∈ t.entries) :
    own e.2 ≤ tableOwned own t :=
  List.le_sum_of_mem (List.mem_map_of_mem (f := fun e => own e.2) h)

theorem own_le_tableOwned (own : V → Multiset ℕ) {t : Table V} {k : CString} {v : V} (h : t.lookup k = some v) :
    own v ≤ tableOwned own t :=
  own_le_of_mem own (List.of_mem_dlookup h)

/-- The keys of a table that has nothing else on the heap. -/
def keysOwned (keys : Table ℕ) : Multiset ℕ := tableOwned (fun b => {b}) keys

theorem mem_keysOwned {keys : Table ℕ} {e : Sigma fun _ : CString => ℕ} (h : e ∈ keys.entries) :
    e.2 ∈ keysOwned keys :=
  Multiset.mem_of_le (own_le_of_mem (fun b => {b}) h) (Multiset.mem_singleton_self e.2)

end tables

/-! ### The registrar's state -/

/-- `publisher_struct`. -/
structure PublisherStruct where
  block : ℕ
  ip : Str
  acceptPort : Str
  publishPort : Str

def PublisherStruct.owned (p : PublisherStruct) : Multiset ℕ :=
  {p.block} + {p.ip.block} + {p.acceptPort.block} + {p.publishPort.block}

def PublisherStruct.publisher (p : PublisherStruct) : Registrar.Publisher :=
  ⟨p.ip.text, p.acceptPort.text, p.publishPort.text⟩

/-- An entry of the publishers table: the block of its key, and its value. -/
structure Entry where
  key : ℕ
  value : PublisherStruct

def Entry.owned (e : Entry) : Multiset ℕ := {e.key} + e.value.owned

structure State where
  publisherRing : Ring
  publishers : Table Entry

def State.owned (s : State) : Multiset ℕ := tableOwned Entry.owned s.publishers

def initial : State := ⟨∅, ∅⟩

/-- The registrar's state without the memory. -/
structure Represents (s : State) (r : Registrar.State) : Prop where
  ring : s.publisherRing = r.publisherRing
  publishers : ∀ n, (s.publishers.lookup n).map (fun e => e.value.publisher) = r.publishers.lookup n

/-! ### Publisher registrations -/

/-- `registration[k]`. -/
def part (registration : List Str) (k : ℕ) : Mem Registrar.Fault Str :=
  match registration[k]? with
  | none => halt (.index k)
  | some s => return s

/-- `new_publisher`. -/
def newPublisher (ip acceptPort publishPort : Str) : Mem Registrar.Fault PublisherStruct := do
  let block ← malloc
  let ip ← copy ip
  let acceptPort ← copy acceptPort
  let publishPort ← copy publishPort
  return ⟨block, ip, acceptPort, publishPort⟩

/-- `destroy_publisher`. -/
def destroyPublisher (p : PublisherStruct) : Mem Registrar.Fault Unit := do
  use p.block
  free p.ip.block
  free p.acceptPort.block
  free p.publishPort.block

/-- An address: the host, `":"` and the port. -/
def address (ip port : Str) : Mem Registrar.Fault Str := do
  use ip.block
  use port.block
  newStr (Registrar.address ip.text port.text)

/-- `notify_dispatchers`. -/
def notifyDispatchers (p : PublisherStruct) : Mem Registrar.Fault (Str × Wire) := do
  use p.block
  let acceptAddr ← address p.ip p.acceptPort
  use acceptAddr.block
  let wire ← sendString acceptAddr.text.bytes
  return (acceptAddr, wire)

/-- `g_hash_table_insert`: where there is an entry, the new key is freed and the old value destroyed. -/
def insertPublisher (publishers : Table Entry) (key : Str) (p : PublisherStruct) :
    Mem Registrar.Fault (Table Entry) :=
  match publishers.lookup key.text with
  | none => return publishers.insert key.text ⟨key.block, p⟩
  | some old => do
    free key.block
    destroyPublisher old.value
    return publishers.insert key.text ⟨old.key, p⟩

def registerPublisher (s : State) (registration : List Str) : Mem Registrar.Fault (State × List Registrar.Action) := do
  let ip ← part registration 1
  let acceptPort ← part registration 2
  let publishPort ← part registration 3
  let p ← newPublisher ip acceptPort publishPort
  let reply ← sendString registerOk.bytes
  let pubAddr ← notifyDispatchers p
  use pubAddr.1.block
  let publishers ← insertPublisher s.publishers pubAddr.1 p
  return (⟨addNode s.publisherRing pubAddr.1.text, publishers⟩, [.reply reply, .announce pubAddr.2])

/-! ### File registrations -/

/-- What `get_publishers_table` keeps for a name: the blocks of the key and of the value. -/
def Copies := ℕ × ℕ

def Copies.owned (c : Copies) : Multiset ℕ := {c.1} + {c.2}

/-- `g_hash_table_insert` once more: a key that is there stays, and the new one is freed. -/
def insertCopies (table : Table Copies) (publisher value : Str) : Mem Registrar.Fault (Table Copies) :=
  match table.lookup publisher.text with
  | none => return table.insert publisher.text (publisher.block, value.block)
  | some old => do
    free publisher.block
    free old.2
    return table.insert publisher.text (old.1, value.block)

/-- One turn of the loop in `get_publishers_table`. -/
def pickInstance (L : Lookup) (fileName : Str) (ring : Ring) (table : Table Copies) (i : ℕ) :
    Mem Registrar.Fault (Table Copies) := do
  let instanceNum ← malloc
  use fileName.block
  let publishable ← malloc
  match L.findNode ring (Registrar.registrarKey fileName.text i) with
  | none => halt .nullNode
  | some node => do
    let publisher ← newStr node
    let value ← copy publisher
    let table ← insertCopies table publisher value
    free publishable
    free instanceNum
    return table

/-- `get_publishers_table`: the table and its entries. -/
def getPublishersTable (L : Lookup) (fileName : Str) (ring : Ring) : Mem Registrar.Fault (ℕ × Table Copies) := do
  -- the first `instance_num`, which the one in the loop hides
  let _ ← malloc
  let publishersTable ← malloc
  let entries ← Registrar.instances.foldlM (pickInstance L fileName ring) ∅
  return (publishersTable, entries)

/-- `g_hash_table_destroy`. -/
def destroyTable (table : ℕ × Table Copies) : Mem Registrar.Fault Unit := do
  forM table.2.entries fun e => do
    free e.2.1
    free e.2.2
  free table.1

/-- One turn of the loop over the keys. -/
def publishAddr (publishers : Table Entry) (name : CString) (key : ℕ) : Mem Registrar.Fault Str := do
  use key
  match publishers.lookup name with
  | none => halt .nullEntry
  | some e => do
    use e.value.block
    address e.value.ip e.value.publishPort

def registerFile (L : Lookup) (addWatch : CString → Int) (s : State) (registration : List Str) :
    Mem Registrar.Fault (State × List Registrar.Action) := do
  let path ← part registration 1
  use path.block
  let _ ← sendString path.text.bytes
  let id ← recvBuff
  let idText := Registrar.registerNotification addWatch path.text
  let table ← getPublishersTable L path s.publisherRing
  let publishersList ← malloc
  let ok ← newStr registerOk
  let registrationId ← copy ⟨id, idText⟩
  -- `g_hash_table_get_keys`
  let _ ← table.2.entries.mapM fun _ => malloc
  let addresses ← table.2.entries.mapM fun e => publishAddr s.publishers e.1 e.2.1
  let wire ← send (ok :: registrationId :: addresses)
  forM (ok :: registrationId :: addresses) fun s => free s.block
  free id
  -- `g_list_free`, on the iterator, which is NULL
  freePtr none
  destroyTable table
  free publishersList
  return (s, [.watch path.text idText, .reply wire])

/-! ### The loop body -/

def registerDispatcher (s : State) (registration : List Str) : Mem Registrar.Fault (State × List Registrar.Action) := do
  let ip ← part registration 1
  use ip.block
  return (s, [])

def handle (L : Lookup) (s : State) (addWatch : CString → Int) (registration : List Str) :
    Mem Registrar.Fault (State × List Registrar.Action) := do
  let code ← part registration 0
  use code.block
  if code.text = registerPublisherSanityCheck then registerPublisher s registration
  else if code.text = registerDispatcherSanityCheck then registerDispatcher s registration
  else if code.text = registerFileObjectSanityCheck then registerFile L addWatch s registration
  else return (s, [])

/-- The registrar and its REP socket. -/
structure Service where
  registrar : State
  owed : Bool

def start : Service := ⟨initial, false⟩

/-- One turn of the loop: the request is received, handled and freed. -/
def serve (L : Lookup) (v : Service) (r : Registrar.Request) :
    Mem Registrar.Fault (Service × List Registrar.Action) :=
  if v.owed then halt .receive
  else do
    let registration ← multiPartReceive r.frames
    let (registrar, actions) ← handle L v.registrar r.addWatch registration.2
    freeParts registration.1 registration.2
    return (⟨registrar, (.receive :: actions).foldl Registrar.Action.owes v.owed⟩, .receive :: actions)

/-- `accept_registrations`. -/
def acceptRegistrations (L : Lookup) : Service → List Registrar.Request →
    Mem Registrar.Fault (Service × List Registrar.Action)
  | v, [] => return (v, [])
  | v, r :: rest => do
    let (w, actions) ← serve L v r
    let (x, others) ← acceptRegistrations L w rest
    return (x, actions ++ others)

end Rnotify.Ownership
