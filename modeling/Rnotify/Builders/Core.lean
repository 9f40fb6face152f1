import Rnotify.Library.Bounds
import Rnotify.Dispatcher.Core
import Rnotify.Registrar.Discipline

/-! The strings that are built in memory.

A string that is sent or hashed is built in a buffer from `malloc`, of a size that
the function works out beforehand: ten bytes for a number, or a sum of lengths for
`to_c_string`, which copies a string and puts a terminator at its length, and whose
callers append the rest. Each function is here as the buffers that it builds, with
all that is stored into them. `to_c_string` takes its length and its size as `int`s;
while these hold the lengths (`toCString_of_lt`), the buffers' strings are the ones
that the rest of the development sends and hashes. -/
namespace Rnotify.Builders
open Library Registrar Dispatcher

/-- `to_c_string`, on the length and the size that a caller works out. As a `size_t`, a negative size is more
than `malloc` has, and a negative length more than any buffer. -/
def toCString (str : List Byte) (strLen size : Nat) : Option Buffer :=
  if 0 ≤ toInt strLen ∧ 0 ≤ toInt size then
    some (Rnotify.toCString str (toInt strLen).toNat (toInt size).toNat)
  else none

/-- A string, as most callers of `to_c_string` copy it. -/
def copy (s : CString) : Option Buffer := toCString s.bytes s.length (s.length + 1)

/-- `ip`, `":"` and the port, in one buffer. -/
def address (ip port : CString) : Option Buffer :=
  (toCString ip.bytes ip.length (ip.length + colon.length + port.length + 1)).map fun b =>
    (b.strcat colon).strcat port

/-- A name and an instance number, in one buffer. -/
def publishable (name : List Byte) (len : Nat) (instanceNum : CString) : Option Buffer :=
  (toCString name len (len + instanceNum.length + 1)).map fun b => b.strcat instanceNum

/-! ### The functions, by what they build -/

/-- What `get_ip_address` returns: what `getnameinfo` put into a host of `NI_MAXHOST` bytes, or `""`. -/
structure IpAddress where
  host : CString
  fits : host.length < 1025

def tcp : CString := literal "tcp://"

def notify (pevent : InotifyEvent) : List (Option Buffer) := [some (.sprintf 10 pevent.wd.toInt)]

def registerNotification (wd : BitVec 32) : List (Option Buffer) := [some (.sprintf 10 wd.toInt)]

/-- `ip_string`: the length passed counts the terminator of `"tcp://"`. -/
def ipString (ip : IpAddress) : Option Buffer :=
  (toCString tcp.memory (tcp.length + 1) (tcp.length + 1 + ip.host.length)).map fun b => b.strcat ip.host

def registerPublisherService (acceptPort publishPort : Fin 65536) (ip : IpAddress) : List (Option Buffer) :=
  [some (.sprintf 10 acceptPort), some (.sprintf 10 publishPort), ipString ip]

/-- `address` in `self_register`, from its `strcpy` on. -/
def selfAddress (myIpAddress : IpAddress) (myPort : CString) : Buffer :=
  let size := tcp.length + myIpAddress.host.length + myPort.length + colon.length + 1
  ((Buffer.strcat ⟨size, tcp.memory⟩ myIpAddress.host).strcat colon).strcat myPort

def selfRegister (myIpAddress : IpAddress) (myPort : CString) : List (Option Buffer) :=
  [some (selfAddress myIpAddress myPort)]

/-- One turn of the loop in `get_publishers_table`, for the name that the ring answers. -/
def getPublishersTableTurn (fileName node : CString) (i : Nat) : List (Option Buffer) :=
  [some (.sprintf 10 i), publishable fileName.bytes fileName.length (decimal i), copy node,
    (copy node).bind fun publisher => copy publisher.str]

def getPublishersTable (fileName : CString) (nodes : Nat → CString) : List (Option Buffer) :=
  instances.flatMap fun i => getPublishersTableTurn fileName (nodes i) i

def newPublisher (ip acceptPort publishPort : CString) : List (Option Buffer) :=
  [copy ip, copy acceptPort, copy publishPort]

def notifyDispatchers (p : Publisher) : List (Option Buffer) := [address p.ip p.acceptPort]

/-- The reply to a file registration, with the id that the proxy printed; for one publisher of the table. -/
def registerFile (wd : BitVec 32) (p : Publisher) : List (Option Buffer) :=
  [copy registerOk, copy (decimal wd.toInt), address p.ip p.publishPort]

def publisherUpdater (publisherAddr : CString) : List (Option Buffer) := [copy publisherAddr]

def notifyRandomPublisher (pevent : InotifyEvent) (rand : Nat) (node : CString) : List (Option Buffer) :=
  let instanceNum : Nat := rand % replicationFactor + 1
  [some (.sprintf 10 instanceNum), publishable pevent.name pevent.len.toNat (decimal instanceNum), copy node]

/-! ### Lengths -/

theorem toCString_eq (str : List Byte) (strLen size : Nat) : toCString str strLen size =
    if strLen % 2 ^ 32 < 2 ^ 31 ∧ size % 2 ^ 32 < 2 ^ 31 then
      some (Rnotify.toCString str (strLen % 2 ^ 32) (size % 2 ^ 32))
    else none := by
  simp only [toCString, toInt_nonneg_iff]
  split
  · next h => rw [toNat_toInt h.1, toNat_toInt h.2]
  · rfl

/-- Lengths and sizes that an `int` holds are what `to_c_string` gets. -/
theorem toCString_of_lt (str : List Byte) {strLen size : Nat} (hlen : strLen < 2 ^ 31) (hsize : size < 2 ^ 31) :
    toCString str strLen size = some (Rnotify.toCString str strLen size) := by
  have hlen' : strLen % 2 ^ 32 = strLen := Nat.mod_eq_of_lt (by omega)
  have hsize' : size % 2 ^ 32 = size := Nat.mod_eq_of_lt (by omega)
  rw [toCString_eq, hlen', hsize', if_pos ⟨hlen, hsize⟩]

/-- How long the text of an instance number is. -/
def instanceLength (i : Nat) : Nat := if i = replicationFactor then 2 else 1

theorem length_decimal_instance : ∀ i ∈ instances, (decimal i).length = instanceLength i := by decide

theorem instanceLength_le (i : Nat) : instanceLength i ≤ 2 := by
  unfold instanceLength
  split <;> decide

theorem length_decimal_instance_le {i : Nat} (hi : i ∈ instances) : (decimal i).length ≤ 2 :=
  le_of_eq_of_le (length_decimal_instance i hi) (instanceLength_le i)

/-! ### What is sent from them -/

/-- The addresses that the registrar sends. -/
theorem str_address {ip port : CString} (h : ip.length + port.length + 2 < 2 ^ 31) :
    (address ip port).map Buffer.str = some (Registrar.address ip port) := by
  have hcolon : colon.length = 1 := rfl
  rw [address, toCString_of_lt _ (by omega) (by omega)]
  rfl

/-- The bytes that the registrar hashes. -/
theorem registrarKey_publishable {fileName : CString} {i : Nat} (hi : i ∈ instances)
    (h : fileName.length + 3 < 2 ^ 31) :
    (publishable fileName.bytes fileName.length (decimal i)).map (fun b => b.data.take (strlen b.data + 1)) =
      some (registrarKey fileName i) := by
  have hlen := length_decimal_instance_le hi
  rw [publishable, toCString_of_lt _ (by omega) (by omega)]
  rfl

/-- The bytes that the dispatcher hashes. -/
theorem dispatcherKey_publishable {pevent : InotifyEvent} (rand : Nat) (h : pevent.len.toNat + 3 < 2 ^ 31) :
    (publishable pevent.name pevent.len.toNat (decimal (rand % replicationFactor + 1 : Nat))).map
        (fun b => b.data.take (strlen b.data)) = some (dispatcherKey pevent rand) := by
  have hlen := length_decimal_instance_le (drawn_mem_instances rand)
  rw [publishable, toCString_of_lt _ (by omega) (by omega)]
  rfl

/-- The topic of an event. -/
theorem topic_notify {pevent : InotifyEvent} {wire : Wire} (h : Rnotify.notify pevent = some wire) :
    wire.head? = some ⟨(Buffer.sprintf 10 pevent.wd.toInt).str.bytes, true⟩ := by
  obtain ⟨_, _, _, hhead⟩ := notify_received h
  rw [Buffer.str_sprintf]
  exact hhead

/-- The id of a file registration. -/
theorem str_registerNotification (addWatch : CString → Int) (fileName : CString) :
    (Buffer.sprintf 10 (addWatch fileName)).str = Registrar.registerNotification addWatch fileName :=
  Buffer.str_sprintf 10 (addWatch fileName)

/-- A publisher sends `ip_string` and its ports, also when the first has run over. -/
theorem frames_registerPublisherService (acceptPort publishPort : Fin 65536) (ip : IpAddress) :
    ∃ b ∈ ipString ip, (Registrar.registerPublisherService ip.host acceptPort publishPort).frames =
      [registerPublisherSanityCheck.bytes, b.str.bytes, (Buffer.sprintf 10 acceptPort).str.bytes,
        (Buffer.sprintf 10 publishPort).str.bytes] := by
  have hhost := ip.fits
  have htcp : tcp.length = 6 := rfl
  have hstr : (Rnotify.toCString tcp.memory (tcp.length + 1) (tcp.length + 1 + ip.host.length)).str = tcp :=
    cstr_terminated tcp [0]
  have hbuilt : ipString ip = some ((Rnotify.toCString tcp.memory (tcp.length + 1)
      (tcp.length + 1 + ip.host.length)).strcat ip.host) := by
    rw [ipString, toCString_of_lt _ (by omega) (by omega), Option.map_some]
  refine ⟨_, hbuilt, ?_⟩
  rw [Buffer.str_strcat, hstr, Buffer.str_sprintf, Buffer.str_sprintf]
  rfl

/-- `self_register` sends what it has put together. -/
theorem frames_selfRegister (myIpAddress : IpAddress) (myPort : CString) :
    (Registrar.selfRegister myIpAddress.host myPort).frames =
      [registerDispatcherSanityCheck.bytes, (selfAddress myIpAddress myPort).str.bytes] := by
  have hscheme (size : Nat) : (⟨size, tcp.memory⟩ : Buffer).str = tcp := cstr_terminated tcp []
  rw [selfAddress, Buffer.str_strcat, Buffer.str_strcat, Buffer.str_strcat, hscheme]
  rfl

end Rnotify.Builders
