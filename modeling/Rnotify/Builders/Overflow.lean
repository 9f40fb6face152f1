import Rnotify.Builders.Core

/-! Whether the strings that are built fit in their buffers.

Nothing is stored past the end of a buffer when its `Fits` holds. For each function
there is the condition under which all of its buffers fit. Ten bytes are enough for a
number of nine bytes (`ShortText`), so for every port and every instance number, but
not for every watch descriptor. `self_register` adds up all that it appends;
`register_publisher_service` counts the terminator of `"tcp://"` into the length that it
passes and so leaves out the one that `to_c_string` adds. A sum of lengths is enough
unless an `int` does not hold it (`IntHolds`). `safe_iff` puts these together. -/
namespace Rnotify.Builders
open Library Registrar Dispatcher

/-- The buffer was obtained, and nothing is stored past its end. -/
def Built (buffer : Option Buffer) : Prop := ∃ b ∈ buffer, b.Fits

instance (buffer : Option Buffer) : Decidable (Built buffer) :=
  decidable_of_iff (buffer.any fun b => decide b.Fits) (by cases buffer <;> simp [Built])

/-- The lengths of a string, as an `int`, and of what comes after it and a terminator together, are an `int`. -/
def IntHolds (length more : Nat) : Prop := length % 2 ^ 32 + more + 1 < 2 ^ 31

instance (length more : Nat) : Decidable (IntHolds length more) := inferInstanceAs (Decidable (_ < _))

/-- A number whose text has nine bytes at the most. -/
def ShortText (z : Int) : Prop := -10 ^ 8 < z ∧ z < 10 ^ 9

instance (z : Int) : Decidable (ShortText z) := inferInstanceAs (Decidable (_ ∧ _))

/-! ### One buffer -/

theorem built_some (b : Buffer) : Built (some b) ↔ b.Fits := by simp [Built]

theorem not_built_none : ¬ Built none := by simp [Built]

theorem length_toCString {str : List Byte} {n : Nat} (h : n ≤ str.length) (size : Nat) :
    (Rnotify.toCString str n size).data.length = n + 1 := by
  rw [Rnotify.toCString, List.length_append, List.length_take, Nat.min_eq_left h]
  rfl

/-- The first bytes of a string, with a terminator. -/
theorem length_str_toCString (s : CString) {n : Nat} (h : n ≤ s.length) (size : Nat) :
    (Rnotify.toCString s.bytes n size).str.length = n := by
  have hfree : 0 ∉ s.bytes.take n := fun hmem => s.nul_free (List.mem_of_mem_take hmem)
  have hstr : (Rnotify.toCString s.bytes n size).str = ⟨s.bytes.take n, hfree⟩ :=
    cstr_terminated ⟨s.bytes.take n, hfree⟩ []
  rw [hstr]
  exact (List.length_take ..).trans (Nat.min_eq_left h)

theorem intHolds_of_lt {length more : Nat} (hlen : length < 2 ^ 29) (hmore : more ≤ 2 ^ 29) :
    IntHolds length more := by
  unfold IntHolds
  omega

/-- A size is what the caller works it out to be, or it comes out too small. -/
theorem toCString_cases (str : List Byte) (n more : Nat) :
    (IntHolds n more ∧ toCString str n (n + more + 1) =
        some (Rnotify.toCString str (n % 2 ^ 32) (n % 2 ^ 32 + more + 1))) ∨
      (¬ IntHolds n more ∧ ∀ b ∈ toCString str n (n + more + 1), ∃ size < n % 2 ^ 32 + more + 1,
        b = Rnotify.toCString str (n % 2 ^ 32) size) := by
  by_cases h : IntHolds n more
  · have hsum : (n + more + 1) % 2 ^ 32 = n % 2 ^ 32 + more + 1 := by
      unfold IntHolds at h
      omega
    refine Or.inl ⟨h, ?_⟩
    rw [toCString_eq, hsum, if_pos ⟨by unfold IntHolds at h; omega, h⟩]
  · refine Or.inr ⟨h, fun b hb => ?_⟩
    rw [toCString_eq] at hb
    split at hb
    · next hints =>
      refine ⟨(n + more + 1) % 2 ^ 32, ?_, (Option.some.inj hb).symm⟩
      unfold IntHolds at h
      omega
    · cases hb

/-- A copy of a string and what is done to it, when the bytes stored are as many as were asked for. -/
theorem built_map_iff (s : CString) (more : Nat) (f : Buffer → Buffer)
    (hfits : ∀ size, (f (Rnotify.toCString s.bytes (s.length % 2 ^ 32) size)).Fits ↔
      s.length % 2 ^ 32 + more + 1 ≤ size) :
    Built ((toCString s.bytes s.length (s.length + more + 1)).map f) ↔ IntHolds s.length more := by
  obtain ⟨h, hb⟩ | ⟨h, hb⟩ := toCString_cases s.bytes s.length more
  · refine iff_of_true ?_ h
    rw [hb, Option.map_some, built_some, hfits]
  · refine iff_of_false ?_ h
    intro hbuilt
    obtain ⟨_, hmem, hfit⟩ := hbuilt
    obtain ⟨b, hbuf, rfl⟩ := Option.map_eq_some_iff.mp hmem
    obtain ⟨size, hsize, rfl⟩ := hb b hbuf
    exact Nat.not_le_of_lt hsize ((hfits size).mp hfit)

/-- A string that is copied and appended to fits exactly when the `int`s hold the lengths. -/
theorem built_strcat_iff (s t : CString) :
    Built ((toCString s.bytes s.length (s.length + t.length + 1)).map fun b => b.strcat t) ↔
      IntHolds s.length t.length := by
  have hle : s.length % 2 ^ 32 ≤ s.length := Nat.mod_le ..
  apply built_map_iff s t.length
  intro size
  rw [Buffer.fits_strcat, Buffer.Fits, length_toCString hle, length_str_toCString s hle]
  refine and_iff_right_of_imp fun hstored => le_trans ?_ hstored
  exact Nat.add_le_add_right (Nat.le_add_right ..) 1

theorem built_copy_iff (s : CString) : Built (copy s) ↔ IntHolds s.length 0 := by
  have hle : s.length % 2 ^ 32 ≤ s.length := Nat.mod_le ..
  have hid : copy s = (toCString s.bytes s.length (s.length + 0 + 1)).map id := by
    rw [Option.map_id]
    rfl
  rw [hid]
  apply built_map_iff s 0 id
  intro size
  rw [id, Buffer.Fits, length_toCString hle, Nat.add_zero]
  exact Iff.rfl

/-- A copy of a copy fits when the copy does. -/
theorem built_copy_copy {s : CString} (h : IntHolds s.length 0) :
    Built ((copy s).bind fun publisher => copy publisher.str) := by
  have hle : s.length % 2 ^ 32 ≤ s.length := Nat.mod_le ..
  obtain ⟨_, hb⟩ | ⟨hnot, _⟩ := toCString_cases s.bytes s.length 0
  · rw [copy, hb, Option.bind_some, built_copy_iff, length_str_toCString s hle, IntHolds, Nat.mod_mod]
    exact h
  · exact absurd h hnot

/-- An address is one string appended to another: the colon and the port. -/
theorem built_address_iff (ip port : CString) :
    Built (address ip port) ↔ IntHolds ip.length (port.length + 1) := by
  have hlen : (colon ++ port).length = port.length + 1 := by
    rw [CString.length_append, Nat.add_comm]
    rfl
  rw [← hlen, ← built_strcat_iff, address, CString.length_append, Nat.add_assoc ip.length]
  simp only [Buffer.strcat_strcat]

theorem built_publishable_iff (fileName instanceNum : CString) :
    Built (publishable fileName.bytes fileName.length instanceNum) ↔
      IntHolds fileName.length instanceNum.length :=
  built_strcat_iff fileName instanceNum

/-- The name of an event is copied with its padding, and what is appended goes over the padding. -/
theorem built_publishable_event_iff (pevent : InotifyEvent) {instanceNum : CString}
    (hshort : instanceNum.length < 2 ^ 31) :
    Built (publishable pevent.name pevent.len.toNat instanceNum) ↔
      IntHolds pevent.len.toNat instanceNum.length := by
  have hlen : pevent.len.toNat % 2 ^ 32 = pevent.len.toNat := Nat.mod_eq_of_lt pevent.len.isLt
  rw [IntHolds, publishable, toCString_eq, hlen]
  by_cases h : pevent.len.toNat + instanceNum.length + 1 < 2 ^ 31
  · refine iff_of_true ?_ h
    have hsize : (pevent.len.toNat + instanceNum.length + 1) % 2 ^ 32 =
        pevent.len.toNat + instanceNum.length + 1 := Nat.mod_eq_of_lt (by omega)
    have hstored := length_toCString (le_of_eq pevent.name_length.symm)
      (pevent.len.toNat + instanceNum.length + 1)
    have hstr : (Rnotify.toCString pevent.name pevent.len.toNat
        (pevent.len.toNat + instanceNum.length + 1)).str.length ≤ pevent.len.toNat := by
      rw [← pevent.name_length, str_toCString_length]
      exact strlen_le pevent.name
    rw [hsize, if_pos ⟨by omega, h⟩, Option.map_some, built_some, Buffer.fits_strcat, Buffer.Fits, hstored]
    exact ⟨Nat.add_le_add_right (Nat.le_add_right ..) 1,
      Nat.add_le_add_right (Nat.add_le_add_right hstr _) 1⟩
  · refine iff_of_false ?_ h
    have hlt := pevent.len.isLt
    rw [if_neg (by omega), Option.map_none]
    exact not_built_none

/-- `ip_string` takes the terminator's place from the address: there must be one. -/
theorem built_ipString_iff (ip : IpAddress) : Built (ipString ip) ↔ ip.host ≠ literal "" := by
  have hhost := ip.fits
  have hsize : tcp.length + 1 + ip.host.length = 7 + ip.host.length := rfl
  have hstored : (Rnotify.toCString tcp.memory 7 (7 + ip.host.length)).data.length = 8 := rfl
  have hstr : (Rnotify.toCString tcp.memory 7 (7 + ip.host.length)).str.length = 6 := rfl
  have hempty : ip.host = literal "" ↔ ip.host.length = 0 := by
    rw [CString.length, List.length_eq_zero_iff]
    exact CString.bytes_injective.eq_iff.symm
  rw [ipString, hsize, show tcp.length + 1 = 7 from rfl, toCString_of_lt _ (by decide) (by omega),
    Option.map_some, built_some, Buffer.fits_strcat, Buffer.Fits, hstored, hstr, Ne, hempty]
  show 8 ≤ 7 + ip.host.length ∧ 6 + ip.host.length + 1 ≤ 7 + ip.host.length ↔ _
  omega

/-- `self_register` adds up the lengths of all that it appends. -/
theorem fits_selfAddress (myIpAddress : IpAddress) (myPort : CString) :
    (selfAddress myIpAddress myPort).Fits := by
  have hscheme : (⟨tcp.length + myIpAddress.host.length + myPort.length + colon.length + 1, tcp.memory⟩ :
      Buffer).str = tcp := cstr_terminated tcp []
  rw [selfAddress, Buffer.strcat_strcat, Buffer.strcat_strcat, Buffer.fits_strcat, hscheme]
  constructor
  · show tcp.length + 1 ≤ tcp.length + myIpAddress.host.length + myPort.length + colon.length + 1
    omega
  · show tcp.length + (myIpAddress.host ++ (colon ++ myPort)).length + 1 ≤
      tcp.length + myIpAddress.host.length + myPort.length + colon.length + 1
    rw [CString.length_append, CString.length_append]
    omega

/-! ### Numbers -/

theorem built_sprintf_iff (z : Int) : Built (some (.sprintf 10 z)) ↔ ShortText z := by
  rw [built_some, Buffer.fits_sprintf, Nat.lt_succ_iff]
  exact decimal_length_le (by decide) z

theorem shortText_of_lt {n : Nat} (h : n < 10 ^ 9) : ShortText n := by
  unfold ShortText
  omega

theorem shortText_port (port : Fin 65536) : ShortText port.val :=
  shortText_of_lt (lt_trans port.isLt (by decide))

theorem shortText_instance {i : Nat} (hi : i ∈ instances) : ShortText i :=
  shortText_of_lt (lt_of_le_of_lt (mem_instances.mp hi).2 (by decide))

/-! ### One function -/

/-- Every buffer of a function is obtained, and nothing is stored past the end of one. -/
def Safe (buffers : List (Option Buffer)) : Prop := ∀ buffer ∈ buffers, Built buffer

instance (buffers : List (Option Buffer)) : Decidable (Safe buffers) :=
  inferInstanceAs (Decidable (∀ buffer ∈ buffers, Built buffer))

theorem safe_flatten (functions : List (List (Option Buffer))) :
    Safe functions.flatten ↔ ∀ buffers ∈ functions, Safe buffers := by
  simp only [Safe, List.mem_flatten]
  exact ⟨fun h buffers hmem buffer hb => h buffer ⟨buffers, hmem, hb⟩,
    fun h buffer ⟨buffers, hmem, hb⟩ => h buffers hmem buffer hb⟩

theorem safe_cons (buffer : Option Buffer) (rest : List (Option Buffer)) :
    Safe (buffer :: rest) ↔ Built buffer ∧ Safe rest := List.forall_mem_cons

theorem safe_single (buffer : Option Buffer) : Safe [buffer] ↔ Built buffer := List.forall_mem_singleton

theorem safe_notify_iff (pevent : InotifyEvent) : Safe (notify pevent) ↔ ShortText pevent.wd.toInt := by
  rw [notify, safe_single, built_sprintf_iff]

theorem safe_registerNotification_iff (wd : BitVec 32) :
    Safe (registerNotification wd) ↔ ShortText wd.toInt := by
  rw [registerNotification, safe_single, built_sprintf_iff]

theorem safe_registerPublisherService_iff (acceptPort publishPort : Fin 65536) (ip : IpAddress) :
    Safe (registerPublisherService acceptPort publishPort ip) ↔ ip.host ≠ literal "" := by
  rw [registerPublisherService, safe_cons, safe_cons, safe_single, built_sprintf_iff, built_sprintf_iff,
    built_ipString_iff, and_iff_right (shortText_port acceptPort), and_iff_right (shortText_port publishPort)]

theorem safe_selfRegister (myIpAddress : IpAddress) (myPort : CString) :
    Safe (selfRegister myIpAddress myPort) := by
  rw [selfRegister, safe_single, built_some]
  exact fits_selfAddress myIpAddress myPort

theorem safe_getPublishersTableTurn_iff (fileName node : CString) {i : Nat} (hi : i ∈ instances) :
    Safe (getPublishersTableTurn fileName node i) ↔
      IntHolds fileName.length (instanceLength i) ∧ IntHolds node.length 0 := by
  rw [getPublishersTableTurn, safe_cons, safe_cons, safe_cons, safe_single, built_sprintf_iff,
    and_iff_right (shortText_instance hi), built_publishable_iff, built_copy_iff, length_decimal_instance i hi]
  exact and_congr_right fun _ => ⟨fun h => h.1, fun h => ⟨h, built_copy_copy h⟩⟩

theorem safe_getPublishersTable_iff (fileName : CString) (nodes : Nat → CString) :
    Safe (getPublishersTable fileName nodes) ↔
      IntHolds fileName.length 2 ∧ ∀ i ∈ instances, IntHolds (nodes i).length 0 := by
  have hturns : Safe (getPublishersTable fileName nodes) ↔
      ∀ i ∈ instances, IntHolds fileName.length (instanceLength i) ∧ IntHolds (nodes i).length 0 := by
    rw [Safe, getPublishersTable, List.forall_mem_flatMap]
    exact forall₂_congr fun i hi => safe_getPublishersTableTurn_iff fileName (nodes i) hi
  rw [hturns]
  constructor
  · intro h
    exact ⟨(h replicationFactor (by decide)).1, fun i hi => (h i hi).2⟩
  · intro h i hi
    refine ⟨lt_of_le_of_lt ?_ h.1, h.2 i hi⟩
    exact Nat.add_le_add_right (Nat.add_le_add_left (instanceLength_le i) _) 1

theorem safe_newPublisher_iff (ip acceptPort publishPort : CString) :
    Safe (newPublisher ip acceptPort publishPort) ↔
      IntHolds ip.length 0 ∧ IntHolds acceptPort.length 0 ∧ IntHolds publishPort.length 0 := by
  rw [newPublisher, safe_cons, safe_cons, safe_single, built_copy_iff, built_copy_iff, built_copy_iff]

theorem safe_notifyDispatchers_iff (p : Publisher) :
    Safe (notifyDispatchers p) ↔ IntHolds p.ip.length (p.acceptPort.length + 1) := by
  rw [notifyDispatchers, safe_single, built_address_iff]

theorem safe_registerFile_iff (wd : BitVec 32) (p : Publisher) :
    Safe (registerFile wd p) ↔ IntHolds p.ip.length (p.publishPort.length + 1) := by
  have hok : Built (copy registerOk) := by decide
  have hid : Built (copy (decimal wd.toInt)) := by
    have hlen : (decimal wd.toInt).length ≤ 11 := by
      rw [decimal_length_le (by decide)]
      have hlow := BitVec.le_toInt wd
      have hhigh := BitVec.toInt_lt (x := wd)
      omega
    rw [built_copy_iff, IntHolds]
    omega
  rw [registerFile, safe_cons, safe_cons, safe_single, built_address_iff, and_iff_right hok, and_iff_right hid]

theorem safe_publisherUpdater_iff (publisherAddr : CString) :
    Safe (publisherUpdater publisherAddr) ↔ IntHolds publisherAddr.length 0 := by
  rw [publisherUpdater, safe_single, built_copy_iff]

theorem safe_notifyRandomPublisher_iff (pevent : InotifyEvent) (rand : Nat) (node : CString) :
    Safe (notifyRandomPublisher pevent rand node) ↔
      IntHolds pevent.len.toNat (instanceLength (rand % replicationFactor + 1)) ∧ IntHolds node.length 0 := by
  have hinstance := drawn_mem_instances rand
  have hshort : (decimal (rand % replicationFactor + 1 : Nat)).length < 2 ^ 31 :=
    lt_of_le_of_lt (length_decimal_instance_le hinstance) (by decide)
  rw [notifyRandomPublisher, safe_cons, safe_cons, safe_single, built_sprintf_iff,
    and_iff_right (shortText_instance hinstance), built_publishable_event_iff pevent hshort, built_copy_iff,
    length_decimal_instance _ hinstance]

/-! ### All of them -/

/-- What the functions are called with, and what they are answered. -/
structure Inputs where
  /-- The event of `notify` and of `notify_random_publisher`. -/
  pevent : InotifyEvent
  /-- What `inotify_add_watch` answers. -/
  wd : BitVec 32
  acceptPort : Fin 65536
  publishPort : Fin 65536
  /-- What `get_ip_address` answers a publisher. -/
  ip : IpAddress
  /-- What it answers a process that calls `self_register`. -/
  myIpAddress : IpAddress
  myPort : CString
  /-- The frames of a registration that `new_publisher` copies. -/
  registration : Publisher
  /-- A publisher of the table. -/
  publisher : Publisher
  /-- The path of a file registration. -/
  fileName : CString
  /-- The names that the registrar's ring answers for the instances of the file. -/
  nodes : Nat → CString
  /-- An announcement. -/
  publisherAddr : CString
  rand : Nat
  /-- The name that the dispatcher's ring answers. -/
  node : CString

/-- All that is built, function by function. -/
def builders (x : Inputs) : List (Option Buffer) :=
  [notify x.pevent, registerNotification x.wd, registerPublisherService x.acceptPort x.publishPort x.ip,
    selfRegister x.myIpAddress x.myPort,
    newPublisher x.registration.ip x.registration.acceptPort x.registration.publishPort,
    notifyDispatchers x.publisher, registerFile x.wd x.publisher, getPublishersTable x.fileName x.nodes,
    publisherUpdater x.publisherAddr, notifyRandomPublisher x.pevent x.rand x.node].flatten

/-- The lengths that `to_c_string` is given are `int`s. -/
structure Lengths (x : Inputs) : Prop where
  registration : IntHolds x.registration.ip.length 0 ∧ IntHolds x.registration.acceptPort.length 0 ∧
    IntHolds x.registration.publishPort.length 0
  acceptAddr : IntHolds x.publisher.ip.length (x.publisher.acceptPort.length + 1)
  publishAddr : IntHolds x.publisher.ip.length (x.publisher.publishPort.length + 1)
  fileName : IntHolds x.fileName.length 2
  nodes : ∀ i ∈ instances, IntHolds (x.nodes i).length 0
  publisherAddr : IntHolds x.publisherAddr.length 0
  name : IntHolds x.pevent.len.toNat (instanceLength (x.rand % replicationFactor + 1))
  node : IntHolds x.node.length 0

/-- Watch descriptors have short texts, a publisher has an address, and lengths are `int`s. -/
structure Bounded (x : Inputs) : Prop where
  topic : ShortText x.pevent.wd.toInt
  id : ShortText x.wd.toInt
  ip : x.ip.host ≠ literal ""
  lengths : Lengths x

/-- **Where the buffers are large enough.** Nothing is stored past the end of a buffer exactly
when the text of each watch descriptor has nine bytes at the most, `get_ip_address` finds an
address for the publisher, and an `int` holds each length that `to_c_string` is given. -/
theorem safe_iff (x : Inputs) : Safe (builders x) ↔ Bounded x := by
  rw [builders, safe_flatten]
  simp only [List.forall_mem_cons, safe_notify_iff, safe_registerNotification_iff,
    safe_registerPublisherService_iff, safe_newPublisher_iff, safe_notifyDispatchers_iff,
    safe_registerFile_iff, safe_getPublishersTable_iff, safe_publisherUpdater_iff,
    safe_notifyRandomPublisher_iff]
  constructor
  · intro h
    obtain ⟨htopic, hid, hip, _, hregistration, haccept, hpublish, hfile, haddr, ⟨hname, hnode⟩, _⟩ := h
    exact ⟨htopic, hid, hip, hregistration, haccept, hpublish, hfile.1, hfile.2, haddr, hname, hnode⟩
  · intro h
    have hself := safe_selfRegister x.myIpAddress x.myPort
    obtain ⟨htopic, hid, hip, hl⟩ := h
    exact ⟨htopic, hid, hip, hself, hl.registration, hl.acceptAddr, hl.publishAddr, ⟨hl.fileName, hl.nodes⟩,
      hl.publisherAddr, ⟨hl.name, hl.node⟩, nofun⟩

/-- A host with no address but the loopback's. -/
def offline : Inputs where
  pevent := created 1
  wd := 1
  acceptPort := 49152
  publishPort := 49153
  ip := ⟨literal "", by decide⟩
  myIpAddress := ⟨literal "", by decide⟩
  myPort := literal "4000"
  registration := ⟨literal "tcp://10.0.0.2", literal "49152", literal "49153"⟩
  publisher := ⟨literal "tcp://10.0.0.2", literal "49152", literal "49153"⟩
  fileName := literal "a"
  nodes := fun _ => literal "tcp://10.0.0.2:49152"
  publisherAddr := literal "tcp://10.0.0.2:49152"
  rand := 0
  node := literal "tcp://10.0.0.2:49152"

/-- A host that has one, and has given out its thousand millionth watch descriptor. -/
def longDescriptor : Inputs :=
  { offline with wd := 1000000000, ip := ⟨literal "10.0.0.2", by decide⟩ }

/-- With no address, eight bytes go into the seven of `ip_string`; with a long watch descriptor, eleven
into the ten of `register_notification`. -/
theorem not_safe_offline :
    (ipString offline.ip = some ⟨7, ascii "tcp://" ++ [0, 0]⟩ ∧ ¬ Safe (builders offline)) ∧
      ((Buffer.sprintf 10 longDescriptor.wd.toInt).data = ascii "1000000000" ++ [0] ∧
        ¬ Safe (builders longDescriptor)) :=
  ⟨⟨rfl, by decide⟩, by decide, by decide⟩

/-- The strings of the inputs that the registrar and the dispatcher copy. -/
def Inputs.strings (x : Inputs) : List CString :=
  [x.registration.ip, x.registration.acceptPort, x.registration.publishPort, x.publisher.ip,
    x.publisher.acceptPort, x.publisher.publishPort, x.fileName, x.publisherAddr, x.node] ++
    instances.map x.nodes

/-- No string of less than half a gigabyte is too long. -/
theorem lengths_of_short (x : Inputs) (hstrings : ∀ s ∈ x.strings, s.length < 2 ^ 29)
    (hname : x.pevent.len.toNat < 2 ^ 29) : Lengths x := by
  simp only [Inputs.strings, List.forall_mem_append, List.forall_mem_cons, List.forall_mem_map] at hstrings
  obtain ⟨⟨hip, haccept, hpublish, hpip, hpaccept, hppublish, hfile, haddr, hnode, _⟩, hnodes⟩ := hstrings
  constructor
  case registration =>
    exact ⟨intHolds_of_lt hip (by decide), intHolds_of_lt haccept (by decide),
      intHolds_of_lt hpublish (by decide)⟩
  case acceptAddr => exact intHolds_of_lt hpip hpaccept
  case publishAddr => exact intHolds_of_lt hpip hppublish
  case fileName => exact intHolds_of_lt hfile (by decide)
  case nodes => exact fun i hi => intHolds_of_lt (hnodes i hi) (by decide)
  case publisherAddr => exact intHolds_of_lt haddr (by decide)
  case name => exact intHolds_of_lt hname (le_trans (instanceLength_le _) (by decide))
  case node => exact intHolds_of_lt hnode (by decide)

end Rnotify.Builders
