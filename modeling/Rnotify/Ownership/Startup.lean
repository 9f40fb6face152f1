import Rnotify.Ownership.Helper
import Rnotify.Registrar.Service

/-! How a publisher starts (`publisher.c`, `ip.h`).

`get_ip_address` walks over the host's interfaces to the first that is not the loopback
and has an IPv4 address, and gives its numeric host in a block of its own. Where there
is none it gives `""`, which is not on the heap, and which `register_publisher_service`
frees all the same, having built its `ip_string` a byte too short for it and sent the
registration. So a publisher comes to its proxy when the walk comes to an interface
whose host `getnameinfo` gives, registered under that host, and otherwise it has
registered under `""` when it stops (`publisher_starts`); of the registrar's reply it
keeps the strings, since `main` frees their array alone. -/
namespace Rnotify.Ownership
open Library Mem

/-- `exit(EXIT_FAILURE)`. -/
inductive Exit where
  | failure
deriving DecidableEq

/-! ### Interfaces -/

def afInet : ℕ := 2

structure Sockaddr where
  family : ℕ
  /-- The numeric host that `getnameinfo` gives, if it succeeds. -/
  nameinfo : Option CString

/-- `struct ifaddrs`. -/
structure Ifaddrs where
  ifaName : Option CString
  ifaAddr : Option Sockaddr

/-- The test in the walk, on an interface with an address. -/
def Usable (name : Option CString) (addr : Sockaddr) : Prop := name ≠ some (literal "lo") ∧ addr.family = afInet

instance (name : Option CString) (addr : Sockaddr) : Decidable (Usable name addr) :=
  inferInstanceAs (Decidable (_ ∧ _))

/-- What `get_ip_address` returns. -/
inductive Host where
  /-- `""`. -/
  | static
  | heap (s : Str)

namespace Host

def text : Host → CString
  | static => literal ""
  | heap s => s.text

def owned : Host → Multiset ℕ
  | static => 0
  | heap s => {s.block}

def use : Host → Mem Exit Unit
  | static => return ()
  | heap s => Mem.use s.block

def free : Host → Mem Exit Unit
  | static => freeStatic
  | heap s => Mem.free s.block

theorem use_spec {P : Multiset ℕ} (ip : Host) (h : ip.owned ≤ P) : Spec P ip.use fun _ R => R = P := by
  cases ip with
  | static => exact .pure rfl
  | heap s => exact .use (Multiset.singleton_le.mp h)

end Host

/-- The loop of `get_ip_address`, over the list that `getifaddrs` gave. -/
def walk (host ifaddr : ℕ) : List Ifaddrs → Mem Exit Host
  | [] => return .static
  | ifa :: rest => do
    use ifaddr
    match ifa.ifaAddr with
    | none => walk host ifaddr rest
    | some addr =>
      if Usable ifa.ifaName addr then
        match addr.nameinfo with
        | none => halt .failure
        | some name => do
          use host
          free ifaddr
          return .heap ⟨host, name⟩
      else walk host ifaddr rest

/-- `get_ip_address`, on what `getifaddrs` gives, if it succeeds. -/
def getIpAddress (getifaddrs : Option (List Ifaddrs)) : Mem Exit Host := do
  let host ← malloc
  match getifaddrs with
  | none => halt .failure
  | some interfaces => do
    let ifaddr ← malloc
    walk host ifaddr interfaces

/-! ### Registration -/

/-- The four frames of `register_publisher_service`. -/
def sendRegistration (ip acceptPort publishPort : Str) : Mem Exit (List Frame) := do
  let content ← malloc
  let code ← malloc
  use ip.block
  let host ← malloc
  use acceptPort.block
  let accept ← malloc
  use publishPort.block
  let publish ← malloc
  sendFrames [code, host, accept, publish]
  free content
  return [registerPublisherSanityCheck.bytes, ip.text.bytes, acceptPort.text.bytes, publishPort.text.bytes]

/-- What `register_publisher_service` holds once it has sent `frames`. -/
structure Registration where
  frames : List Frame
  ip : Host
  ipString : Str
  acceptPortString : Str
  publishPortString : Str

/-- `register_publisher_service`, up to the send. -/
def beginRegistration (getifaddrs : Option (List Ifaddrs)) (acceptPort publishPort : ℤ) : Mem Exit Registration := do
  let acceptPortString ← newStr (decimal acceptPort)
  let publishPortString ← newStr (decimal publishPort)
  let ip ← getIpAddress getifaddrs
  ip.use
  let ipString ← newStr (literal "tcp://" ++ ip.text)
  let frames ← sendRegistration ipString acceptPortString publishPortString
  return ⟨frames, ip, ipString, acceptPortString, publishPortString⟩

/-- `register_publisher_service`: what it sends, and the reply. -/
def registerPublisherService (getifaddrs : Option (List Ifaddrs)) (acceptPort publishPort : ℤ) (reply : List Frame) :
    Mem Exit (List Frame × ℕ × List Str) := do
  let sent ← beginRegistration getifaddrs acceptPort publishPort
  sent.ip.free
  free sent.ipString.block
  free sent.acceptPortString.block
  free sent.publishPortString.block
  let response ← multiPartReceive reply
  return (sent.frames, response)

/-- `main` up to `zmq_proxy`, for the ports that its sockets are bound to: the registration that it sent. -/
def publisherMain (getifaddrs : Option (List Ifaddrs)) (acceptPort publishPort : ℤ) (reply : List Frame) :
    Mem Exit (List Frame) := do
  let registration ← registerPublisherService getifaddrs acceptPort publishPort reply
  free registration.2.1
  return registration.1

/-! ### What the walk comes to -/

/-- The address that the walk stops at: the first of an interface that passes the test. -/
def chosen (interfaces : List Ifaddrs) : Option Sockaddr :=
  interfaces.findSome? fun ifa => ifa.ifaAddr.filter fun addr => Usable ifa.ifaName addr

/-- The host that the walk ends with, if there is one. -/
def numericHost (interfaces : List Ifaddrs) : Except Exit (Option CString) :=
  match chosen interfaces with
  | none => .ok none
  | some addr =>
    match addr.nameinfo with
    | none => .error .failure
    | some name => .ok (some name)

/-- What is left of the host's block and the list. -/
def Walked (host ifaddr : ℕ) : Option CString → Host → Multiset ℕ → Prop
  | none, ip, R => ip = .static ∧ R = {host} + {ifaddr}
  | some name, ip, R => ip = .heap ⟨host, name⟩ ∧ R = {host}

theorem walk_follows (host ifaddr : ℕ) (interfaces : List Ifaddrs) :
    Follows ({host} + {ifaddr}) (walk host ifaddr interfaces) (numericHost interfaces) (Walked host ifaddr) := by
  induction interfaces with
  | nil => exact .pure ⟨rfl, rfl⟩
  | cons ifa rest ih =>
    refine .pass (.use (b := ifaddr) (by simp)) fun _ R hR => ?_
    rw [hR]
    have hnext : (ifa.ifaAddr.filter fun addr => Usable ifa.ifaName addr) = none →
        numericHost (ifa :: rest) = numericHost rest := by
      intro h
      rw [numericHost, numericHost, chosen, List.findSome?_cons, h]
      rfl
    cases haddr : ifa.ifaAddr with
    | none =>
      rw [hnext (by rw [haddr]; rfl)]
      exact ih
    | some addr =>
      by_cases husable : Usable ifa.ifaName addr
      · have hchosen : chosen (ifa :: rest) = some addr := by
          rw [chosen, List.findSome?_cons, haddr, Option.filter_some, if_pos (decide_eq_true husable)]
        rw [numericHost, hchosen]
        show Follows _ (if Usable ifa.ifaName addr then _ else _) _ _
        rw [if_pos husable]
        dsimp only
        cases addr.nameinfo with
        | none => exact .halt
        | some name =>
          refine .pass (.use (b := host) (by simp)) fun _ R hR => ?_
          refine .skip {host} (.free ifaddr) (by rw [hR]; abel) fun _ R hR => ?_
          exact .pure ⟨rfl, by rw [hR, zero_add]⟩
      · rw [hnext (by rw [haddr, Option.filter_some, if_neg (by simpa using husable)])]
        show Follows _ (if Usable ifa.ifaName addr then _ else _) _ _
        rw [if_neg husable]
        exact ih

/-- The host that `get_ip_address` gives, if it returns and the host is not `""`. -/
def hostOf (getifaddrs : Option (List Ifaddrs)) : Except Exit (Option CString) :=
  match getifaddrs with
  | none => .error .failure
  | some interfaces => numericHost interfaces

theorem getIpAddress_follows (getifaddrs : Option (List Ifaddrs)) :
    Follows 0 (getIpAddress getifaddrs) (hostOf getifaddrs) fun name ip R =>
      ∃ host ifaddr, Walked host ifaddr name ip R := by
  refine .pass .malloc fun host R hR => ?_
  rw [hR]
  cases getifaddrs with
  | none => exact .halt
  | some interfaces =>
    refine .skip {host} .malloc (zero_add _).symm fun ifaddr R hR => ?_
    rw [hR, add_comm]
    exact (walk_follows host ifaddr interfaces).mono fun name ip R h => ⟨host, ifaddr, h⟩

/-- What was walked to is the host, and holds its block. -/
theorem Walked.owned {host ifaddr : ℕ} {name : Option CString} {ip : Host} {R : Multiset ℕ}
    (h : Walked host ifaddr name ip R) : ip.owned ≤ R ∧ ip.text = name.getD (literal "") := by
  cases name with
  | none =>
    obtain ⟨rfl, _⟩ := h
    exact ⟨Multiset.zero_le _, rfl⟩
  | some name =>
    obtain ⟨rfl, rfl⟩ := h
    exact ⟨le_refl _, rfl⟩

/-! ### What is sent -/

theorem sendRegistration_spec {P : Multiset ℕ} {ip acceptPort publishPort : Str} (hip : ip.block ∈ P)
    (haccept : acceptPort.block ∈ P) (hpublish : publishPort.block ∈ P) :
    Spec P (sendRegistration ip acceptPort publishPort) fun frames R => R = P ∧
      frames = [registerPublisherSanityCheck.bytes, ip.text.bytes, acceptPort.text.bytes, publishPort.text.bytes] := by
  refine .step P .malloc (zero_add P).symm fun content R hR => ?_
  refine .step ({content} + P) .malloc (by rw [hR, zero_add]) fun code R hR => ?_
  refine .next (.use (b := ip.block) (by simp [hip])) fun _ R₁ h₁ => ?_
  refine .step ({code} + {content} + P) .malloc (by rw [h₁, hR, zero_add, add_assoc]) fun host R hR => ?_
  refine .next (.use (b := acceptPort.block) (by simp [haccept])) fun _ R₂ h₂ => ?_
  refine .step ({host} + {code} + {content} + P) .malloc (by rw [h₂, hR]; abel) fun accept R hR => ?_
  refine .next (.use (b := publishPort.block) (by simp [hpublish])) fun _ R₃ h₃ => ?_
  refine .step ({accept} + {host} + {code} + {content} + P) .malloc (by rw [h₃, hR]; abel) fun publish R hR => ?_
  refine .step ({content} + P) (sendFrames_spec [code, host, accept, publish]) ?_ fun _ R hR => ?_
  · rw [hR, framesOwned_cons, framesOwned_cons, framesOwned_cons, framesOwned_cons,
      show framesOwned [] = 0 from rfl]
    abel
  · refine .step P (.free content) (by rw [hR, zero_add]) fun _ R hR => ?_
    exact .pure ⟨by rw [hR, zero_add], rfl⟩

theorem beginRegistration_follows (getifaddrs : Option (List Ifaddrs)) (acceptPort publishPort : ℤ) :
    Follows 0 (beginRegistration getifaddrs acceptPort publishPort) (hostOf getifaddrs) fun name sent R =>
      sent.frames = (Registrar.registerPublisherService (name.getD (literal "")) acceptPort publishPort).frames ∧
        ∃ host ifaddr rest, Walked host ifaddr name sent.ip rest ∧
          R = rest + {sent.ipString.block} + {sent.acceptPortString.block} + {sent.publishPortString.block} := by
  have hbind : hostOf getifaddrs = hostOf getifaddrs >>= pure := (bind_pure _).symm
  rw [hbind]
  refine .pass (newStr_spec (decimal acceptPort)) fun accept R h₁ => ?_
  refine .skip {accept.block} (newStr_spec (decimal publishPort)) (by rw [h₁.1]; abel) fun publish R h₂ => ?_
  refine .step ({publish.block} + {accept.block}) (getIpAddress_follows getifaddrs)
    (by rw [h₂.1]; abel) fun name ip rest _ h₃ => ?_
  obtain ⟨host, ifaddr, hwalked⟩ := h₃
  obtain ⟨howned, htext⟩ := hwalked.owned
  refine .pass (ip.use_spec (howned.trans (Multiset.le_add_right _ _))) fun _ R hR => ?_
  refine .skip (rest + {publish.block} + {accept.block}) (newStr_spec (literal "tcp://" ++ ip.text))
    (by rw [hR]; abel) fun ipString R h₄ => ?_
  have hip : ipString.block ∈ R + (rest + {publish.block} + {accept.block}) := by
    rw [h₄.1]
    simp
  have haccept : accept.block ∈ R + (rest + {publish.block} + {accept.block}) := by simp
  have hpublish : publish.block ∈ R + (rest + {publish.block} + {accept.block}) := by simp
  refine .pass (sendRegistration_spec hip haccept hpublish) fun frames R h₅ => ?_
  refine .pure ⟨?_, host, ifaddr, rest, hwalked, by rw [h₅.1, h₄.1]; abel⟩
  rw [h₅.2, h₄.2, h₁.2, h₂.2, htext]
  rfl

/-- The frames that a publisher has sent when it comes to free the host, however it goes on. -/
def Sends (getifaddrs : Option (List Ifaddrs)) (acceptPort publishPort : ℤ) (frames : List Frame) : Prop :=
  ∃ sent t, beginRegistration getifaddrs acceptPort publishPort Heap.empty = .ok (sent, t) ∧ sent.frames = frames

/-- Whatever `get_ip_address` returns is registered, `""` like any other host. -/
theorem sends_iff (getifaddrs : Option (List Ifaddrs)) (acceptPort publishPort : ℤ) (frames : List Frame) :
    Sends getifaddrs acceptPort publishPort frames ↔ ∃ name, hostOf getifaddrs = .ok name ∧
      frames = (Registrar.registerPublisherService (name.getD (literal "")) acceptPort publishPort).frames := by
  have hbegin := beginRegistration_follows getifaddrs acceptPort publishPort
  unfold Sends
  cases hhost : hostOf getifaddrs with
  | error e =>
    rw [hhost] at hbegin
    rw [hbegin Heap.empty 0 rfl]
    simp
  | ok name =>
    rw [hhost] at hbegin
    obtain ⟨sent, t, R, hrun, _, hframes, _⟩ := hbegin Heap.empty 0 rfl
    rw [hrun]
    constructor
    · rintro ⟨sent', t', hsame, rfl⟩
      obtain ⟨rfl, rfl⟩ := Prod.mk.inj (Except.ok.inj hsame)
      exact ⟨name, rfl, hframes⟩
    · rintro ⟨name', hname, rfl⟩
      obtain rfl := Except.ok.inj hname
      exact ⟨sent, t, rfl, hframes⟩

/-- A publisher with a host registers it. -/
theorem publisherMain_host {getifaddrs : Option (List Ifaddrs)} {ip : CString} (h : hostOf getifaddrs = .ok (some ip))
    (acceptPort publishPort : ℤ) (reply : List Frame) :
    Spec 0 (publisherMain getifaddrs acceptPort publishPort reply) fun frames R =>
      frames = (Registrar.registerPublisherService ip acceptPort publishPort).frames ∧ R.card = reply.length := by
  have hbegin := beginRegistration_follows getifaddrs acceptPort publishPort
  rw [h] at hbegin
  have hregister : Spec 0 (registerPublisherService getifaddrs acceptPort publishPort reply) fun out R =>
      out.1 = (Registrar.registerPublisherService ip acceptPort publishPort).frames ∧
        R = blocks out.2.2 + {out.2.1} ∧ (blocks out.2.2).card = reply.length := by
    refine .next hbegin fun sent R h₁ => ?_
    obtain ⟨hframes, host, ifaddr, rest, ⟨hip, rfl⟩, rfl⟩ := h₁
    refine .step ({sent.ipString.block} + {sent.acceptPortString.block} + {sent.publishPortString.block})
      (by rw [hip]; exact .free host) (by abel) fun _ R hR => ?_
    refine .step ({sent.acceptPortString.block} + {sent.publishPortString.block}) (.free sent.ipString.block)
      (by rw [hR]; abel) fun _ R hR => ?_
    refine .step {sent.publishPortString.block} (.free sent.acceptPortString.block) (by rw [hR]; abel) fun _ R hR => ?_
    refine .step 0 (.free sent.publishPortString.block) (by rw [hR]; abel) fun _ R hR => ?_
    refine .step 0 (multiPartReceive_spec reply) (by rw [hR]) fun response R h₂ => ?_
    refine .pure ⟨hframes, by rw [h₂.1, add_zero], ?_⟩
    rw [card_blocks, h₂.2.length_eq]
  refine .next hregister fun out R h₂ => ?_
  obtain ⟨hframes, rfl, hcard⟩ := h₂
  refine .step (blocks out.2.2) (.free out.2.1) (add_comm _ _) fun _ R hR => ?_
  exact .pure ⟨hframes, by rw [hR, zero_add, hcard]⟩

/-- With no interface to register, the `""` is freed. -/
theorem publisherMain_static {getifaddrs : Option (List Ifaddrs)} (h : hostOf getifaddrs = .ok none)
    (acceptPort publishPort : ℤ) (reply : List Frame) :
    Fails 0 (publisherMain getifaddrs acceptPort publishPort reply) .static := by
  have hbegin := beginRegistration_follows getifaddrs acceptPort publishPort
  rw [h] at hbegin
  refine .bind 0 (.step 0 hbegin (add_zero _).symm fun sent R h₁ => ?_) (add_zero _).symm _
  obtain ⟨_, host, ifaddr, rest, ⟨hip, _⟩, _⟩ := h₁
  have hfree : Fails 0 sent.ip.free .static := by
    rw [hip]
    exact fun _ _ _ => rfl
  exact .bind (R + 0) hfree (zero_add _).symm _

theorem publisherMain_exit {getifaddrs : Option (List Ifaddrs)} (h : hostOf getifaddrs = .error .failure)
    (acceptPort publishPort : ℤ) (reply : List Frame) :
    Fails 0 (publisherMain getifaddrs acceptPort publishPort reply) (.halt .failure) := by
  have hbegin := beginRegistration_follows getifaddrs acceptPort publishPort
  rw [h] at hbegin
  exact .bind 0 (.bind 0 hbegin (add_zero _).symm _) (add_zero _).symm _

/-! ### The interfaces -/

/-- The walk passes an interface by. -/
def Passed (ifa : Ifaddrs) : Prop := ∀ addr ∈ ifa.ifaAddr, ¬ Usable ifa.ifaName addr

/-- The first interface that is not passed by has this host. -/
def Reaches (interfaces : List Ifaddrs) (ip : CString) : Prop :=
  ∃ before ifa after addr, interfaces = before ++ ifa :: after ∧ (∀ i ∈ before, Passed i) ∧
    ifa.ifaAddr = some addr ∧ Usable ifa.ifaName addr ∧ addr.nameinfo = some ip

theorem filter_eq_none_iff (ifa : Ifaddrs) :
    (ifa.ifaAddr.filter fun addr => Usable ifa.ifaName addr) = none ↔ Passed ifa := by
  rw [Option.filter_eq_none_iff]
  simp only [Passed, decide_eq_true_eq, Option.mem_def]

theorem chosen_eq_none_iff (interfaces : List Ifaddrs) : chosen interfaces = none ↔ ∀ i ∈ interfaces, Passed i := by
  rw [chosen, List.findSome?_eq_none_iff]
  exact forall₂_congr fun i _ => filter_eq_none_iff i

theorem numericHost_eq_some_iff (interfaces : List Ifaddrs) (ip : CString) :
    numericHost interfaces = .ok (some ip) ↔ Reaches interfaces ip := by
  have hhost : numericHost interfaces = .ok (some ip) ↔ ∃ addr, chosen interfaces = some addr ∧ addr.nameinfo = some ip := by
    unfold numericHost
    cases chosen interfaces with
    | none => simp
    | some addr => cases hname : addr.nameinfo <;> simp [hname]
  rw [hhost]
  constructor
  · rintro ⟨addr, hchosen, hname⟩
    obtain ⟨before, ifa, after, hsplit, hifa, hbefore⟩ := List.findSome?_eq_some_iff.mp hchosen
    obtain ⟨haddr, husable⟩ := Option.filter_eq_some_iff.mp hifa
    exact ⟨before, ifa, after, addr, hsplit, fun i hi => (filter_eq_none_iff i).mp (hbefore i hi), haddr,
      of_decide_eq_true husable, hname⟩
  · rintro ⟨before, ifa, after, addr, hsplit, hbefore, haddr, husable, hname⟩
    refine ⟨addr, List.findSome?_eq_some_iff.mpr ⟨before, ifa, after, hsplit, ?_, fun i hi => ?_⟩, hname⟩
    · exact Option.filter_eq_some_iff.mpr ⟨haddr, decide_eq_true husable⟩
    · exact (filter_eq_none_iff i).mpr (hbefore i hi)

theorem numericHost_eq_none_iff (interfaces : List Ifaddrs) :
    numericHost interfaces = .ok none ↔ ∀ i ∈ interfaces, Passed i := by
  rw [← chosen_eq_none_iff, numericHost]
  cases chosen interfaces with
  | none => simp
  | some addr => cases hname : addr.nameinfo <;> simp [hname]

/-- A registration says which host it is from. -/
theorem frames_injective {ip ip' : CString} {acceptPort publishPort : ℤ}
    (h : (Registrar.registerPublisherService ip acceptPort publishPort).frames =
      (Registrar.registerPublisherService ip' acceptPort publishPort).frames) : ip = ip' := by
  have hhosts : (literal "tcp://" ++ ip).bytes = (literal "tcp://" ++ ip').bytes :=
    (List.cons.inj (List.cons.inj h).2).1
  rw [CString.bytes_append, CString.bytes_append] at hhosts
  exact CString.bytes_injective (List.append_cancel_left hhosts)

/-- What is sent, in terms of the interfaces. -/
theorem sends_interfaces (interfaces : List Ifaddrs) (acceptPort publishPort : ℤ) (frames : List Frame) :
    Sends (some interfaces) acceptPort publishPort frames ↔
      (∃ ip, Reaches interfaces ip ∧
        frames = (Registrar.registerPublisherService ip acceptPort publishPort).frames) ∨
      (∀ i ∈ interfaces, Passed i) ∧
        frames = (Registrar.registerPublisherService (literal "") acceptPort publishPort).frames := by
  rw [sends_iff, ← numericHost_eq_none_iff]
  simp only [← numericHost_eq_some_iff]
  constructor
  · rintro ⟨name, hname, hframes⟩
    cases name with
    | none => exact Or.inr ⟨hname, hframes⟩
    | some ip => exact Or.inl ⟨ip, hname, hframes⟩
  · rintro (⟨ip, hip, hframes⟩ | ⟨hnone, hframes⟩)
    · exact ⟨some ip, hip, hframes⟩
    · exact ⟨none, hnone, hframes⟩

/-- **How a publisher starts.** A publisher comes to its proxy, having sent the registration of a host
and with nothing left of the reply but the strings, exactly when that is the numeric host of the first
interface with an IPv4 address that is not the loopback. Where there is no such interface, and there
alone, it frees memory that is not on the heap. Before that it has sent the registration of the host `""`,
and otherwise it sends no registration but that of the interface's host. -/
theorem publisher_starts (interfaces : List Ifaddrs) (acceptPort publishPort : ℤ) (reply : List Frame) :
    (∀ ip, (∃ t, publisherMain (some interfaces) acceptPort publishPort reply Heap.empty =
        .ok ((Registrar.registerPublisherService ip acceptPort publishPort).frames, t) ∧ t.live.card = reply.length) ↔
      Reaches interfaces ip) ∧
    (publisherMain (some interfaces) acceptPort publishPort reply Heap.empty = .error .static ↔
      ∀ i ∈ interfaces, Passed i) ∧
    ∀ frames, Sends (some interfaces) acceptPort publishPort frames ↔
      (∃ ip, Reaches interfaces ip ∧
        frames = (Registrar.registerPublisherService ip acceptPort publishPort).frames) ∨
      (∀ i ∈ interfaces, Passed i) ∧
        frames = (Registrar.registerPublisherService (literal "") acceptPort publishPort).frames := by
  rw [← and_assoc]
  refine ⟨?_, sends_interfaces interfaces acceptPort publishPort⟩
  rw [← numericHost_eq_none_iff]
  simp only [← numericHost_eq_some_iff]
  rw [show numericHost interfaces = hostOf (some interfaces) from rfl]
  cases hhost : hostOf (some interfaces) with
  | error e =>
    rw [publisherMain_exit hhost acceptPort publishPort reply Heap.empty 0 rfl]
    exact ⟨fun ip => by simp, by simp⟩
  | ok found =>
    cases found with
    | none =>
      rw [publisherMain_static hhost acceptPort publishPort reply Heap.empty 0 rfl]
      exact ⟨fun ip => by simp, by simp⟩
    | some host =>
      obtain ⟨frames, t, R, hrun, hlive, hframes, hcard⟩ :=
        publisherMain_host hhost acceptPort publishPort reply Heap.empty 0 rfl
      rw [zero_add] at hlive
      rw [hrun]
      refine ⟨fun ip => ⟨?_, ?_⟩, by simp⟩
      · rintro ⟨u, hu, _⟩
        rw [Except.ok.injEq, Prod.mk.injEq, hframes] at hu
        rw [frames_injective hu.1]
      · intro hip
        rw [Except.ok.injEq, Option.some.injEq] at hip
        exact ⟨t, by rw [hframes, hip], by rw [Finset.card_def, hlive, hcard]⟩

end Rnotify.Ownership
