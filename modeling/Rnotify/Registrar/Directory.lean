import Rnotify.Registrar.Selection

/-! The registrar as a directory.

What the publishers table is for: given an address, the publisher that registered
there last (`lastAt`, a function of the registrations alone), and so, given an ip
and an accept port, the publisher that registered with these last (`latest`). The
two agree because the address, `ip:acceptPort`, says which ip and which port it
was made of when no port has a `':'` (`address_injective`, `lastAt_address`). After
any registrations the ring has their addresses and the table is the directory,
key for key (`Registered`). -/
namespace Rnotify.Registrar
open Library

/-! ### The directory -/

/-- The addresses of some registrations. -/
def acceptAddrs (ps : List Publisher) : Finset CString := (ps.map Publisher.acceptAddr).toFinset

theorem mem_acceptAddrs {ps : List Publisher} {n : CString} :
    n ∈ acceptAddrs ps ↔ ∃ p ∈ ps, p.acceptAddr = n := by
  simp [acceptAddrs]

theorem acceptAddrs_concat (ps : List Publisher) (p : Publisher) :
    acceptAddrs (ps ++ [p]) = insert p.acceptAddr (acceptAddrs ps) := by
  ext n
  simp [acceptAddrs]

/-- The last registration of an address. -/
def lastAt (ps : List Publisher) (n : CString) : Option Publisher :=
  ps.reverse.find? fun p => p.acceptAddr = n

theorem lastAt_append (ps qs : List Publisher) (n : CString) :
    lastAt (ps ++ qs) n = (lastAt qs n).or (lastAt ps n) := by
  rw [lastAt, List.reverse_append, List.find?_append]
  rfl

theorem lastAt_singleton (p : Publisher) (n : CString) :
    lastAt [p] n = if p.acceptAddr = n then some p else none := by
  by_cases h : p.acceptAddr = n <;> simp [lastAt, h]

theorem lastAt_some {ps : List Publisher} {n : CString} {p : Publisher} (h : lastAt ps n = some p) :
    p.acceptAddr = n ∧ p ∈ ps :=
  ⟨by simpa using List.find?_some h, List.mem_reverse.mp (List.mem_of_find?_eq_some h)⟩

/-- An address has a last registration when it has one at all. -/
theorem exists_lastAt {ps : List Publisher} {n : CString} :
    (∃ p, lastAt ps n = some p) ↔ n ∈ acceptAddrs ps := by
  rw [← Option.isSome_iff_exists, lastAt, List.find?_isSome, mem_acceptAddrs]
  simp

/-- The last registration with an ip and an accept port. -/
def latest (ps : List Publisher) (ip acceptPort : CString) : Option Publisher :=
  ps.reverse.find? fun p => p.ip = ip ∧ p.acceptPort = acceptPort

/-! ### Keys -/

def ColonFree (s : CString) : Prop := 58 ∉ s.bytes

instance (s : CString) : Decidable (ColonFree s) := inferInstanceAs (Decidable (¬ _))

/-- What stands after the last `':'` of a text that ends in a colon-free port. -/
theorem takeWhile_port {a port : List Byte} (h : 58 ∉ port) :
    (a ++ 58 :: port).reverse.takeWhile (· ≠ 58) = port.reverse := by
  rw [List.reverse_append, List.reverse_cons, List.append_assoc, List.takeWhile_append_of_pos]
  · simp
  · intro b hb
    simpa using fun hc : b = 58 => h (hc ▸ List.mem_reverse.mp hb)

theorem address_injective {ip ip' port port' : CString} (hp : ColonFree port) (hp' : ColonFree port')
    (h : address ip port = address ip' port') : ip = ip' ∧ port = port' := by
  rw [address_eq, address_eq] at h
  have hbytes : ip.bytes ++ 58 :: port.bytes = ip'.bytes ++ 58 :: port'.bytes := by
    simpa using congrArg CString.bytes h
  have hport : port.bytes = port'.bytes := by
    have := congrArg (fun l => l.reverse.takeWhile (· ≠ 58)) hbytes
    simp only [takeWhile_port hp, takeWhile_port hp'] at this
    exact List.reverse_injective this
  rw [hport] at hbytes
  exact ⟨CString.ext (List.append_cancel_right hbytes), CString.ext hport⟩

theorem lastAt_address {ps : List Publisher} (hps : ∀ p ∈ ps, ColonFree p.acceptPort) {ip port : CString}
    (hport : ColonFree port) : lastAt ps (address ip port) = latest ps ip port := by
  apply List.find?_congr
  intro p hp
  have hiff : p.acceptAddr = address ip port ↔ p.ip = ip ∧ p.acceptPort = port := by
    refine ⟨address_injective (hps p (List.mem_reverse.mp hp)) hport, ?_⟩
    rintro ⟨rfl, rfl⟩
    rfl
  simp only [hiff]

/-! ### The table is the directory -/

/-- The table has the last registration of each address. -/
def Kept (ps : List Publisher) (publishers : Table Publisher) : Prop :=
  ∀ n, publishers.lookup n = lastAt ps n

theorem Kept.names {ps : List Publisher} {publishers : Table Publisher} (h : Kept ps publishers) :
    Table.names publishers = acceptAddrs ps := by
  ext n
  rw [Table.mem_names, ← exists_lastAt, h n]

theorem kept_insert {ps : List Publisher} {publishers : Table Publisher} (h : Kept ps publishers)
    (p : Publisher) : Kept (ps ++ [p]) (publishers.insert p.acceptAddr p) := by
  intro n
  rw [lastAt_append, lastAt_singleton]
  by_cases hn : n = p.acceptAddr
  · rw [hn, AList.lookup_insert, if_pos rfl]
    rfl
  · rw [AList.lookup_insert_ne hn, if_neg (Ne.symm hn), h n]
    rfl

/-- What the registrations `ps`, in order, leave. -/
structure Registered (ps : List Publisher) (s : State) : Prop where
  ring : s.publisherRing = acceptAddrs ps
  kept : Kept ps s.publishers

theorem registered_initial : Registered [] initial := ⟨rfl, fun _ => rfl⟩

theorem registered_record {ps : List Publisher} {s : State} (h : Registered ps s) (p : Publisher) :
    Registered (ps ++ [p]) (record (enlist s p) p) where
  ring := by
    show insert p.acceptAddr s.publisherRing = _
    rw [h.ring, acceptAddrs_concat]
  kept := kept_insert h.kept p

theorem Registered.consistent {ps : List Publisher} {s : State} (h : Registered ps s) : Consistent s := by
  rw [Consistent, h.kept.names, h.ring]

theorem Registered.nonempty_iff {ps : List Publisher} {s : State} (h : Registered ps s) :
    s.publisherRing.Nonempty ↔ ps ≠ [] := by
  rw [h.ring, acceptAddrs, List.toFinset_nonempty_iff, ne_eq, List.map_eq_nil_iff]

/-- An entry is the last registration with its ip and accept port. -/
theorem Registered.latest {ps : List Publisher} {s : State} (h : Registered ps s)
    (hps : ∀ p ∈ ps, ColonFree p.acceptPort) {n : CString} {p : Publisher}
    (hp : s.publishers.lookup n = some p) : Registrar.latest ps p.ip p.acceptPort = some p := by
  rw [h.kept n] at hp
  obtain ⟨hn, hmem⟩ := lastAt_some hp
  rw [← lastAt_address hps (hps p hmem), ← hp, ← hn]
  rfl

/-! ### Two publishers -/

def firstPublisher : Publisher := ⟨literal "tcp://10.0.0.1", literal "5001", literal "6001"⟩
def secondPublisher : Publisher := ⟨literal "tcp://10.0.0.2", literal "5001", literal "6002"⟩

end Rnotify.Registrar
