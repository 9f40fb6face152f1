import Rnotify.Flow.Model
import Rnotify.Dispatcher.Core
import Rnotify.Ownership.Registrar

/-! What a dispatcher does to memory.

An announcement leaves two strings, the address and a copy of it, as keys of the two
tables or, when the tables have the address already, as blocks that nothing owns. All
else that a dispatcher allocates it frees before its loop comes round, an event in
`notify_random_publisher` as well as a chunk in the main loop and in a parser. So its
memory grows with the announcements alone (`dispatcher_memory`). -/
namespace Rnotify.Ownership
open Library Mem

/-- A NULL is dereferenced, or an assertion fails. -/
inductive Crash where
  | crash
deriving DecidableEq

def orCrash {α : Type} (o : Option α) : Except Crash α := o.elim (.error .crash) .ok

/-- A dispatcher, the block of its `publishers_info`, and those of its tables' keys. -/
structure Publishers where
  block : ℕ
  info : Dispatcher.PublishersInfo
  /-- How many PUB sockets there are. -/
  sockets : ℕ
  socks : Table ℕ
  locks : Table ℕ

def Publishers.owned (p : Publishers) : Multiset ℕ := {p.block} + keysOwned p.socks + keysOwned p.locks

/-- Each key of the tables has its block. -/
structure Publishers.Keyed (p : Publishers) : Prop where
  socks : Table.names p.socks = Table.names p.info.publisherSocks
  locks : Table.names p.locks = Table.names p.info.publisherSocksLocks

/-! ### The loops -/

/-- `main`, up to the forks. -/
def create : Mem Crash Publishers := do
  let block ← malloc
  return ⟨block, Dispatcher.initial.info, 0, ∅, ∅⟩

/-- `g_hash_table_insert` on a table that destroys nothing: a key that is there stays. -/
def insertKey (keys : Table ℕ) (key : Str) : Table ℕ :=
  match keys.lookup key.text with
  | none => keys.insert key.text key.block
  | some _ => keys

/-- A turn of `publisher_updater`. -/
def publisherUpdater (p : Publishers) (addr : CString) : Mem Crash Publishers := do
  let block ← recvBuff
  let publisherAddr : Str := ⟨block, addr⟩
  let publisherAddrDup ← copy publisherAddr
  use publisherAddr.block
  return ⟨p.block, p.info.learn addr ⟨p.sockets, addr⟩, p.sockets + 1, insertKey p.socks publisherAddr,
    insertKey p.locks publisherAddrDup⟩

def notifyRandomPublisher (L : Lookup) (info : Dispatcher.PublishersInfo) (buff : ℕ) (pevent : InotifyEvent)
    (rand : ℕ) : Mem Crash (Dispatcher.DispatchSocket × Wire) := do
  let instanceNum ← malloc
  use buff
  let publishable ← malloc
  match L.findNode info.publisherRing (Dispatcher.dispatcherKey pevent rand) with
  | none => halt .crash
  | some node => do
    let publisher ← newStr node
    use publisher.block
    free publisher.block
    free publishable
    free instanceNum
    match info.publisherSocks.lookup node, info.publisherSocksLocks.lookup node with
    | some ret, some _ => do
      use buff
      match Rnotify.notify pevent with
      | none => halt .crash
      | some wire => do
        notify
        return (ret, wire)
    | _, _ => halt .crash

/-- A turn of the loop of `main`. -/
def forward (string : Frame) : Mem Crash Unit := do
  let block ← recvBuff
  use block
  let _ ← sendString string
  free block

/-- A chunk that a parser received, the memory after its string, and what `rand` gives for each call. -/
structure Chunk where
  received : Flow.Received
  heap : Nat → Byte
  rand : ℕ → ℕ

/-- The events that the walk over a chunk passes to `notify_random_publisher`. -/
def Chunk.named (chunk : Chunk) : List (InotifyEvent × ℕ) :=
  let memory := image (chunk.received.buff ++ [0]) chunk.heap
  let events := (InotifyEvent.visited memory chunk.received.size.toNat 0).filter fun e => Flow.Named e
  events.zipIdx.map fun e => (e.1, chunk.rand e.2)

/-- A turn of `parser_thread`. -/
def parse (L : Lookup) (info : Dispatcher.PublishersInfo) (chunk : Chunk) :
    Mem Crash (List (Dispatcher.DispatchSocket × Wire)) := do
  let buff ← recvBuff
  let sent ← chunk.named.mapM fun e => notifyRandomPublisher L info buff e.1 e.2
  free buff
  return sent

/-- A turn of one of the dispatcher's loops. -/
inductive Turn where
  | announce (addr : CString)
  | forward (string : Frame)
  | parse (chunk : Chunk)

def Turn.isAnnounce : Turn → Bool
  | announce _ => true
  | _ => false

/-- What a turn leaves and what it sends. -/
def turn (L : Lookup) (p : Publishers) : Turn → Mem Crash (Publishers × List (Dispatcher.DispatchSocket × Wire))
  | .announce addr => do
    let p ← publisherUpdater p addr
    return (p, [])
  | .forward string => do
    forward string
    return (p, [])
  | .parse chunk => do
    let sent ← parse L p.info chunk
    return (p, sent)

def turns (L : Lookup) : Publishers → List Turn → Mem Crash (Publishers × List (Dispatcher.DispatchSocket × Wire))
  | p, [] => return (p, [])
  | p, t :: rest => do
    let (p, sent) ← turn L p t
    let (p, others) ← turns L p rest
    return (p, sent ++ others)

/-! ### The loops without memory -/

/-- What the tables are and how many PUB sockets there are. -/
structure Known where
  info : Dispatcher.PublishersInfo
  sockets : ℕ

def plainTurn (L : Lookup) (k : Known) : Turn → Except Crash (Known × List (Dispatcher.DispatchSocket × Wire))
  | .announce addr => return (⟨k.info.learn addr ⟨k.sockets, addr⟩, k.sockets + 1⟩, [])
  | .forward _ => return (k, [])
  | .parse chunk => do
    let sent ← chunk.named.mapM fun e => orCrash (Dispatcher.notifyRandomPublisher L k.info e.1 e.2)
    return (k, sent)

def plainTurns (L : Lookup) : Known → List Turn → Except Crash (Known × List (Dispatcher.DispatchSocket × Wire))
  | k, [] => return (k, [])
  | k, t :: rest => do
    let (k, sent) ← plainTurn L k t
    let (k, others) ← plainTurns L k rest
    return (k, sent ++ others)

/-- The tables are the same. -/
structure Holds (p : Publishers) (k : Known) : Prop where
  info : p.info = k.info
  sockets : p.sockets = k.sockets
  keyed : p.Keyed

/-! ### Announcements -/

/-- The new string is a key, or lost. -/
theorem insertKey_owned (keys : Table ℕ) (key : Str) :
    ∃ lost, keysOwned keys + {key.block} = keysOwned (insertKey keys key) + lost := by
  unfold insertKey
  cases hold : keys.lookup key.text with
  | none =>
    have hinsert := tableOwned_insert (fun b => {b}) keys key.text key.block
    rw [hold, Option.elim_none, add_zero] at hinsert
    exact ⟨0, by rw [add_zero]; exact hinsert.symm⟩
  | some old => exact ⟨{key.block}, rfl⟩

theorem names_insertKey (keys : Table ℕ) (key : Str) :
    Table.names (insertKey keys key) = insert key.text (Table.names keys) := by
  unfold insertKey
  cases hold : keys.lookup key.text with
  | none => exact Table.names_insert ..
  | some old => exact (Finset.insert_eq_of_mem (Table.mem_names.mpr ⟨old, hold⟩)).symm

theorem publisherUpdater_spec {p : Publishers} {k : Known} (h : Holds p k) (addr : CString) :
    Spec p.owned (publisherUpdater p addr) fun p' R =>
      Holds p' ⟨k.info.learn addr ⟨k.sockets, addr⟩, k.sockets + 1⟩ ∧
        ∃ lost, R = p'.owned + lost ∧ R.card = p.owned.card + 2 := by
  refine .step p.owned recvBuff_spec (zero_add _).symm fun block R h₁ => ?_
  refine .next (copy_spec (s := ⟨block, addr⟩) (by rw [h₁]; simp)) fun dup R h₂ => ?_
  refine .next (.use (by rw [h₂.1, h₁]; simp)) fun _ R' hR => ?_
  obtain ⟨lostSock, hsock⟩ := insertKey_owned p.socks ⟨block, addr⟩
  obtain ⟨lostLock, hlock⟩ := insertKey_owned p.locks dup
  refine .pure ⟨⟨?_, ?_, ?_, ?_⟩, lostSock + lostLock, ?_, ?_⟩
  · rw [h.info, h.sockets]
  · rw [h.sockets]
  · show Table.names (insertKey p.socks ⟨block, addr⟩) = Table.names (p.info.publisherSocks.insert addr _)
    rw [names_insertKey, Table.names_insert, h.keyed.socks]
  · show Table.names (insertKey p.locks dup) = Table.names (p.info.publisherSocksLocks.insert addr _)
    rw [names_insertKey, Table.names_insert, h.keyed.locks, h₂.2]
  · calc R' = {p.block} + (keysOwned p.socks + {block}) + (keysOwned p.locks + {dup.block}) := by
          rw [hR, h₂.1, h₁, Publishers.owned]
          abel
      _ = _ := by
          rw [hsock, hlock, Publishers.owned]
          abel
  · rw [hR, h₂.1, h₁]
    simp only [Multiset.card_add, Multiset.card_singleton]
    omega

/-! ### Events -/

/-- An event is routed in memory as it is without, and leaves nothing. -/
theorem notifyRandomPublisher_follows (L : Lookup) (info : Dispatcher.PublishersInfo) {P : Multiset ℕ} {buff : ℕ}
    (hbuff : buff ∈ P) (pevent : InotifyEvent) (rand : ℕ) :
    Follows P (notifyRandomPublisher L info buff pevent rand)
      (orCrash (Dispatcher.notifyRandomPublisher L info pevent rand)) fun plain out R => R = 0 + P ∧ plain = out := by
  refine .skip P .malloc (zero_add P).symm fun instanceNum R h₁ => ?_
  refine .pass (.use (b := buff) (by simp [hbuff])) fun _ R' h₂ => ?_
  refine .skip ({instanceNum} + P) .malloc (by rw [h₂, h₁]; abel) fun publishable R h₃ => ?_
  unfold Dispatcher.notifyRandomPublisher Dispatcher.findPublisher Dispatcher.socketFor
  cases L.findNode info.publisherRing (Dispatcher.dispatcherKey pevent rand) with
  | none => exact .halt
  | some node =>
    refine .skip ({publishable} + {instanceNum} + P) (newStr_spec node) (by rw [h₃]; abel) fun publisher R h₄ => ?_
    refine .pass (.use (b := publisher.block) (by rw [h₄.1]; simp)) fun _ R' h₅ => ?_
    refine .skip ({publishable} + {instanceNum} + P) (.free publisher.block)
      (by rw [h₅, h₄.1]; abel) fun _ R h₆ => ?_
    refine .skip ({instanceNum} + P) (.free publishable) (by rw [h₆]; abel) fun _ R h₇ => ?_
    refine .skip P (.free instanceNum) (by rw [h₇]; abel) fun _ R h₈ => ?_
    rw [h₈, zero_add]
    dsimp only
    cases info.publisherSocks.lookup node with
    | none => exact .halt
    | some ret =>
      cases info.publisherSocksLocks.lookup node with
      | none => exact .halt
      | some lock =>
        refine .pass (.use hbuff) fun _ R h₉ => ?_
        cases hwire : Rnotify.notify pevent with
        | none => exact .halt
        | some wire =>
          refine .skip P notify_spec (by rw [h₉]; abel) fun _ R h₁₀ => ?_
          exact .pure ⟨by rw [h₁₀, zero_add], rfl⟩

theorem forward_spec (string : Frame) : Spec 0 (forward string) fun _ R => R = 0 := by
  refine .next recvBuff_spec fun block R h₁ => ?_
  refine .next (.use (by rw [h₁]; exact Multiset.mem_singleton_self block)) fun _ R' h₂ => ?_
  refine .step {block} (sendString_spec string) (by rw [h₂, h₁, zero_add]) fun _ R h₃ => ?_
  rw [h₃.1, zero_add]
  exact .free block

theorem parse_follows (L : Lookup) (info : Dispatcher.PublishersInfo) (chunk : Chunk) :
    Follows 0 (parse L info chunk)
      (chunk.named.mapM fun e => orCrash (Dispatcher.notifyRandomPublisher L info e.1 e.2)) fun plain sent R =>
        R = 0 ∧ plain = sent := by
  rw [← bind_pure (chunk.named.mapM fun e => orCrash _)]
  refine .pass recvBuff_spec fun buff R h₁ => ?_
  rw [h₁]
  refine .next (.collect (fun _ => 0) (fun plain out => plain = out) (List.forall₂_same.mpr fun e _ =>
    notifyRandomPublisher_follows L info (Multiset.mem_singleton_self buff) e.1 e.2)) fun plain sent R _ h₂ => ?_
  have hzero : (sent.map fun _ => (0 : Multiset ℕ)).sum = 0 := by
    rw [List.map_const', List.sum_replicate, smul_zero]
  rw [h₂.1, hzero, zero_add]
  refine .pass (.free buff) fun _ R h₃ => ?_
  exact .pure ⟨h₃, List.forall₂_eq_eq_eq ▸ h₂.2⟩

/-! ### Runs -/

/-- How many announcements there are. -/
def announced (ts : List Turn) : ℕ := ts.countP Turn.isAnnounce

theorem turn_follows (L : Lookup) {p : Publishers} {k : Known} (h : Holds p k) (t : Turn) :
    Follows p.owned (turn L p t) (plainTurn L k t) fun plain out R =>
      Holds out.1 plain.1 ∧ out.2 = plain.2 ∧
        ∃ lost, R = out.1.owned + lost ∧ R.card = p.owned.card + 2 * announced [t] := by
  cases t with
  | announce addr =>
    refine .pass (publisherUpdater_spec h addr) fun p' R h₁ => ?_
    obtain ⟨hholds, lost, rfl, hcard⟩ := h₁
    exact .pure ⟨hholds, rfl, lost, rfl, hcard⟩
  | forward string =>
    refine .skip p.owned (forward_spec string) (zero_add _).symm fun _ R h₁ => ?_
    rw [h₁, zero_add]
    exact .pure ⟨h, rfl, 0, (add_zero _).symm, rfl⟩
  | parse chunk =>
    have hparse := parse_follows L p.info chunk
    rw [h.info] at hparse
    show Follows _ (parse L p.info chunk >>= _) _ _
    rw [h.info]
    refine .step p.owned hparse (zero_add _).symm fun plain sent R _ h₁ => ?_
    rw [h₁.1, zero_add]
    exact .pure ⟨h, h₁.2.symm, 0, (add_zero _).symm, rfl⟩

theorem turns_follows (L : Lookup) (ts : List Turn) {p : Publishers} {k : Known} (h : Holds p k) :
    Follows p.owned (turns L p ts) (plainTurns L k ts) fun plain out R =>
      Holds out.1 plain.1 ∧ out.2 = plain.2 ∧
        ∃ lost, R = out.1.owned + lost ∧ R.card = p.owned.card + 2 * announced ts := by
  induction ts generalizing p k with
  | nil => exact .pure ⟨h, rfl, 0, (add_zero _).symm, rfl⟩
  | cons t rest ih =>
    refine .next (turn_follows L h t) fun plain out R _ h₁ => ?_
    obtain ⟨hholds, hsent, lost, rfl, hcard⟩ := h₁
    refine .step lost (ih hholds) rfl fun plain' out' R _ h₂ => ?_
    obtain ⟨hholds', hothers, lost', rfl, hcard'⟩ := h₂
    refine .pure ⟨hholds', by rw [hsent, hothers], lost' + lost, add_assoc .., ?_⟩
    have hcount : announced ([t] ++ rest) = announced [t] + announced rest := List.countP_append
    rw [List.singleton_append] at hcount
    rw [Multiset.card_add] at hcard ⊢
    omega

theorem create_spec :
    Spec 0 create fun p R => R = p.owned ∧ Holds p ⟨Dispatcher.initial.info, 0⟩ ∧ p.owned.card = 1 := by
  refine .next .malloc fun block R hR => ?_
  have howned : (⟨block, Dispatcher.initial.info, 0, ∅, ∅⟩ : Publishers).owned = {block} :=
    (add_zero _).trans (add_zero _)
  exact .pure ⟨by rw [hR, howned], ⟨rfl, rfl, rfl, rfl⟩, by rw [howned, Multiset.card_singleton]⟩

/-- A dispatcher from its start. -/
def dispatcher (L : Lookup) (ts : List Turn) : Mem Crash (Publishers × List (Dispatcher.DispatchSocket × Wire)) := do
  let p ← create
  turns L p ts

/-- **A dispatcher's memory.** Whatever its loops do, turn by turn, a dispatcher frees nothing twice
and uses nothing that is freed: it sends what it sends without memory and crashes where that does.
The keys of its tables stay allocated, and what is allocated in all is two blocks for each
announcement beside its own, whatever the number of events and chunks. -/
theorem dispatcher_memory (L : Lookup) (ts : List Turn) :
    (plainTurns L ⟨Dispatcher.initial.info, 0⟩ ts = .error .crash →
      dispatcher L ts Heap.empty = .error (.halt .crash)) ∧
    ∀ k sent, plainTurns L ⟨Dispatcher.initial.info, 0⟩ ts = .ok (k, sent) →
      ∃ p t, dispatcher L ts Heap.empty = .ok ((p, sent), t) ∧ Holds p k ∧
        (∀ e ∈ p.socks.entries ++ p.locks.entries, e.2 ∈ t.live) ∧ t.live.card = 1 + 2 * announced ts := by
  have hrun : Follows 0 (dispatcher L ts) (plainTurns L ⟨Dispatcher.initial.info, 0⟩ ts) fun plain out R =>
      Holds out.1 plain.1 ∧ out.2 = plain.2 ∧ ∃ lost, R = out.1.owned + lost ∧ R.card = 1 + 2 * announced ts := by
    refine .pass create_spec fun p R h₁ => ?_
    obtain ⟨rfl, hholds, hone⟩ := h₁
    have hturns := turns_follows L ts hholds
    rwa [hone] at hturns
  refine ⟨fun hcrash => ?_, fun k sent hplain => ?_⟩
  · rw [hcrash] at hrun
    exact hrun Heap.empty 0 rfl
  · rw [hplain] at hrun
    obtain ⟨⟨p, sent'⟩, t, R, hmem, hlive, hholds, hsent, lost, rfl, hcard⟩ := hrun Heap.empty 0 rfl
    obtain rfl : sent' = sent := hsent
    rw [zero_add] at hlive
    refine ⟨p, t, hmem, hholds, fun e he => ?_, by rw [Finset.card_def, hlive, hcard]⟩
    rw [← Finset.mem_val, hlive]
    refine Multiset.mem_add.mpr (Or.inl ?_)
    obtain hsocks | hlocks := List.mem_append.mp he
    · simp [Publishers.owned, mem_keysOwned hsocks]
    · simp [Publishers.owned, mem_keysOwned hlocks]

end Rnotify.Ownership
