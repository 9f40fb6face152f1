import Rnotify.Dispatcher.Threads

/-! Whether a parser thread finds a socket and a lock for what the ring answers.

The updater adds a name to the ring before it takes the writer lock, and to the
tables after. In between, a lookup that the ring sends to the new name finds
nothing under it (`lookup_finds_nothing`). Every name that the tables hold has its
socket and its mutex, and the ring has no other names than these and the one that
the updater holds, so this is the only way (`obtains_iff`). -/
namespace Rnotify.Dispatcher
open Library

variable (L : Lookup)

/-- The lookups for a key answer a node, a socket connected to its address, and a mutex. -/
def Obtains (info : PublishersInfo) (key : List Byte) : Prop :=
  ∃ node sock mutex, L.findNode info.publisherRing key = some node ∧
    info.publisherSocks.lookup node = some sock ∧ sock.endpoint = node ∧
    info.publisherSocksLocks.lookup node = some mutex

/-- The ring does not send a key to a name that the updater has put there and that the tables
do not have yet. -/
def Settled (d : State) (key : List Byte) : Prop :=
  ∀ addr ∈ d.updater.placed, addr ∉ Table.names d.info.publisherSocks →
    L.findNode d.info.publisherRing key ≠ some addr

variable {L}

theorem obtains_lookups {info : PublishersInfo} {key : List Byte} (h : Obtains L info key) :
    ∃ sock mutex, lookups L info key = some (sock, mutex) := by
  obtain ⟨node, sock, mutex, hnode, hsock, _, hmutex⟩ := h
  exact ⟨sock, mutex, by simp only [lookups, hnode, hsock, hmutex]⟩

/-- A name in the table of sockets has all that a lookup needs. -/
theorem obtains_of_mem {names : Finset CString} {d : State} (h : Follows names d) {key : List Byte}
    {node : CString} (hnode : L.findNode d.info.publisherRing key = some node)
    (hmem : node ∈ Table.names d.info.publisherSocks) : Obtains L d.info key := by
  obtain ⟨sock, hsock⟩ := Table.mem_names.mp hmem
  obtain ⟨mutex, hmutex⟩ := Table.mem_names.mp (h.locks ▸ hmem)
  exact ⟨node, sock, mutex, hnode, hsock, h.wired node sock hsock, hmutex⟩

theorem obtains_iff_settled {names : Finset CString} {d : State} (h : Follows names d)
    (hadded : (Table.names d.info.publisherSocks).Nonempty) (key : List Byte) :
    Obtains L d.info key ↔ Settled L d key := by
  constructor
  · rintro ⟨node, sock, _, hnode, hsock, _⟩ addr _ hnew haddr
    rw [hnode, Option.some.injEq] at haddr
    exact hnew (haddr ▸ Table.mem_names.mpr ⟨sock, hsock⟩)
  · intro hsettled
    have hring : d.info.publisherRing.Nonempty := by
      rw [← h.socks]
      exact hadded.mono Finset.subset_union_left
    obtain ⟨node, hmem, hnode⟩ := L.findNode_nonempty _ hring key
    apply obtains_of_mem h hnode
    by_contra hnew
    rw [← h.socks, Finset.mem_union, or_iff_right hnew] at hmem
    exact hsettled node hmem hnew hnode

variable {τ : Type} [DecidableEq τ]

/-- **A routed publisher has its socket and its lock.** In every state that the threads can reach with a
publisher fully added, the lookups for an event answer a node, the socket connected to it and a
mutex, exactly when the ring does not send the event to a name that is still on its way from the
ring to the tables. -/
theorem obtains_iff {labels : List (Label τ)} {s : Threads τ}
    (hr : (threads L τ).exec (threads L τ).initial labels = some s)
    (hadded : (Table.names s.dispatcher.info.publisherSocks).Nonempty) (pevent : InotifyEvent) (rand : Nat) :
    Obtains L s.dispatcher.info (dispatcherKey pevent rand) ↔
      Settled L s.dispatcher (dispatcherKey pevent rand) := by
  obtain ⟨names, h⟩ := follows_run hr
  exact obtains_iff_settled h hadded _

def firstAddr : CString := literal "tcp://10.0.0.1:5001"
def secondAddr : CString := literal "tcp://10.0.0.2:5001"

/-- The updater connects its socket and processes an announcement. -/
def secondAdded : List (Label (Fin 2)) :=
  [.update, .announce secondAddr, .update, .update, .update, .update]

theorem obtains_iff_secondAdded : ∃ s, (threads (hashRing strlen) (Fin 2)).exec
      (threads (hashRing strlen) (Fin 2)).initial secondAdded = some s ∧
    (Obtains (hashRing strlen) s.dispatcher.info (dispatcherKey (created 1) 0) ↔
      Settled (hashRing strlen) s.dispatcher (dispatcherKey (created 1) 0)) := by
  have hrun : ∃ s, (threads (hashRing strlen) (Fin 2)).exec (threads (hashRing strlen) (Fin 2)).initial
      secondAdded = some s ∧ (Table.names s.dispatcher.info.publisherSocks).Nonempty := ⟨_, rfl, by decide⟩
  obtain ⟨s, hs, hadded⟩ := hrun
  exact ⟨s, hs, obtains_iff hs hadded (created 1) 0⟩

/-- With one publisher added and another on the ring only, the event goes to the other and no socket
is found. -/
theorem lookup_finds_nothing : ∃ s, (threads (hashRing strlen) (Fin 2)).exec
      (threads (hashRing strlen) (Fin 2)).initial (secondAdded ++ [.announce firstAddr, .update, .update]) = some s ∧
    (Table.names s.dispatcher.info.publisherSocks).Nonempty ∧
    ¬ Obtains (hashRing strlen) s.dispatcher.info (dispatcherKey (created 1) 0) := by
  have hrun : ∃ s, (threads (hashRing strlen) (Fin 2)).exec (threads (hashRing strlen) (Fin 2)).initial
      (secondAdded ++ [.announce firstAddr, .update, .update]) = some s ∧
      (Table.names s.dispatcher.info.publisherSocks).Nonempty ∧
      lookups (hashRing strlen) s.dispatcher.info (dispatcherKey (created 1) 0) = none :=
    ⟨_, rfl, by decide, by decide⟩
  obtain ⟨s, hs, hadded, hnone⟩ := hrun
  refine ⟨s, hs, hadded, fun hobtains => ?_⟩
  obtain ⟨sock, mutex, hsome⟩ := obtains_lookups hobtains
  rw [hnone] at hsome
  cases hsome

end Rnotify.Dispatcher
