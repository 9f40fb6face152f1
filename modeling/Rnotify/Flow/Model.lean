import Rnotify.Library.Places
import Rnotify.Library.System
import Rnotify.Wire

/-! From the inotify read to `notify_random_publisher` (`proxy.c`, `dispatcher.c`).

A chunk of events is read into a buffer by one of the proxy's reader threads and
passes through four sockets: to the flusher, from there to one of the dispatchers,
from its main loop to one of its parser threads, each hop receiving the chunk as a
string with a size and sending these on. A parser walks over the chunk, passes the
events that have a name to `notify_random_publisher` and skips the others. Every
thread is at every moment at one of its socket calls or between two events of a
chunk, and any of them may move next. -/
namespace Rnotify.Flow
open Library

/-- `BUFF_SIZE`, for a `FILENAME_MAX` of 4096. -/
def buffSize : Nat := (InotifyEvent.headerSize + 4096) * 2000

/-- What `_recv_buff` gives: the string and its size. -/
structure Received where
  buff : List Byte
  size : Int
deriving DecidableEq

def receive (wire : Wire) : Option Received := (recvBuff wire).map fun received => ⟨received.1, received.2⟩

/-- A reader thread: its buffer, and between the read and the send the length read. -/
structure Reader where
  buff : Buffer
  len : Option Nat

/-- A parser thread with a chunk: how far it is. -/
structure Walk where
  chunk : Received
  i : Nat
deriving DecidableEq

/-- The threads and the sockets between them; dispatchers are named by `δ`. -/
structure State (δ : Type) where
  readers : Fin 10 → Reader
  /-- Chunks sent by readers and not yet received by the flusher. -/
  work : Multiset Wire
  flusher : Option Received
  /-- Chunks sent by the flusher and not yet received by a dispatcher. -/
  flushed : Multiset Wire
  mains : δ → Option Received
  /-- Chunks sent by a dispatcher's main loop and not yet received by a parser. -/
  workers : δ → Multiset Wire
  parsers : δ × Fin 10 → Option Walk
  /-- The events read so far. -/
  read : Multiset InotifyEvent
  /-- The events passed to `notify_random_publisher` so far. -/
  notified : Multiset InotifyEvent
  /-- The events that parsers have skipped so far. -/
  skipped : Multiset InotifyEvent

inductive Label (δ : Type) where
  /-- A reader's `read` returns some events. -/
  | read (k : Fin 10) (events : List InotifyEvent)
  | submit (k : Fin 10)
  | flusherReceive (wire : Wire)
  | flush
  | mainReceive (d : δ) (wire : Wire)
  | mainSend (d : δ)
  | parserReceive (d : δ) (k : Fin 10) (wire : Wire)
  /-- A turn of a parser's loop, given the memory after the end of the chunk's string. -/
  | parse (d : δ) (k : Fin 10) (heap : Nat → Byte)

/-- `read` stores bytes from the start of the buffer. -/
def Reader.store (r : Reader) (bytes : List Byte) : Reader :=
  ⟨{ r.buff with data := bytes ++ r.buff.data.drop bytes.length }, some bytes.length⟩

/-- A receive, by a thread that holds nothing, of a chunk that is queued. -/
def take {α : Type} (held : Option α) (queue : Multiset Wire) (wire : Wire) :
    Option (Received × Multiset Wire) :=
  match held with
  | some _ => none
  | none => if wire ∈ queue then (receive wire).map fun chunk => (chunk, queue.erase wire) else none

/-- A send of the chunk that a relay holds. -/
def forward (held : Option Received) (queue : Multiset Wire) : Option (Multiset Wire) :=
  match held with
  | none => none
  | some chunk => (sendString chunk.buff (toSize chunk.size)).map fun wire => wire ::ₘ queue

variable {δ : Type} [DecidableEq δ]

/-- One turn of the loop in `parser_thread`, or its end. -/
def parseTurn (s : State δ) (p : δ × Fin 10) (w : Walk) (heap : Nat → Byte) : State δ :=
  if (w.i : Int) < w.chunk.size then
    let pevent := InotifyEvent.view (image (w.chunk.buff ++ [0]) heap) w.i
    let parsers := Function.update s.parsers p (some { w with i := w.i + pevent.size })
    if pevent.len ≠ 0 then { s with parsers := parsers, notified := pevent ::ₘ s.notified }
    else { s with parsers := parsers, skipped := pevent ::ₘ s.skipped }
  else { s with parsers := Function.update s.parsers p none }

def step (s : State δ) : Label δ → Option (State δ)
  | .read k events =>
    match (s.readers k).len with
    | some _ => none
    | none =>
      if (InotifyEvent.allBytes events).length ≤ buffSize then
        some { s with
          readers := Function.update s.readers k ((s.readers k).store (InotifyEvent.allBytes events))
          read := s.read + events }
      else none
  | .submit k =>
    match (s.readers k).len with
    | none => none
    | some len => (sendString (s.readers k).buff.data len).map fun wire =>
      { s with
        readers := Function.update s.readers k { s.readers k with len := none }
        work := wire ::ₘ s.work }
  | .flusherReceive wire => (take s.flusher s.work wire).map fun taken =>
    { s with flusher := some taken.1, work := taken.2 }
  | .flush => (forward s.flusher s.flushed).map fun queue => { s with flusher := none, flushed := queue }
  | .mainReceive d wire => (take (s.mains d) s.flushed wire).map fun taken =>
    { s with mains := Function.update s.mains d (some taken.1), flushed := taken.2 }
  | .mainSend d => (forward (s.mains d) (s.workers d)).map fun queue =>
    { s with mains := Function.update s.mains d none, workers := Function.update s.workers d queue }
  | .parserReceive d k wire => (take (s.parsers (d, k)) (s.workers d) wire).map fun taken =>
    { s with
      parsers := Function.update s.parsers (d, k) (some ⟨taken.1, 0⟩)
      workers := Function.update s.workers d taken.2 }
  | .parse d k heap => (s.parsers (d, k)).map fun w => parseTurn s (d, k) w heap

/-- Every thread is at its first receive or read, and nothing has been read. -/
def flow (δ : Type) [DecidableEq δ] : System (State δ) (Label δ) where
  initial :=
    { readers := fun _ => ⟨⟨buffSize, []⟩, none⟩, work := 0, flusher := none, flushed := 0
      mains := fun _ => none, workers := fun _ => 0, parsers := fun _ => none
      read := 0, notified := 0, skipped := 0 }
  step := step

/-! ### Where the events are -/

/-- An event with a name field. -/
def Named (e : InotifyEvent) : Prop := e.len ≠ 0

instance (e : InotifyEvent) : Decidable (Named e) := inferInstanceAs (Decidable (e.len ≠ 0))

/-- The events that a walk finds in a string, from an offset on. -/
def eventsFrom (chunk : Received) (i : Nat) : Multiset InotifyEvent :=
  InotifyEvent.visited (image (chunk.buff ++ [0]) fun _ => 0) chunk.size.toNat i

def inChunk : Option Received → Multiset InotifyEvent
  | none => 0
  | some chunk => eventsFrom chunk 0

def inWire (wire : Wire) : Multiset InotifyEvent := inChunk (receive wire)

def inQueue (queue : Multiset Wire) : Multiset InotifyEvent := (queue.map inWire).sum

/-- The events that a reader has read and not yet sent. -/
def inReader (r : Reader) : Multiset InotifyEvent :=
  match r.len with
  | none => 0
  | some len => eventsFrom ⟨r.buff.data.take len, len⟩ 0

/-- The events that a parser has not yet come to. -/
def inWalk : Option Walk → Multiset InotifyEvent
  | none => 0
  | some w => eventsFrom w.chunk w.i

/-- The events in a reader's buffer, in a queue, held by a relay or not yet walked by a parser. -/
def inFlight [Fintype δ] (s : State δ) : Multiset InotifyEvent :=
  ∑ k, inReader (s.readers k) + inQueue s.work + inChunk s.flusher + inQueue s.flushed +
    ∑ d, inChunk (s.mains d) + ∑ d, inQueue (s.workers d) + ∑ p, inWalk (s.parsers p)

end Rnotify.Flow
