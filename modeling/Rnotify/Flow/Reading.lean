import Rnotify.Flow.Model

/-! A reader thread and the results of its reads (`start_proxy`).

The thread keeps one buffer and hands it to `_send_string` after each `read`, with
the result for a length. `read` answers a number of bytes, which it has put at the
start of the buffer, or -1, and then the buffer is as it was. `_send_string` takes
a `size_t`: a number of bytes stays what it is, and -1 becomes a length that no
memory has. -/
namespace Rnotify.Flow
open Library

/-- A result of `read`. -/
inductive ReadResult where
  | bytes (bs : List Byte) (nonempty : bs ≠ []) (fits : bs.length ≤ buffSize)
  | failure

namespace ReadResult

/-- The `ssize_t` that `read` returns. -/
def len : ReadResult → Int
  | .bytes bs _ _ => bs.length
  | .failure => -1

/-- The buffer after the `read`. -/
def fill (buff : Buffer) : ReadResult → Buffer
  | .bytes bs _ _ => (Reader.store ⟨buff, none⟩ bs).buff
  | .failure => buff

/-- What was read. -/
def read : ReadResult → Option (List Byte)
  | .bytes bs _ _ => some bs
  | .failure => none

end ReadResult

/-- A call of `_send_string`: the memory at `string`, and `len`. -/
structure Handed where
  string : List Byte
  len : Nat
deriving DecidableEq

/-- The chunk that a call hands over, if the memory has so many bytes. -/
def Handed.chunk (call : Handed) : Option (List Byte) := zframeNew call.string call.len

/-- The loop of `start_proxy`, over the results of its reads: the calls of `_send_string`. When the frame
cannot be made, the process stops inside the call. -/
def startProxy (buff : Buffer) : List ReadResult → List Handed
  | [] => []
  | result :: rest =>
    let filled := result.fill buff
    let call : Handed := ⟨filled.data, toSize result.len⟩
    match sendString call.string call.len with
    | none => [call]
    | some _ => call :: startProxy filled rest

/-- The thread, started with any contents of its buffer, hands over what was read and nothing else. -/
structure Forwards (memory : List Byte) (results : List ReadResult) : Prop where
  chunks : (startProxy ⟨buffSize, memory⟩ results).map Handed.chunk = (results.filterMap ReadResult.read).map some
  fits : ∀ call ∈ startProxy ⟨buffSize, memory⟩ results, call.len ≤ buffSize

/-- After a read of some bytes these are handed over, whatever the buffer held, and the loop goes on. -/
theorem startProxy_bytes (buff : Buffer) (bs : List Byte) (hne : bs ≠ []) (hfits : bs.length ≤ buffSize)
    (rest : List ReadResult) : ∃ call, call.chunk = some bs ∧ call.len = bs.length ∧
      startProxy buff (.bytes bs hne hfits :: rest) =
        call :: startProxy (ReadResult.fill buff (.bytes bs hne hfits)) rest := by
  have hlen : toSize (bs.length : Int) = bs.length :=
    toSize_natCast (Nat.lt_of_le_of_lt hfits (by decide))
  have hframe : zframeNew (bs ++ buff.data.drop bs.length) bs.length = some bs := by
    rw [zframeNew, if_pos (by simp), List.take_left]
  refine ⟨⟨bs ++ buff.data.drop bs.length, bs.length⟩, hframe, rfl, ?_⟩
  simp only [startProxy, ReadResult.fill, ReadResult.len, Reader.store, hlen, sendString, hframe, Option.map_some]

theorem toSize_failure : toSize ReadResult.failure.len = 2 ^ 64 - 1 := by decide

/-- After a failed read the buffer is handed over with a length larger than any read's. -/
theorem startProxy_failure (buff : Buffer) (rest : List ReadResult) :
    ∃ call ∈ startProxy buff (.failure :: rest), buffSize < call.len := by
  refine ⟨⟨buff.data, toSize ReadResult.failure.len⟩, ?_, ?_⟩
  · rw [startProxy]
    dsimp only [ReadResult.fill]
    split <;> exact List.mem_cons_self
  · show buffSize < toSize ReadResult.failure.len
    rw [toSize_failure]
    decide

theorem chunks_of_bytes (results : List ReadResult) (buff : Buffer) (h : .failure ∉ results) :
    (startProxy buff results).map Handed.chunk = (results.filterMap ReadResult.read).map some ∧
      ∀ call ∈ startProxy buff results, call.len ≤ buffSize := by
  induction results generalizing buff with
  | nil => exact ⟨rfl, nofun⟩
  | cons result rest ih =>
    obtain ⟨hhead, hrest⟩ := not_or.mp (fun hor => h (List.mem_cons.mpr hor))
    cases result with
    | failure => exact absurd rfl hhead
    | bytes bs hne hfits =>
      obtain ⟨call, hchunk, hlen, hcalls⟩ := startProxy_bytes buff bs hne hfits rest
      obtain ⟨hchunks, hbounds⟩ := ih (ReadResult.fill buff (.bytes bs hne hfits)) hrest
      rw [hcalls]
      refine ⟨?_, ?_⟩
      · rw [List.map_cons, hchunk, hchunks]
        rfl
      · intro c hc
        rcases List.mem_cons.mp hc with rfl | hc
        · rw [hlen]
          exact hfits
        · exact hbounds c hc

theorem exists_oversized (results : List ReadResult) (buff : Buffer) (h : .failure ∈ results) :
    ∃ call ∈ startProxy buff results, buffSize < call.len := by
  induction results generalizing buff with
  | nil => cases h
  | cons result rest ih =>
    cases result with
    | failure => exact startProxy_failure buff rest
    | bytes bs hne hfits =>
      obtain ⟨call, _, _, hcalls⟩ := startProxy_bytes buff bs hne hfits rest
      have hlater : .failure ∈ rest := by simpa using h
      obtain ⟨c, hc, hlen⟩ := ih (ReadResult.fill buff (.bytes bs hne hfits)) hlater
      rw [hcalls]
      exact ⟨c, List.mem_cons_of_mem call hc, hlen⟩

/-- **What a reader hands over.** Over any results of its reads, and whatever its buffer held before, the
thread hands over what was read, in order and nothing else, exactly when no read fails. -/
theorem forwards_iff (memory : List Byte) (results : List ReadResult) :
    Forwards memory results ↔ .failure ∉ results := by
  constructor
  · intro h hfail
    obtain ⟨call, hcall, hlen⟩ := exists_oversized results ⟨buffSize, memory⟩ hfail
    exact Nat.not_le_of_lt hlen (h.fits call hcall)
  · intro h
    obtain ⟨hchunks, hfits⟩ := chunks_of_bytes results ⟨buffSize, memory⟩ h
    exact ⟨hchunks, hfits⟩

/-- One byte is read and the next read fails: the byte is handed over again, as the start of 2^64 - 1 of
them. -/
theorem failed_read_handed : (∃ call ∈ startProxy ⟨buffSize, []⟩ [.bytes [97] (by decide) (by decide), .failure],
      call.string = [97] ∧ call.len = 2 ^ 64 - 1) ∧
    ¬ Forwards [] [.bytes [97] (by decide) (by decide), .failure] := by
  have hcalls : ∃ call ∈ startProxy ⟨buffSize, []⟩ [.bytes [97] (by decide) (by decide), .failure],
      call.string = [97] ∧ call.len = 2 ^ 64 - 1 := ⟨⟨[97], 2 ^ 64 - 1⟩, by decide, rfl, rfl⟩
  refine ⟨hcalls, fun h => ?_⟩
  obtain ⟨call, hcall, _, hlen⟩ := hcalls
  have hle := h.fits call hcall
  rw [hlen] at hle
  exact absurd hle (by decide)

end Rnotify.Flow
