import MediaServer.Foundation.Runs
import MediaServer.Rtp.Packet

/-! The write loop of an RTMP connection: what `SerializeChunkData` returns goes to the socket,
which may take a part of it at a time.
-/

namespace MediaServer.Rtmp

open Foundation List

/-- What one turn of the loop meets: what `SerializeChunkData` returns, the second time after the
wait for data, and how many bytes the socket takes, or none if it fails.
-/
structure WriteTurn where
  first : List BYTE
  second : List BYTE
  accepted : Option Nat

/-- `WriteData`: the bytes from the start of `dataout` on, also those behind its end, what the
socket took so far, and the buffers that were returned so far.
-/
structure WriteLoop where
  dataout : Nat → BYTE
  len : Nat := 0
  pos : Nat := 0
  socket : List BYTE := []
  returned : List (List BYTE) := []
  failed : Bool := false

namespace WriteLoop

variable (loop : WriteLoop)

def serializeChunkData (data : List BYTE) : WriteLoop :=
  { loop with
    dataout := fun i => data.getD i (loop.dataout i), len := data.length,
    returned := loop.returned ++ [data] }

/-- `write` asks for `len` bytes from `pos` on, also where only the rest of the data is there. -/
def write (accepted : Nat) : WriteLoop :=
  let taken := min accepted loop.len
  let sent :=
    { loop with socket := loop.socket ++ (List.range' loop.pos taken).map loop.dataout }
  if loop.pos + taken ≥ loop.len then { sent with len := 0, pos := 0 }
  else { sent with pos := loop.pos + taken }

def turn (input : WriteTurn) : WriteLoop :=
  if loop.failed then loop
  else if 0 < loop.len ∧ loop.pos < loop.len then
    match input.accepted with
    | none => { loop with failed := true }
    | some accepted => loop.write accepted
  else
    let filled := loop.serializeChunkData input.first
    if filled.len = 0 then filled.serializeChunkData input.second else filled

/-- The data that are not sent yet. -/
def pending : List BYTE :=
  (List.range' loop.pos (loop.len - loop.pos)).map loop.dataout

/-- Nothing was added and nothing was lost. -/
structure Exact (loop : WriteLoop) : Prop where
  bytes : loop.socket ++ loop.pending = loop.returned.flatten
  idle : loop.pos < loop.len ∨ loop.len = 0 ∧ loop.pos = 0

/-- The socket takes no more than what is left of the data. -/
def Permits (input : WriteTurn) : Prop :=
  loop.failed = false → loop.pos < loop.len
    → ∀ accepted, input.accepted = some accepted → min accepted loop.len ≤ loop.len - loop.pos

section

variable {loop : WriteLoop} (exact : loop.Exact)
include exact

theorem Exact.serializeChunkData (none : loop.len = 0) (data : List BYTE)
    : (loop.serializeChunkData data).Exact := by
  obtain ⟨bytes, idle⟩ := exact
  have start : loop.pos = 0 := by omega
  have sent : loop.socket = loop.returned.flatten := by
    simpa [pending, none] using bytes
  have stored : (List.range' 0 data.length).map (fun i => data.getD i (loop.dataout i)) = data := by
    refine ext_getElem (by simp) fun i _ inside => ?_
    simp [getD_eq_getElem?_getD, getElem?_eq_getElem inside]
  refine ⟨?_, ?_⟩
  · simp only [pending, WriteLoop.serializeChunkData, start, Nat.sub_zero, stored, sent,
      flatten_append, flatten_singleton]
  · exact (Nat.eq_zero_or_pos data.length).symm.imp (fun some => start ▸ some)
      fun none => ⟨none, start⟩

theorem Exact.write (some : loop.pos < loop.len) {accepted : Nat}
    (short : min accepted loop.len ≤ loop.len - loop.pos)
    : (loop.write accepted).Exact := by
  have bytes := exact.bytes
  rw [pending, show loop.len - loop.pos = min accepted loop.len
    + (loop.len - (loop.pos + min accepted loop.len)) by omega, ← range'_append_1,
    map_append, ← append_assoc] at bytes
  simp only [WriteLoop.write]
  split_ifs with done
  · rw [Nat.sub_eq_zero_of_le done, range'_zero, map_nil, append_nil] at bytes
    exact ⟨by simpa [pending] using bytes, .inr ⟨rfl, rfl⟩⟩
  · exact ⟨bytes, .inl (by simp only; omega)⟩

theorem Exact.turn {input : WriteTurn} (permitted : loop.Permits input)
    : (loop.turn input).Exact := by
  simp only [WriteLoop.turn]
  split_ifs with failed some none
  · exact exact
  · cases answer : input.accepted with
    | none => exact ⟨exact.bytes, exact.idle⟩
    | some accepted =>
      exact exact.write some.2 (permitted (by simpa using failed) some.2 accepted answer)
  · have idle := exact.idle
    exact (exact.serializeChunkData (by omega) input.first).serializeChunkData none input.second
  · have idle := exact.idle
    exact exact.serializeChunkData (by omega) input.first

/-- More bytes than are left make the socket get more than there is. -/
theorem permits_of_prefix {input : WriteTurn}
    (isPrefix : (loop.turn input).socket <+: (loop.turn input).returned.flatten)
    : loop.Permits input := by
  intro running some accepted answer
  have positive : 0 < loop.len := by omega
  have lengths := isPrefix.length_le
  have total := congrArg List.length exact.bytes
  simp only [WriteLoop.turn, running, Bool.false_eq_true, if_false, positive, some, and_self,
    if_true, answer, WriteLoop.write] at lengths
  simp only [pending, length_append, length_map, length_range'] at total
  split_ifs at lengths
  all_goals
    simp only [length_append, length_map, length_range'] at lengths
    omega

end

/-- The socket gets what was serialized, all the way, exactly in the runs in which it never takes
more than what is left of the data.
-/
theorem socket_prefix_iff (dataout : Nat → BYTE) (turns : List WriteTurn)
    : EachStep turn Permits { dataout } turns
      ↔ ∀ before, before <+: turns
        → (run turn { dataout } before).socket
          <+: (run turn { dataout } before).returned.flatten := by
  exact @eachStep_iff_prefixes _ _ turn Permits Exact
    (fun loop => loop.socket <+: loop.returned.flatten) (fun _ => True) (fun _ _ _ => trivial)
    (fun _ _ _ exact permitted => exact.turn permitted) (fun _ exact => ⟨_, exact.bytes⟩)
    (fun _ _ _ exact shown => permits_of_prefix exact shown) _ trivial ⟨rfl, .inr ⟨rfl, rfl⟩⟩ turns

/-- The chunk of a Set Chunk Size message, of which the socket takes ten bytes and then eight of the
sixteen that it is asked for again.
-/
theorem socket_gets_more
    : let chunk := [2, 0, 0, 0, 0, 0, 4, 1, 0, 0, 0, 0, 0, 0, 2, 0]
      let loop := run turn { dataout := fun _ => 0xFF }
        [⟨chunk, [], none⟩, ⟨[], [], some 10⟩, ⟨[], [], some 8⟩]
      loop.returned.flatten = chunk ∧ loop.socket = chunk ++ [0xFF, 0xFF] := by
  decide

end WriteLoop

end MediaServer.Rtmp
