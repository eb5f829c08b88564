import PomboStorageNode.Library.Chunks
import Mathlib.Algebra.Group.Nat.Defs
import Mathlib.Data.Nat.Notation

/-!
# Length-prefixed frames

A frame is the length of the payload in four bytes, followed by the payload. The decoder keeps the
bytes that do not make up a whole frame yet, and its loop pushes the payload of every whole frame.
The bytes that have arrived alone decide what has been pushed (`foldl_transform`), so a stream of
frames is read back however it is cut (`frames_read_back`).
-/

set_option autoImplicit false

namespace PomboStorageNode.Utils.LengthPrefixedFrame

open Library.Chunks

abbrev Buffer := List UInt8

/-- `HEADER_LENGTH`. -/
def headerLength : ℕ := 4

/-- `writeUint32BE` into a buffer of four bytes; a value that does not fit throws. -/
def writeUint32BE (value : ℕ) : Option Buffer :=
  if value < 2 ^ 32 then
    some [UInt8.ofNat (value / 2 ^ 24), UInt8.ofNat (value / 2 ^ 16), UInt8.ofNat (value / 2 ^ 8),
      UInt8.ofNat value]
  else none

/-- `readUInt32BE(0)` of a buffer that has the four bytes. -/
def readUInt32BE (buffer : Buffer) : ℕ :=
  (buffer.take headerLength).foldl (fun value byte ↦ value * 2 ^ 8 + byte.toNat) 0

/-- `toLengthPrefixedFrame`. -/
def toLengthPrefixedFrame (payload : Buffer) : Option Buffer :=
  (writeUint32BE payload.length).map (· ++ payload)

/-- `LengthPrefixedFrameDecoder`, with what it has pushed. The stream is in object mode, so an
empty payload is emitted like any other. -/
structure LengthPrefixedFrameDecoder where
  buffer : Buffer
  pushed : List Buffer
  deriving DecidableEq

namespace LengthPrefixedFrameDecoder

def new : LengthPrefixedFrameDecoder := ⟨[], []⟩

/-- One pass of the loop of `processStreamData`; `none` when the loop is left, because its
condition is false or by `break`. -/
def loopBody (decoder : LengthPrefixedFrameDecoder) : Option LengthPrefixedFrameDecoder :=
  if headerLength ≤ decoder.buffer.length then
    if readUInt32BE decoder.buffer + headerLength ≤ decoder.buffer.length then
      some
        { buffer := decoder.buffer.drop (readUInt32BE decoder.buffer + headerLength)
          pushed := decoder.pushed ++
            [(decoder.buffer.drop headerLength).take (readUInt32BE decoder.buffer)] }
    else none
  else none

/-- The loop, entered with this decoder, is left with that one. -/
inductive Loops : LengthPrefixedFrameDecoder → LengthPrefixedFrameDecoder → Prop
  | leave {decoder} : decoder.loopBody = none → Loops decoder decoder
  | again {decoder next result} : decoder.loopBody = some next → Loops next result →
      Loops decoder result

theorem length_loopBody {decoder next : LengthPrefixedFrameDecoder}
    (hbody : decoder.loopBody = some next) : next.buffer.length < decoder.buffer.length := by
  unfold loopBody at hbody
  split_ifs at hbody with hheader hframe
  obtain rfl := Option.some.inj hbody
  show (decoder.buffer.drop _).length < _
  rw [List.length_drop]
  unfold headerLength at hheader hframe ⊢
  omega

/-- `processStreamData`; its callback is called without an error. -/
def processStreamData (decoder : LengthPrefixedFrameDecoder) : LengthPrefixedFrameDecoder :=
  match _hbody : decoder.loopBody with
  | none => decoder
  | some next => processStreamData next
termination_by decoder.buffer.length
decreasing_by exact length_loopBody _hbody

/-- `_transform`. -/
def transform (decoder : LengthPrefixedFrameDecoder) (chunk : Buffer) :
    LengthPrefixedFrameDecoder :=
  processStreamData { decoder with buffer := decoder.buffer ++ chunk }

/-- `_flush`. -/
def flush (decoder : LengthPrefixedFrameDecoder) : LengthPrefixedFrameDecoder :=
  processStreamData decoder

/-- What is emitted for a stream that arrives in these chunks and then ends. -/
def decode (chunks : List Buffer) : List Buffer := (flush (chunks.foldl transform new)).pushed

end LengthPrefixedFrameDecoder

open LengthPrefixedFrameDecoder

variable {decoder next result other : LengthPrefixedFrameDecoder}

/-! ### The loop -/

theorem processStreamData_of_none (hbody : decoder.loopBody = none) :
    decoder.processStreamData = decoder := by
  rw [processStreamData]
  split
  · rfl
  · rename_i hsome
    rw [hbody] at hsome
    cases hsome

theorem processStreamData_of_some (hbody : decoder.loopBody = some next) :
    decoder.processStreamData = next.processStreamData := by
  rw [processStreamData]
  split
  · rename_i hnone
    rw [hbody] at hnone
    cases hnone
  · rename_i hsome
    rw [hbody] at hsome
    rw [Option.some.inj hsome]

/-- The loop ends, and with the decoder that `processStreamData` returns. -/
theorem loops_processStreamData (decoder : LengthPrefixedFrameDecoder) :
    Loops decoder decoder.processStreamData := by
  induction decoder using processStreamData.induct with
  | case1 decoder hbody =>
    rw [processStreamData_of_none hbody]
    exact .leave hbody
  | case2 decoder next hbody ih =>
    rw [processStreamData_of_some hbody]
    exact .again hbody ih

theorem Loops.eq_processStreamData (hloops : Loops decoder result) :
    result = decoder.processStreamData := by
  induction hloops with
  | leave hbody => exact (processStreamData_of_none hbody).symm
  | again hbody _ ih => rw [processStreamData_of_some hbody, ih]

/-! ### Frames at the front of a buffer -/

/-- The first whole frame of a buffer. -/
def nextFrame (buffer : Buffer) : Option (Buffer × Buffer) :=
  if headerLength ≤ buffer.length then
    if readUInt32BE buffer + headerLength ≤ buffer.length then
      some ((buffer.drop headerLength).take (readUInt32BE buffer),
        buffer.drop (readUInt32BE buffer + headerLength))
    else none
  else none

theorem loopBody_eq (decoder : LengthPrefixedFrameDecoder) :
    decoder.loopBody = (nextFrame decoder.buffer).map fun taken ↦
      ⟨taken.2, decoder.pushed ++ [taken.1]⟩ := by
  unfold loopBody nextFrame
  split_ifs <;> rfl

theorem nextFrame_eq_some {buffer payload rest : Buffer}
    (hnext : nextFrame buffer = some (payload, rest)) :
    readUInt32BE buffer + headerLength ≤ buffer.length ∧
      payload = (buffer.drop headerLength).take (readUInt32BE buffer) ∧
      rest = buffer.drop (readUInt32BE buffer + headerLength) := by
  unfold nextFrame at hnext
  split_ifs at hnext with hheader hframe
  obtain ⟨rfl, rfl⟩ := Prod.mk.inj (Option.some.inj hnext)
  exact ⟨hframe, rfl, rfl⟩

theorem readUInt32BE_append {buffer : Buffer} (hheader : headerLength ≤ buffer.length)
    (more : Buffer) : readUInt32BE (buffer ++ more) = readUInt32BE buffer := by
  unfold readUInt32BE
  rw [List.take_append_of_le_length hheader]

/-- Frames are read off the front of a buffer one at a time. -/
def frames : Reader UInt8 Buffer where
  next := nextFrame
  length_lt := by
    intro buffer payload rest hnext
    obtain ⟨hframe, -, rfl⟩ := nextFrame_eq_some hnext
    rw [List.length_drop]
    unfold headerLength at hframe ⊢
    omega
  next_append := by
    intro buffer payload rest hnext more
    obtain ⟨hframe, rfl, rfl⟩ := nextFrame_eq_some hnext
    have hheader : headerLength ≤ buffer.length := Nat.le_of_add_left_le hframe
    have hread := readUInt32BE_append hheader more
    unfold nextFrame
    rw [List.length_append, if_pos (Nat.le_add_right_of_le hheader), hread,
      if_pos (Nat.le_add_right_of_le hframe), List.drop_append_of_le_length hheader,
      List.drop_append_of_le_length hframe, List.take_append_of_le_length]
    rw [List.length_drop]
    omega

/-! ### The decoder -/

/-- The loop pushes the payloads of all whole frames and keeps the other bytes. -/
theorem processStreamData_eq (decoder : LengthPrefixedFrameDecoder) :
    decoder.processStreamData =
      ⟨(frames.drain decoder.buffer).2, decoder.pushed ++ (frames.drain decoder.buffer).1⟩ := by
  induction decoder using processStreamData.induct with
  | case1 decoder hbody =>
    have hnext : frames.next decoder.buffer = none := by
      rw [loopBody_eq, Option.map_eq_none_iff] at hbody
      exact hbody
    rw [processStreamData_of_none hbody, Reader.drain_of_none hnext, List.append_nil]
  | case2 decoder next hbody ih =>
    rw [processStreamData_of_some hbody, ih]
    rw [loopBody_eq, Option.map_eq_some_iff] at hbody
    obtain ⟨⟨payload, rest⟩, hnext, rfl⟩ := hbody
    have hdrain := @Reader.drain_of_some _ _ frames _ _ _ hnext
    rw [hdrain, List.append_assoc]
    rfl

/-- The decoder that has read these frames and holds the other bytes. -/
def ofState (state : List Buffer × Buffer) : LengthPrefixedFrameDecoder := ⟨state.2, state.1⟩

theorem transform_ofState (state : List Buffer × Buffer) (chunk : Buffer) :
    (ofState state).transform chunk = ofState (frames.feed state chunk) := by
  rw [transform, processStreamData_eq]
  rfl

/-- The decoder depends on the bytes that have arrived, not on how they were cut. -/
theorem foldl_transform (chunks : List Buffer) :
    chunks.foldl transform new = ofState (frames.drain chunks.flatten) := by
  have hnew : new = ofState (frames.drain []) := by
    rw [Reader.drain_nil]
    rfl
  rw [hnew, List.foldl_hom ofState transform_ofState, Reader.feed_eq_drain]

/-- At the end of the stream the loop finds no whole frame that it has not pushed yet: it does what
it does for an empty chunk. -/
theorem flush_eq_transform_nil (decoder : LengthPrefixedFrameDecoder) :
    decoder.flush = decoder.transform [] := by
  unfold flush transform
  rw [List.append_nil]

theorem decode_eq (chunks : List Buffer) : decode chunks = (frames.drain chunks.flatten).1 := by
  have hflush : decode chunks = ((chunks ++ [[]]).foldl transform new).pushed := by
    rw [List.foldl_append]
    show (flush _).pushed = (transform _ []).pushed
    rw [flush_eq_transform_nil]
  rw [hflush, foldl_transform, List.flatten_append, List.flatten_singleton, List.append_nil]
  rfl

/-! ### Reading frames back -/

theorem readUInt32BE_writeUint32BE {value : ℕ} {header : Buffer}
    (hheader : writeUint32BE value = some header) :
    header.length = headerLength ∧ readUInt32BE header = value := by
  unfold writeUint32BE at hheader
  split_ifs at hheader with hlt
  obtain rfl := Option.some.inj hheader
  refine ⟨rfl, ?_⟩
  simp only [readUInt32BE, headerLength, List.take, List.foldl, UInt8.toNat_ofNat']
  omega

/-- A frame at the front of a buffer is read as its payload. -/
theorem nextFrame_frame {payload frame : Buffer}
    (hframe : toLengthPrefixedFrame payload = some frame) (more : Buffer) :
    nextFrame (frame ++ more) = some (payload, more) := by
  obtain ⟨header, hheader, rfl⟩ := Option.map_eq_some_iff.1 hframe
  obtain ⟨hlength, hread⟩ := readUInt32BE_writeUint32BE hheader
  have hsize : readUInt32BE (header ++ payload ++ more) = payload.length := by
    rw [List.append_assoc, readUInt32BE_append (Nat.le_of_eq hlength.symm), hread]
  have htotal : (header ++ payload ++ more).length =
      headerLength + payload.length + more.length := by
    rw [List.length_append, List.length_append, hlength]
  have hpayload : (header ++ payload ++ more).drop headerLength = payload ++ more := by
    rw [← hlength, List.append_assoc, List.drop_left]
  have hrest : (header ++ payload ++ more).drop (payload.length + headerLength) = more := by
    rw [Nat.add_comm, ← List.drop_drop, hpayload, List.drop_left]
  unfold nextFrame
  rw [hsize, hpayload, hrest, List.take_left, if_pos (by omega), if_pos (by omega)]

theorem toLengthPrefixedFrame_of_lt {payload : Buffer} (hlt : payload.length < 2 ^ 32) :
    ∃ frame, toLengthPrefixedFrame payload = some frame := by
  unfold toLengthPrefixedFrame writeUint32BE
  rw [if_pos hlt]
  exact ⟨_, rfl⟩

/-- The frames of payloads that are short enough. -/
theorem mapM_toLengthPrefixedFrame {payloads : List Buffer}
    (hlt : ∀ payload ∈ payloads, payload.length < 2 ^ 32) :
    payloads.mapM toLengthPrefixedFrame =
      some (payloads.map fun payload ↦ (toLengthPrefixedFrame payload).getD []) := by
  induction payloads with
  | nil => rfl
  | cons payload payloads ih =>
    rw [List.mapM_cons, ih fun other hother ↦ hlt other (List.mem_cons_of_mem payload hother)]
    obtain ⟨frame, hframe⟩ := toLengthPrefixedFrame_of_lt (hlt payload List.mem_cons_self)
    rw [List.map_cons, hframe]
    rfl

/-- The decoder reads back the payloads of a stream of frames, however the stream is cut. On any
bytes its loop ends, with one result, and neither the state of the decoder nor what it has emitted
depends on how the bytes were cut. -/
theorem frames_read_back :
    (∀ payloads : List Buffer, (∀ payload ∈ payloads, payload.length < 2 ^ 32) →
      ∃ encoded, payloads.mapM toLengthPrefixedFrame = some encoded ∧
        ∀ chunks : List Buffer, chunks.flatten = encoded.flatten → decode chunks = payloads) ∧
    (∀ decoder result, Loops decoder result ↔ result = decoder.processStreamData) ∧
    ∀ chunks others : List Buffer, chunks.flatten = others.flatten →
      chunks.foldl transform new = others.foldl transform new ∧ decode chunks = decode others := by
  refine ⟨?_, ?_, ?_⟩
  · intro payloads hlt
    refine ⟨_, mapM_toLengthPrefixedFrame hlt, ?_⟩
    intro chunks hchunks
    have hwrites : ∀ payload ∈ payloads, ∀ more,
        frames.next ((toLengthPrefixedFrame payload).getD [] ++ more) = some (payload, more) := by
      intro payload hpayload more
      obtain ⟨frame, hframe⟩ := toLengthPrefixedFrame_of_lt (hlt payload hpayload)
      rw [hframe]
      exact nextFrame_frame hframe more
    rw [decode_eq, hchunks, Reader.drain_flatten_of_writes hwrites]
  · intro decoder result
    constructor
    · exact Loops.eq_processStreamData
    · rintro rfl
      exact loops_processStreamData decoder
  · intro chunks others hflatten
    constructor
    · rw [foldl_transform, foldl_transform, hflatten]
    · rw [decode_eq, decode_eq, hflatten]

end PomboStorageNode.Utils.LengthPrefixedFrame
