import CarrierSdk.Library.RingBuffer
import CarrierSdk.Library.Machine

/-! The buffers of the pseudo-TCP socket: a memory area that is filled and emptied around its end, with a data
length and a read position. Sizes are bounded by the memory, so the arithmetic of gsize does not wrap. -/
namespace CarrierSdk

structure PseudoTcpFifo where
  buffer : List UInt8
  bufferLength : Nat
  dataLength : Nat
  readPosition : Nat
  deriving DecidableEq

namespace PseudoTcpFifo

/-- Fresh memory has unknown contents, which are zero here. Nothing reads them before they are written. -/
def init (size : Nat) : PseudoTcpFifo := ⟨List.replicate size 0, size, 0, 0⟩

def getBuffered (b : PseudoTcpFifo) : Nat := b.dataLength

/-- A size that equals the data length is accepted and changes nothing. -/
def setCapacity (b : PseudoTcpFifo) (size : Nat) : PseudoTcpFifo × Bool :=
  if b.dataLength > size then (b, false)
  else if size ≠ b.dataLength then
    let copy := b.buffer.readAround b.readPosition b.dataLength
    ({ buffer := copy ++ List.replicate (size - b.dataLength) 0
       bufferLength := size
       dataLength := b.dataLength
       readPosition := 0 }, true)
  else (b, true)

/-- The assertion is the guard. -/
def consumeReadData (b : PseudoTcpFifo) (size : Nat) : Option PseudoTcpFifo :=
  if size ≤ b.dataLength then
    some { b with readPosition := (b.readPosition + size) % b.bufferLength, dataLength := b.dataLength - size }
  else none

def consumeWriteBuffer (b : PseudoTcpFifo) (size : Nat) : Option PseudoTcpFifo :=
  if size ≤ b.bufferLength - b.dataLength then some { b with dataLength := b.dataLength + size } else none

def getWriteRemaining (b : PseudoTcpFifo) : Nat := b.bufferLength - b.dataLength

/-- The bytes copied out. -/
def readOffset (b : PseudoTcpFifo) (bytes offset : Nat) : List UInt8 :=
  if offset ≥ b.dataLength then []
  else b.buffer.readAround ((b.readPosition + offset) % b.bufferLength) (min bytes (b.dataLength - offset))

/-- Writes behind the data, some bytes ahead; the data length stays. -/
def writeOffset (b : PseudoTcpFifo) (buffer : List UInt8) (offset : Nat) : PseudoTcpFifo × Nat :=
  if b.dataLength + offset ≥ b.bufferLength then (b, 0)
  else
    let copy := min buffer.length (b.bufferLength - b.dataLength - offset)
    let writePosition := (b.readPosition + b.dataLength + offset) % b.bufferLength
    ({ b with buffer := b.buffer.overwriteAround writePosition (buffer.take copy) }, copy)

def read (b : PseudoTcpFifo) (bytes : Nat) : PseudoTcpFifo × List UInt8 :=
  let copy := b.readOffset bytes 0
  ({ b with readPosition := (b.readPosition + copy.length) % b.bufferLength
            dataLength := b.dataLength - copy.length }, copy)

def write (b : PseudoTcpFifo) (buffer : List UInt8) : PseudoTcpFifo × Nat :=
  let r := b.writeOffset buffer 0
  ({ r.1 with dataLength := r.1.dataLength + r.2 }, r.2)

/-- What every operation keeps. -/
structure Valid (b : PseudoTcpFifo) : Prop where
  memory : b.buffer.length = b.bufferLength
  room : b.dataLength ≤ b.bufferLength
  start : b.readPosition < b.bufferLength

/-- The memory as a reader sees it: the data, and then the room behind it. -/
def view (b : PseudoTcpFifo) : List UInt8 := b.buffer.rotate b.readPosition

/-- The queue of bytes that the buffer stands for. -/
def contents (b : PseudoTcpFifo) : List UInt8 := b.view.take b.dataLength

variable {b : PseudoTcpFifo} {size bytes offset : Nat} {buffer : List UInt8}

theorem Valid.pos (h : b.Valid) : 0 < b.bufferLength := Nat.zero_lt_of_lt h.start

theorem Valid.length_view (h : b.Valid) : b.view.length = b.bufferLength := by
  rw [view, List.length_rotate, h.memory]

theorem Valid.length_contents (h : b.Valid) : b.contents.length = b.dataLength := by
  rw [contents, List.length_take, h.length_view, Nat.min_eq_left h.room]

theorem init_valid (h : 0 < size) : (init size).Valid := ⟨List.length_replicate, Nat.zero_le _, h⟩

@[simp] theorem contents_init (size : Nat) : (init size).contents = [] := List.take_zero

theorem setCapacity_init {newSize : Nat} (h : newSize ≠ 0) :
    (init size).setCapacity newSize = (init newSize, true) := by
  simp [PseudoTcpFifo.setCapacity, init, List.readAround, h]

theorem Valid.setCapacity (h : b.Valid) (hpos : 0 < size) : (b.setCapacity size).1.Valid := by
  rw [PseudoTcpFifo.setCapacity]
  split_ifs with hlt hne
  · exact h
  · refine ⟨?_, Nat.not_lt.mp hlt, hpos⟩
    have hread := List.readAround_eq (h.memory.symm ▸ h.start) (h.memory.symm ▸ h.room)
    simp only [hread, List.length_append, List.length_take, List.length_rotate, List.length_replicate, h.memory]
    have hroom := h.room
    omega
  · exact h

theorem Valid.setCapacity_contents (h : b.Valid) (size : Nat) : (b.setCapacity size).1.contents = b.contents := by
  rw [PseudoTcpFifo.setCapacity]
  split_ifs
  · rfl
  · have hread := List.readAround_eq (h.memory.symm ▸ h.start) (h.memory.symm ▸ h.room)
    have hlen := h.length_contents
    simp only [contents, view] at hlen
    simp only [contents, view, List.rotate_zero, hread]
    exact List.take_left' hlen
  · rfl

theorem setCapacity_accepts (b : PseudoTcpFifo) (size : Nat) : (b.setCapacity size).2 = decide (b.dataLength ≤ size) := by
  rw [setCapacity]
  split_ifs <;> simp only [true_eq_decide_iff, false_eq_decide_iff] <;> omega

variable {c : PseudoTcpFifo}

theorem consumeReadData_step (h : b.consumeReadData size = some c) : size ≤ b.dataLength ∧
    c = { b with readPosition := (b.readPosition + size) % b.bufferLength, dataLength := b.dataLength - size } := by
  rw [consumeReadData] at h
  split_ifs at h with hle
  exact ⟨hle, (Option.some.inj h).symm⟩

theorem consumeWriteBuffer_step (h : b.consumeWriteBuffer size = some c) :
    size ≤ b.getWriteRemaining ∧ c = { b with dataLength := b.dataLength + size } := by
  rw [consumeWriteBuffer] at h
  split_ifs at h with hle
  exact ⟨hle, (Option.some.inj h).symm⟩

/-- Reading on moves the view. -/
theorem view_moved (hb : b.Valid) (size dataLength : Nat) :
    view { b with readPosition := (b.readPosition + size) % b.bufferLength, dataLength } = b.view.rotate size := by
  rw [view, view, List.rotate_rotate, ← hb.memory, List.rotate_mod]

theorem contents_moved (hb : b.Valid) (hle : size ≤ b.dataLength) :
    contents { b with readPosition := (b.readPosition + size) % b.bufferLength, dataLength := b.dataLength - size } =
      b.contents.drop size := by
  have hroom := hb.room
  have hlen := hb.length_view
  rw [contents, view_moved hb, contents, List.rotate_eq_drop_append_take (by omega), List.drop_take,
    List.take_append_of_le_length]
  rw [List.length_drop]
  dsimp only
  omega

theorem Valid.moved (hb : b.Valid) (size : Nat) :
    Valid { b with readPosition := (b.readPosition + size) % b.bufferLength, dataLength := b.dataLength - size } :=
  ⟨hb.memory, (Nat.sub_le ..).trans hb.room, Nat.mod_lt _ hb.pos⟩

theorem Valid.consumeReadData (hb : b.Valid) (h : b.consumeReadData size = some c) :
    c.Valid ∧ c.contents = b.contents.drop size := by
  obtain ⟨hle, rfl⟩ := consumeReadData_step h
  exact ⟨hb.moved size, contents_moved hb hle⟩

theorem Valid.consumeWriteBuffer (hb : b.Valid) (h : b.consumeWriteBuffer size = some c) :
    c.Valid ∧ c.view = b.view ∧ c.dataLength = b.dataLength + size := by
  obtain ⟨hle, rfl⟩ := consumeWriteBuffer_step h
  rw [getWriteRemaining] at hle
  have hroom := hb.room
  exact ⟨⟨hb.memory, by dsimp only; omega, hb.start⟩, rfl, rfl⟩

/-- A read from some bytes on, of the data only. -/
theorem Valid.readOffset (hb : b.Valid) (bytes offset : Nat) :
    b.readOffset bytes offset = (b.contents.drop offset).take bytes := by
  have hlen := hb.length_contents
  rw [PseudoTcpFifo.readOffset]
  split_ifs with hge
  · rw [List.drop_of_length_le (by omega), List.take_nil]
  · have hroom := hb.room
    have hstart := hb.start
    rw [← hb.memory, List.readAround_ahead (by rw [hb.memory]; exact hstart) (by rw [hb.memory]; omega), contents, view,
      List.drop_take, List.take_take]

/-- What a write some bytes behind the data does: it shows in the view, and the data stays. -/
structure Wrote (b : PseudoTcpFifo) (buffer : List UInt8) (offset : Nat) (c : PseudoTcpFifo) : Prop where
  valid : c.Valid
  dataLength : c.dataLength = b.dataLength
  bufferLength : c.bufferLength = b.bufferLength
  view : c.view = b.view.overwrite (b.dataLength + offset) (buffer.take (b.getWriteRemaining - offset))

theorem writeOffset_count (b : PseudoTcpFifo) (buffer : List UInt8) (offset : Nat) :
    (b.writeOffset buffer offset).2 = min buffer.length (b.getWriteRemaining - offset) := by
  rw [writeOffset, getWriteRemaining]
  split_ifs
  · dsimp only
    omega
  · rfl

theorem Valid.writeOffset (hb : b.Valid) (buffer : List UInt8) (offset : Nat) :
    Wrote b buffer offset (b.writeOffset buffer offset).1 := by
  have hroom := hb.room
  rw [PseudoTcpFifo.writeOffset]
  split_ifs with hge
  · have hnone : b.getWriteRemaining - offset = 0 := by
      rw [getWriteRemaining]
      omega
    exact ⟨hb, rfl, rfl, by rw [hnone, List.take_zero, List.overwrite_nil]⟩
  · have hstart := hb.start
    have hmemory := hb.memory
    have htake : buffer.take (min buffer.length (b.bufferLength - b.dataLength - offset)) =
        buffer.take (b.bufferLength - b.dataLength - offset) := by
      apply List.take_eq_take_iff.mpr
      omega
    dsimp only
    rw [htake]
    generalize hput : buffer.take (b.bufferLength - b.dataLength - offset) = put
    have hlen : put.length ≤ b.bufferLength - b.dataLength - offset := hput ▸ List.length_take_le ..
    have hat : (b.readPosition + b.dataLength + offset) % b.bufferLength < b.buffer.length := by
      rw [hmemory]
      exact Nat.mod_lt _ hb.pos
    refine ⟨⟨(List.length_overwriteAround hat (by omega)).trans hmemory, hroom, hstart⟩, rfl, rfl, ?_⟩
    rw [view, view, getWriteRemaining, hput, Nat.add_assoc, ← hmemory]
    apply List.rotate_overwriteAround <;> omega

/-- A write appends what there is room for. -/
theorem Valid.write (hb : b.Valid) (buffer : List UInt8) :
    (b.write buffer).1.Valid ∧ (b.write buffer).1.bufferLength = b.bufferLength ∧
    (b.write buffer).1.contents = b.contents ++ buffer.take b.getWriteRemaining ∧
    (b.write buffer).2 = min buffer.length b.getWriteRemaining := by
  have hw := hb.writeOffset buffer 0
  have hn := writeOffset_count b buffer 0
  have hroom := hb.room
  have hview := hw.view
  rw [Nat.sub_zero] at hn hview
  have hput : (buffer.take b.getWriteRemaining).length = (b.writeOffset buffer 0).2 := by
    rw [List.length_take, hn, Nat.min_comm]
  have hfit : b.dataLength + (b.writeOffset buffer 0).2 ≤ b.bufferLength := by
    rw [hn, getWriteRemaining]
    omega
  refine ⟨⟨hw.valid.memory, ?_, hw.valid.start⟩, hw.bufferLength, ?_, hn⟩
  · rw [PseudoTcpFifo.write]
    dsimp only
    rwa [hw.dataLength, hw.bufferLength]
  · have hsame : (b.write buffer).1.view = (b.writeOffset buffer 0).1.view := rfl
    have hlong : (b.write buffer).1.dataLength = b.dataLength + (b.writeOffset buffer 0).2 := by
      rw [← hw.dataLength]
      rfl
    rw [contents, hsame, hlong, hview, Nat.add_zero, ← hput, List.take_overwrite, contents]
    rw [hb.length_view]
    exact hroom

/-- A read takes from the front. -/
theorem Valid.read (hb : b.Valid) (bytes : Nat) : (b.read bytes).1.Valid ∧
    (b.read bytes).1.bufferLength = b.bufferLength ∧
    (b.read bytes).2 = b.contents.take bytes ∧ (b.read bytes).1.contents = b.contents.drop bytes := by
  have hcopy : b.readOffset bytes 0 = b.contents.take bytes := by
    rw [hb.readOffset, List.drop_zero]
  have hlen := hb.length_contents
  have hle : (b.contents.take bytes).length ≤ b.dataLength := by
    rw [List.length_take]
    omega
  rw [PseudoTcpFifo.read, hcopy]
  refine ⟨hb.moved _, rfl, rfl, (contents_moved hb hle).trans ?_⟩
  rw [List.length_take]
  rcases Nat.le_total bytes b.contents.length with hshort | hlong
  · rw [Nat.min_eq_left hshort]
  · rw [Nat.min_eq_right hlong, List.drop_length, List.drop_of_length_le hlong]

/-- The memory behind the data, in the order in which it fills. -/
def ahead (b : PseudoTcpFifo) : List UInt8 := b.view.drop b.dataLength

theorem Valid.length_ahead (h : b.Valid) : b.ahead.length = b.getWriteRemaining := by
  rw [ahead, List.length_drop, h.length_view, getWriteRemaining]

theorem Valid.view_eq (_ : b.Valid) : b.view = b.contents ++ b.ahead := (List.take_append_drop ..).symm

/-- A write some bytes ahead is one in the memory behind the data. -/
theorem Wrote.ahead (h : Wrote b buffer offset c) (hb : b.Valid) (hfits : buffer.length ≤ b.getWriteRemaining - offset) :
    c.contents = b.contents ∧ c.ahead = b.ahead.overwrite offset buffer := by
  have hview := h.view
  rw [List.take_of_length_le hfits, hb.view_eq] at hview
  have hlen := hb.length_contents
  have hover : (b.contents ++ b.ahead).overwrite (b.dataLength + offset) buffer =
      b.contents ++ b.ahead.overwrite offset buffer := by
    rw [List.overwrite, List.overwrite, ← hlen, List.take_append, List.take_of_length_le (Nat.le_add_right _ _),
      Nat.add_sub_cancel_left, Nat.add_assoc, List.drop_append, List.drop_of_length_le (Nat.le_add_right _ _),
      Nat.add_sub_cancel_left]
    simp only [List.append_assoc, List.nil_append]
  rw [hover] at hview
  constructor
  · rw [contents, hview, h.dataLength]
    exact List.take_left' hlen
  · rw [PseudoTcpFifo.ahead, hview, h.dataLength]
    exact List.drop_left' hlen

/-- What is written ahead becomes data in order. -/
theorem Valid.consumed (hb : b.Valid) (h : b.consumeWriteBuffer size = some c) :
    c.Valid ∧ c.bufferLength = b.bufferLength ∧ c.contents = b.contents ++ b.ahead.take size ∧
      c.ahead = b.ahead.drop size := by
  obtain ⟨hvalid, hview, hlong⟩ := hb.consumeWriteBuffer h
  obtain ⟨-, rfl⟩ := consumeWriteBuffer_step h
  have hlen := hb.length_contents
  refine ⟨hvalid, rfl, ?_, ?_⟩
  · rw [contents, hview, hlong, hb.view_eq, ← hlen, List.take_append, List.take_of_length_le (Nat.le_add_right _ _),
      Nat.add_sub_cancel_left]
  · rw [ahead, hview, hlong, ahead, List.drop_drop]

/-- What is read becomes room at the end. -/
theorem Valid.ahead_read (hb : b.Valid) (bytes : Nat) :
    (b.read bytes).1.ahead = b.ahead ++ b.contents.take bytes := by
  have hcopy : b.readOffset bytes 0 = b.contents.take bytes := by
    rw [hb.readOffset, List.drop_zero]
  have hlen := hb.length_contents
  have hle : (b.contents.take bytes).length ≤ b.contents.length := List.length_take_le' ..
  have hall : (b.contents.take bytes).length ≤ b.view.length := by
    rw [hb.view_eq, List.length_append]
    omega
  rw [PseudoTcpFifo.read, hcopy, ahead, view_moved hb, List.rotate_eq_drop_append_take hall]
  dsimp only
  have hpiece : b.contents.take (b.contents.take bytes).length = b.contents.take bytes := by
    rw [List.length_take, List.take_eq_take_iff]
    omega
  generalize (b.contents.take bytes).length = k at hle hall hpiece ⊢
  rw [hb.view_eq, List.take_append_of_le_length hle, List.drop_append_of_le_length hle, List.append_assoc, hpiece]
  refine List.drop_left' ?_
  rw [List.length_drop, hlen]

end PseudoTcpFifo
end CarrierSdk
