import CarrierSdk.Library.Bytes
import CarrierSdk.Library.Machine
import CarrierSdk.Library.Pieces
import CarrierSdk.Mux.Multiplexer
import CarrierSdk.Session.CryptoHandler

/-! The packets of the multiplexer over a byte stream. The receiver collects an incomplete
packet in a buffer of fixed capacity. -/
namespace CarrierSdk

def flexBufferMaxLen : Nat := flexPaddingLen * 2 + Mux.elaMaxUserDataLen

namespace FlexBuffer

def available (b : FlexBuffer) : Nat := b.capacity - b.offset - b.size

/-- flex_buffer_reset. -/
def reset (b : FlexBuffer) (offset : Nat) : FlexBuffer := { b with offset, size := 0 }

/-- memcpy to a position of the buffer. -/
def write (b : FlexBuffer) (position : Nat) (bytes : List UInt8) : FlexBuffer :=
  { b with buffer := b.buffer.take position ++ bytes ++ b.buffer.drop (position + bytes.length) }

/-- How many of some bytes are appended. -/
def copied (dest : FlexBuffer) (len : Nat) : Nat := if len < dest.available then len else dest.available

/-- flex_buffer_append2. -/
def append2 (dest src : FlexBuffer) (len : Nat) : FlexBuffer :=
  let bytes := (src.buffer.drop src.offset).take (dest.copied len)
  { dest.write (dest.offset + dest.size) bytes with size := dest.size + dest.copied len }

/-- flex_buffer_append. -/
def append (dest src : FlexBuffer) : FlexBuffer := dest.append2 src src.size

section Operations
variable {b dest src : FlexBuffer} {m n : Nat}

theorem Fits.length_data (h : b.Fits n) : b.data.length = b.size := by
  have hi := h.inside
  have hl := h.length
  rw [data, List.length_take, List.length_drop]
  omega

theorem Fits.mono (h : b.Fits n) (hm : m ≤ n) : b.Fits m := ⟨hm.trans h.header, h.inside, h.length⟩

theorem copied_eq (h : m ≤ b.available) : b.copied m = m := by
  unfold copied
  split
  · rfl
  · omega

theorem copied_le (b : FlexBuffer) (m : Nat) : b.copied m ≤ m ∧ b.copied m ≤ b.available := by
  unfold copied
  split <;> omega

/-- Bytes for which there is no room are lost. -/
theorem append2_copied (dest src : FlexBuffer) (m : Nat) : dest.append2 src m = dest.append2 src (dest.copied m) := by
  rw [append2, append2, copied_eq (copied_le dest m).2]

/-- Bytes for which there is room, and which the source has. -/
theorem append2_eq (hroom : m ≤ dest.available) (hm : m ≤ src.size) :
    dest.append2 src m =
      { dest.write (dest.offset + dest.size) (src.data.take m) with size := dest.size + m } := by
  rw [append2, copied_eq hroom, data, List.take_take, Nat.min_eq_left hm]

theorem Fits.write (h : b.Fits n) {position : Nat} {bytes : List UInt8} (hroom : position + bytes.length ≤ b.capacity) :
    (b.write position bytes).Fits n := by
  have hl := h.length
  refine ⟨h.header, h.inside, ?_⟩
  simp only [FlexBuffer.write, List.length_append, List.length_take, List.length_drop]
  omega

theorem Fits.append2 (h : dest.Fits n) (hsrc : src.Fits 0) (hroom : m ≤ dest.available) (hm : m ≤ src.size) :
    (dest.append2 src m).Fits n := by
  have hi := h.inside
  have hlen : (src.data.take m).length = m := by
    rw [List.length_take, hsrc.length_data, Nat.min_eq_left hm]
  rw [append2_eq hroom hm]
  rw [available] at hroom
  have hwritten : (dest.write (dest.offset + dest.size) (src.data.take m)).Fits n := h.write (by omega)
  refine ⟨h.header, ?_, hwritten.length⟩
  dsimp only [FlexBuffer.write]
  omega

/-- What is appended comes behind the data. -/
theorem data_append2 (h : dest.Fits n) (hsrc : src.Fits 0) (hroom : m ≤ dest.available) (hm : m ≤ src.size) :
    (dest.append2 src m).data = dest.data ++ src.data.take m := by
  have hi := h.inside
  have hl := h.length
  have hlen : (src.data.take m).length = m := by
    rw [List.length_take, hsrc.length_data, Nat.min_eq_left hm]
  have hposition : dest.offset ≤ (dest.buffer.take (dest.offset + dest.size)).length := by
    rw [List.length_take]
    omega
  rw [append2_eq hroom hm, data]
  simp only [write, List.append_assoc]
  rw [List.drop_append_of_le_length hposition, List.drop_take, Nat.add_sub_cancel_left, ← data,
    ← List.append_assoc, List.take_append_of_le_length, List.take_of_length_le]
  · rw [List.length_append, h.length_data, hlen]
  · rw [List.length_append, h.length_data, hlen]

theorem Fits.forwardOffset (h : b.Fits n) (hm : m ≤ b.size) : (b.forwardOffset m).Fits n := by
  have hi := h.inside
  have hn := h.header
  rw [FlexBuffer.forwardOffset, if_pos (by omega)]
  exact ⟨by dsimp only; omega, by dsimp only; omega, h.length⟩

theorem data_forwardOffset (h : b.Fits n) (hm : m ≤ b.size) : (b.forwardOffset m).data = b.data.drop m := by
  have hi := h.inside
  rw [data, FlexBuffer.forwardOffset, if_pos (by omega)]
  dsimp only
  rw [data, ← List.drop_drop, List.drop_take]

theorem Fits.backwardOffset (h : b.Fits n) (m : Nat) (hm : m ≤ n) : (b.backwardOffset m).Fits (n - m) := by
  have hi := h.inside
  have hn := h.header
  rw [FlexBuffer.backwardOffset, if_pos (by omega)]
  exact ⟨by dsimp only; omega, by dsimp only; omega, h.length⟩

/-- Writing over the front of the data. -/
theorem data_write (h : b.Fits n) {bytes : List UInt8} (hbytes : bytes.length ≤ b.size) :
    (b.write b.offset bytes).data = bytes ++ b.data.drop bytes.length := by
  have hi := h.inside
  have hl := h.length
  have hfront : (b.buffer.take b.offset).length = b.offset := by
    rw [List.length_take]
    omega
  simp only [data, write, List.append_assoc]
  rw [List.drop_append_of_le_length (by omega), List.drop_of_length_le (by omega), List.nil_append,
    List.take_append, List.take_of_length_le hbytes, List.drop_take, List.drop_drop]

end Operations

end FlexBuffer

namespace Mux

def protocolHeadLen : Nat := 8

/-- The head of a packet as it stands in the buffer. -/
def protocolHead (type option : UInt8) (localChannelId remoteChannelId : ChannelId) (len : Nat) :
    List UInt8 :=
  [type, option] ++ Bytes.bigEndian 2 localChannelId.toNat ++ Bytes.bigEndian 2 remoteChannelId.toNat ++
    Bytes.bigEndian 2 len

/-- multiplex_handler_send_packet: the buffer that the next handler writes. -/
def multiplexHandlerSendPacket (type option : UInt8) (localChannelId remoteChannelId : ChannelId)
    (buf : Option FlexBuffer) : FlexBuffer :=
  let buf := buf.getD ⟨flexPaddingLen, flexPaddingLen, 0, List.replicate flexPaddingLen 0⟩
  let moved := buf.backwardOffset protocolHeadLen
  moved.write moved.offset (protocolHead type option remoteChannelId localChannelId buf.size)

/-- The payload_len of the packet that a buffer begins with. -/
def payloadLen (b : FlexBuffer) : Nat := Bytes.number ((b.buffer.drop (b.offset + 6)).take 2)

/-- What the receiver does with the bytes: appends a number of them, of which so many are copied,
or hands a packet to multiplex_handler_notify_packet. -/
inductive FramingOutput where
  | appended (len copied : Nat)
  | packet (bytes : List UInt8)
  deriving DecidableEq

/-- Fills the incomplete packet up to a length from the front of the data. -/
def fillTo (n : Nat) (incomplete buf : FlexBuffer) : FlexBuffer × FlexBuffer × List FramingOutput :=
  if n > incomplete.size then
    let append := n - incomplete.size
    (incomplete.append2 buf append, buf.forwardOffset append, [.appended append (incomplete.copied append)])
  else (incomplete, buf, [])

/-- The return of multiplex_handler_notify_data before the end of a packet. -/
def keepRest (incomplete buf : FlexBuffer) : FlexBuffer × List FramingOutput :=
  (incomplete.append buf, [.appended buf.size (incomplete.copied buf.size)])

/-- multiplex_handler_notify_data, with a bound on the turns of its loop. -/
def multiplexHandlerNotifyData : Nat → FlexBuffer → FlexBuffer → Option (FlexBuffer × List FramingOutput)
  | 0, _, _ => none
  | turns + 1, incomplete, buf =>
    if buf.size = 0 then some (incomplete, [])
    else if incomplete.size + buf.size < protocolHeadLen then some (keepRest incomplete buf)
    else
      let (incomplete, buf, os) := fillTo protocolHeadLen incomplete buf
      let len := payloadLen incomplete + protocolHeadLen
      if len > incomplete.size + buf.size then
        some ((keepRest incomplete buf).1, os ++ (keepRest incomplete buf).2)
      else
        let (incomplete, buf, ps) := fillTo len incomplete buf
        (multiplexHandlerNotifyData turns (incomplete.reset flexPaddingLen) buf).map fun r =>
          (r.1, os ++ ps ++ .packet incomplete.data :: r.2)

/-- The receiver of a reliable stream: the incomplete packet is kept from chunk to chunk. The
turns are bounded by the bytes of the chunk. -/
def framingMachine : Machine FlexBuffer FlexBuffer FramingOutput where
  step incomplete chunk := multiplexHandlerNotifyData (chunk.size + 1) incomplete chunk

/-- flex_buffer_init of a new handler. -/
def incompleteBuf : FlexBuffer :=
  ⟨flexBufferMaxLen, flexPaddingLen, 0, List.replicate flexBufferMaxLen 0⟩

def notifiedPackets (os : List FramingOutput) : List (List UInt8) :=
  os.filterMap fun | .packet bytes => some bytes | _ => none

/-! What is sent. -/

/-- The arguments of a call of multiplex_handler_send_packet. A payload has room for the head in
front of it. -/
structure SentPacket where
  type : UInt8
  option : UInt8
  localChannelId : ChannelId
  remoteChannelId : ChannelId
  buf : Option FlexBuffer
  room : ∀ b ∈ buf, b.Fits protocolHeadLen
  short : ∀ b ∈ buf, b.size ≤ elaMaxUserDataLen

def SentPacket.payload (p : SentPacket) : List UInt8 := (p.buf.map FlexBuffer.data).getD []

/-- What the call writes. -/
def SentPacket.bytes (p : SentPacket) : List UInt8 :=
  (multiplexHandlerSendPacket p.type p.option p.localChannelId p.remoteChannelId p.buf).data

theorem length_protocolHead (type option : UInt8) (l r : ChannelId) (len : Nat) :
    (protocolHead type option l r len).length = protocolHeadLen := by
  simp [protocolHead, protocolHeadLen]

/-- A head with the ids in the order of the receiver, and the payload. -/
theorem data_multiplexHandlerSendPacket (type option : UInt8) (l r : ChannelId) {buf : Option FlexBuffer}
    (hroom : ∀ b ∈ buf, b.Fits protocolHeadLen) :
    (multiplexHandlerSendPacket type option l r buf).data =
      protocolHead type option r l ((buf.map FlexBuffer.data).getD []).length ++ (buf.map FlexBuffer.data).getD [] := by
  have hwritten : ∀ b : FlexBuffer, b.Fits protocolHeadLen →
      ((b.backwardOffset protocolHeadLen).write (b.backwardOffset protocolHeadLen).offset
        (protocolHead type option r l b.size)).data = protocolHead type option r l b.data.length ++ b.data := by
    intro b hb
    have hmoved := hb.backwardOffset protocolHeadLen (Nat.le_refl _)
    have hsize : (b.backwardOffset protocolHeadLen).size = b.size + protocolHeadLen := by
      rw [FlexBuffer.backwardOffset, if_pos hb.header]
    rw [FlexBuffer.data_write hmoved (by rw [length_protocolHead]; omega), length_protocolHead,
      FlexBuffer.data_backward hb, hb.length_data, List.drop_append_of_le_length, List.drop_of_length_le,
      List.nil_append]
    · rw [List.length_take]
      omega
    · have hheader := hb.header
      have hinside := hb.inside
      have hlength := hb.length
      rw [List.length_take, List.length_drop]
      omega
  unfold multiplexHandlerSendPacket
  cases buf with
  | none => exact hwritten _ ⟨by decide, by decide, List.length_replicate⟩
  | some b => exact hwritten b (hroom b rfl)

theorem SentPacket.bytes_eq (p : SentPacket) :
    p.bytes = protocolHead p.type p.option p.remoteChannelId p.localChannelId p.payload.length ++
      p.payload := data_multiplexHandlerSendPacket p.type p.option p.localChannelId p.remoteChannelId p.room

/-- A packet that the receiver has room for. -/
structure Framed (q : List UInt8) : Prop where
  head : protocolHeadLen ≤ q.length
  short : q.length ≤ flexBufferMaxLen - flexPaddingLen
  len : Bytes.number ((q.drop 6).take 2) + protocolHeadLen = q.length

/-- A whole packet as the receiver looks at it. -/
structure Whole (q : List UInt8) : Prop where
  head : protocolHeadLen ≤ q.length
  short : q.length ≤ protocolHeadLen + elaMaxUserDataLen
  len : Bytes.number ((q.drop 6).take 2) + protocolHeadLen = q.length

theorem Whole.framed {q : List UInt8} (h : Whole q) : Framed q :=
  ⟨h.head, h.short.trans (by decide), h.len⟩

theorem SentPacket.length_payload (p : SentPacket) : p.payload.length ≤ elaMaxUserDataLen := by
  unfold payload
  cases hbuf : p.buf with
  | none => simp
  | some b =>
    rw [Option.map_some, Option.getD_some, (p.room b hbuf).length_data]
    exact p.short b hbuf

theorem number_payload (p : SentPacket) :
    Bytes.number (Bytes.bigEndian 2 p.payload.length) = p.payload.length := by
  have hpayload := p.length_payload
  rw [Bytes.number_bigEndian, Nat.mod_eq_of_lt]
  rw [elaMaxUserDataLen] at hpayload
  omega

theorem SentPacket.whole (p : SentPacket) : Whole p.bytes := by
  have hpayload := p.length_payload
  have hlen : p.bytes.length = protocolHeadLen + p.payload.length := by
    rw [p.bytes_eq, List.length_append, length_protocolHead]
  refine ⟨by omega, by omega, ?_⟩
  have hnumber : (p.bytes.drop 6).take 2 = Bytes.bigEndian 2 p.payload.length := by
    rw [p.bytes_eq]
    rfl
  rw [hnumber, number_payload, hlen, Nat.add_comm]

/-! What is received. -/

/-- The buffer of the incomplete packet: there is room for a whole one. -/
structure Receiving (b : FlexBuffer) : Prop where
  fits : b.Fits 0
  capacity : b.capacity = flexBufferMaxLen
  offset : b.offset = flexPaddingLen

theorem receiving_incompleteBuf : Receiving incompleteBuf :=
  ⟨⟨Nat.zero_le _, by decide, List.length_replicate⟩, rfl, rfl⟩

/-- No append was cut short. -/
def Untruncated (os : List FramingOutput) : Prop := ∀ len copied, .appended len copied ∈ os → copied = len

theorem Untruncated.nil : Untruncated [] := fun _ _ hmem => (nomatch hmem)

theorem Untruncated.append {os ps : List FramingOutput} (h : Untruncated os) (h' : Untruncated ps) :
    Untruncated (os ++ ps) := by
  intro len copied hmem
  rcases List.mem_append.mp hmem with hmem | hmem
  · exact h len copied hmem
  · exact h' len copied hmem

theorem Untruncated.packet {os : List FramingOutput} (h : Untruncated os) (bytes : List UInt8) :
    Untruncated (.packet bytes :: os) := by
  intro len copied hmem
  rcases List.mem_cons.mp hmem with hmem | hmem
  · cases hmem
  · exact h len copied hmem

theorem Receiving.available {b : FlexBuffer} (h : Receiving b) :
    b.available = flexBufferMaxLen - flexPaddingLen - b.size := by
  rw [FlexBuffer.available, h.capacity, h.offset]

theorem Receiving.size_le {b : FlexBuffer} (h : Receiving b) : b.size ≤ flexBufferMaxLen - flexPaddingLen := by
  have hinside := h.fits.inside
  rw [h.capacity, h.offset] at hinside
  omega

/-- Appending any number of the bytes that there are. -/
theorem Receiving.append2_copied {b src : FlexBuffer} (h : Receiving b) (hsrc : src.Fits 0) {n : Nat}
    (hn : n ≤ src.size) :
    Receiving (b.append2 src n) ∧ (b.append2 src n).size = b.size + b.copied n ∧
      (b.append2 src n).data = b.data ++ src.data.take (b.copied n) := by
  have hcopied := FlexBuffer.copied_le b n
  have hle := hcopied.1.trans hn
  rw [FlexBuffer.append2_copied]
  refine ⟨⟨h.fits.append2 hsrc hcopied.2 hle, h.capacity, h.offset⟩, ?_, FlexBuffer.data_append2 h.fits hsrc hcopied.2 hle⟩
  rw [FlexBuffer.append2_eq hcopied.2 hle]

theorem Receiving.append2 {b src : FlexBuffer} (h : Receiving b) (hsrc : src.Fits 0) {n : Nat}
    (hn : n ≤ src.size) (hroom : b.size + n ≤ flexBufferMaxLen - flexPaddingLen) :
    Receiving (b.append2 src n) ∧ (b.append2 src n).size = b.size + n ∧
      (b.append2 src n).data = b.data ++ src.data.take n := by
  have hall : b.copied n = n := FlexBuffer.copied_eq (by rw [h.available]; omega)
  have happend := h.append2_copied hsrc hn
  rwa [hall] at happend

theorem Receiving.reset {b : FlexBuffer} (h : Receiving b) :
    Receiving (b.reset flexPaddingLen) ∧ (b.reset flexPaddingLen).data = [] := by
  refine ⟨⟨⟨Nat.zero_le _, ?_, h.fits.length⟩, h.capacity, rfl⟩, List.take_zero⟩
  rw [FlexBuffer.reset, h.capacity]
  exact (by decide : flexPaddingLen + 0 ≤ flexBufferMaxLen)

section Turn
variable {b buf : FlexBuffer} {n : Nat}

/-- Filling moves bytes from the front of the chunk. -/
theorem fillTo_spec (h : Receiving b) (hbuf : buf.Fits 0) (hn : n ≤ b.size + buf.size)
    (hroom : n ≤ flexBufferMaxLen - flexPaddingLen) :
    Receiving (fillTo n b buf).1 ∧ (fillTo n b buf).2.1.Fits 0 ∧ (fillTo n b buf).1.size = max n b.size ∧
      (fillTo n b buf).1.data ++ (fillTo n b buf).2.1.data = b.data ++ buf.data ∧
      Untruncated (fillTo n b buf).2.2 ∧ notifiedPackets (fillTo n b buf).2.2 = [] := by
  unfold fillTo
  split
  · next hlt =>
    obtain ⟨hreceiving, hsize, hdata⟩ := h.append2 hbuf (n := n - b.size) (by omega) (by omega)
    refine ⟨hreceiving, hbuf.forwardOffset (by omega), by rw [hsize]; omega, ?_, ?_, rfl⟩
    · rw [hdata, FlexBuffer.data_forwardOffset hbuf (by omega), List.append_assoc, List.take_append_drop]
    · intro len copied hmem
      cases List.mem_singleton.mp hmem
      exact FlexBuffer.copied_eq (by rw [h.available]; omega)
  · next hle =>
    exact ⟨h, hbuf, (Nat.max_eq_right (Nat.le_of_not_lt hle)).symm, rfl, .nil, rfl⟩

/-- Bytes for which there is no room are taken from the chunk all the same. -/
theorem fillTo_receiving (h : Receiving b) (hbuf : buf.Fits 0) (hn : n ≤ b.size + buf.size) :
    Receiving (fillTo n b buf).1 ∧ (fillTo n b buf).2.1.Fits 0 ∧ b.size ≤ (fillTo n b buf).1.size ∧
      (fillTo n b buf).2.1.size = buf.size - (n - b.size) := by
  have hinside := hbuf.inside
  have hle : n - b.size ≤ buf.size := by omega
  unfold fillTo
  split
  · obtain ⟨hreceiving, hsize, -⟩ := h.append2_copied hbuf hle
    refine ⟨hreceiving, hbuf.forwardOffset hle, hsize ▸ Nat.le_add_right _ _, ?_⟩
    dsimp only
    rw [FlexBuffer.forwardOffset, if_pos (by omega)]
  · next hfull =>
    refine ⟨h, hbuf, Nat.le_refl _, ?_⟩
    dsimp only
    omega

/-- A chunk that ends before the end of a packet is kept. -/
theorem keepRest_spec (h : Receiving b) (hbuf : buf.Fits 0)
    (hroom : b.size + buf.size ≤ flexBufferMaxLen - flexPaddingLen) :
    Receiving (keepRest b buf).1 ∧ (keepRest b buf).1.data = b.data ++ buf.data ∧
      Untruncated (keepRest b buf).2 ∧ notifiedPackets (keepRest b buf).2 = [] := by
  obtain ⟨hreceiving, -, hdata⟩ := h.append2 hbuf (Nat.le_refl _) hroom
  refine ⟨hreceiving, ?_, ?_, rfl⟩
  · rw [keepRest, FlexBuffer.append, hdata, List.take_of_length_le (Nat.le_of_eq hbuf.length_data)]
  · intro len copied hmem
    cases List.mem_singleton.mp hmem
    exact FlexBuffer.copied_eq (by rw [h.available]; omega)

/-- The length in the head of a packet whose head has arrived. -/
theorem payloadLen_eq (hn : protocolHeadLen ≤ b.size) : payloadLen b = Bytes.number ((b.data.drop 6).take 2) := by
  rw [protocolHeadLen] at hn
  rw [payloadLen, FlexBuffer.data, List.drop_take, List.take_take, List.drop_drop, Nat.min_eq_left (by omega)]

end Turn

theorem notifiedPackets_append (os ps : List FramingOutput) :
    notifiedPackets (os ++ ps) = notifiedPackets os ++ notifiedPackets ps := List.filterMap_append

/-- What a chunk does to a receiver that has the beginning of the next of some packets. -/
structure Receives (qs : List (List UInt8)) (before chunk : List UInt8) (u : FlexBuffer)
    (os : List FramingOutput) (n : Nat) : Prop where
  receiving : Receiving u
  untruncated : Untruncated os
  packets : notifiedPackets os = qs.take n
  reaches : Reaches qs (before ++ chunk) n u.data

/-- A chunk that does not complete the packet is kept whole. -/
theorem Receives.kept {b buf : FlexBuffer} {q before chunk : List UInt8} {qs : List (List UInt8)}
    {os : List FramingOutput} (h : Receiving b) (hbuf : buf.Fits 0) (hq : Framed q)
    (hdata : b.data ++ buf.data = before ++ chunk) (hless : b.size + buf.size < q.length)
    (hos : Untruncated os) (hnone : notifiedPackets os = []) :
    Receives (q :: qs) before chunk (keepRest b buf).1 (os ++ (keepRest b buf).2) 0 := by
  have hmax := hq.short
  obtain ⟨hreceiving, hkept, huntruncated, hquiet⟩ := keepRest_spec h hbuf (by omega)
  refine ⟨hreceiving, hos.append huntruncated, ?_, ?_⟩
  · rw [notifiedPackets_append, hnone, hquiet]
    rfl
  · rw [hkept, hdata]
    refine Reaches.zero (fun p hp => ?_) fun he => (nomatch he)
    cases hp
    rwa [← hdata, List.length_append, h.fits.length_data, hbuf.length_data]

/-- A packet that is complete goes in front of those in the rest of the chunk. -/
theorem Receives.notified {u : FlexBuffer} {q before chunk rest : List UInt8} {qs : List (List UInt8)}
    {os ps : List FramingOutput} {n : Nat} (h : Receives qs [] rest u os n)
    (hbytes : before ++ chunk = q ++ rest) (hps : Untruncated ps) (hnone : notifiedPackets ps = []) :
    Receives (q :: qs) before chunk u (ps ++ .packet q :: os) (n + 1) where
  receiving := h.receiving
  untruncated := hps.append (h.untruncated.packet q)
  packets := by
    rw [notifiedPackets_append, hnone, List.take_succ_cons, ← h.packets]
    rfl
  reaches := by
    rw [hbytes]
    exact h.reaches.cons q

section Loop
variable {b buf : FlexBuffer}

/-- The head that has arrived says how long the packet is. -/
theorem payloadLen_framed {q t : List UInt8} (hq : Framed q) (h : Receiving b) (hn : protocolHeadLen ≤ b.size)
    (hbegins : b.data <+: q ++ t) : payloadLen b + protocolHeadLen = q.length := by
  have hhead : b.data.take protocolHeadLen = q.take protocolHeadLen := by
    obtain ⟨rest, hrest⟩ := hbegins
    have htake := congrArg (List.take protocolHeadLen) hrest
    rwa [List.take_append_of_le_length (by rwa [h.fits.length_data]),
      List.take_append_of_le_length hq.head] at htake
  have hbytes := congrArg (List.drop 6) hhead
  rw [List.drop_take, List.drop_take] at hbytes
  rw [payloadLen_eq hn, ← hq.len]
  exact congrArg (fun l => Bytes.number l + protocolHeadLen) hbytes

/-- The loop works off the chunk, up to the end of the last packet that is complete. -/
theorem notifyData_receives {turns : Nat} {qs : List (List UInt8)} (h : Receiving b) (hbuf : buf.Fits 0)
    (hqs : ∀ q ∈ qs, Framed q) (hstream : b.data ++ buf.data <+: qs.flatten)
    (hshort : ∀ q, qs[0]? = some q → b.data.length < q.length) (hturns : buf.size < turns) :
    ∃ u os n, multiplexHandlerNotifyData turns b buf = some (u, os) ∧
      Receives qs b.data buf.data u os n := by
  induction turns generalizing b buf qs with
  | zero => omega
  | succ turns ih =>
    by_cases hzero : buf.size = 0
    · have hnil : buf.data = [] := List.length_eq_zero_iff.mp (hbuf.length_data.trans hzero)
      refine ⟨b, [], 0, by rw [multiplexHandlerNotifyData, if_pos hzero], h, .nil, rfl, ?_⟩
      rw [hnil, List.append_nil] at hstream ⊢
      refine Reaches.zero hshort fun hqs => ?_
      rw [hqs] at hstream
      exact List.prefix_nil.mp hstream
    cases qs with
    | nil =>
      have hdata := List.append_eq_nil_iff.mp (List.prefix_nil.mp hstream)
      rw [← hbuf.length_data, hdata.2] at hzero
      exact (hzero rfl).elim
    | cons q qs =>
      have hq := hqs q List.mem_cons_self
      have hhead := hq.head
      have hlt : b.size < q.length := h.fits.length_data ▸ hshort q rfl
      rw [multiplexHandlerNotifyData, if_neg hzero]
      by_cases hfew : b.size + buf.size < protocolHeadLen
      · rw [if_pos hfew]
        exact ⟨_, _, 0, rfl, Receives.kept h hbuf hq rfl (by omega) Untruncated.nil rfl⟩
      rw [if_neg hfew]
      obtain ⟨h₁, hbuf₁, hsize₁, hdata₁, hos₁, hnone₁⟩ :=
        fillTo_spec h hbuf (n := protocolHeadLen) (Nat.le_of_not_lt hfew) (by decide)
      generalize fillTo protocolHeadLen b buf = r at h₁ hbuf₁ hsize₁ hdata₁ hos₁ hnone₁ ⊢
      obtain ⟨b₁, buf₁, os₁⟩ := r
      dsimp only at h₁ hbuf₁ hsize₁ hdata₁ hos₁ hnone₁ ⊢
      rw [List.flatten_cons, ← hdata₁] at hstream
      rw [payloadLen_framed hq h₁ (by omega) ((List.prefix_append _ _).trans hstream)]
      by_cases hless : q.length > b₁.size + buf₁.size
      · rw [if_pos hless]
        exact ⟨_, _, 0, rfl, Receives.kept h₁ hbuf₁ hq hdata₁ hless hos₁ hnone₁⟩
      rw [if_neg hless]
      obtain ⟨h₂, hbuf₂, hsize₂, hdata₂, hos₂, hnone₂⟩ :=
        fillTo_spec h₁ hbuf₁ (n := q.length) (Nat.le_of_not_lt hless) hq.short
      generalize fillTo q.length b₁ buf₁ = r at h₂ hbuf₂ hsize₂ hdata₂ hos₂ hnone₂ ⊢
      obtain ⟨b₂, buf₂, os₂⟩ := r
      dsimp only at h₂ hbuf₂ hsize₂ hdata₂ hos₂ hnone₂ ⊢
      -- The buffer holds the packet, and the chunk goes on behind it.
      obtain ⟨t, ht⟩ := hstream
      rw [← hdata₂, List.append_assoc] at ht
      obtain ⟨hpacket, hrest⟩ := List.append_inj ht (by rw [h₂.fits.length_data]; omega)
      have hbytes : b.data ++ buf.data = q ++ buf₂.data := by rw [← hdata₁, ← hdata₂, hpacket]
      have hshrink : buf₂.size < buf.size := by
        have hlen := congrArg List.length hbytes
        rw [List.length_append, List.length_append, h.fits.length_data, hbuf.length_data,
          hbuf₂.length_data] at hlen
        omega
      obtain ⟨hreset, hempty⟩ := h₂.reset
      have hnext : ∀ p, qs[0]? = some p → (b₂.reset flexPaddingLen).data.length < p.length := by
        intro p hp
        rw [hempty]
        exact Nat.lt_of_lt_of_le (by decide) (hqs p (List.mem_cons_of_mem _ (List.mem_of_getElem? hp))).head
      obtain ⟨u, os, n, hrun, hrec⟩ := ih hreset hbuf₂ (fun p hp => hqs p (List.mem_cons_of_mem _ hp))
        (by rw [hempty]; exact ⟨t, hrest⟩) hnext (by omega)
      rw [hempty] at hrec
      rw [hrun, hpacket]
      exact ⟨u, _, n + 1, rfl, hrec.notified hbytes (hos₁.append hos₂)
        (by rw [notifiedPackets_append, hnone₁, hnone₂]; rfl)⟩

end Loop

theorem exec_receives {chunks : List FlexBuffer} {b : FlexBuffer} {qs : List (List UInt8)} (h : Receiving b)
    (hfits : ∀ c ∈ chunks, c.Fits 0) (hqs : ∀ q ∈ qs, Framed q)
    (hstream : b.data ++ (chunks.map FlexBuffer.data).flatten <+: qs.flatten)
    (hshort : ∀ q, qs[0]? = some q → b.data.length < q.length) :
    ∃ u os n, framingMachine.exec b chunks = some (u, os) ∧
      Receives qs b.data (chunks.map FlexBuffer.data).flatten u os n := by
  induction chunks generalizing b qs with
  | nil =>
    refine ⟨b, [], 0, rfl, h, .nil, rfl, ?_⟩
    rw [List.map_nil, List.flatten_nil, List.append_nil] at hstream ⊢
    refine Reaches.zero hshort fun hnil => ?_
    rw [hnil] at hstream
    exact List.prefix_nil.mp hstream
  | cons c chunks ih =>
    rw [List.map_cons, List.flatten_cons] at hstream ⊢
    rw [← List.append_assoc] at hstream
    obtain ⟨u, os, n, hrun, hrec⟩ := notifyData_receives h (hfits c List.mem_cons_self) hqs
      ((List.prefix_append _ _).trans hstream) hshort (Nat.lt_succ_self _)
    have hrest : u.data ++ (chunks.map FlexBuffer.data).flatten <+: (qs.drop n).flatten := by
      rw [← hrec.reaches.flatten, ← List.take_append_drop n qs, List.flatten_append,
        List.take_append_drop, List.append_assoc] at hstream
      exact (List.prefix_append_right_inj _).mp hstream
    obtain ⟨u', os', n', hrun', hrec'⟩ := ih hrec.receiving (fun c hc => hfits c (List.mem_cons_of_mem _ hc))
      (fun q hq => hqs q (List.mem_of_mem_drop hq)) hrest
      (fun q hq => hrec.reaches.short q (by rwa [List.getElem?_drop] at hq))
    refine ⟨u', os ++ os', n + n', ?_, hrec'.receiving, hrec.untruncated.append hrec'.untruncated, ?_, ?_⟩
    · have hstep : framingMachine.step b c = some (u, os) := hrun
      rw [Machine.exec, hstep, Option.bind_some, hrun']
      rfl
    · rw [notifiedPackets_append, hrec.packets, hrec'.packets, List.take_add]
    · rw [← List.append_assoc]
      exact hrec.reaches.trans hrec'.reaches

/-- A receiver between two packets and the beginning of a stream of packets. -/
theorem exec_begins {b : FlexBuffer} {chunks : List FlexBuffer} {qs : List (List UInt8)} (h : Receiving b)
    (hempty : b.data = []) (hfits : ∀ c ∈ chunks, c.Fits 0) (hqs : ∀ q ∈ qs, Framed q)
    (hstream : (chunks.map FlexBuffer.data).flatten <+: qs.flatten) :
    ∃ u os n, framingMachine.exec b chunks = some (u, os) ∧
      Receives qs [] (chunks.map FlexBuffer.data).flatten u os n := by
  rw [← hempty]
  refine exec_receives h hfits hqs ?_ ?_
  · rwa [hempty, List.nil_append]
  · intro q hq
    rw [hempty]
    exact Nat.lt_of_lt_of_le (by decide) (hqs q (List.mem_of_getElem? hq)).head

/-- The receiver is notified of all packets of a stream that has arrived. -/
theorem exec_whole {b : FlexBuffer} {chunks : List FlexBuffer} {qs : List (List UInt8)} (h : Receiving b)
    (hempty : b.data = []) (hfits : ∀ c ∈ chunks, c.Fits 0) (hqs : ∀ q ∈ qs, Framed q)
    (hstream : (chunks.map FlexBuffer.data).flatten = qs.flatten) :
    ∃ u os, framingMachine.exec b chunks = some (u, os) ∧ Untruncated os ∧ notifiedPackets os = qs ∧ u.data = [] := by
  obtain ⟨u, os, n, hrun, hrec⟩ := exec_begins h hempty hfits hqs (hstream ▸ List.prefix_rfl)
  have hreaches := hrec.reaches
  rw [List.nil_append, hstream] at hreaches
  obtain ⟨hn, hrest⟩ := hreaches.whole
  refine ⟨u, os, hrun, hrec.untruncated, ?_, hrest⟩
  rw [hrec.packets, hn, List.take_length]

/-- A packet as multiplex_handler_notify_packet reads it. -/
structure ReadPacket where
  type : UInt8
  option : UInt8
  localChannelId : ChannelId
  remoteChannelId : ChannelId
  payload : List UInt8
  deriving DecidableEq

/-- The checks of multiplex_handler_notify_packet on the size of a packet. -/
def readPacket : List UInt8 → Option ReadPacket
  | type :: option :: l₁ :: l₀ :: r₁ :: r₀ :: n₁ :: n₀ :: payload =>
    if payload.length = Bytes.number [n₁, n₀] then
      some ⟨type, option, .ofNat (Bytes.number [l₁, l₀]), .ofNat (Bytes.number [r₁, r₀]), payload⟩
    else none
  | _ => none

theorem readPacket_length {bytes : List UInt8} {pb : ReadPacket} (hread : readPacket bytes = some pb) :
    protocolHeadLen ≤ bytes.length := by
  unfold readPacket at hread
  split at hread
  · simp [protocolHeadLen]
  · cases hread

theorem readPacket_payload {bytes : List UInt8} {pb : ReadPacket} (hread : readPacket bytes = some pb) :
    protocolHeadLen + pb.payload.length = bytes.length := by
  unfold readPacket at hread
  split at hread
  · split at hread
    · cases hread
      exact Nat.add_comm _ _
    · cases hread
  · cases hread

theorem readPacket_number {bytes : List UInt8} {pb : ReadPacket} (hread : readPacket bytes = some pb) :
    Bytes.number ((bytes.drop 6).take 2) + protocolHeadLen = bytes.length := by
  unfold readPacket at hread
  split at hread
  · next type option l₁ l₀ r₁ r₀ n₁ n₀ payload =>
    split at hread
    · next hlen =>
      change Bytes.number [n₁, n₀] + 8 = payload.length + 8
      rw [hlen]
    · cases hread
  · cases hread

/-- The receiver finds its own channel in the place of the local one. -/
def SentPacket.received (p : SentPacket) : ReadPacket :=
  ⟨p.type, p.option, p.remoteChannelId, p.localChannelId, p.payload⟩

theorem ofNat_number_bigEndian (c : ChannelId) : UInt16.ofNat (Bytes.number (Bytes.bigEndian 2 c.toNat)) = c := by
  rw [Bytes.number_bigEndian, Nat.mod_eq_of_lt (show c.toNat < 256 ^ 2 from c.toNat_lt), UInt16.ofNat_toNat]

theorem readPacket_bytes (p : SentPacket) : readPacket p.bytes = some p.received := by
  have hread : readPacket p.bytes =
      if p.payload.length = Bytes.number (Bytes.bigEndian 2 p.payload.length) then
        some ⟨p.type, p.option, .ofNat (Bytes.number (Bytes.bigEndian 2 p.remoteChannelId.toNat)),
          .ofNat (Bytes.number (Bytes.bigEndian 2 p.localChannelId.toNat)), p.payload⟩
      else none := by
    rw [p.bytes_eq]
    rfl
  rw [hread, number_payload, if_pos rfl, ofNat_number_bigEndian, ofNat_number_bigEndian]
  rfl

/-- Packets that are sent over a byte stream which is cut into chunks anywhere: after each chunk
the receiver has been notified of the packets that are complete and holds the bytes behind
them, and after the last one it has been notified of all. -/
theorem framing_exact (packets : List SentPacket) (chunks : List FlexBuffer) (hfits : ∀ c ∈ chunks, c.Fits 0)
    (hsplit : Pieces (flexBufferMaxLen - flexPaddingLen) (chunks.map FlexBuffer.data)
      (packets.map SentPacket.bytes).flatten) :
    (∀ k, ∃ u os n, framingMachine.exec incompleteBuf (chunks.take k) = some (u, os) ∧ Untruncated os ∧
      notifiedPackets os = (packets.map SentPacket.bytes).take n ∧
      Reaches (packets.map SentPacket.bytes) ((chunks.take k).map FlexBuffer.data).flatten n u.data) ∧
    (∃ u os, framingMachine.exec incompleteBuf chunks = some (u, os) ∧ Untruncated os ∧
      notifiedPackets os = packets.map SentPacket.bytes ∧ u.data = []) ∧
    ∀ p ∈ packets, readPacket p.bytes = some p.received := by
  have hwhole : ∀ q ∈ packets.map SentPacket.bytes, Whole q := by
    intro q hq
    obtain ⟨p, -, rfl⟩ := List.mem_map.mp hq
    exact p.whole
  have hframed : ∀ q ∈ packets.map SentPacket.bytes, Framed q := fun q hq => (hwhole q hq).framed
  refine ⟨fun k => ?_, exec_whole receiving_incompleteBuf List.take_zero hfits hframed hsplit.flatten, fun p _ => readPacket_bytes p⟩
  have hbegins : ((chunks.take k).map FlexBuffer.data).flatten <+: (packets.map SentPacket.bytes).flatten := by
    rw [← hsplit.flatten, List.map_take]
    conv_rhs => rw [← List.take_append_drop k (chunks.map FlexBuffer.data), List.flatten_append]
    exact List.prefix_append _ _
  obtain ⟨u, os, n, hrun, hrec⟩ :=
    exec_begins receiving_incompleteBuf List.take_zero (fun c hc => hfits c (List.mem_of_mem_take hc)) hframed hbegins
  exact ⟨u, os, n, hrun, hrec.untruncated, hrec.packets, hrec.reaches⟩

/-- flex_buffer_from with the usual padding. -/
def flexBufferFrom (bytes : List UInt8) : FlexBuffer :=
  ⟨bytes.length + flexPaddingLen, flexPaddingLen, bytes.length, List.replicate flexPaddingLen 0 ++ bytes⟩

theorem flexBufferFrom_fits (bytes : List UInt8) : (flexBufferFrom bytes).Fits flexPaddingLen := by
  refine ⟨Nat.le_refl _, ?_, ?_⟩
  · exact Nat.le_of_eq (Nat.add_comm _ _)
  · simp [flexBufferFrom, Nat.add_comm]

@[simp] theorem data_flexBufferFrom (bytes : List UInt8) : (flexBufferFrom bytes).data = bytes := by
  rw [FlexBuffer.data, flexBufferFrom]
  dsimp only
  rw [List.drop_left' List.length_replicate, List.take_length]

theorem threeBytes_room : ∀ b ∈ some (flexBufferFrom [7, 8, 9]), b.Fits protocolHeadLen := by
  simpa using (flexBufferFrom_fits [7, 8, 9]).mono (by decide)

theorem threeBytes_short : ∀ b ∈ some (flexBufferFrom [7, 8, 9]), b.size ≤ elaMaxUserDataLen := by
  simp [flexBufferFrom, elaMaxUserDataLen]

/-- Data of three bytes on the stream itself, and the closing of a channel. -/
def twoPackets : List SentPacket :=
  [⟨3, 0, 0, 0, some (flexBufferFrom [7, 8, 9]), threeBytes_room, threeBytes_short⟩,
    ⟨7, 0, 1, 2, none, by simp, by simp⟩]

/-- The cuts go through both heads. -/
theorem framing_exact_cut : ∃ u os,
    framingMachine.exec incompleteBuf
      (([[3, 0, 0, 0, 0], [0, 0, 3, 7, 8, 9, 7, 0], [0, 2, 0, 1, 0, 0]] : List (List UInt8)).map flexBufferFrom) =
        some (u, os) ∧
      notifiedPackets os = [[3, 0, 0, 0, 0, 0, 0, 3, 7, 8, 9], [7, 0, 0, 2, 0, 1, 0, 0]] ∧ u.data = [] := by
  have hbytes : twoPackets.map SentPacket.bytes =
      [[3, 0, 0, 0, 0, 0, 0, 3, 7, 8, 9], [7, 0, 0, 2, 0, 1, 0, 0]] := by decide +kernel
  obtain ⟨-, ⟨u, os, hrun, -, hpackets, hrest⟩, -⟩ := framing_exact twoPackets
    (([[3, 0, 0, 0, 0], [0, 0, 3, 7, 8, 9, 7, 0], [0, 2, 0, 1, 0, 0]] : List (List UInt8)).map flexBufferFrom)
    (fun c hc => by
      obtain ⟨bytes, -, rfl⟩ := List.mem_map.mp hc
      exact (flexBufferFrom_fits bytes).mono (Nat.zero_le _))
    ⟨by rw [hbytes]; decide +kernel, by decide +kernel⟩
  exact ⟨u, os, hrun, hpackets.trans hbytes, hrest⟩

end Mux
end CarrierSdk
