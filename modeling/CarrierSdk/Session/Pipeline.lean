import CarrierSdk.Mux.OpenAnswer
import CarrierSdk.Mux.ReceiveSafety
import Mathlib.Data.List.ReduceOption

/-! The handlers of a stream, one below the other, and what becomes of a payload on its way to the peer. The
assertions and the bounds of every buffer are checked. -/
namespace CarrierSdk.Pipeline
open Mux

/-- PJ_STUN_SOCK_PKT_LEN, as the build sets it. -/
def pjStunSockPktLen : Nat := 2176

def defaultTcpMtu : Nat := 1400

/-- What keeps a payload from the peer. -/
inductive Fault
  | refused (e : SessionError)
  | assertion
  | outOfBounds
  | decrypt
  | busy
  | ignored
  deriving DecidableEq

def check (p : Prop) [Decidable p] : Except Fault Unit := if p then .ok () else .error .assertion

/-- The data of a buffer lie inside it. -/
def inside (b : FlexBuffer) : Except Fault FlexBuffer :=
  if b.offset + b.size ≤ b.capacity then .ok b else .error .outOfBounds

/-- flex_buffer_forward_offset. The size would wrap around below zero. -/
def forward (b : FlexBuffer) (n : Nat) : Except Fault FlexBuffer := do
  check (b.offset + n ≤ b.capacity)
  if n ≤ b.size then inside (b.forwardOffset n) else .error .outOfBounds

/-- flex_buffer_backward_offset. -/
def backward (b : FlexBuffer) (n : Nat) : Except Fault FlexBuffer := do
  check (n ≤ b.offset)
  inside (b.backwardOffset n)

/-! What the handlers do with a buffer to be written. -/

/-- ela_stream_write, up to the first handler. -/
def elaStreamWrite (s : ElaStream) (payload : List UInt8) : Except Fault FlexBuffer :=
  if payload = [] ∨ elaMaxUserDataLen < payload.length then .error (.refused .invalidArgs)
  else if s.type = .audio ∨ s.type = .video then .error (.refused .notImplemented)
  else if s.state ≠ .connected then .error (.refused .wrongState)
  else inside (flexBufferFrom payload)

/-- multiplex_handler_write: multiplex_handler_send_packet for channel 0. -/
def multiplexHandlerWrite (buf : FlexBuffer) : Except Fault FlexBuffer := do
  let _ ← backward buf protocolHeadLen
  inside (multiplexHandlerSendPacket PacketType.channelData.code 0 0 0 (some buf))

/-- reliable_handler_write: the bytes that pseudo_tcp_socket_send takes, given how many it takes each time. -/
def reliableHandlerWrite : List (Option Nat) → FlexBuffer → Except Fault (List UInt8)
  | [], buf => if buf.size = 0 then .ok [] else .error .busy
  | none :: takes, buf => if buf.size = 0 then .ok [] else reliableHandlerWrite takes buf
  | some n :: takes, buf =>
    if buf.size = 0 then .ok []
    else do
      let rest ← forward buf n
      let bytes ← reliableHandlerWrite takes rest
      .ok (buf.data.take n ++ bytes)

/-- The buffer of crypto_handler_write, with what crypto_encrypt2 has put into it. -/
def cipherBuf (buf : FlexBuffer) (cipher : List UInt8) : FlexBuffer :=
  ⟨buf.size + flexPaddingLen, flexPaddingLen - zeroBytes, cipher.length,
    List.replicate (flexPaddingLen - zeroBytes) 0 ++ cipher⟩

/-- crypto_handler_write, up to the next handler. -/
def cryptoHandlerSend (encrypt : EncryptCall → Option (List UInt8)) (ws : ElaSession) (buf : FlexBuffer) :
    Except Fault FlexBuffer := do
  check (zeroBytes ≤ buf.offset)
  let plain ← backward buf zeroBytes
  match encrypt (encryptCall ws buf) with
  | none => .error (.refused .encrypt)
  | some cipher =>
    let _ ← forward plain zeroBytes
    let written ← inside (cipherBuf buf cipher)
    forward written (zeroBytes - macBytes)

def icePacketLen : Nat := 4
def pktData : UInt8 := 2

/-- struct IcePacket as it stands before the data. -/
def icePacketHead (len : Nat) : List UInt8 := [0, pktData] ++ Bytes.bigEndian 2 len

/-- ice_handler_write and ice_handler_write_packet: what is sent. -/
def iceHandlerWrite (buf : FlexBuffer) : Except Fault (List UInt8) := do
  check (buf.size ≤ pjStunSockPktLen - icePacketLen)
  check (icePacketLen ≤ buf.offset)
  let moved ← backward buf icePacketLen
  let packet ← inside (moved.write moved.offset (icePacketHead buf.size))
  let len := buf.size % 2 ^ 16
  check (len + icePacketLen ≤ pjStunSockPktLen)
  .ok (packet.data.take (icePacketLen + len))

/-! What the handlers do with what arrives. -/

/-- stream_on_rx_data of a stream that is connected. Other packets carry no data. -/
def streamOnRxData : List UInt8 → Except Fault FlexBuffer
  | version :: pkttype :: l₁ :: l₀ :: data =>
    if version ≠ 0 ∨ Bytes.number [l₁, l₀] + icePacketLen ≠ data.length + icePacketLen ∨ pkttype ≠ pktData then
      .error .ignored
    else inside (flexBufferFrom data)
  | _ => .error .ignored

/-- crypto_handler_on_rx_data. -/
def cryptoHandlerOnRxData (decrypt : SymmetricKey → Nonce → List UInt8 → Option (List UInt8)) (ws : ElaSession)
    (buf : FlexBuffer) : Except Fault FlexBuffer := do
  check (zeroBytes - macBytes ≤ buf.offset)
  let cipher ← backward buf (zeroBytes - macBytes)
  match decrypt ws.crypto.key ws.nonce cipher.data with
  | none => .error .decrypt
  | some plain =>
    let _ ← forward cipher (zeroBytes - macBytes)
    let plainBuf ← inside ⟨buf.size + flexPaddingLen, flexPaddingLen - (zeroBytes - macBytes), plain.length,
      List.replicate (flexPaddingLen - (zeroBytes - macBytes)) 0 ++ plain⟩
    forward plainBuf zeroBytes

/-- pseudo_tcp_socket_readable: the buffer for bytes that pseudo_tcp_socket_recv has put into it. -/
def readable (bytes : List UInt8) : Except Fault FlexBuffer :=
  inside { incompleteBuf.write flexPaddingLen bytes with size := bytes.length }

/-- multiplex_handler_notify_packet for data on the stream itself. -/
def notifyData (buf : FlexBuffer) : Except Fault FlexBuffer := do
  check (protocolHeadLen ≤ buf.size)
  match readPacket buf.data with
  | none => .error .ignored
  | some pb =>
    if pb.remoteChannelId = 0 ∧ pb.localChannelId = 0 ∧ pb.type = PacketType.channelData.code then
      forward buf protocolHeadLen
    else .error .ignored

/-- The loop of multiplex_handler_notify_data, turn by turn. -/
def notifyDataTurns : Nat → FlexBuffer → FlexBuffer → Except Fault (FlexBuffer × List FlexBuffer)
  | 0, _, _ => .error .busy
  | turns + 1, incomplete, buf =>
    if buf.size = 0 then .ok (incomplete, [])
    else do
      check (passed (turn incomplete buf).2)
      match (turn incomplete buf).1 with
      | .kept incomplete => .ok (← inside incomplete, [])
      | .packet incomplete rest =>
        let up ← notifyData (← inside incomplete)
        let r ← notifyDataTurns turns (incomplete.reset flexPaddingLen) (← inside rest)
        .ok (r.1, up :: r.2)

/-- multiplex_handler_on_data of a reliable stream, for one buffer after the other. -/
def multiplexHandlerOnData : FlexBuffer → List FlexBuffer → Except Fault (FlexBuffer × List FlexBuffer)
  | incomplete, [] => .ok (incomplete, [])
  | incomplete, buf :: bufs => do
    check (buf.size ≠ 0)
    let r ← notifyDataTurns (buf.size + 1) incomplete buf
    let t ← multiplexHandlerOnData r.1 bufs
    .ok (t.1, r.2 ++ t.2)

/-! The pipeline. -/

inductive StreamHandler | multiplex | reliable | crypto | ice
  deriving DecidableEq

/-- ela_session_add_stream: handler_connect puts each handler before the ICE handler. -/
def handlers (s : ElaStream) : List StreamHandler :=
  (if s.multiplexing then [.multiplex] else []) ++ (if s.reliable then [.reliable] else []) ++
    (if s.unencrypt then [] else [.crypto]) ++ [.ice]

/-- The pseudo-TCP layer: how many bytes pseudo_tcp_socket_send takes each time until it has taken a number of
them, none while it is busy; the packets that it writes for the bytes; and the bytes that pseudo_tcp_socket_recv
returns each time at the peer when it has been notified of packets. -/
structure PseudoTcp where
  takes : Nat → List (Option Nat)
  packets : List UInt8 → List (List UInt8)
  reads : List (List UInt8) → List (List UInt8)

/-- It takes and delivers all bytes in order, in packets up to the MTU. -/
structure PseudoTcp.Delivers (tcp : PseudoTcp) : Prop where
  takes : ∀ n, (tcp.takes n).reduceOption.sum = n
  packets : ∀ bytes, ∀ p ∈ tcp.packets bytes, 0 < p.length ∧ p.length ≤ defaultTcpMtu
  reads : ∀ bytes, Pieces (flexBufferMaxLen - flexPaddingLen) (tcp.reads (tcp.packets bytes)) bytes

/-- What one end encrypts the other one decrypts. The primitives want room before what they are passed, and leave
room before what they return. -/
structure Inverse (encrypt : EncryptCall → Option (List UInt8))
    (decrypt : SymmetricKey → Nonce → List UInt8 → Option (List UInt8)) (ws peer : ElaSession) : Prop where
  decrypts : ∀ room data, room.length = zeroBytes → data ≠ [] → ∃ cipher,
    encrypt ⟨ws.crypto.key, ws.nonce, room ++ data⟩ = some cipher ∧ cipher.length = zeroBytes + data.length ∧
      ∀ room', room'.length = zeroBytes - macBytes → ∃ front : List UInt8, front.length = zeroBytes ∧
        decrypt peer.crypto.key peer.nonce (room' ++ cipher.drop (zeroBytes - macBytes)) = some (front ++ data)

section Ends
variable (encrypt : EncryptCall → Option (List UInt8))
  (decrypt : SymmetricKey → Nonce → List UInt8 → Option (List UInt8)) (ws : ElaSession) (tcp : PseudoTcp)

/-- The write function of a handler, with the handlers below it: what is sent. -/
def write : List StreamHandler → FlexBuffer → Except Fault (List (List UInt8))
  | [], _ => .ok []
  | .multiplex :: next, buf => do write next (← multiplexHandlerWrite buf)
  | .reliable :: next, buf => do
    let taken ← reliableHandlerWrite (tcp.takes buf.size) buf
    -- pseudo_tcp_socket_write_packet
    let sent ← (tcp.packets taken).mapM fun packet => do write next (← inside (flexBufferFrom packet))
    .ok sent.flatten
  | .crypto :: next, buf => do write next (← cryptoHandlerSend encrypt ws buf)
  | .ice :: _, buf => do .ok [← iceHandlerWrite buf]

/-- What a handler passes on when all that was sent has arrived. -/
def onData (reliable : Bool) (incomplete : FlexBuffer) :
    List StreamHandler → List (List UInt8) → Except Fault (List FlexBuffer)
  | [], _ => .ok []
  | .multiplex :: next, sent => do
    let bufs ← onData reliable incomplete next sent
    if reliable then do
      let r ← multiplexHandlerOnData incomplete bufs
      .ok r.2
    else bufs.mapM notifyData
  | .reliable :: next, sent => do
    let packets ← onData reliable incomplete next sent
    (tcp.reads (packets.map FlexBuffer.data)).mapM readable
  | .crypto :: next, sent => do (← onData reliable incomplete next sent).mapM (cryptoHandlerOnRxData decrypt ws)
  | .ice :: _, sent => sent.mapM streamOnRxData

/-- A payload that the application writes. -/
def push (s : ElaStream) (payload : List UInt8) : Except Fault (List (List UInt8)) := do
  write encrypt ws tcp (handlers s) (← elaStreamWrite s payload)

/-- What stream_base_on_data of the peer is passed. -/
def receive (s : ElaStream) (incomplete : FlexBuffer) (sent : List (List UInt8)) : Except Fault (List (List UInt8)) := do
  .ok ((← onData decrypt ws tcp s.reliable incomplete (handlers s) sent).map FlexBuffer.data)

end Ends

/-! The checks pass. -/

section Checks
variable {b : FlexBuffer} {m n : Nat}

theorem ok_bind {α β : Type} (a : α) (f : α → Except Fault β) : (Except.ok a >>= f) = f a := rfl

theorem check_true {p : Prop} [Decidable p] (h : p) : check p = .ok () := if_pos h

theorem inside_fits (h : b.Fits n) : inside b = .ok b := if_pos h.inside

theorem forward_fits (h : b.Fits n) (hm : m ≤ b.size) : forward b m = .ok (b.forwardOffset m) := by
  have hinside := h.inside
  rw [forward, check_true (by omega), ok_bind, if_pos hm, inside_fits (h.forwardOffset hm)]

theorem backward_fits (h : b.Fits n) (hm : m ≤ n) : backward b m = .ok (b.backwardOffset m) := by
  rw [backward, check_true (hm.trans h.header), ok_bind, inside_fits (h.backwardOffset m hm)]

/-- A buffer that is filled from its offset to its end. -/
theorem filled_fits {capacity offset : Nat} {bytes : List UInt8} (h : offset + bytes.length = capacity) :
    (⟨capacity, offset, bytes.length, List.replicate offset 0 ++ bytes⟩ : FlexBuffer).Fits offset := by
  refine ⟨Nat.le_refl _, Nat.le_of_eq h, ?_⟩
  rw [List.length_append, List.length_replicate]
  exact h

theorem data_filled (capacity offset : Nat) (bytes : List UInt8) :
    (⟨capacity, offset, bytes.length, List.replicate offset 0 ++ bytes⟩ : FlexBuffer).data = bytes := by
  rw [FlexBuffer.data, List.drop_left' List.length_replicate, List.take_length]

end Checks

section Lists
variable {α β γ : Type}

theorem mapM_ok {f : α → Except Fault β} {g : α → β} {l : List α} (h : ∀ x ∈ l, f x = .ok (g x)) :
    l.mapM f = .ok (l.map g) := by
  induction l with
  | nil => rfl
  | cons x l ih =>
    rw [List.mapM_cons, h x List.mem_cons_self, ok_bind, ih fun x hx => h x (List.mem_cons_of_mem _ hx)]
    rfl

theorem mapM_map_ok {f : β → Except Fault γ} {k : α → β} {g : α → γ} {l : List α} (h : ∀ x ∈ l, f (k x) = .ok (g x)) :
    (l.map k).mapM f = .ok (l.map g) := by
  rw [List.mapM_map]
  exact mapM_ok h

end Lists

/-! The ICE handler. -/

def icePacket (data : List UInt8) : List UInt8 := icePacketHead data.length ++ data

theorem iceHandlerWrite_fits {buf : FlexBuffer} (h : buf.Fits icePacketLen)
    (hsize : buf.size ≤ pjStunSockPktLen - icePacketLen) : iceHandlerWrite buf = .ok (icePacket buf.data) := by
  have hmoved := h.backwardOffset icePacketLen (Nat.le_refl _)
  have hhead : (icePacketHead buf.size).length = icePacketLen := by simp [icePacketHead, icePacketLen]
  have hmovedSize : (buf.backwardOffset icePacketLen).size = buf.size + icePacketLen := by
    rw [FlexBuffer.backwardOffset, if_pos h.header]
  have hroom : (icePacketHead buf.size).length ≤ (buf.backwardOffset icePacketLen).size := by omega
  have hinside := hmoved.inside
  have hpacket : ((buf.backwardOffset icePacketLen).write (buf.backwardOffset icePacketLen).offset
      (icePacketHead buf.size)).Fits 0 := (hmoved.write (by omega)).mono (Nat.zero_le _)
  have hmax : buf.size < 2 ^ 16 := Nat.lt_of_le_of_lt hsize (by decide)
  obtain ⟨room, hlen, hdata⟩ := h.room
  rw [iceHandlerWrite, check_true hsize, ok_bind, check_true h.header, ok_bind, backward_fits h (Nat.le_refl _), ok_bind,
    inside_fits hpacket, ok_bind, Nat.mod_eq_of_lt hmax]
  dsimp only
  rw [check_true (Nat.add_le_of_le_sub (by decide) hsize), ok_bind, FlexBuffer.data_write hmoved hroom, hdata, hhead,
    List.drop_left' hlen]
  have hall : (icePacketHead buf.size ++ buf.data).length = icePacketLen + buf.size := by
    rw [List.length_append, hhead, h.length_data]
  rw [icePacket, h.length_data, List.take_of_length_le (Nat.le_of_eq hall)]

theorem streamOnRxData_icePacket {data : List UInt8} (h : data.length ≤ pjStunSockPktLen) :
    streamOnRxData (icePacket data) = .ok (flexBufferFrom data) := by
  have hlen : Bytes.number (Bytes.bigEndian 2 data.length) = data.length := by
    rw [Bytes.number_bigEndian, Nat.mod_eq_of_lt]
    exact Nat.lt_of_le_of_lt h (by decide)
  have hread : streamOnRxData (icePacket data) =
      if (0 : UInt8) ≠ 0 ∨ Bytes.number (Bytes.bigEndian 2 data.length) + icePacketLen ≠ data.length + icePacketLen ∨
        pktData ≠ pktData then .error .ignored else inside (flexBufferFrom data) := rfl
  rw [hread, hlen, if_neg (by simp), inside_fits (flexBufferFrom_fits data)]

/-! The encryption handler. -/

section Crypto
variable {encrypt : EncryptCall → Option (List UInt8)}
  {decrypt : SymmetricKey → Nonce → List UInt8 → Option (List UInt8)} {ws peer : ElaSession} {buf : FlexBuffer}

/-- The buffer that crypto_handler_write passes on. -/
theorem cryptoHandlerSend_fits (h : buf.Fits zeroBytes) {cipher : List UInt8}
    (hencrypt : encrypt (encryptCall ws buf) = some cipher) (hlen : cipher.length = zeroBytes + buf.size) :
    cryptoHandlerSend encrypt ws buf = .ok ((cipherBuf buf cipher).forwardOffset (zeroBytes - macBytes)) ∧
      ((cipherBuf buf cipher).forwardOffset (zeroBytes - macBytes)).Fits icePacketLen ∧
      ((cipherBuf buf cipher).forwardOffset (zeroBytes - macBytes)).data = cipher.drop (zeroBytes - macBytes) := by
  have hfilled : flexPaddingLen - zeroBytes + cipher.length = buf.size + flexPaddingLen := by
    rw [hlen, flexPaddingLen, zeroBytes]
    omega
  have hcipher : (cipherBuf buf cipher).Fits (flexPaddingLen - zeroBytes) := filled_fits hfilled
  have hsize : zeroBytes - macBytes ≤ (cipherBuf buf cipher).size :=
    (show zeroBytes - macBytes ≤ zeroBytes by decide).trans (Nat.le_of_add_right_le (Nat.le_of_eq hlen.symm))
  have hback := h.backwardOffset zeroBytes (Nat.le_refl _)
  have hroom : zeroBytes ≤ (buf.backwardOffset zeroBytes).size := by
    rw [FlexBuffer.backwardOffset, if_pos h.header]
    exact Nat.le_add_left _ _
  refine ⟨?_, (hcipher.forwardOffset hsize).mono (by decide), ?_⟩
  · rw [cryptoHandlerSend, check_true h.header, ok_bind, backward_fits h (Nat.le_refl _), ok_bind, hencrypt]
    dsimp only
    rw [forward_fits hback hroom, ok_bind, inside_fits hcipher, ok_bind, forward_fits hcipher hsize]
  · rw [FlexBuffer.data_forwardOffset hcipher hsize, cipherBuf, data_filled]

/-- The next handler is passed that buffer. -/
theorem cryptoHandlerWrite_next (next : FlexBuffer → FlexBuffer × Int) {cipher : List UInt8}
    (hencrypt : encrypt (encryptCall ws buf) = some cipher) :
    (cryptoHandlerWrite encrypt next ws buf).2 =
      .ok (let r := next ((cipherBuf buf cipher).forwardOffset (zeroBytes - macBytes))
        if r.2 = r.1.size then (buf.size : Int) else r.2) := by
  rw [cryptoHandlerWrite, hencrypt]
  rfl

/-- The buffer that crypto_handler_on_rx_data passes on. -/
theorem cryptoHandlerOnRxData_fits (h : buf.Fits (zeroBytes - macBytes))
    {front data : List UInt8} (hfront : front.length = zeroBytes) (hdata : data.length + macBytes = buf.size)
    (hdecrypt : decrypt ws.crypto.key ws.nonce (buf.backwardOffset (zeroBytes - macBytes)).data = some (front ++ data)) :
    ∃ plainBuf, cryptoHandlerOnRxData decrypt ws buf = .ok plainBuf ∧ plainBuf.Fits 0 ∧ plainBuf.data = data := by
  have hlen : (front ++ data).length = zeroBytes + data.length := by rw [List.length_append, hfront]
  have hfilled : flexPaddingLen - (zeroBytes - macBytes) + (front ++ data).length = buf.size + flexPaddingLen := by
    rw [hlen, ← hdata, flexPaddingLen, zeroBytes, macBytes]
    omega
  have hplain := filled_fits hfilled
  have hsize : zeroBytes ≤ (front ++ data).length := hlen ▸ Nat.le_add_right _ _
  have hback := h.backwardOffset (zeroBytes - macBytes) (Nat.le_refl _)
  have hroom : zeroBytes - macBytes ≤ (buf.backwardOffset (zeroBytes - macBytes)).size := by
    rw [FlexBuffer.backwardOffset, if_pos h.header]
    exact Nat.le_add_left _ _
  refine ⟨_, ?_, (hplain.forwardOffset hsize).mono (Nat.zero_le _), ?_⟩
  · rw [cryptoHandlerOnRxData, check_true h.header, ok_bind, backward_fits h (Nat.le_refl _), ok_bind, hdecrypt]
    dsimp only
    rw [forward_fits hback hroom, ok_bind, inside_fits hplain, ok_bind, forward_fits hplain hsize]
  · rw [FlexBuffer.data_forwardOffset hplain hsize, data_filled, List.drop_left' hfront]

/-- What is encrypted comes out of the ICE handler and the encryption handler of the peer. -/
theorem crypto_carries (hbox : Inverse encrypt decrypt ws peer) (h : buf.Fits zeroBytes) (hpos : 0 < buf.size) :
    ∃ written, cryptoHandlerSend encrypt ws buf = .ok written ∧ written.Fits icePacketLen ∧
      written.data.length = macBytes + buf.size ∧
      ∃ plainBuf, cryptoHandlerOnRxData decrypt peer (flexBufferFrom written.data) = .ok plainBuf ∧
        plainBuf.Fits 0 ∧ plainBuf.data = buf.data := by
  have hnonempty : buf.data ≠ [] := by
    intro hnil
    have hlen := h.length_data
    rw [hnil, List.length_nil] at hlen
    omega
  obtain ⟨room, hroom, hplain⟩ := encryptCall_plain ws h
  obtain ⟨cipher, hencrypt, hlen, hdecrypt⟩ := hbox.decrypts room buf.data hroom hnonempty
  have hcall : encryptCall ws buf = ⟨ws.crypto.key, ws.nonce, room ++ buf.data⟩ := by rw [← hplain]; rfl
  rw [h.length_data] at hlen
  obtain ⟨hsend, hfits, hcipher⟩ := cryptoHandlerSend_fits h (hcall ▸ hencrypt) hlen
  generalize (cipherBuf buf cipher).forwardOffset (zeroBytes - macBytes) = written at hsend hfits hcipher
  have hsize : written.data.length = macBytes + buf.size := by
    rw [hcipher, List.length_drop, hlen, zeroBytes, macBytes]
    omega
  refine ⟨written, hsend, hfits, hsize, ?_⟩
  have hfrom : (flexBufferFrom written.data).Fits (zeroBytes - macBytes) :=
    (flexBufferFrom_fits written.data).mono (by decide)
  have hfromSize : (flexBufferFrom written.data).size = macBytes + buf.size := hsize
  obtain ⟨room', hroom', hback⟩ := hfrom.room
  obtain ⟨front, hfront, hpeer⟩ := hdecrypt room' hroom'
  rw [data_flexBufferFrom, hcipher] at hback
  rw [← hback, ← hcipher] at hpeer
  exact cryptoHandlerOnRxData_fits hfrom hfront (by rw [h.length_data, hfromSize, Nat.add_comm]) hpeer

end Crypto

/-! The encryption handler, if there is one, and the ICE handler. -/

def lower (s : ElaStream) : List StreamHandler := (if s.unencrypt then [] else [.crypto]) ++ [.ice]

section Lower
variable {encrypt : EncryptCall → Option (List UInt8)}
  {decrypt : SymmetricKey → Nonce → List UInt8 → Option (List UInt8)} {ws peer : ElaSession} {tcp : PseudoTcp}
  {incomplete : FlexBuffer}

/-- Buffers with head room are sent as a packet each, and arrive. -/
theorem lower_carries (hbox : Inverse encrypt decrypt ws peer) (tcp : PseudoTcp) (incomplete : FlexBuffer) (s : ElaStream)
    {bufs : List FlexBuffer} (h : ∀ b ∈ bufs, b.Fits zeroBytes ∧ 0 < b.size ∧
      macBytes + b.size ≤ pjStunSockPktLen - icePacketLen) :
    ∃ (packet : FlexBuffer → List UInt8) (ups : List FlexBuffer),
      (∀ b ∈ bufs, write encrypt ws tcp (lower s) b = .ok [packet b]) ∧
      onData decrypt peer tcp s.reliable incomplete (lower s) (bufs.map packet) = .ok ups ∧
      (∀ u ∈ ups, u.Fits 0) ∧ ups.map FlexBuffer.data = bufs.map FlexBuffer.data := by
  cases hcrypto : s.unencrypt with
  | true =>
    have hlower : lower s = [.ice] := by rw [lower, hcrypto]; rfl
    rw [hlower]
    refine ⟨fun b => icePacket b.data, bufs.map fun b => flexBufferFrom b.data, ?_, ?_, ?_, ?_⟩
    · intro b hb
      obtain ⟨hfits, -, hsize⟩ := h b hb
      rw [write, iceHandlerWrite_fits (hfits.mono (by decide)) (Nat.le_of_add_left_le hsize), ok_bind]
    · refine mapM_map_ok fun b hb => ?_
      obtain ⟨hfits, -, hsize⟩ := h b hb
      rw [streamOnRxData_icePacket]
      rw [hfits.length_data]
      exact (Nat.le_of_add_left_le hsize).trans (Nat.sub_le _ _)
    · intro u hu
      obtain ⟨b, -, rfl⟩ := List.mem_map.mp hu
      exact (flexBufferFrom_fits b.data).mono (Nat.zero_le _)
    · rw [List.map_map]
      exact List.map_congr_left fun b _ => data_flexBufferFrom b.data
  | false =>
    have hlower : lower s = [.crypto, .ice] := by rw [lower, hcrypto]; rfl
    rw [hlower]
    have : Nonempty FlexBuffer := ⟨incomplete⟩
    choose! cipher hsend hcipher hlen plain hrx hplain hdata using
      fun b hb => crypto_carries hbox (h b hb).1 (h b hb).2.1
    have hshort : ∀ b ∈ bufs, (cipher b).data.length ≤ pjStunSockPktLen - icePacketLen :=
      fun b hb => hlen b hb ▸ (h b hb).2.2
    refine ⟨fun b => icePacket (cipher b).data, bufs.map plain, ?_, ?_, ?_, ?_⟩
    · intro b hb
      have hsize : (cipher b).size ≤ pjStunSockPktLen - icePacketLen := (hcipher b hb).length_data ▸ hshort b hb
      rw [write, hsend b hb, ok_bind, write, iceHandlerWrite_fits (hcipher b hb) hsize, ok_bind]
    · rw [onData, onData, mapM_map_ok (fun b hb => streamOnRxData_icePacket ((hshort b hb).trans (Nat.sub_le _ _))),
        ok_bind]
      exact mapM_map_ok hrx
    · intro u hu
      obtain ⟨b, hb, rfl⟩ := List.mem_map.mp hu
      exact hplain b hb
    · rw [List.map_map]
      exact List.map_congr_left hdata

end Lower

/-! The reliable handler. -/

/-- All bytes are taken in the end. -/
theorem reliableHandlerWrite_fits {takes : List (Option Nat)} {buf : FlexBuffer} (h : buf.Fits 0)
    (hsum : takes.reduceOption.sum = buf.size) : reliableHandlerWrite takes buf = .ok buf.data := by
  have hnil : ∀ {b : FlexBuffer}, b.Fits 0 → b.size = 0 → b.data = [] :=
    fun hb hzero => List.length_eq_zero_iff.mp (hb.length_data.trans hzero)
  induction takes generalizing buf with
  | nil =>
    have hzero : buf.size = 0 := hsum.symm
    rw [reliableHandlerWrite, if_pos hzero, hnil h hzero]
  | cons take takes ih =>
    cases take with
    | none =>
      rw [reliableHandlerWrite]
      split
      · next hzero => rw [hnil h hzero]
      · exact ih h hsum
    | some n =>
      rw [List.reduceOption_cons_of_some, List.sum_cons] at hsum
      have hn : n ≤ buf.size := hsum ▸ Nat.le_add_right _ _
      have hinside := h.inside
      have hrest : (buf.forwardOffset n).size = buf.size - n := by
        rw [FlexBuffer.forwardOffset, if_pos (by omega)]
      rw [reliableHandlerWrite]
      split
      · next hzero => rw [hnil h hzero]
      · rw [forward_fits h hn, ok_bind, ih (h.forwardOffset hn) (by omega), ok_bind, FlexBuffer.data_forwardOffset h hn,
          List.take_append_drop]

theorem readable_fits {bytes : List UInt8} (h : bytes.length ≤ flexBufferMaxLen - flexPaddingLen) :
    ∃ buf, readable bytes = .ok buf ∧ buf.Fits 0 ∧ buf.data = bytes := by
  have hroom : flexPaddingLen + bytes.length ≤ incompleteBuf.capacity := Nat.add_le_of_le_sub' (by decide) h
  have hfits : ({ incompleteBuf.write flexPaddingLen bytes with size := bytes.length } : FlexBuffer).Fits 0 :=
    ⟨Nat.zero_le _, hroom, (receiving_incompleteBuf.fits.write hroom).length⟩
  have hfront : (incompleteBuf.buffer.take flexPaddingLen).length = flexPaddingLen := by
    rw [List.length_take, receiving_incompleteBuf.fits.length]
    decide
  refine ⟨_, inside_fits hfits, hfits, ?_⟩
  rw [FlexBuffer.data]
  simp only [FlexBuffer.write, List.append_assoc]
  exact (congrArg (List.take bytes.length) (List.drop_left' hfront)).trans List.take_left

/-! The multiplex handler. -/

/-- A packet of data on the stream itself. -/
def streamPacket (payload : List UInt8) : List UInt8 :=
  protocolHead PacketType.channelData.code 0 0 0 payload.length ++ payload

theorem drop_streamPacket (payload : List UInt8) : (streamPacket payload).drop protocolHeadLen = payload :=
  List.drop_left' (length_protocolHead _ _ _ _ _)

theorem length_streamPacket (payload : List UInt8) : (streamPacket payload).length = protocolHeadLen + payload.length := by
  rw [streamPacket, List.length_append, length_protocolHead]

theorem multiplexHandlerWrite_fits {buf : FlexBuffer} {n : Nat} (h : buf.Fits n) (hn : protocolHeadLen ≤ n) :
    ∃ written, multiplexHandlerWrite buf = .ok written ∧ written.Fits (n - protocolHeadLen) ∧
      written.data = streamPacket buf.data := by
  have hmoved := h.backwardOffset protocolHeadLen hn
  have hsize : (buf.backwardOffset protocolHeadLen).size = buf.size + protocolHeadLen := by
    rw [FlexBuffer.backwardOffset, if_pos (hn.trans h.header)]
  have hroom : (buf.backwardOffset protocolHeadLen).offset + (protocolHead PacketType.channelData.code 0 0 0 buf.size).length ≤
      (buf.backwardOffset protocolHeadLen).capacity := by
    have hinside := hmoved.inside
    rw [length_protocolHead]
    omega
  have hwritten : (multiplexHandlerSendPacket PacketType.channelData.code 0 0 0 (some buf)).Fits (n - protocolHeadLen) :=
    hmoved.write hroom
  refine ⟨_, ?_, hwritten, ?_⟩
  · rw [multiplexHandlerWrite, backward_fits h hn, ok_bind, inside_fits hwritten]
  · exact data_multiplexHandlerSendPacket _ _ _ _ fun b hb => Option.some.inj hb ▸ h.mono hn

theorem notifyData_fits {buf : FlexBuffer} (h : buf.Fits 0) {payload : List UInt8} (hdata : buf.data = streamPacket payload)
    (hlen : payload.length < 256 ^ 2) : ∃ up, notifyData buf = .ok up ∧ up.data = payload := by
  have hhead : protocolHeadLen ≤ buf.size := by
    rw [← h.length_data, hdata, length_streamPacket]
    exact Nat.le_add_right _ _
  refine ⟨buf.forwardOffset protocolHeadLen, ?_, ?_⟩
  · rw [notifyData, check_true hhead, ok_bind, hdata, streamPacket, readPacket_head _ _ _ _ hlen]
    exact forward_fits h hhead
  · rw [FlexBuffer.data_forwardOffset h hhead, hdata, drop_streamPacket]

/-- The turns of the loop hand on the payloads of the packets that it is notified of. -/
theorem notifyDataTurns_fits {turns : Nat} {b buf u : FlexBuffer} {os : List FramingOutput} (h : Receiving b)
    (hunfinished : Unfinished b) (hbuf : buf.Fits 0) (hrun : multiplexHandlerNotifyData turns b buf = some (u, os))
    (hall : ∀ q ∈ notifiedPackets os, ∃ payload, payload.length < 256 ^ 2 ∧ q = streamPacket payload) :
    Receiving u ∧ Unfinished u ∧ ∃ ups, notifyDataTurns turns b buf = .ok (u, ups) ∧
      ups.map FlexBuffer.data = (notifiedPackets os).map (List.drop protocolHeadLen) := by
  induction turns generalizing b buf os with
  | zero => cases hrun
  | succ turns ih =>
    by_cases hsize : buf.size = 0
    · rw [multiplexHandlerNotifyData, if_pos hsize] at hrun
      cases hrun
      exact ⟨h, hunfinished, [], by rw [notifyDataTurns, if_pos hsize], rfl⟩
    have hpassed := passed_turn h hbuf
    rw [notifyDataTurns, if_neg hsize, check_true hpassed, ok_bind]
    rcases notifyData_turn hsize hrun with ⟨hturn, hnone⟩ | ⟨p, rest, os', hturn, hrest, hos⟩
    · obtain ⟨hu, hunfinished'⟩ := turn_kept h hbuf hturn
      refine ⟨hu, hunfinished', [], ?_, by rw [hnone]; rfl⟩
      rw [hturn]
      dsimp only
      rw [inside_fits hu.fits, ok_bind]
    · obtain ⟨hp, -, hrestFits, -⟩ := turn_packet h hunfinished hbuf hturn
      rw [hos] at hall ⊢
      obtain ⟨payload, hlen, hpayload⟩ := hall p.data List.mem_cons_self
      obtain ⟨up, hnotify, hup⟩ := notifyData_fits hp.fits hpayload hlen
      obtain ⟨hu, hunfinished', ups, hturns, hups⟩ := ih hp.reset.1 (empty_unfinished rfl) hrestFits hrest
        fun q hq => hall q (List.mem_cons_of_mem _ hq)
      refine ⟨hu, hunfinished', up :: ups, ?_, ?_⟩
      · rw [hturn]
        dsimp only
        rw [inside_fits hp.fits, ok_bind, hnotify, ok_bind, inside_fits hrestFits, ok_bind, hturns, ok_bind]
      · rw [List.map_cons, List.map_cons, hups, hup, hpayload, drop_streamPacket]

theorem multiplexHandlerOnData_fits {bufs : List FlexBuffer} {b u : FlexBuffer} {os : List FramingOutput}
    (h : Receiving b) (hunfinished : Unfinished b) (hbufs : ∀ buf ∈ bufs, buf.Fits 0 ∧ buf.size ≠ 0)
    (hrun : framingMachine.exec b bufs = some (u, os))
    (hall : ∀ q ∈ notifiedPackets os, ∃ payload, payload.length < 256 ^ 2 ∧ q = streamPacket payload) :
    ∃ ups, multiplexHandlerOnData b bufs = .ok (u, ups) ∧
      ups.map FlexBuffer.data = (notifiedPackets os).map (List.drop protocolHeadLen) := by
  induction bufs generalizing b os with
  | nil =>
    cases hrun
    exact ⟨[], rfl, rfl⟩
  | cons buf bufs ih =>
    obtain ⟨t, o, rest, hstep, hrest, rfl⟩ := Machine.exec_cons hrun
    obtain ⟨hbuf, hsize⟩ := hbufs buf List.mem_cons_self
    rw [notifiedPackets_append] at hall ⊢
    obtain ⟨ht, hunfinished', ups, hturns, hups⟩ := notifyDataTurns_fits h hunfinished hbuf hstep
      fun q hq => hall q (List.mem_append_left _ hq)
    obtain ⟨ups', hbelow, hups'⟩ := ih ht hunfinished' (fun c hc => hbufs c (List.mem_cons_of_mem _ hc)) hrest
      fun q hq => hall q (List.mem_append_right _ hq)
    refine ⟨ups ++ ups', ?_, ?_⟩
    · rw [multiplexHandlerOnData, check_true hsize, ok_bind, hturns, ok_bind, hbelow, ok_bind]
    · rw [List.map_append, List.map_append, hups, hups']

/-- A packet that has arrived in buffers of whatever sizes is handed on. -/
theorem multiplexHandlerOnData_packet {bufs : List FlexBuffer} {b : FlexBuffer} (h : Receiving b) (hempty : b.size = 0)
    (hbufs : ∀ buf ∈ bufs, buf.Fits 0 ∧ buf.size ≠ 0) {payload : List UInt8} (hmax : payload.length ≤ elaMaxUserDataLen)
    (hstream : (bufs.map FlexBuffer.data).flatten = streamPacket payload) :
    ∃ u ups, multiplexHandlerOnData b bufs = .ok (u, ups) ∧ ups.map FlexBuffer.data = [payload] := by
  have hlen : payload.length < 256 ^ 2 := Nat.lt_of_le_of_lt hmax (by decide)
  have hframed : ∀ q ∈ [streamPacket payload], Framed q := by
    intro q hq
    rw [List.mem_singleton.mp hq]
    refine ⟨?_, ?_, ?_⟩
    · rw [length_streamPacket]
      exact Nat.le_add_right _ _
    · rw [length_streamPacket]
      exact (Nat.add_le_add_left hmax _).trans (by decide)
    · rw [length_streamPacket, Nat.add_comm protocolHeadLen]
      change Bytes.number (Bytes.bigEndian 2 _) + _ = _
      rw [Bytes.number_bigEndian, Nat.mod_eq_of_lt hlen]
  have hdata : b.data = [] := List.length_eq_zero_iff.mp (h.fits.length_data.trans hempty)
  obtain ⟨u, os, hrun, -, hpackets, -⟩ := exec_whole h hdata (fun c hc => (hbufs c hc).1) hframed
    (by rw [hstream, List.flatten_singleton])
  obtain ⟨ups, hups, hmap⟩ := multiplexHandlerOnData_fits h (empty_unfinished hempty) hbufs hrun
    (by rw [hpackets]; exact fun q hq => ⟨payload, hlen, List.mem_singleton.mp hq⟩)
  refine ⟨u, ups, hups, ?_⟩
  rw [hmap, hpackets, List.map_singleton, drop_streamPacket]

/-! All handlers. -/

/-- The handlers below the multiplex handler. -/
def below (s : ElaStream) : List StreamHandler := (if s.reliable then [.reliable] else []) ++ lower s

theorem handlers_eq (s : ElaStream) : handlers s = (if s.multiplexing then [.multiplex] else []) ++ below s := by
  rw [handlers, below, lower]
  simp only [List.append_assoc]

section Ends
variable {encrypt : EncryptCall → Option (List UInt8)}
  {decrypt : SymmetricKey → Nonce → List UInt8 → Option (List UInt8)} {ws peer : ElaSession} {tcp : PseudoTcp}
  {incomplete buf : FlexBuffer} {payload : List UInt8}

/-- What has been taken by the pseudo-TCP layer is read there. -/
theorem reliable_carries (hbox : Inverse encrypt decrypt ws peer) (htcp : tcp.Delivers) (incomplete : FlexBuffer)
    (s : ElaStream) (h : buf.Fits 0) :
    ∃ sent ups, write encrypt ws tcp (.reliable :: lower s) buf = .ok sent ∧
      onData decrypt peer tcp s.reliable incomplete (.reliable :: lower s) sent = .ok ups ∧
      (∀ u ∈ ups, u.Fits 0) ∧
      Pieces (flexBufferMaxLen - flexPaddingLen) (ups.map FlexBuffer.data) buf.data := by
  have hpackets : ∀ b ∈ (tcp.packets buf.data).map flexBufferFrom, b.Fits zeroBytes ∧ 0 < b.size ∧
      macBytes + b.size ≤ pjStunSockPktLen - icePacketLen := by
    intro b hb
    obtain ⟨p, hp, rfl⟩ := List.mem_map.mp hb
    obtain ⟨hpos, hmtu⟩ := htcp.packets buf.data p hp
    exact ⟨(flexBufferFrom_fits p).mono (by decide), hpos, (Nat.add_le_add_left hmtu _).trans (by decide)⟩
  obtain ⟨packet, arrived, hwrite, hdata, -, hmap⟩ := lower_carries hbox tcp incomplete s hpackets
  have hfrom : ((tcp.packets buf.data).map flexBufferFrom).map FlexBuffer.data = tcp.packets buf.data := by
    rw [List.map_map]
    exact (List.map_congr_left fun p _ => data_flexBufferFrom p).trans (List.map_id _)
  have hpieces := htcp.reads buf.data
  have : Nonempty FlexBuffer := ⟨buf⟩
  choose! up hread hfits hup using fun (bytes : List UInt8) (hbytes : bytes ∈ tcp.reads (tcp.packets buf.data)) =>
    readable_fits (hpieces.bounds bytes hbytes).2
  have hups : ((tcp.reads (tcp.packets buf.data)).map up).map FlexBuffer.data = tcp.reads (tcp.packets buf.data) := by
    rw [List.map_map]
    exact (List.map_congr_left hup).trans (List.map_id _)
  refine ⟨((tcp.packets buf.data).map flexBufferFrom).map packet, (tcp.reads (tcp.packets buf.data)).map up, ?_, ?_, ?_, ?_⟩
  · rw [write, reliableHandlerWrite_fits h (htcp.takes _), ok_bind]
    have hsent : (tcp.packets buf.data).mapM (fun p => do write encrypt ws tcp (lower s) (← inside (flexBufferFrom p))) =
        .ok ((tcp.packets buf.data).map fun p => [packet (flexBufferFrom p)]) := by
      refine mapM_ok fun p hp => ?_
      rw [inside_fits (flexBufferFrom_fits p), ok_bind, hwrite _ (List.mem_map_of_mem hp)]
    rw [hsent, ok_bind, List.map_map, ← List.flatMap_def]
    exact congrArg Except.ok List.map_eq_flatMap.symm
  · rw [onData, hdata, ok_bind, hmap, hfrom]
    exact mapM_ok hread
  · intro u hu
    obtain ⟨bytes, hbytes, rfl⟩ := List.mem_map.mp hu
    exact hfits bytes hbytes
  · rwa [hups]

/-- What the multiplex handler, or the root handler, is passed. -/
theorem below_carries (hbox : Inverse encrypt decrypt ws peer) (htcp : tcp.Delivers) (incomplete : FlexBuffer)
    (s : ElaStream) (h : buf.Fits zeroBytes) (hpos : 0 < buf.size)
    (hmax : macBytes + buf.size ≤ pjStunSockPktLen - icePacketLen) :
    ∃ sent ups, write encrypt ws tcp (below s) buf = .ok sent ∧
      onData decrypt peer tcp s.reliable incomplete (below s) sent = .ok ups ∧ (∀ u ∈ ups, u.Fits 0) ∧
      Pieces (flexBufferMaxLen - flexPaddingLen) (ups.map FlexBuffer.data) buf.data ∧
      (s.reliable = false → ups.map FlexBuffer.data = [buf.data]) := by
  cases hreliable : s.reliable with
  | true =>
    have hbelow : below s = .reliable :: lower s := by rw [below, hreliable]; rfl
    obtain ⟨sent, ups, hwrite, hdata, hfits, hpieces⟩ := reliable_carries hbox htcp incomplete s (h.mono (Nat.zero_le _))
    rw [hreliable] at hdata
    rw [hbelow]
    exact ⟨sent, ups, hwrite, hdata, hfits, hpieces, fun hfalse => (nomatch hfalse)⟩
  | false =>
    have hbelow : below s = lower s := by rw [below, hreliable]; rfl
    obtain ⟨packet, ups, hwrite, hdata, hfits, hmap⟩ := lower_carries hbox tcp incomplete s
      (show ∀ b ∈ [buf], _ from fun b hb => List.mem_singleton.mp hb ▸ ⟨h, hpos, hmax⟩)
    rw [hreliable] at hdata
    rw [hbelow]
    refine ⟨[packet buf], ups, hwrite buf List.mem_cons_self, hdata, hfits, ?_, fun _ => hmap⟩
    rw [hmap]
    refine ⟨List.flatten_singleton, fun p hp => ?_⟩
    rw [List.mem_singleton.mp hp, h.length_data]
    exact ⟨hpos, (Nat.le_of_add_left_le hmax).trans (by decide)⟩

/-- A payload comes out at the peer, for any options of the stream, and no assertion or bound of a buffer fails on
the way. Only a reliable stream without channels may cut it into pieces. -/
theorem transports_payload (s : ElaStream) (hstate : s.state = .connected) (htype : s.type ≠ .audio ∧ s.type ≠ .video)
    (hbox : Inverse encrypt decrypt ws peer) (htcp : tcp.Delivers) (hincomplete : Receiving incomplete)
    (hempty : incomplete.size = 0) (hpos : 0 < payload.length) (hmax : payload.length ≤ elaMaxUserDataLen) :
    ∃ sent ups, push encrypt ws tcp s payload = .ok sent ∧ receive decrypt peer tcp s incomplete sent = .ok ups ∧
      ups.flatten = payload ∧ (s.reliable = false ∨ s.multiplexing = true → ups = [payload]) := by
  have hwritten : elaStreamWrite s payload = .ok (flexBufferFrom payload) := by
    have hargs : ¬ (payload = [] ∨ elaMaxUserDataLen < payload.length) := by
      rintro (rfl | hlong)
      · exact Nat.lt_irrefl _ hpos
      · omega
    rw [elaStreamWrite, if_neg hargs, if_neg (not_or.mpr htype), if_neg (not_not.mpr hstate),
      inside_fits (flexBufferFrom_fits payload)]
  have hfits := flexBufferFrom_fits payload
  have hsize : (flexBufferFrom payload).size = payload.length := rfl
  rw [push, hwritten, ok_bind]
  unfold receive
  cases hmux : s.multiplexing with
  | false =>
    have hhandlers : handlers s = below s := by rw [handlers_eq, hmux]; rfl
    obtain ⟨sent, ups, hwrite, hdata, -, hpieces, hwhole⟩ := below_carries hbox htcp incomplete s
      (hfits.mono (by decide)) hpos ((Nat.add_le_add_left hmax _).trans (by decide))
    rw [data_flexBufferFrom] at hpieces hwhole
    rw [hhandlers]
    refine ⟨sent, ups.map FlexBuffer.data, hwrite, by rw [hdata, ok_bind], hpieces.flatten, ?_⟩
    rintro (hreliable | hfalse)
    · exact hwhole hreliable
    · cases hfalse
  | true =>
    have hhandlers : handlers s = .multiplex :: below s := by rw [handlers_eq, hmux]; rfl
    obtain ⟨packet, hpacket, hpacketFits, hpacketData⟩ := multiplexHandlerWrite_fits hfits (by decide)
    rw [data_flexBufferFrom] at hpacketData
    have hpacketSize : packet.size = protocolHeadLen + payload.length := by
      rw [← hpacketFits.length_data, hpacketData, length_streamPacket]
    obtain ⟨sent, ups, hwrite, hdata, hups, hpieces, hwhole⟩ := below_carries hbox htcp incomplete s
      (hpacketFits.mono (by decide)) (by omega)
      (hpacketSize ▸ (Nat.add_le_add_left (Nat.add_le_add_left hmax _) _).trans (by decide))
    have hlen : payload.length < 256 ^ 2 := Nat.lt_of_le_of_lt hmax (by decide)
    rw [hpacketData] at hpieces hwhole
    rw [hhandlers]
    have hreceived : ∃ up, onData decrypt peer tcp s.reliable incomplete (.multiplex :: below s) sent = .ok up ∧
        up.map FlexBuffer.data = [payload] := by
      rw [onData, hdata, ok_bind]
      cases hreliable : s.reliable with
      | true =>
        have hnonempty : ∀ u ∈ ups, u.Fits 0 ∧ u.size ≠ 0 := by
          intro u hu
          have hbounds := hpieces.bounds u.data (List.mem_map_of_mem hu)
          rw [(hups u hu).length_data] at hbounds
          exact ⟨hups u hu, by omega⟩
        obtain ⟨rest, handed, honData, hhanded⟩ :=
          multiplexHandlerOnData_packet hincomplete hempty hnonempty hmax hpieces.flatten
        refine ⟨handed, ?_, hhanded⟩
        rw [if_pos rfl, honData, ok_bind]
      | false =>
        obtain ⟨u, rfl, hu⟩ := List.map_eq_singleton_iff.mp (hwhole hreliable)
        obtain ⟨up, hnotify, hup⟩ := notifyData_fits (hups u List.mem_cons_self) hu hlen
        refine ⟨[up], ?_, by rw [List.map_singleton, hup]⟩
        exact mapM_ok (g := fun _ => up) fun x hx => List.mem_singleton.mp hx ▸ hnotify
    obtain ⟨up, honData, hup⟩ := hreceived
    refine ⟨sent, [payload], ?_, ?_, List.flatten_singleton, fun _ => rfl⟩
    · rw [write, hpacket, ok_bind, hwrite]
    · rw [honData, ok_bind, hup]

end Ends

/-- An encrypted reliable stream with channels. -/
def connectedStream : ElaStream :=
  { newStream 1 .application (elaStreamReliable ||| elaStreamMultiplexing) with state := .connected }

/-- Only the padding of an encryption. -/
def padded (text : List UInt8) : List UInt8 := List.replicate zeroBytes 0 ++ text.drop zeroBytes

/-- A segment for what fits into one, and otherwise one for each byte. -/
def segments (bytes : List UInt8) : List (List UInt8) :=
  if 0 < bytes.length ∧ bytes.length ≤ defaultTcpMtu then [bytes] else bytes.map fun b => [b]

theorem segments_pieces (bytes : List UInt8) : Pieces defaultTcpMtu (segments bytes) bytes := by
  unfold segments
  split
  · next hlen => exact ⟨List.flatten_singleton, fun p hp => List.mem_singleton.mp hp ▸ hlen⟩
  · refine ⟨?_, fun p hp => ?_⟩
    · rw [← List.flatMap_def]
      exact List.flatMap_singleton' bytes
    · obtain ⟨b, -, rfl⟩ := List.mem_map.mp hp
      exact ⟨Nat.one_pos, (by decide : 1 ≤ defaultTcpMtu)⟩

/-- Busy at first. -/
def segmentsTcp : PseudoTcp := ⟨fun n => [none, some n], segments, id⟩

theorem transports_payload_encrypted : ∃ sent ups,
    push (fun call => some (padded call.plain)) (ElaSession.new .empty .empty) segmentsTcp connectedStream [7, 8, 9] =
        .ok sent ∧
      receive (fun _ _ cipher => some (padded cipher)) (ElaSession.new .empty .empty) segmentsTcp connectedStream
        incompleteBuf sent = .ok ups ∧ ups = [[7, 8, 9]] := by
  have hbox : Inverse (fun call => some (padded call.plain)) (fun _ _ cipher => some (padded cipher))
      (ElaSession.new .empty .empty) (ElaSession.new .empty .empty) := by
    refine ⟨fun room data hroom _ => ⟨padded (room ++ data), rfl, ?_, ?_⟩⟩
    · rw [padded, List.drop_left' hroom, List.length_append, List.length_replicate]
    · intro room' hroom'
      refine ⟨List.replicate zeroBytes 0, List.length_replicate, ?_⟩
      have hmac : (room' ++ List.replicate macBytes (0 : UInt8)).length = zeroBytes := by
        rw [List.length_append, hroom', List.length_replicate]
        rfl
      have hcut : (padded (room ++ data)).drop (zeroBytes - macBytes) = List.replicate macBytes 0 ++ data := by
        rw [padded, List.drop_left' hroom]
        rfl
      rw [hcut, ← List.append_assoc, padded, List.drop_left' hmac]
  have htcp : segmentsTcp.Delivers :=
    ⟨fun n => Nat.add_zero n, fun bytes => (segments_pieces bytes).bounds, fun bytes =>
      ⟨(segments_pieces bytes).flatten, fun p hp =>
        ⟨((segments_pieces bytes).bounds p hp).1, ((segments_pieces bytes).bounds p hp).2.trans (by decide)⟩⟩⟩
  obtain ⟨sent, ups, hpush, hreceive, -, hwhole⟩ := transports_payload connectedStream rfl ⟨by decide, by decide⟩ hbox htcp
    receiving_incompleteBuf rfl (show 0 < [7, 8, 9].length by decide) (by decide)
  exact ⟨sent, ups, hpush, hreceive, hwhole (.inr rfl)⟩

end CarrierSdk.Pipeline
