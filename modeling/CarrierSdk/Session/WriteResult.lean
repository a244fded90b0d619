import CarrierSdk.Carrier.ErrorText
import CarrierSdk.Session.Pipeline

/-! What the write functions of the handlers return. Each makes its result from a buffer that the
handlers below it have moved in the meantime. -/
namespace CarrierSdk.Pipeline
open Mux ErrorText

def elaerrNotExist : UInt32 := 0x0A
def elaerrWrongState : UInt32 := 0x0F
def elaerrBusy : UInt32 := 0x10
def elaerrEncrypt : UInt32 := 0x12

/-- An error where the type of the result is int. -/
def intOf (error : UInt32) : Int := error.toInt32.toInt

/-- An error where the type of the result is ssize_t, which has 64 bits, so that an unsigned value
keeps its sign. -/
def ssizeOf (error : UInt32) : Int := error.toNat

/-- PJ_EBUSY. -/
def pjEbusy : UInt32 := 70011

def ewouldblock : UInt32 := 11

/-- What pseudo_tcp_socket_send comes to: the bytes that it takes, or the error of the socket. -/
inductive SocketSend
  | wrote (n : Nat)
  | failed (error : UInt32)
  deriving DecidableEq

/-- What the libraries give back: crypto_encrypt2, pj_ice_strans_sendto, and the calls of
pseudo_tcp_socket_send one after the other. -/
structure Libraries where
  encrypt : EncryptCall → Option (List UInt8)
  status : UInt32
  socket : List SocketSend

/-! The handlers. Each yields the buffer as it leaves it, and its result. -/

/-- The result of ice_handler_write_packet. -/
def iceHandlerWritePacketResult (status : UInt32) : Int :=
  if status ≠ 0 then if status = pjEbusy then intOf (elaGeneralError elaerrBusy) else intOf (elaIceError status)
  else 0

/-- ice_handler_write. -/
def iceHandlerWriteResult (status : UInt32) (buf : FlexBuffer) : Except Fault (FlexBuffer × Int) := do
  let _ ← iceHandlerWrite buf
  let moved := buf.backwardOffset icePacketLen
  let rc := iceHandlerWritePacketResult status
  .ok (moved.write moved.offset (icePacketHead buf.size), if rc ≠ 0 then rc else buf.size)

/-- crypto_handler_write. -/
def cryptoHandlerWriteResult (encrypt : EncryptCall → Option (List UInt8)) (ws : ElaSession)
    (next : FlexBuffer → Except Fault (FlexBuffer × Int)) (buf : FlexBuffer) : Except Fault (FlexBuffer × Int) :=
  match cryptoHandlerSend encrypt ws buf with
  | .error (.refused _) => .ok (buf, ssizeOf (elaGeneralError elaerrEncrypt))
  | .error f => .error f
  | .ok cipherBuf => do
    let r ← next cipherBuf
    .ok (buf, if r.2 = r.1.size then (buf.size : Int) else r.2)

/-- The loop of reliable_handler_write. -/
def reliableHandlerSends (len : Nat) : List SocketSend → FlexBuffer → Except Fault (FlexBuffer × Int)
  | [], buf => if buf.size = 0 then .ok (buf, len) else .error .busy
  | r :: results, buf =>
    if buf.size = 0 then .ok (buf, len)
    else match r with
      | .failed error =>
        if error ≠ ewouldblock then .ok (buf, ssizeOf (elaSysError error))
        else reliableHandlerSends len results buf
      | .wrote n => do reliableHandlerSends len results (← forward buf n)

/-- reliable_handler_write. -/
def reliableHandlerWriteResult (s : ElaStream) (socket : List SocketSend) (buf : FlexBuffer) :
    Except Fault (FlexBuffer × Int) :=
  if s.state ≠ .connected then .ok (buf, ssizeOf (elaGeneralError elaerrWrongState))
  else reliableHandlerSends buf.size socket buf

/-- multiplex_handler_send_packet for data, with the result as an int. -/
def multiplexHandlerSendResult (next : FlexBuffer → Except Fault (FlexBuffer × Int))
    (localChannelId remoteChannelId : ChannelId) (buf : FlexBuffer) : Except Fault (FlexBuffer × Int) := do
  let _ ← backward buf protocolHeadLen
  let r ← next (← inside (multiplexHandlerSendPacket PacketType.channelData.code 0 localChannelId remoteChannelId (some buf)))
  .ok (r.1, if r.2 < 0 then (Int32.ofInt r.2).toInt else (Int32.ofNat buf.size).toInt)

/-- multiplex_handler_write_channel. -/
def multiplexHandlerWriteChannelResult (next : FlexBuffer → Except Fault (FlexBuffer × Int))
    (channels : Nat → Option HandlerChannel) (cid : Nat) (buf : FlexBuffer) : Except Fault (FlexBuffer × Int) :=
  if cid = 0 then multiplexHandlerSendResult next 0 0 buf
  else match channels cid with
    | none => .ok (buf, intOf (elaGeneralError elaerrNotExist))
    | some ch =>
      if ch.status ≠ .open ∧ ch.status ≠ .pending then .ok (buf, intOf (elaGeneralError elaerrWrongState))
      else if ch.remoteId = 0 then .ok (buf, intOf (elaGeneralError elaerrWrongState))
      else multiplexHandlerSendResult next (UInt16.ofNat cid) ch.remoteId buf

section Results
variable (libs : Libraries) (ws : ElaSession) (s : ElaStream)

/-- The write function of a handler, with the handlers below it. -/
def writeResult : List StreamHandler → FlexBuffer → Except Fault (FlexBuffer × Int)
  | [], _ => .error .ignored
  | .multiplex :: next, buf => multiplexHandlerSendResult (writeResult next) 0 0 buf
  | .reliable :: _, buf => reliableHandlerWriteResult s libs.socket buf
  | .crypto :: next, buf => cryptoHandlerWriteResult libs.encrypt ws (writeResult next) buf
  | .ice :: _, buf => iceHandlerWriteResult libs.status buf

/-- ela_stream_write. -/
def elaStreamWriteResult (payload : List UInt8) : Except Fault Int :=
  match elaStreamWrite s payload with
  | .error (.refused _) => .ok (-1)
  | .error f => .error f
  | .ok buf => do
    let r ← writeResult libs ws s (handlers s) buf
    .ok (if r.2 < 0 then -1 else r.2)

/-- ela_stream_write_channel. The multiplexer of a stream is its first handler. -/
def elaStreamWriteChannelResult (channels : Nat → Option HandlerChannel) (channel : Nat) (payload : List UInt8) :
    Except Fault Int :=
  if elaMaxUserDataLen < payload.length then .ok (-1)
  else if s.state ≠ .connected then .ok (-1)
  else match handlers s with
    | .multiplex :: next => do
      let r ← multiplexHandlerWriteChannelResult (writeResult libs ws s next) channels channel (flexBufferFrom payload)
      .ok r.2
    | _ => .ok (ssizeOf (elaGeneralError elaerrWrongState))

end Results

/-! The results that are not lengths. -/

theorem bind_ok {α β : Type} {x : Except Fault α} {f : α → Except Fault β} {b : β} (h : (x >>= f) = .ok b) :
    ∃ a, x = .ok a ∧ f a = .ok b := by
  cases x with
  | error e => cases h
  | ok a => exact ⟨a, rfl, h⟩

theorem intOf_bounds (error : UInt32) : -2 ^ 31 ≤ intOf error ∧ intOf error < 2 ^ 31 :=
  ⟨Int32.le_toInt _, Int32.toInt_lt _⟩

/-- An unsigned error passes for a length, and is longer than any. -/
theorem lt_ssizeOf (facility code : UInt32) {n : Nat} (h : n ≤ elaMaxUserDataLen) :
    (n : Int) < ssizeOf (elaMkError facility code) := by
  have hle := le_elaMkError facility code
  have hmax : elaMaxUserDataLen < 2 ^ 31 := by decide
  unfold ssizeOf
  omega

theorem iceHandlerWritePacketResult_of_ne {status : UInt32} (h : status ≠ 0) :
    -2 ^ 31 ≤ iceHandlerWritePacketResult status ∧ iceHandlerWritePacketResult status < 0 := by
  rw [iceHandlerWritePacketResult, if_pos h]
  split
  · exact ⟨(intOf_bounds _).1, elaMkError_neg _ _⟩
  · exact ⟨(intOf_bounds _).1, elaMkError_neg _ _⟩

/-- For packets that the assertions let through. -/
theorem iceHandlerWriteResult_fits {buf : FlexBuffer} (status : UInt32) (h : buf.Fits icePacketLen)
    (hsize : buf.size ≤ pjStunSockPktLen - icePacketLen) : ∃ after : FlexBuffer,
      after.size = buf.size + icePacketLen ∧ iceHandlerWriteResult status buf =
        .ok (after, if status ≠ 0 then iceHandlerWritePacketResult status else buf.size) := by
  refine ⟨(buf.backwardOffset icePacketLen).write (buf.backwardOffset icePacketLen).offset (icePacketHead buf.size),
    ?_, ?_⟩
  · rw [FlexBuffer.write, FlexBuffer.backwardOffset, if_pos h.header]
  · rw [iceHandlerWriteResult, iceHandlerWrite_fits h hsize, ok_bind]
    by_cases hstatus : status = 0
    · subst hstatus
      rfl
    · have hneg := (iceHandlerWritePacketResult_of_ne hstatus).2
      simp only [if_pos hstatus, if_pos (show iceHandlerWritePacketResult status ≠ 0 by omega)]

/-! What pseudo_tcp_socket_send decides. -/

/-- A call fails before all bytes are taken, in another way than that it would block. -/
def socketFails : Nat → List SocketSend → Bool
  | 0, _ => false
  | _ + 1, [] => false
  | left + 1, .failed error :: results => error != ewouldblock || socketFails (left + 1) results
  | left + 1, .wrote n :: results => decide (n ≤ left + 1) && socketFails (left + 1 - n) results

theorem forward_full {buf : FlexBuffer} (h : buf.Fits 0) (hfull : buf.offset + buf.size = buf.capacity) (n : Nat) :
    forward buf n = if n ≤ buf.size then .ok (buf.forwardOffset n) else .error .assertion := by
  split
  · next hn => exact forward_fits h hn
  · next hn =>
    have hfalse : check (buf.offset + n ≤ buf.capacity) = .error .assertion := if_neg (by omega)
    rw [forward, hfalse]
    rfl

/-- The loop is done where no byte is left. -/
theorem reliableHandlerSends_empty {buf : FlexBuffer} (len : Nat) (results : List SocketSend) (h : buf.size = 0) :
    reliableHandlerSends len results buf = .ok (buf, len) := by
  cases results with
  | nil => rw [reliableHandlerSends, if_pos h]
  | cons result results => cases result <;> rw [reliableHandlerSends, if_pos h]

section Calls
variable {left : Nat} {buf : FlexBuffer}

@[simp] theorem socketFails_zero (results : List SocketSend) : socketFails 0 results = false := by
  cases results <;> rfl

@[simp] theorem socketFails_nil (left : Nat) : socketFails left [] = false := by
  cases left <;> rfl

theorem socketFails_failed (h : left ≠ 0) (error : UInt32) (results : List SocketSend) :
    socketFails left (.failed error :: results) = (error != ewouldblock || socketFails left results) := by
  cases left with
  | zero => exact absurd rfl h
  | succ left => rfl

theorem socketFails_wrote (h : left ≠ 0) (n : Nat) (results : List SocketSend) :
    socketFails left (.wrote n :: results) = (decide (n ≤ left) && socketFails (left - n) results) := by
  cases left with
  | zero => exact absurd rfl h
  | succ left => rfl

theorem reliableHandlerSends_failed (h : buf.size ≠ 0) (len : Nat) (error : UInt32) (results : List SocketSend) :
    reliableHandlerSends len (.failed error :: results) buf =
      if error ≠ ewouldblock then .ok (buf, ssizeOf (elaSysError error)) else reliableHandlerSends len results buf := by
  rw [reliableHandlerSends, if_neg h]

theorem reliableHandlerSends_wrote (h : buf.size ≠ 0) (len n : Nat) (results : List SocketSend) :
    reliableHandlerSends len (.wrote n :: results) buf = (forward buf n >>= reliableHandlerSends len results) := by
  rw [reliableHandlerSends, if_neg h]

end Calls

/-- The loop returns the length that it began with, or the error of the socket. -/
theorem reliableHandlerSends_result (len : Nat) (results : List SocketSend) {buf : FlexBuffer} (h : buf.Fits 0)
    (hfull : buf.offset + buf.size = buf.capacity) :
    if socketFails buf.size results = true then
      ∃ after error, reliableHandlerSends len results buf = .ok (after, ssizeOf (elaSysError error))
    else ∀ r, reliableHandlerSends len results buf = .ok r → r.2 = len := by
  induction results generalizing buf with
  | nil =>
    rw [socketFails_nil, if_neg Bool.false_ne_true]
    intro r hr
    rw [reliableHandlerSends] at hr
    split at hr <;> cases hr
    rfl
  | cons result results ih =>
    by_cases hzero : buf.size = 0
    · rw [reliableHandlerSends_empty len _ hzero, hzero, socketFails_zero, if_neg Bool.false_ne_true]
      intro r hr
      cases hr
      rfl
    · cases result with
      | failed error =>
        rw [reliableHandlerSends_failed hzero, socketFails_failed hzero]
        by_cases hwould : error = ewouldblock
        · rw [if_neg (not_not.mpr hwould), bne_eq_false_iff_eq.mpr hwould, Bool.false_or]
          exact ih h hfull
        · rw [if_pos hwould, bne_iff_ne.mpr hwould, Bool.true_or, if_pos rfl]
          exact ⟨buf, error, rfl⟩
      | wrote n =>
        rw [reliableHandlerSends_wrote hzero, socketFails_wrote hzero, forward_full h hfull]
        by_cases hn : n ≤ buf.size
        · have hsize : (buf.forwardOffset n).size = buf.size - n := by
            rw [FlexBuffer.forwardOffset, if_pos (by omega)]
          have hoffset : (buf.forwardOffset n).offset = buf.offset + n := by
            rw [FlexBuffer.forwardOffset, if_pos (by omega)]
          have hcapacity : (buf.forwardOffset n).capacity = buf.capacity := rfl
          rw [if_pos hn, ok_bind, decide_eq_true hn, Bool.true_and, ← hsize]
          exact ih (h.forwardOffset hn) (by omega)
        · rw [if_neg hn, decide_eq_false hn, Bool.false_and, if_neg Bool.false_ne_true]
          intro r hr
          cases hr

theorem reliableHandlerSends_nonneg {len : Nat} {results : List SocketSend} {buf : FlexBuffer}
    {r : FlexBuffer × Int} (h : reliableHandlerSends len results buf = .ok r) : 0 ≤ r.2 := by
  induction results generalizing buf with
  | nil =>
    rw [reliableHandlerSends] at h
    split at h <;> cases h
    exact Int.natCast_nonneg len
  | cons result results ih =>
    by_cases hzero : buf.size = 0
    · cases (reliableHandlerSends_empty len _ hzero).symm.trans h
      exact Int.natCast_nonneg len
    · cases result with
      | failed error =>
        rw [reliableHandlerSends_failed hzero] at h
        split at h
        · cases h
          exact Int.natCast_nonneg _
        · exact ih h
      | wrote n =>
        rw [reliableHandlerSends_wrote hzero] at h
        obtain ⟨rest, -, hrest⟩ := bind_ok h
        exact ih hrest

/-- A result below zero is an error as an int. -/
theorem writeResult_ge {libs : Libraries} {ws : ElaSession} {s : ElaStream} {hs : List StreamHandler}
    {buf : FlexBuffer} {r : FlexBuffer × Int} (h : writeResult libs ws s hs buf = .ok r) : -2 ^ 31 ≤ r.2 := by
  induction hs generalizing buf r with
  | nil => cases h
  | cons handler next ih =>
    cases handler with
    | multiplex =>
      obtain ⟨-, -, h⟩ := bind_ok h
      obtain ⟨packet, -, h⟩ := bind_ok h
      obtain ⟨q, -, h⟩ := bind_ok h
      cases h
      dsimp only
      split <;> exact Int32.le_toInt _
    | reliable =>
      have hnonneg : 0 ≤ r.2 := by
        rw [writeResult, reliableHandlerWriteResult] at h
        split at h
        · cases h
          exact Int.natCast_nonneg _
        · exact reliableHandlerSends_nonneg h
      omega
    | crypto =>
      rw [writeResult, cryptoHandlerWriteResult] at h
      split at h
      · cases h
        exact (show (-2 ^ 31 : Int) ≤ 0 by decide).trans (Int.natCast_nonneg _)
      · cases h
      · obtain ⟨q, hq, h⟩ := bind_ok h
        cases h
        dsimp only
        split
        · exact (show (-2 ^ 31 : Int) ≤ 0 by decide).trans (Int.natCast_nonneg _)
        · exact ih hq
    | ice =>
      obtain ⟨-, -, h⟩ := bind_ok h
      cases h
      dsimp only
      split
      · next hrc =>
        have hstatus : libs.status ≠ 0 := fun hz => hrc (by rw [hz]; rfl)
        exact (iceHandlerWritePacketResult_of_ne hstatus).1
      · exact (show (-2 ^ 31 : Int) ≤ 0 by decide).trans (Int.natCast_nonneg _)

/-- The multiplexer returns the length of what it was given, or an error. -/
theorem multiplexHandlerSendResult_len {next : FlexBuffer → Except Fault (FlexBuffer × Int)}
    (hnext : ∀ b q, next b = .ok q → -2 ^ 31 ≤ q.2) {l c : ChannelId} {buf : FlexBuffer} {r : FlexBuffer × Int}
    (hmax : buf.size ≤ elaMaxUserDataLen) (h : multiplexHandlerSendResult next l c buf = .ok r) :
    r.2 < 0 ∨ r.2 = buf.size := by
  obtain ⟨-, -, h⟩ := bind_ok h
  obtain ⟨packet, -, h⟩ := bind_ok h
  obtain ⟨q, hq, h⟩ := bind_ok h
  cases h
  dsimp only
  split
  · next hneg =>
    have hge := hnext packet q hq
    rw [Int32.toInt_ofInt_of_le hge (by omega)]
    exact .inl hneg
  · have hlt : elaMaxUserDataLen < 2 ^ 31 := by decide
    exact .inr (Int32.toInt_ofNat_of_lt (Nat.lt_of_le_of_lt hmax hlt))

theorem elaStreamWrite_ok {s : ElaStream} {payload : List UInt8} {buf : FlexBuffer}
    (h : elaStreamWrite s payload = .ok buf) : buf = flexBufferFrom payload := by
  unfold elaStreamWrite at h
  split at h
  · cases h
  · split at h
    · cases h
    · split at h
      · cases h
      · rw [inside_fits (flexBufferFrom_fits payload)] at h
        exact (Except.ok.inj h).symm

/-! The claim about each stream. -/

/-- What succeeds returns the length of the payload. -/
def WriteReturnsLen (libs : Libraries) (ws : ElaSession) (s : ElaStream) (payload : List UInt8) : Prop :=
  (∀ r, elaStreamWriteResult libs ws s payload = .ok r → 0 ≤ r → r = payload.length) ∧
  (s.multiplexing = true → ∀ channels channel r,
    elaStreamWriteChannelResult libs ws s channels channel payload = .ok r → 0 ≤ r → r = payload.length)

section Streams
variable {libs : Libraries} {ws : ElaSession} {s : ElaStream} {payload : List UInt8}

/-- A multiplexer at the top returns its own length. -/
theorem multiplexing_returns_len (hmux : s.multiplexing = true) (hmax : payload.length ≤ elaMaxUserDataLen) :
    WriteReturnsLen libs ws s payload := by
  have hhandlers : handlers s = .multiplex :: below s := by rw [handlers_eq, hmux]; rfl
  have hnext : ∀ b q, writeResult libs ws s (below s) b = .ok q → -2 ^ 31 ≤ q.2 := fun b q hq => writeResult_ge hq
  have hlen : ∀ l c r, multiplexHandlerSendResult (writeResult libs ws s (below s)) l c (flexBufferFrom payload) = .ok r →
      r.2 < 0 ∨ r.2 = payload.length := fun l c r hr => multiplexHandlerSendResult_len hnext hmax hr
  constructor
  · intro r hr hge
    unfold elaStreamWriteResult at hr
    split at hr
    · cases hr
      exact absurd hge (by decide)
    · cases hr
    · next buf hbuf =>
      cases elaStreamWrite_ok hbuf
      obtain ⟨q, hq, h⟩ := bind_ok hr
      cases h
      rw [hhandlers, writeResult] at hq
      rcases hlen 0 0 q hq with hneg | heq
      · rw [if_pos hneg] at hge
        exact absurd hge (by decide)
      · rw [heq, if_neg (by omega)]
  · intro _ channels channel r hr hge
    rw [elaStreamWriteChannelResult, hhandlers] at hr
    split at hr
    · cases hr
      exact absurd hge (by decide)
    · split at hr
      · cases hr
        exact absurd hge (by decide)
      · obtain ⟨q, hq, h⟩ := bind_ok hr
        cases h
        have herror : ∀ e, q.2 = intOf (elaGeneralError e) → q.2 = payload.length := fun e he =>
          absurd hge (by rw [he]; exact Int.not_le.mpr (elaMkError_neg _ _))
        have hsent : ∀ l c, multiplexHandlerSendResult (writeResult libs ws s (below s)) l c (flexBufferFrom payload) =
            .ok q → q.2 = payload.length := fun l c h => (hlen l c q h).resolve_left (Int.not_lt.mpr hge)
        unfold multiplexHandlerWriteChannelResult at hq
        split at hq
        · exact hsent _ _ hq
        · split at hq
          · cases hq
            exact herror elaerrNotExist rfl
          · split at hq
            · cases hq
              exact herror elaerrWrongState rfl
            · split at hq
              · cases hq
                exact herror elaerrWrongState rfl
              · exact hsent _ _ hq

/-- A stream that ela_stream_write writes to. -/
def Writable (s : ElaStream) : Prop := ¬ (s.type = .audio ∨ s.type = .video) ∧ s.state = .connected

theorem elaStreamWriteResult_writable (hs : Writable s) (hpos : 0 < payload.length)
    (hmax : payload.length ≤ elaMaxUserDataLen) : elaStreamWriteResult libs ws s payload =
      (writeResult libs ws s (handlers s) (flexBufferFrom payload) >>= fun r => .ok (if r.2 < 0 then -1 else r.2)) := by
  have hargs : ¬ (payload = [] ∨ elaMaxUserDataLen < payload.length) := by
    rintro (rfl | hlong)
    · exact Nat.lt_irrefl _ hpos
    · omega
  have hwrite : elaStreamWrite s payload = .ok (flexBufferFrom payload) := by
    rw [elaStreamWrite, if_neg hargs, if_neg hs.1, if_neg (not_not.mpr hs.2), inside_fits (flexBufferFrom_fits payload)]
  rw [elaStreamWriteResult, hwrite]

/-- Other streams refuse. -/
theorem elaStreamWriteResult_refused (hs : ¬ Writable s) : elaStreamWriteResult libs ws s payload = .ok (-1) := by
  have hrefused : ∃ e, elaStreamWrite s payload = .error (.refused e) := by
    unfold elaStreamWrite
    split
    · exact ⟨_, rfl⟩
    · split
      · exact ⟨_, rfl⟩
      · next htype =>
        split
        · exact ⟨_, rfl⟩
        · next hstate => exact absurd ⟨htype, not_not.mp hstate⟩ hs
  obtain ⟨e, he⟩ := hrefused
  rw [elaStreamWriteResult, he]

/-- Without a multiplexer it is the result of the handlers below that counts. -/
theorem plain_returns_len_iff (hmux : s.multiplexing = false) (hs : Writable s) (hpos : 0 < payload.length)
    (hmax : payload.length ≤ elaMaxUserDataLen) : WriteReturnsLen libs ws s payload ↔
      ∀ r, writeResult libs ws s (below s) (flexBufferFrom payload) = .ok r → 0 ≤ r.2 → r.2 = payload.length := by
  have hhandlers : handlers s = below s := by rw [handlers_eq, hmux]; rfl
  rw [WriteReturnsLen, elaStreamWriteResult_writable hs hpos hmax, hhandlers]
  constructor
  · rintro ⟨hwrite, -⟩ r hr hge
    refine hwrite r.2 ?_ hge
    rw [hr, ok_bind, if_neg (Int.not_lt.mpr hge)]
  · refine fun hall => ⟨?_, fun htrue => absurd (hmux.symm.trans htrue) Bool.false_ne_true⟩
    intro r hr hge
    obtain ⟨q, hq, h⟩ := bind_ok hr
    cases h
    split at hge
    · exact absurd hge (by decide)
    · next hneg =>
      rw [if_neg hneg]
      exact hall q hq (Int.not_lt.mp hneg)

/-- The pseudo-TCP layer takes all bytes, or its error passes for a length. -/
theorem reliable_returns_len_iff (hs : Writable s) (next : List StreamHandler)
    (hmax : payload.length ≤ elaMaxUserDataLen) :
    (∀ r, writeResult libs ws s (.reliable :: next) (flexBufferFrom payload) = .ok r → 0 ≤ r.2 → r.2 = payload.length) ↔
      socketFails payload.length libs.socket = false := by
  have hstep : writeResult libs ws s (.reliable :: next) (flexBufferFrom payload) =
      reliableHandlerSends payload.length libs.socket (flexBufferFrom payload) := by
    rw [writeResult, reliableHandlerWriteResult, if_neg (not_not.mpr hs.2)]
    rfl
  have hresult := reliableHandlerSends_result payload.length libs.socket
    ((flexBufferFrom_fits payload).mono (Nat.zero_le _)) (Nat.add_comm _ _)
  have hsize : (flexBufferFrom payload).size = payload.length := rfl
  rw [hsize] at hresult
  rw [hstep]
  cases hfails : socketFails payload.length libs.socket with
  | false =>
    rw [hfails, if_neg Bool.false_ne_true] at hresult
    exact iff_of_true (fun r hr _ => hresult r hr) rfl
  | true =>
    rw [hfails, if_pos rfl] at hresult
    obtain ⟨after, error, hr⟩ := hresult
    refine iff_of_false (fun hall => ?_) fun hfalse => Bool.false_ne_true hfalse.symm
    have hlt := lt_ssizeOf 2 error hmax
    have heq := hall _ hr (Int.natCast_nonneg _)
    exact absurd heq (Int.ne_of_gt hlt)

/-- The ICE handler returns the length that it was given. -/
theorem ice_returns_len (hmax : payload.length ≤ elaMaxUserDataLen) (r : FlexBuffer × Int)
    (h : writeResult libs ws s [.ice] (flexBufferFrom payload) = .ok r) (hge : 0 ≤ r.2) : r.2 = payload.length := by
  obtain ⟨after, -, hr⟩ := iceHandlerWriteResult_fits libs.status ((flexBufferFrom_fits payload).mono (by decide))
    (hmax.trans (show elaMaxUserDataLen ≤ pjStunSockPktLen - icePacketLen by decide))
  cases hr.symm.trans h
  dsimp only at hge ⊢
  split at hge
  · next hstatus => exact absurd hge (Int.not_le.mpr (iceHandlerWritePacketResult_of_ne hstatus).2)
  · next hstatus => rw [if_neg hstatus]; rfl

/-- What the encryption handler passes on is longer than the payload. -/
theorem cryptoHandlerSend_packet (hencrypt : ∀ call cipher, zeroBytes ≤ call.plain.length →
      libs.encrypt call = some cipher → cipher.length = call.plain.length)
    {cipher : List UInt8} (hcipher : libs.encrypt (encryptCall ws (flexBufferFrom payload)) = some cipher) :
    ∃ written, cryptoHandlerSend libs.encrypt ws (flexBufferFrom payload) = .ok written ∧
      written.Fits icePacketLen ∧ written.size = macBytes + payload.length := by
  have hfits : (flexBufferFrom payload).Fits zeroBytes := (flexBufferFrom_fits payload).mono (by decide)
  have hsize : (flexBufferFrom payload).size = payload.length := rfl
  obtain ⟨room, hroom, hplain⟩ := encryptCall_plain ws hfits
  have hplainLen : (encryptCall ws (flexBufferFrom payload)).plain.length = zeroBytes + payload.length := by
    rw [hplain, List.length_append, hroom, hfits.length_data, hsize]
  have hlen : cipher.length = zeroBytes + (flexBufferFrom payload).size := by
    rw [hencrypt _ _ (by rw [hplainLen]; exact Nat.le_add_right _ _) hcipher, hplainLen, hsize]
  obtain ⟨hsend, hwritten, hdata⟩ := cryptoHandlerSend_fits hfits hcipher hlen
  refine ⟨_, hsend, hwritten, ?_⟩
  rw [← hwritten.length_data, hdata, List.length_drop, hlen, hsize, zeroBytes, macBytes]
  omega

theorem cryptoHandlerSend_refused (hcipher : libs.encrypt (encryptCall ws (flexBufferFrom payload)) = none) :
    cryptoHandlerSend libs.encrypt ws (flexBufferFrom payload) = .error (.refused .encrypt) := by
  have hfits : (flexBufferFrom payload).Fits zeroBytes := (flexBufferFrom_fits payload).mono (by decide)
  rw [cryptoHandlerSend, check_true hfits.header, ok_bind, backward_fits hfits (Nat.le_refl _), ok_bind, hcipher]

/-- The encryption handler compares the result with a size that the ICE handler has made larger, so that
it is right only where the ICE handler fails. -/
theorem crypto_returns_len_iff (hencrypt : ∀ call cipher, zeroBytes ≤ call.plain.length →
      libs.encrypt call = some cipher → cipher.length = call.plain.length)
    (hmax : payload.length ≤ elaMaxUserDataLen) :
    (∀ r, writeResult libs ws s [.crypto, .ice] (flexBufferFrom payload) = .ok r → 0 ≤ r.2 → r.2 = payload.length) ↔
      (libs.encrypt (encryptCall ws (flexBufferFrom payload))).isSome = true ∧ libs.status ≠ 0 := by
  rw [writeResult, cryptoHandlerWriteResult]
  cases hcipher : libs.encrypt (encryptCall ws (flexBufferFrom payload)) with
  | none =>
    rw [cryptoHandlerSend_refused hcipher]
    refine iff_of_false (fun hall => ?_) fun h => Bool.false_ne_true h.1
    have hlt := lt_ssizeOf 1 elaerrEncrypt hmax
    exact absurd (hall _ rfl (Int.natCast_nonneg _)) (Int.ne_of_gt hlt)
  | some cipher =>
    obtain ⟨written, hsend, hwritten, hmac⟩ := cryptoHandlerSend_packet hencrypt hcipher
    have hpacket : written.size ≤ pjStunSockPktLen - icePacketLen :=
      hmac ▸ (Nat.add_le_add_left hmax _).trans (by decide)
    obtain ⟨after, hafter, hr⟩ := iceHandlerWriteResult_fits libs.status hwritten hpacket
    have hmacPos : 0 < macBytes := by decide
    have hice : 0 < icePacketLen := by decide
    rw [hsend]
    dsimp only
    rw [writeResult, hr, ok_bind]
    by_cases hstatus : libs.status = 0
    · refine iff_of_false (fun hall => ?_) fun h => h.2 hstatus
      have hne : ¬ ((written.size : Int) = after.size) := by omega
      have heq := hall _ rfl
      simp only [hstatus, ne_eq, not_true_eq_false, if_false, if_neg hne] at heq
      have := heq (Int.natCast_nonneg _)
      omega
    · have hneg := (iceHandlerWritePacketResult_of_ne hstatus).2
      refine iff_of_true ?_ ⟨rfl, hstatus⟩
      rintro r ⟨⟩ hge
      simp only [if_pos hstatus] at hge ⊢
      split at hge
      · next heq => exact absurd (heq ▸ hneg) (Int.not_lt.mpr (Int.natCast_nonneg _))
      · exact absurd hge (Int.not_le.mpr hneg)

/-- For every combination of the options, every payload and all that the libraries give back: what
succeeds returns the length if and only if the stream has a multiplexer, or refuses, or the handler
that decides takes neither an error nor the length of the cipher text for its result. -/
theorem write_returns_len_iff (libs : Libraries) (ws : ElaSession) (s : ElaStream) (payload : List UInt8)
    (hencrypt : ∀ call cipher, zeroBytes ≤ call.plain.length →
      libs.encrypt call = some cipher → cipher.length = call.plain.length)
    (hpos : 0 < payload.length) (hmax : payload.length ≤ elaMaxUserDataLen) :
    WriteReturnsLen libs ws s payload ↔ s.multiplexing = true ∨ ¬ Writable s ∨
      (if s.reliable then socketFails payload.length libs.socket = false
        else s.unencrypt = true ∨
          (libs.encrypt (encryptCall ws (flexBufferFrom payload))).isSome = true ∧ libs.status ≠ 0) := by
  cases hmux : s.multiplexing with
  | true => exact iff_of_true (multiplexing_returns_len hmux hmax) (.inl rfl)
  | false =>
    by_cases hs : Writable s
    · rw [plain_returns_len_iff hmux hs hpos hmax, or_iff_right Bool.false_ne_true, or_iff_right (not_not.mpr hs)]
      cases hreliable : s.reliable with
      | true =>
        have hbelow : below s = .reliable :: lower s := by rw [below, hreliable]; rfl
        rw [hbelow, if_pos rfl]
        exact reliable_returns_len_iff hs _ hmax
      | false =>
        have hbelow : below s = lower s := by rw [below, hreliable]; rfl
        rw [hbelow, if_neg Bool.false_ne_true]
        cases hcrypto : s.unencrypt with
        | true =>
          have hlower : lower s = [.ice] := by rw [lower, hcrypto]; rfl
          rw [hlower]
          exact iff_of_true (ice_returns_len hmax) (.inl rfl)
        | false =>
          have hlower : lower s = [.crypto, .ice] := by rw [lower, hcrypto]; rfl
          rw [hlower, or_iff_right Bool.false_ne_true]
          exact crypto_returns_len_iff hencrypt hmax
    · refine iff_of_true ⟨?_, fun htrue => absurd (hmux.symm.trans htrue) Bool.false_ne_true⟩ (.inr (.inl hs))
      intro r hr hge
      rw [elaStreamWriteResult_refused hs] at hr
      cases hr
      exact absurd hge (by decide)

end Streams

/-- Libraries that encrypt and send, with a socket that takes three bytes in two calls and would block
between them. -/
def workingLibraries : Libraries :=
  ⟨fun call => some (padded call.plain), 0, [.wrote 2, .failed ewouldblock, .wrote 1]⟩

theorem workingLibraries_encrypt (call : EncryptCall) (cipher : List UInt8) (hroom : zeroBytes ≤ call.plain.length)
    (h : workingLibraries.encrypt call = some cipher) : cipher.length = call.plain.length := by
  cases h
  rw [padded, List.length_append, List.length_replicate, List.length_drop]
  omega

/-- An encrypted stream of some options, connected. -/
def streamOf (options : Nat) : ElaStream := { newStream 1 .application options with state := .connected }

theorem write_returns_len_reliable :
    WriteReturnsLen workingLibraries (ElaSession.new .empty .empty) (streamOf elaStreamReliable) [7, 8, 9] :=
  (write_returns_len_iff workingLibraries _ _ [7, 8, 9] workingLibraries_encrypt (by decide) (by decide)).mpr
    (.inr (.inr (by decide)))

/-- Three bytes on an encrypted stream without other options: nineteen are reported. -/
theorem write_returns_more : ¬ ∀ libs ws s (payload : List UInt8), (∀ call cipher, zeroBytes ≤ call.plain.length →
    libs.encrypt call = some cipher → cipher.length = call.plain.length) → 0 < payload.length →
    payload.length ≤ elaMaxUserDataLen → WriteReturnsLen libs ws s payload := by
  intro h
  have hlen := (h workingLibraries (ElaSession.new .empty .empty) (streamOf 0) [7, 8, 9] workingLibraries_encrypt
    (by decide) (by decide)).1 19 (by decide +kernel) (by decide)
  exact absurd hlen (by decide)

end CarrierSdk.Pipeline
