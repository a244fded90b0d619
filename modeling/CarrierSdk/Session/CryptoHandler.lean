import CarrierSdk.Session.Session

/-! The encryption handler of a stream, and the buffers that the handlers pass on. -/
namespace CarrierSdk

def flexPaddingLen : Nat := 128

/-- ZERO_BYTES and MAC_BYTES of the encryption primitive. -/
def zeroBytes : Nat := 32
def macBytes : Nat := 16

/-- struct FlexBuffer. The data lie behind the offset. -/
structure FlexBuffer where
  capacity : Nat
  offset : Nat
  size : Nat
  buffer : List UInt8
  deriving DecidableEq

namespace FlexBuffer

def data (b : FlexBuffer) : List UInt8 := (b.buffer.drop b.offset).take b.size

/-- flex_buffer_forward_offset, which stays inside the capacity. -/
def forwardOffset (b : FlexBuffer) (bytes : Nat) : FlexBuffer :=
  let bytes := if b.offset + bytes ≤ b.capacity then bytes else b.capacity - b.offset - 1
  { b with offset := b.offset + bytes, size := b.size - bytes }

/-- flex_buffer_backward_offset, which stays inside the buffer. -/
def backwardOffset (b : FlexBuffer) (bytes : Nat) : FlexBuffer :=
  let bytes := if bytes ≤ b.offset then bytes else b.offset
  { b with offset := b.offset - bytes, size := b.size + bytes }

/-- The handlers' assertion that a header fits before the data, which lie in the buffer. -/
structure Fits (b : FlexBuffer) (bytes : Nat) : Prop where
  header : bytes ≤ b.offset
  inside : b.offset + b.size ≤ b.capacity
  length : b.buffer.length = b.capacity

/-- Going back over a header puts it before the data. -/
theorem data_backward {b : FlexBuffer} {bytes : Nat} (h : b.Fits bytes) :
    (b.backwardOffset bytes).data =
      (b.buffer.drop (b.offset - bytes)).take bytes ++ b.data := by
  have hb := h.header
  simp only [data, backwardOffset, if_pos hb]
  rw [Nat.add_comm b.size bytes, List.take_add, List.drop_drop, Nat.sub_add_cancel hb]

theorem Fits.room {b : FlexBuffer} {bytes : Nat} (h : b.Fits bytes) :
    ∃ room : List UInt8, room.length = bytes ∧ (b.backwardOffset bytes).data = room ++ b.data := by
  refine ⟨(b.buffer.drop (b.offset - bytes)).take bytes, ?_, data_backward h⟩
  have := h.header
  have := h.inside
  rw [List.length_take, List.length_drop, h.length]
  omega

end FlexBuffer

/-- One call of the encryption primitive. -/
structure EncryptCall where
  key : SymmetricKey
  nonce : Nonce
  plain : List UInt8
  deriving DecidableEq

/-- The call that a buffer is encrypted by. The primitive wants room before the data. -/
def encryptCall (ws : ElaSession) (buf : FlexBuffer) : EncryptCall :=
  ⟨ws.crypto.key, ws.nonce, (buf.backwardOffset zeroBytes).data⟩

/-- crypto_handler_write: the call of crypto_encrypt2 and what is returned. The cipher text
lies behind the part of its buffer that the primitive leaves zero. The next handler may
move the offset of the buffer it is given before its size is compared. -/
def cryptoHandlerWrite (encrypt : EncryptCall → Option (List UInt8))
    (next : FlexBuffer → FlexBuffer × Int) (ws : ElaSession) (buf : FlexBuffer) :
    EncryptCall × Except SessionError Int :=
  (encryptCall ws buf,
    match encrypt (encryptCall ws buf) with
    | none => .error .encrypt
    | some cipher =>
      let padding := List.replicate (flexPaddingLen - zeroBytes) 0
      let cipherBuf : FlexBuffer :=
        ⟨buf.size + flexPaddingLen, flexPaddingLen - zeroBytes, cipher.length, padding ++ cipher⟩
      let (cipherBuf, written) := next (cipherBuf.forwardOffset (zeroBytes - macBytes))
      .ok (if written = cipherBuf.size then (buf.size : Int) else written))

/-- The plaintext ends with the data of the buffer, behind the room that the primitive wants. -/
theorem encryptCall_plain (ws : ElaSession) {buf : FlexBuffer} (h : buf.Fits zeroBytes) :
    ∃ header, header.length = zeroBytes ∧ (encryptCall ws buf).plain = header ++ buf.data := h.room

/-- So buffers with different data are different plaintexts. -/
theorem encryptCall_plain_ne (ws ws' : ElaSession) {buf buf' : FlexBuffer} (h : buf.Fits zeroBytes)
    (h' : buf'.Fits zeroBytes) (hne : buf.data ≠ buf'.data) :
    (encryptCall ws buf).plain ≠ (encryptCall ws' buf').plain := by
  obtain ⟨header, hl, hp⟩ := encryptCall_plain ws h
  obtain ⟨header', hl', hp'⟩ := encryptCall_plain ws' h'
  rw [hp, hp']
  intro he
  exact hne (List.append_inj he (hl.trans hl'.symm)).2

end CarrierSdk
