import CarrierSdk.FileTransfer.EasyFile
import CarrierSdk.Mux.Multiplexer

/-! Sending a file with EasyFile: the loop that reads the file block by block and passes each block on.
long and size_t have 64 bits. -/
namespace CarrierSdk.FileTransfer
open Mux (elaMaxUserDataLen)

/-- What the calls of the routine return: fseek, and in each round fread and ela_filetransfer_send. What
fread gets are the bytes of the block, or fewer where the file has become shorter or cannot be read. -/
structure SendCalls where
  seeked : Bool
  got : Nat → Nat
  sent : Nat → Bool

/-- The stream of the file, and the buffer of the routine, which is not initialised. -/
structure Reader where
  pos : Nat
  buf : List UInt8

inductive SendError | seeking | reading | sending | range
  deriving DecidableEq

/-- What is passed to ela_filetransfer_send and to the callback, and ela_filetransfer_close. -/
inductive SendOutput
  | send (data : List UInt8)
  | sent (offset filesz : UInt64)
  | close
  deriving DecidableEq

structure Sending where
  outputs : List SendOutput
  error : Option SendError
  deriving DecidableEq

def Sending.failed (e : SendError) : Sending := ⟨[.close], some e⟩

def Sending.after (outputs : List SendOutput) (r : Sending) : Sending := ⟨outputs ++ r.outputs, r.error⟩

/-- fread of one element. Its result is the number of elements that were read whole. -/
def fread (bytes : List UInt8) (reader : Reader) (len got : Nat) : Reader × Int :=
  let data := (bytes.drop reader.pos).take (min got len)
  (⟨reader.pos + data.length, data ++ reader.buf.drop data.length⟩, if data.length = len then 1 else 0)

def sendLen (filesz offset : UInt64) : UInt64 :=
  let len := filesz - offset
  if .ofNat elaMaxUserDataLen < len then .ofNat elaMaxUserDataLen else len

variable (sent : SentFile) (calls : SendCalls) (notifies : Bool)

/-- The loop from round k on, for at most fuel rounds. -/
def sendLoop : (fuel k : Nat) → UInt64 → Reader → Option Sending
  | 0, _, _, _ => none
  | fuel + 1, k, offset, reader =>
    let len := sendLen sent.size offset
    let (reader, rc) := fread sent.bytes reader len.toNat (calls.got k)
    if rc < 0 then some (.failed .reading)
    else
      let block := reader.buf.take len.toNat
      if calls.sent k then
        let offset := offset + len
        let outputs := .send block :: if notifies then [.sent offset sent.size] else []
        let rest := if offset < sent.size then sendLoop fuel (k + 1) offset reader else some ⟨[], none⟩
        rest.map (Sending.after outputs)
      else some ((Sending.failed .sending).after [.send block])

/-- The loop is given as many rounds as there are bytes left. -/
def sendingFileRoutine (offset : UInt64) (buf : List UInt8) : Option Sending :=
  if calls.seeked then
    sendLoop sent calls notifies (sent.size.toNat - offset.toNat) 0 offset ⟨offset.toNat, buf⟩
  else some (.failed .seeking)

/-- Where the thread is not created, nothing is sent. -/
def notifyPullCb (offset : UInt64) (created : Bool) (buf : List UInt8) : Option Sending :=
  if sent.size ≤ offset then some (.failed .range)
  else if created then sendingFileRoutine sent calls notifies offset buf
  else some ⟨[], none⟩

/-! What is promised. -/

def SendOutput.block? : SendOutput → Option (List UInt8)
  | .send data => some data
  | _ => none

/-- The blocks that are passed to ela_filetransfer_send. -/
def Sending.blocks (r : Sending) : List (List UInt8) := r.outputs.filterMap SendOutput.block?

def Sending.Sized (r : Sending) : Prop :=
  ∀ block ∈ r.blocks, 1 ≤ block.length ∧ block.length ≤ elaMaxUserDataLen

/-- Of the rest of the file a prefix is sent, and all of it where no error is seen. -/
structure SendsRest (rest : List UInt8) (r : Sending) : Prop where
  sized : r.Sized
  begins : r.blocks.flatten <+: rest
  whole : r.error = none → r.blocks.flatten = rest

def blockLen (size start : Nat) : Nat := min (size - start) elaMaxUserDataLen

namespace SendCalls
variable (start : Nat) (buf : List UInt8)

/-- The loop comes to round i. -/
def Reaches (size : Nat) (i : Nat) : Prop :=
  start + i * elaMaxUserDataLen < size ∧ ∀ j < i, calls.sent j = true

/-- Each fread gets the whole block. -/
def ReadsWhole (size : Nat) : Prop :=
  ∀ i, calls.Reaches start size i → blockLen size (start + i * elaMaxUserDataLen) ≤ calls.got i

/-- The stream and the buffer before round i. -/
def readerAt (bytes : List UInt8) : Nat → Reader
  | 0 => ⟨start, buf⟩
  | i + 1 => (fread bytes (readerAt bytes i)
      (blockLen bytes.length (start + i * elaMaxUserDataLen)) (calls.got i)).1

end SendCalls

/-- The next bytes of the stream are those at the place of the block, and where fread gets fewer than
the block has, the buffer happens to hold the others already. -/
structure Reader.Holds (reader : Reader) (bytes : List UInt8) (start got : Nat) : Prop where
  next : (bytes.drop reader.pos).take (min got (blockLen bytes.length start)) =
    (bytes.drop start).take (min got (blockLen bytes.length start))
  stale : (reader.buf.take (blockLen bytes.length start)).drop got =
    ((bytes.drop start).take (blockLen bytes.length start)).drop got

/-- Each fread leaves the block in the buffer. -/
def SendCalls.ReadsRight (start : Nat) (buf bytes : List UInt8) : Prop :=
  ∀ i, calls.Reaches start bytes.length i →
    (calls.readerAt start buf bytes i).Holds bytes (start + i * elaMaxUserDataLen) (calls.got i)

/-! What one round does. -/

variable {sent calls notifies}

theorem toNat_sendLen {offset : UInt64} (h : offset < sent.size) :
    (sendLen sent.size offset).toNat = blockLen sent.bytes.length offset.toNat := by
  have hlen : (sent.size - offset).toNat = sent.bytes.length - offset.toNat := by
    rw [UInt64.toNat_sub_of_le _ _ (UInt64.le_of_lt h), sent.toNat_size]
  have hmax : (UInt64.ofNat elaMaxUserDataLen).toNat = elaMaxUserDataLen := rfl
  simp only [sendLen, blockLen]
  split
  next hlt =>
    rw [UInt64.lt_iff_toNat_lt, hlen, hmax] at hlt
    omega
  next hle =>
    rw [UInt64.lt_iff_toNat_lt, hlen, hmax] at hle
    rw [hlen]
    omega

theorem blockLen_le (size start : Nat) : blockLen size start ≤ elaMaxUserDataLen := Nat.min_le_right _ _

theorem blockLen_pos {size start : Nat} (h : start < size) : 1 ≤ blockLen size start :=
  Nat.le_min.mpr ⟨Nat.sub_pos_of_lt h, by decide⟩

theorem add_blockLen_le {size start : Nat} (h : start < size) : start + blockLen size start ≤ size := by
  unfold blockLen
  omega

/-- A block that does not end the file has the full length. -/
theorem add_blockLen_lt_iff {size start : Nat} (h : start < size) :
    start + blockLen size start < size ↔ start + elaMaxUserDataLen < size := by
  unfold blockLen
  omega

theorem fread_nonneg (bytes : List UInt8) (reader : Reader) (len got : Nat) :
    ¬ (fread bytes reader len got).2 < 0 := by
  simp only [fread]
  split <;> decide

theorem sendLoop_succ (fuel k : Nat) (offset : UInt64) (reader : Reader) :
    sendLoop sent calls notifies (fuel + 1) k offset reader =
      let len := sendLen sent.size offset
      let reader := (fread sent.bytes reader len.toNat (calls.got k)).1
      let block := reader.buf.take len.toNat
      if calls.sent k then
        (if offset + len < sent.size then sendLoop sent calls notifies fuel (k + 1) (offset + len) reader
          else some ⟨[], none⟩).map
          (Sending.after (.send block :: if notifies then [.sent (offset + len) sent.size] else []))
      else some ((Sending.failed .sending).after [.send block]) := by
  rw [sendLoop]
  simp only [if_neg (fread_nonneg _ _ _ _)]

theorem append_isPrefix_iff {l m rest : List UInt8} :
    l ++ m <+: rest ↔ l <+: rest ∧ m <+: rest.drop l.length := by
  constructor
  · rintro ⟨t, rfl⟩
    rw [List.append_assoc, List.drop_left]
    exact ⟨List.prefix_append _ _, List.prefix_append _ _⟩
  · rintro ⟨⟨t, rfl⟩, hm⟩
    rw [List.drop_left] at hm
    exact (List.prefix_append_right_inj l).mpr hm

namespace Sending
variable {r : Sending} {outputs : List SendOutput} {block rest : List UInt8}

theorem blocks_after (h : outputs.filterMap SendOutput.block? = [block]) :
    (r.after outputs).blocks = block :: r.blocks := by
  rw [blocks, after, List.filterMap_append, h]
  rfl

theorem Sized.after (h : outputs.filterMap SendOutput.block? = [block])
    (hblock : 1 ≤ block.length ∧ block.length ≤ elaMaxUserDataLen) (hr : r.Sized) :
    (r.after outputs).Sized := by
  rw [Sized, blocks_after h]
  exact List.forall_mem_cons.mpr ⟨hblock, hr⟩

/-- The first block is the beginning of what is to be sent, and the rest is sent after it. -/
theorem sends_after (h : outputs.filterMap SendOutput.block? = [block])
    (hblock : 1 ≤ block.length ∧ block.length ≤ elaMaxUserDataLen) (hr : r.Sized) :
    SendsRest rest (r.after outputs) ↔ block <+: rest ∧ SendsRest (rest.drop block.length) r := by
  have hblocks : (r.after outputs).blocks = block :: r.blocks := blocks_after h
  constructor
  · intro hs
    have hbegins := hs.begins
    rw [hblocks, List.flatten_cons, append_isPrefix_iff] at hbegins
    refine ⟨hbegins.1, hr, hbegins.2, fun herror => ?_⟩
    have hwhole := hs.whole herror
    rw [hblocks, List.flatten_cons] at hwhole
    rw [← hwhole, List.drop_left]
  · rintro ⟨hbegins, hs⟩
    refine ⟨hr.after h hblock, ?_, fun herror => ?_⟩
    · rw [hblocks, List.flatten_cons, append_isPrefix_iff]
      exact ⟨hbegins, hs.begins⟩
    · rw [hblocks, List.flatten_cons, hs.whole herror]
      exact List.prefix_iff_eq_append.mp hbegins

theorem sized_failed (e : SendError) : (Sending.failed e).Sized := fun _ h => by cases h

theorem sends_failed (e : SendError) : SendsRest rest (Sending.failed e) :=
  ⟨sized_failed e, List.nil_prefix, fun h => by cases h⟩

theorem sends_nothing : SendsRest [] ⟨[], none⟩ := ⟨fun _ h => (by cases h), List.nil_prefix, fun _ => rfl⟩

end Sending

/-! The stream and the buffer. -/

variable {bytes : List UInt8} {reader : Reader} {len got : Nat}

theorem fread_pos (hfit : reader.pos + len ≤ bytes.length) :
    (fread bytes reader len got).1.pos = reader.pos + min got len := by
  simp only [fread, List.length_take, List.length_drop]
  omega

theorem fread_buf (hfit : reader.pos + len ≤ bytes.length) :
    (fread bytes reader len got).1.buf =
      (bytes.drop reader.pos).take (min got len) ++ reader.buf.drop (min got len) := by
  have hlength : ((bytes.drop reader.pos).take (min got len)).length = min got len := by
    rw [List.length_take, List.length_drop]
    omega
  simp only [fread, hlength]

theorem fread_length_buf (hfit : reader.pos + len ≤ bytes.length) (hlen : len ≤ reader.buf.length) :
    (fread bytes reader len got).1.buf.length = reader.buf.length := by
  rw [fread_buf hfit, List.length_append, List.length_take, List.length_drop, List.length_drop]
  omega

theorem drop_min_take (l : List UInt8) (len got : Nat) : (l.take len).drop (min got len) = (l.take len).drop got := by
  rcases Nat.le_total got len with hle | hle
  · rw [Nat.min_eq_left hle]
  · rw [Nat.min_eq_right hle, List.drop_eq_nil_of_le (List.length_take_le _ _),
      List.drop_eq_nil_of_le ((List.length_take_le _ _).trans hle)]

/-- What fread gets stands in the block before what the buffer holds from earlier. -/
theorem fread_block (hfit : reader.pos + len ≤ bytes.length) :
    (fread bytes reader len got).1.buf.take len =
      (bytes.drop reader.pos).take (min got len) ++ (reader.buf.take len).drop got := by
  have hgot : ((bytes.drop reader.pos).take (min got len)).length = min got len := by
    rw [List.length_take, List.length_drop]
    omega
  rw [fread_buf hfit, List.take_append, hgot, List.take_of_length_le (by omega), ← List.drop_take, drop_min_take]

/-- When a round sends the right block. -/
theorem fread_isPrefix_iff {start : Nat} (hpos : reader.pos ≤ start)
    (hbuf : reader.buf.length = elaMaxUserDataLen) (hstart : start < bytes.length) :
    (fread bytes reader (blockLen bytes.length start) got).1.buf.take (blockLen bytes.length start) <+:
      bytes.drop start ↔ reader.Holds bytes start got := by
  have hmax := blockLen_le bytes.length start
  have hfit := add_blockLen_le hstart
  have hlength : ((fread bytes reader (blockLen bytes.length start) got).1.buf.take
      (blockLen bytes.length start)).length = blockLen bytes.length start := by
    rw [List.length_take, fread_length_buf (by omega) (by omega)]
    omega
  have hsplit : (bytes.drop start).take (blockLen bytes.length start) =
      (bytes.drop start).take (min got (blockLen bytes.length start)) ++
        ((bytes.drop start).take (blockLen bytes.length start)).drop got := by
    conv_lhs => rw [← List.take_append_drop (min got (blockLen bytes.length start))
      ((bytes.drop start).take (blockLen bytes.length start))]
    rw [List.take_take, Nat.min_eq_left (Nat.min_le_right _ _), drop_min_take]
  rw [List.prefix_iff_eq_take, hlength, fread_block (by omega), hsplit]
  constructor
  · intro h
    obtain ⟨hnext, hstale⟩ := List.append_inj h (by
      rw [List.length_take, List.length_take, List.length_drop, List.length_drop]
      omega)
    exact ⟨hnext, hstale⟩
  · rintro ⟨hnext, hstale⟩
    rw [hnext, hstale]

namespace SendCalls
variable {start : Nat} {buf : List UInt8} {size i k : Nat}

theorem Reaches.mono (h : calls.Reaches start size i) (hle : k ≤ i) : calls.Reaches start size k :=
  ⟨Nat.lt_of_le_of_lt (Nat.add_le_add_left (Nat.mul_le_mul_right _ hle) _) h.1,
    fun j hj => h.2 j (Nat.lt_of_lt_of_le hj hle)⟩

theorem Reaches.succ (h : calls.Reaches start size k) (hsent : calls.sent k = true)
    (hlt : start + (k + 1) * elaMaxUserDataLen < size) : calls.Reaches start size (k + 1) :=
  ⟨hlt, fun j hj => (Nat.lt_succ_iff_lt_or_eq.mp hj).elim (h.2 j) fun heq => heq ▸ hsent⟩

/-- A block before the last one has the full length. -/
theorem Reaches.blockLen_eq (h : calls.Reaches start size (k + 1)) :
    blockLen size (start + k * elaMaxUserDataLen) = elaMaxUserDataLen := by
  have := h.1
  unfold blockLen
  rw [Nat.succ_mul] at this
  omega

/-- The stream is never beyond the place of the block. -/
theorem Reaches.readerAt_bounded (hbuf : buf.length = elaMaxUserDataLen)
    (h : calls.Reaches start bytes.length i) :
    (calls.readerAt start buf bytes i).pos ≤ start + i * elaMaxUserDataLen ∧
      (calls.readerAt start buf bytes i).buf.length = elaMaxUserDataLen := by
  induction i with
  | zero => exact ⟨Nat.le_add_right _ _, hbuf⟩
  | succ i ih =>
    obtain ⟨hpos, hlength⟩ := ih (h.mono (Nat.le_succ i))
    have hlen := h.blockLen_eq
    have hlt := h.1
    rw [Nat.succ_mul] at hlt
    rw [readerAt, hlen]
    have hfit : (calls.readerAt start buf bytes i).pos + elaMaxUserDataLen ≤ bytes.length := by omega
    rw [fread_pos hfit, fread_length_buf hfit (Nat.le_of_eq hlength.symm), Nat.succ_mul]
    exact ⟨by omega, hlength⟩

/-- The block that round i sends. -/
def blockAt (calls : SendCalls) (start : Nat) (buf bytes : List UInt8) (i : Nat) : List UInt8 :=
  (calls.readerAt start buf bytes (i + 1)).buf.take (blockLen bytes.length (start + i * elaMaxUserDataLen))

theorem Reaches.length_blockAt (hbuf : buf.length = elaMaxUserDataLen)
    (h : calls.Reaches start bytes.length i) :
    (calls.blockAt start buf bytes i).length =
      blockLen bytes.length (start + i * elaMaxUserDataLen) := by
  obtain ⟨hpos, hlength⟩ := h.readerAt_bounded hbuf
  have hfit := add_blockLen_le h.1
  have hmax := blockLen_le bytes.length (start + i * elaMaxUserDataLen)
  rw [blockAt, readerAt, List.length_take, fread_length_buf (by omega) (hlength ▸ hmax), hlength,
    Nat.min_eq_left hmax]

theorem Reaches.blockAt_isPrefix_iff (hbuf : buf.length = elaMaxUserDataLen)
    (h : calls.Reaches start bytes.length i) :
    calls.blockAt start buf bytes i <+: bytes.drop (start + i * elaMaxUserDataLen) ↔
      (calls.readerAt start buf bytes i).Holds bytes (start + i * elaMaxUserDataLen) (calls.got i) :=
  let ⟨hpos, hlength⟩ := h.readerAt_bounded hbuf
  fread_isPrefix_iff hpos hlength h.1

/-- The rounds from k on that the loop comes to read the right bytes. -/
def RightFrom (calls : SendCalls) (start : Nat) (buf bytes : List UInt8) (k : Nat) : Prop :=
  ∀ i, k ≤ i → calls.Reaches start bytes.length i →
    (calls.readerAt start buf bytes i).Holds bytes (start + i * elaMaxUserDataLen) (calls.got i)

theorem rightFrom_zero_iff : calls.RightFrom start buf bytes 0 ↔ calls.ReadsRight start buf bytes :=
  ⟨fun h i => h i (Nat.zero_le i), fun h i _ => h i⟩

theorem Reaches.rightFrom_iff (hbuf : buf.length = elaMaxUserDataLen)
    (h : calls.Reaches start bytes.length k) : calls.RightFrom start buf bytes k ↔
      calls.blockAt start buf bytes k <+: bytes.drop (start + k * elaMaxUserDataLen) ∧
        calls.RightFrom start buf bytes (k + 1) := by
  rw [h.blockAt_isPrefix_iff hbuf]
  constructor
  · exact fun hall => ⟨hall k (Nat.le_refl k) h, fun i hi => hall i (Nat.le_of_succ_le hi)⟩
  · rintro ⟨hk, hlater⟩ i hi hreach
    rcases Nat.eq_or_lt_of_le hi with rfl | hlt
    · exact hk
    · exact hlater i hlt hreach

/-- There is no round after one that is the last. -/
theorem rightFrom_of_not_reaches (h : ¬ calls.Reaches start bytes.length k) :
    calls.RightFrom start buf bytes k :=
  fun _ hi hreach => absurd (hreach.mono hi) h

end SendCalls

open SendCalls

variable {start : Nat} {buf : List UInt8}

theorem toNat_add_sendLen {offset : UInt64} (h : offset < sent.size) :
    (offset + sendLen sent.size offset).toNat =
      offset.toNat + blockLen sent.bytes.length offset.toNat := by
  have hfits := sent.fits
  have hend := add_blockLen_le (SentFile.lt_size_iff.mp h)
  rw [UInt64.toNat_add, toNat_sendLen h]
  omega

/-- A round that the loop comes to, in terms of its number. -/
theorem sendLoop_round {fuel k : Nat} {offset : UInt64} (hoffset : offset.toNat = start + k * elaMaxUserDataLen)
    (hreach : calls.Reaches start sent.bytes.length k) :
    sendLoop sent calls notifies (fuel + 1) k offset (calls.readerAt start buf sent.bytes k) =
      let offset := offset + sendLen sent.size offset
      if calls.sent k then
        (if start + (k + 1) * elaMaxUserDataLen < sent.bytes.length then
          sendLoop sent calls notifies fuel (k + 1) offset (calls.readerAt start buf sent.bytes (k + 1))
        else some ⟨[], none⟩).map (Sending.after
          (.send (calls.blockAt start buf sent.bytes k) :: if notifies then [.sent offset sent.size] else []))
      else some ((Sending.failed .sending).after [.send (calls.blockAt start buf sent.bytes k)]) := by
  have hlt : offset < sent.size := SentFile.lt_size_iff.mpr (hoffset ▸ hreach.1)
  have hmore : offset + sendLen sent.size offset < sent.size ↔
      start + (k + 1) * elaMaxUserDataLen < sent.bytes.length := by
    rw [SentFile.lt_size_iff, toNat_add_sendLen hlt, hoffset, add_blockLen_lt_iff hreach.1, Nat.succ_mul,
      Nat.add_assoc]
  simp only [sendLoop_succ, toNat_sendLen hlt, hoffset, hmore]
  rfl

/-- A round sends its block, and the rounds after it what they send. -/
theorem sends_round (hbuf : buf.length = elaMaxUserDataLen) {k : Nat} {offset : UInt64}
    (hoffset : offset.toNat = start + k * elaMaxUserDataLen)
    (hreach : calls.Reaches start sent.bytes.length k) {outputs : List SendOutput} {r : Sending}
    (hout : outputs.filterMap SendOutput.block? = [calls.blockAt start buf sent.bytes k]) (hr : r.Sized)
    (hlater : SendsRest (sent.bytes.drop (offset + sendLen sent.size offset).toNat) r ↔
      calls.RightFrom start buf sent.bytes (k + 1)) :
    (r.after outputs).Sized ∧ (SendsRest (sent.bytes.drop offset.toNat) (r.after outputs) ↔
      calls.RightFrom start buf sent.bytes k) := by
  have hlength := hreach.length_blockAt hbuf
  have hlt : offset < sent.size := SentFile.lt_size_iff.mpr (hoffset ▸ hreach.1)
  have hsize : 1 ≤ (calls.blockAt start buf sent.bytes k).length ∧
      (calls.blockAt start buf sent.bytes k).length ≤ elaMaxUserDataLen := by
    rw [hlength]
    exact ⟨blockLen_pos hreach.1, blockLen_le _ _⟩
  refine ⟨hr.after hout hsize, ?_⟩
  rw [toNat_add_sendLen hlt, hoffset, ← hlength, ← List.drop_drop] at hlater
  rw [hoffset, Sending.sends_after hout hsize hr, hlater, hreach.rightFrom_iff hbuf]

/-- A loop that comes to round k ends, and sends what it should where the rounds from k on read the
right bytes. -/
theorem sendLoop_spec (hbuf : buf.length = elaMaxUserDataLen) {fuel k : Nat} {offset : UInt64}
    (hoffset : offset.toNat = start + k * elaMaxUserDataLen)
    (hreach : calls.Reaches start sent.bytes.length k) (hfuel : sent.bytes.length ≤ offset.toNat + fuel) :
    ∃ r, sendLoop sent calls notifies fuel k offset (calls.readerAt start buf sent.bytes k) = some r ∧
      r.Sized ∧ (SendsRest (sent.bytes.drop offset.toNat) r ↔ calls.RightFrom start buf sent.bytes k) := by
  induction fuel generalizing k offset with
  | zero =>
    have := hreach.1
    omega
  | succ fuel ih =>
    have hlt : offset < sent.size := SentFile.lt_size_iff.mpr (hoffset ▸ hreach.1)
    have hoffset' := toNat_add_sendLen hlt
    rw [sendLoop_round hoffset hreach]
    cases hsent : calls.sent k with
    | false =>
      have hlast : ¬ calls.Reaches start sent.bytes.length (k + 1) := fun h => by
        have := h.2 k (Nat.lt_succ_self k)
        rw [hsent] at this
        cases this
      exact ⟨_, rfl, sends_round hbuf hoffset hreach rfl (Sending.sized_failed _)
        (iff_of_true (Sending.sends_failed _) (rightFrom_of_not_reaches hlast))⟩
    | true =>
      have hout : ((.send (calls.blockAt start buf sent.bytes k) : SendOutput) ::
          if notifies then [.sent (offset + sendLen sent.size offset) sent.size] else []).filterMap
            SendOutput.block? = [calls.blockAt start buf sent.bytes k] := by
        cases notifies <;> rfl
      by_cases hmore : start + (k + 1) * elaMaxUserDataLen < sent.bytes.length
      · have hreach' := hreach.succ hsent hmore
        have hfull := hreach'.blockLen_eq
        rw [hoffset, hfull, Nat.add_assoc, ← Nat.succ_mul] at hoffset'
        obtain ⟨r, hr, hsized, hsends⟩ := ih hoffset' hreach' (by
          rw [Nat.succ_mul] at hmore hoffset'
          have : 1 ≤ elaMaxUserDataLen := by decide
          omega)
        simp only [if_true, if_pos hmore, hr]
        exact ⟨_, rfl, sends_round hbuf hoffset hreach hout hsized hsends⟩
      · have hend : sent.bytes.drop (offset + sendLen sent.size offset).toNat = [] := by
          have hstart := hreach.1
          refine List.drop_eq_nil_of_le ?_
          rw [hoffset', hoffset]
          refine Nat.le_of_not_lt fun h => hmore ?_
          rw [add_blockLen_lt_iff hstart] at h
          rwa [Nat.succ_mul, ← Nat.add_assoc]
        have hlast : ¬ calls.Reaches start sent.bytes.length (k + 1) := fun h => hmore h.1
        simp only [if_true, if_neg hmore]
        refine ⟨_, rfl, sends_round hbuf hoffset hreach hout Sending.sends_nothing.sized ?_⟩
        rw [hend]
        exact iff_of_true Sending.sends_nothing (rightFrom_of_not_reaches hlast)

/-! A file that shows that a block was not read whole. -/

namespace SendCalls
variable {size i : Nat}

theorem Reaches.readerAt_pos (h : calls.Reaches start bytes.length i)
    (hwhole : ∀ j < i, blockLen bytes.length (start + j * elaMaxUserDataLen) ≤ calls.got j) :
    (calls.readerAt start buf bytes i).pos = start + i * elaMaxUserDataLen := by
  induction i with
  | zero => simp [readerAt]
  | succ i ih =>
    have hpos := ih (h.mono (Nat.le_succ i)) fun j hj => hwhole j (Nat.lt_succ_of_lt hj)
    have hgot := hwhole i (Nat.lt_succ_self i)
    have hlt := h.1
    rw [Nat.succ_mul] at hlt
    rw [h.blockLen_eq] at hgot
    rw [readerAt, h.blockLen_eq, fread_pos (by omega), hpos, Nat.min_eq_right hgot, Nat.succ_mul, Nat.add_assoc]

theorem ReadsWhole.right (h : calls.ReadsWhole start bytes.length) : calls.ReadsRight start buf bytes := by
  intro i hreach
  have hgot := h i hreach
  have hpos : (calls.readerAt start buf bytes i).pos = start + i * elaMaxUserDataLen :=
    hreach.readerAt_pos fun j hj => h j (hreach.mono (Nat.le_of_lt hj))
  constructor
  · rw [hpos]
  · rw [List.drop_eq_nil_of_le ((List.length_take_le _ _).trans hgot),
      List.drop_eq_nil_of_le ((List.length_take_le _ _).trans hgot)]

end SendCalls

/-- A file of zeros but for the byte at m. -/
def spike (size m : Nat) : List UInt8 := (List.replicate size 0).set m 1

@[simp] theorem length_spike (size m : Nat) : (spike size m).length = size := by simp [spike]

theorem eq_zero_of_mem_take_spike {size m : Nat} {b : UInt8} (h : b ∈ (spike size m).take m) : b = 0 := by
  rw [spike, List.take_set_of_le (Nat.le_refl m)] at h
  exact List.eq_of_mem_replicate (List.mem_of_mem_take h)

theorem one_mem_spike {size start len got : Nat} (hgot : got < len) (hfit : start + got < size) :
    1 ∈ (((spike size (start + got)).drop start).take len).drop got := by
  refine List.mem_of_getElem? (i := 0) ?_
  rw [List.getElem?_drop, List.getElem?_take, Nat.add_zero, if_pos hgot, List.getElem?_drop, spike,
    List.getElem?_set_self (by rwa [List.length_replicate])]

/-- While each fread reads its block, only zeros are in the buffer. -/
theorem SendCalls.Reaches.zeros {size m i : Nat} (h : calls.Reaches start size i)
    (hwhole : ∀ j < i, blockLen size (start + j * elaMaxUserDataLen) ≤ calls.got j)
    (hm : start + i * elaMaxUserDataLen ≤ m) :
    ∀ b ∈ (calls.readerAt start (List.replicate elaMaxUserDataLen 0) (spike size m) i).buf, b = 0 := by
  induction i with
  | zero => exact fun b hb => List.eq_of_mem_replicate hb
  | succ i ih =>
    have hspike : calls.Reaches start (spike size m).length (i + 1) := by rwa [length_spike]
    have hearlier : ∀ j < i, blockLen (spike size m).length (start + j * elaMaxUserDataLen) ≤ calls.got j := by
      rw [length_spike]
      exact fun j hj => hwhole j (Nat.lt_succ_of_lt hj)
    have hpos : (calls.readerAt start (List.replicate elaMaxUserDataLen 0) (spike size m) i).pos =
        start + i * elaMaxUserDataLen := (hspike.mono (Nat.le_succ i)).readerAt_pos hearlier
    have hlt := hspike.1
    rw [Nat.succ_mul] at hlt hm
    intro b hb
    rw [readerAt, hspike.blockLen_eq, fread_buf (by omega), List.mem_append, hpos, List.take_drop] at hb
    rcases hb with hb | hb
    · exact eq_zero_of_mem_take_spike (List.take_subset_take_left _ (by omega) (List.mem_of_mem_drop hb))
    · exact ih (h.mono (Nat.le_succ i)) (fun j hj => hwhole j (Nat.lt_succ_of_lt hj)) (by omega) b
        (List.mem_of_mem_drop hb)

/-- Where a block is not read whole, the bytes of some file are not sent. -/
theorem SendCalls.readsWhole_of_right {size : Nat}
    (h : ∀ bytes : List UInt8, bytes.length = size →
      calls.ReadsRight start (List.replicate elaMaxUserDataLen 0) bytes) : calls.ReadsWhole start size := by
  intro i
  induction i using Nat.strong_induction_on with
  | h i ih =>
    intro hreach
    refine Nat.le_of_not_lt fun hgot => ?_
    have hwhole : ∀ j < i, blockLen size (start + j * elaMaxUserDataLen) ≤ calls.got j :=
      fun j hj => ih j hj (hreach.mono (Nat.le_of_lt hj))
    have hfit := add_blockLen_le hreach.1
    have hbytes : (spike size (start + i * elaMaxUserDataLen + calls.got i)).length = size := length_spike _ _
    have hstale := (h _ hbytes i (hbytes.symm ▸ hreach)).stale
    have hone := one_mem_spike hgot (Nat.lt_of_lt_of_le (Nat.add_lt_add_left hgot _) hfit)
    rw [hbytes] at hstale
    rw [← hstale] at hone
    exact absurd (hreach.zeros hwhole (Nat.le_add_right _ _) 1
      (List.mem_of_mem_take (List.mem_of_mem_drop hone))) (by decide)

theorem sendingFileRoutine_spec {offset : UInt64} (h : offset < sent.size) (hbuf : buf.length = elaMaxUserDataLen) :
    ∃ r, sendingFileRoutine sent calls notifies offset buf = some r ∧ r.Sized ∧
      (SendsRest (sent.bytes.drop offset.toNat) r ↔
        (calls.seeked = true → calls.ReadsRight offset.toNat buf sent.bytes)) := by
  unfold sendingFileRoutine
  cases hseeked : calls.seeked with
  | false => exact ⟨_, rfl, Sending.sized_failed _, iff_of_true (Sending.sends_failed _) fun h => by cases h⟩
  | true =>
    have hlt := SentFile.lt_size_iff.mp h
    have hreach : calls.Reaches offset.toNat sent.bytes.length 0 := ⟨by omega, fun j hj => by omega⟩
    obtain ⟨r, hr, hsized, hsends⟩ := sendLoop_spec hbuf (by omega) hreach
      (show sent.bytes.length ≤ offset.toNat + (sent.size.toNat - offset.toNat) by
        rw [sent.toNat_size]
        omega)
    refine ⟨r, hr, hsized, ?_⟩
    rw [hsends, rightFrom_zero_iff]
    simp

/-- The callback returns for every pull, and what it sends are blocks that the other side takes. -/
theorem notifyPullCb_sized (offset : UInt64) (created : Bool) (hbuf : buf.length = elaMaxUserDataLen) :
    ∃ r, notifyPullCb sent calls notifies offset created buf = some r ∧ r.Sized := by
  unfold notifyPullCb
  split
  · exact ⟨_, rfl, Sending.sized_failed _⟩
  next hlt =>
    cases created with
    | false => exact ⟨_, rfl, Sending.sends_nothing.sized⟩
    | true =>
      obtain ⟨r, hr, hsized, -⟩ := sendingFileRoutine_spec (UInt64.not_le.mp hlt) hbuf
      exact ⟨r, hr, hsized⟩

variable (sent calls notifies)

/-- A pull from an offset in the file ends. The rest of the file is sent exactly where each fread
leaves its block in the buffer, and for every content of the file and of the buffer exactly
where it gets its whole block: nothing else is seen of a read that falls short. -/
theorem file_sent_iff {offset : UInt64} (h : offset < sent.size) :
    (∀ buf : Vector UInt8 elaMaxUserDataLen,
      ∃ r, sendingFileRoutine sent calls notifies offset buf.toList = some r ∧ r.Sized ∧
        (SendsRest (sent.bytes.drop offset.toNat) r ↔
          (calls.seeked = true → calls.ReadsRight offset.toNat buf.toList sent.bytes))) ∧
    ((∀ other : SentFile, other.size = sent.size → ∀ buf : Vector UInt8 elaMaxUserDataLen,
      ∃ r, sendingFileRoutine other calls notifies offset buf.toList = some r ∧
        SendsRest (other.bytes.drop offset.toNat) r) ↔
      (calls.seeked = true → calls.ReadsWhole offset.toNat sent.bytes.length)) := by
  refine ⟨fun buf => sendingFileRoutine_spec h buf.length_toList, ?_, ?_⟩
  · intro hall hseeked
    refine readsWhole_of_right fun bytes hbytes => ?_
    have hother : (⟨bytes, hbytes ▸ sent.fits⟩ : SentFile).size = sent.size := by
      simp only [SentFile.size, hbytes]
    obtain ⟨r, hr, hsends⟩ := hall _ hother (Vector.replicate _ 0)
    obtain ⟨r', hr', -, hiff⟩ := sendingFileRoutine_spec (hother ▸ h) (Vector.replicate _ 0).length_toList
    rw [hr] at hr'
    cases hr'
    simpa using hiff.mp hsends hseeked
  · intro hwhole other hother buf
    obtain ⟨r, hr, -, hiff⟩ := sendingFileRoutine_spec (hother ▸ h) buf.length_toList
    have hlength : other.bytes.length = sent.bytes.length := by
      rw [← other.toNat_size, hother, sent.toNat_size]
    exact ⟨r, hr, hiff.mpr fun hseeked => (hlength ▸ hwhole hseeked : calls.ReadsWhole _ _).right⟩

/-- The last two bytes of three, all of which are read. -/
theorem file_sent_three : ∃ r, sendingFileRoutine threeBytes ⟨true, fun _ => 2, fun _ => true⟩ false 1
    (Vector.replicate elaMaxUserDataLen 0).toList = some r ∧ SendsRest [2, 3] r :=
  (file_sent_iff threeBytes ⟨true, fun _ => 2, fun _ => true⟩ false (show 1 < threeBytes.size by decide)).2.mpr
    (fun _ i _ => (Nat.min_le_left _ _).trans (show 3 - (1 + i * elaMaxUserDataLen) ≤ 2 by omega))
    threeBytes rfl _

/-- Of three bytes fread gets two. A byte of the buffer is sent as the third, and no error is seen. -/
theorem file_sent_stale : ∃ r, sendingFileRoutine threeBytes ⟨true, fun _ => 2, fun _ => true⟩ false 0
      (Vector.replicate elaMaxUserDataLen 0).toList = some r ∧
    r = ⟨[.send [1, 2, 0]], none⟩ ∧ ¬ SendsRest threeBytes.bytes r := by
  refine ⟨⟨[.send [1, 2, 0]], none⟩, by decide +kernel, rfl, fun h => ?_⟩
  have := h.whole rfl
  revert this
  decide

end CarrierSdk.FileTransfer
