import CarrierSdk.PseudoTcp.Process

/-! What a peer reads is what was written: segments, connect options, and the numbers of sequences and times as the
positions and differences that they stand for. -/
namespace CarrierSdk

section Serial
variable {p q : Nat}

theorem larger_ofNat (h : p < q + 2 ^ 31) (h' : q ≤ p + 2 ^ 31) :
    larger (UInt32.ofNat p) (UInt32.ofNat q) = decide (q < p) := by
  have hd := UInt32.toNat_ofNat_sub p (q + 1)
  have hsub : UInt32.ofNat p - UInt32.ofNat q - 1 = UInt32.ofNat p - UInt32.ofNat (q + 1) := by
    rw [UInt32.ofNat_succ, sub_add_eq_sub_sub]
  have hmax : (0x7FFFFFFF : UInt32).toNat = 2147483647 := rfl
  rw [larger, hsub, decide_eq_decide, UInt32.lt_iff_toNat_lt, hmax]
  omega

theorem largerOrEqual_ofNat (h : p + 1 < q + 2 ^ 31) (h' : q ≤ p + 2 ^ 31) :
    largerOrEqual (UInt32.ofNat p) (UInt32.ofNat q) = decide (q ≤ p) := by
  have hd := UInt32.toNat_ofNat_sub p q
  have hmax : (0x7FFFFFFF : UInt32).toNat = 2147483647 := rfl
  rw [largerOrEqual, decide_eq_decide, UInt32.lt_iff_toNat_lt, hmax]
  omega

theorem smaller_ofNat (h : q < p + 2 ^ 31) (h' : p ≤ q + 2 ^ 31) :
    smaller (UInt32.ofNat p) (UInt32.ofNat q) = decide (p < q) := larger_ofNat h h'

theorem smallerOrEqual_ofNat (h : q + 1 < p + 2 ^ 31) (h' : p ≤ q + 2 ^ 31) :
    smallerOrEqual (UInt32.ofNat p) (UInt32.ofNat q) = decide (p ≤ q) := largerOrEqual_ofNat h h'

end Serial

theorem toInt_toInt32 (a : UInt32) : a.toInt32.toInt = (a.toNat : Int).bmod (2 ^ 32) :=
  BitVec.toInt_eq_toNat_bmod a.toBitVec

theorem bmod_neg_sub (a b : UInt32) : (-((b - a).toNat : Int)).bmod (2 ^ 32) = ((a - b).toNat : Int).bmod (2 ^ 32) := by
  have hba : (b - a).toNat = (2 ^ 32 - a.toNat + b.toNat) % 2 ^ 32 := UInt32.toNat_sub ..
  have hab : (a - b).toNat = (2 ^ 32 - b.toNat + a.toNat) % 2 ^ 32 := UInt32.toNat_sub ..
  have ha := a.toNat_lt
  have hb := b.toNat_lt
  have hsame : (-((b - a).toNat : Int)) % (2 ^ 32 : Nat) = ((a - b).toNat : Int) % (2 ^ 32 : Nat) := by omega
  rw [← Int.emod_bmod, hsame]
  exact Int.emod_bmod ..

theorem add_complement (a b : UInt32) : a + (0xFFFFFFFF - b) + 1 = a - b := by
  have h : (0xFFFFFFFF : UInt32) + 1 = 0 := rfl
  rw [add_assoc, sub_add_eq_add_sub, h, zero_sub, sub_eq_add_neg]

/-- The time that time_diff computes is the signed difference around the end, whichever of its branches it takes. -/
theorem timeDiff_eq (later earlier : UInt32) : timeDiff later earlier = (later - earlier).toInt32.toInt := by
  rw [timeDiff, Int32.toInt_ofInt, toInt_toInt32, add_complement, add_complement]
  split_ifs
  · rfl
  · rfl
  · exact bmod_neg_sub later earlier
  · exact bmod_neg_sub later earlier

namespace PseudoTcpSocket

section Header
open Bytes

theorem field_bigEndian {n width : Nat} (rest : List UInt8) (hn : n < 256 ^ width) :
    field (bigEndian width n ++ rest) 0 width = n := by
  rw [field, List.drop_zero, List.take_left' (length_bigEndian width n), number_bigEndian, Nat.mod_eq_of_lt hn]

theorem field_skip {first rest : List UInt8} {at_ width : Nat} (h : first.length ≤ at_) :
    field (first ++ rest) at_ width = field rest (at_ - first.length) width := by
  rw [field, field, List.drop_append, List.drop_of_length_le h, List.nil_append]

@[simp] theorem length_packetHeader (seg : Segment) : (packetHeader seg).length = headerSize := by
  simp [packetHeader, headerSize]

theorem parseSegment_packetHeader (seg : Segment) : parseSegment (packetHeader seg) seg.data = seg := by
  have hword (w : UInt32) : w.toNat < 256 ^ 4 := w.toNat_lt
  have hhalf (w : UInt16) : w.toNat < 256 ^ 2 := w.toNat_lt
  have hconv : field (packetHeader seg) 0 4 = seg.conv.toNat := field_bigEndian _ (hword _)
  have hseq : field (packetHeader seg) 4 4 = seg.seq.toNat := by
    rw [packetHeader, field_skip (by simp)]
    exact field_bigEndian _ (hword _)
  have hack : field (packetHeader seg) 8 4 = seg.ack.toNat := by
    rw [packetHeader, field_skip (by simp), field_skip (by simp)]
    exact field_bigEndian _ (hword _)
  have hflags : (packetHeader seg).getD 13 0 = seg.flags := rfl
  have hwnd : field (packetHeader seg) 14 2 = seg.wnd.toNat := by
    rw [packetHeader, field_skip (by simp), field_skip (by simp), field_skip (by simp), field_skip (by simp)]
    exact field_bigEndian _ (hhalf _)
  have htsval : field (packetHeader seg) 16 4 = seg.tsval.toNat := by
    rw [packetHeader, field_skip (by simp), field_skip (by simp), field_skip (by simp), field_skip (by simp),
      field_skip (by simp)]
    exact field_bigEndian _ (hword _)
  have htsecr : field (packetHeader seg) 20 4 = seg.tsecr.toNat := by
    rw [packetHeader, field_skip (by simp), field_skip (by simp), field_skip (by simp), field_skip (by simp),
      field_skip (by simp), field_skip (by simp), ← List.append_nil (bigEndian 4 seg.tsecr.toNat)]
    exact field_bigEndian _ (hword _)
  rw [parseSegment, hconv, hseq, hack, hflags, hwnd, htsval, htsecr]
  simp only [UInt32.ofNat_toNat, UInt16.ofNat_toNat]

/-- A packet is read back as the segment that it was written for. -/
theorem parseSegment_packetBytes (seg : Segment) :
    parseSegment ((packetBytes seg).take headerSize) ((packetBytes seg).drop headerSize) = seg := by
  have hlen := length_packetHeader seg
  rw [packetBytes, List.take_left' hlen, List.drop_left' hlen, parseSegment_packetHeader]

/-- What notify_packet does with a packet of a peer. -/
theorem notifyPacket_packetBytes {env : PseudoTcpEnv} {s : PseudoTcpSocket} {seg : Segment}
    (h : headerSize + seg.data.length ≤ maxPacket) : notifyPacket env s (packetBytes seg) = process env s seg := by
  have hlen : (packetBytes seg).length = headerSize + seg.data.length := by
    rw [packetBytes, List.length_append, length_packetHeader]
  rw [notifyPacket, if_neg (by omega), if_neg (by omega), parseSegment_packetBytes]

end Header

/-- What a connect message announces is what its sender supports. -/
theorem readOptions_connectMessage (s : PseudoTcpSocket) :
    readOptions s.connectMessage.tail.length s.connectMessage.tail ⟨none, false, false⟩ =
      (⟨if s.supportWndScale then some s.rcv.rwndScale else none, s.supportWndScale, s.supportFinAck⟩, true) := by
  cases hw : s.supportWndScale <;> cases hf : s.supportFinAck <;>
    simp [connectMessage, hw, hf, readOptions, tcpOptEol, tcpOptNoop, tcpOptWndScale, tcpOptFinAck]

theorem connectMessage_eq_cons (s : PseudoTcpSocket) : s.connectMessage = ctlConnect :: s.connectMessage.tail := rfl

/-- The connect message of a peer that scales its window: its scale is taken over, and FIN-ACK stays in use where
both support it. -/
theorem parseOptions_connectMessage (s peer : PseudoTcpSocket) (h : peer.supportWndScale = true) :
    s.parseOptions peer.connectMessage.tail = some { s with
      snd.swndScale := peer.rcv.rwndScale
      supportFinAck := peer.supportFinAck } := by
  rw [parseOptions, readOptions_connectMessage]
  cases hf : peer.supportFinAck <;> simp [h, revertScale]

end PseudoTcpSocket
end CarrierSdk
