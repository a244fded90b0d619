import CarrierSdk.Library.Reassembly
import CarrierSdk.PseudoTcp.Calls

/-! The receive queue as a window on the stream of the peer: what has been handed to the application and what the
receive buffer holds is the front of the stream, and the segments of rlist show in the room behind it. -/
namespace CarrierSdk
open Reassembly
namespace Incoming

/-- A segment of rlist waits at its position. -/
structure Waits (stream : List UInt8) (taken : Nat) (room : List UInt8) (pos : Nat) (x : RSegment) : Prop where
  seq : x.seq = UInt32.ofNat pos
  within : pos + x.len ≤ stream.length
  fits : pos + x.len ≤ taken + room.length
  reveals : Reveals room stream taken pos (pos + x.len)

/-- The incoming data stands for what the ledger of the peer says. -/
structure Receives (p : Ledger) (delivered : List UInt8) (taken : Nat) (r : Incoming) : Prop where
  valid : r.rbuf.Valid
  small : r.rbuf.bufferLength ≤ maxWindow
  scale : r.rwndScale = 0
  nxt : r.rcvNxt = UInt32.ofNat taken
  octets : delivered ++ r.rbuf.contents = (p.stream.take taken).drop p.control
  bound : taken ≤ p.stream.length + if p.finished then 1 else 0
  waiting : Ascending (Waits p.stream taken r.rbuf.ahead) (taken + 1) r.rlist
  quiet : taken < p.control → r.rlist = []
  fin : r.rcvFin = 0 ∨ p.finished = true ∧ r.rcvFin = UInt32.ofNat p.stream.length

/-- Data of the peer at a position of its stream, or none. -/
def Piece (stream : List UInt8) (seq : UInt32) (data : List UInt8) (pos : Nat) : Prop :=
  seq = UInt32.ofNat pos ∧ pos + data.length ≤ stream.length ∧ data = (stream.drop pos).take data.length

theorem Piece.drop {stream data : List UInt8} {seq : UInt32} {pos n : Nat} (h : Piece stream seq data pos)
    (hn : n ≤ data.length) : Piece stream (seq + UInt32.ofNat n) (data.drop n) (pos + n) := by
  obtain ⟨hseq, hend, hdata⟩ := h
  refine ⟨UInt32.add_ofNat_of_eq hseq n, ?_, ?_⟩
  · rw [List.length_drop]
    omega
  · rw [List.length_drop, hdata, List.drop_take, List.drop_drop, ← hdata]

theorem Piece.take {stream data : List UInt8} {seq : UInt32} {pos : Nat} (h : Piece stream seq data pos) (n : Nat) :
    Piece stream seq (data.take n) pos := by
  obtain ⟨hseq, hend, hdata⟩ := h
  refine ⟨hseq, ?_, ?_⟩
  · rw [List.length_take]
    omega
  · rw [List.length_take, hdata, List.take_take, ← hdata]

/-- Taking data moves the room. -/
theorem Waits.advance {stream room : List UInt8} {taken pos n : Nat} {x : RSegment} (h : Waits stream taken room pos x)
    (hn : n ≤ room.length) : Waits stream (taken + n) (room.drop n) pos x where
  seq := h.seq
  within := h.within
  fits := by
    have hfits := h.fits
    rw [List.length_drop]
    omega
  reveals := h.reveals.advance n

variable {p : Ledger} {stream delivered : List UInt8} {taken pos : Nat} {r r' : Incoming} {seq : UInt32} {data : List UInt8}

/-- What is left of a segment: a piece behind what has been taken, within the room. -/
structure Adjusted (stream : List UInt8) (taken : Nat) (r : Incoming) (seq : UInt32) (data : List UInt8)
    (pos end_ : Nat) : Prop where
  piece : Piece stream seq data pos
  new : taken ≤ pos
  fits : pos + data.length ≤ taken + r.rbuf.getWriteRemaining
  within : pos + data.length ≤ end_

/-- The front of a segment that is known is cut off. -/
def behind (r : Incoming) (seq : UInt32) (data : List UInt8) : UInt32 × List UInt8 :=
  if smaller seq r.rcvNxt then
    let nAdjust := r.rcvNxt - seq
    if nAdjust.toNat < data.length then (seq + nAdjust, data.drop nAdjust.toNat) else (seq, [])
  else (seq, data)

/-- The end of a segment for which there is no room is cut off. -/
def withinRoom (r : Incoming) (seq : UInt32) (data : List UInt8) : UInt32 × List UInt8 :=
  let beyond := (seq + UInt32.ofNat data.length - r.rcvNxt).toNat
  let availableSpace := r.rbuf.getWriteRemaining
  if availableSpace < beyond then
    let nAdjust := beyond - availableSpace
    if nAdjust < data.length then (seq, data.take (data.length - nAdjust)) else (seq, [])
  else (seq, data)

theorem adjust_eq (r : Incoming) (seq : UInt32) (data : List UInt8) :
    r.adjust seq data = r.withinRoom (r.behind seq data).1 (r.behind seq data).2 := rfl

theorem behind_spec (hpiece : Piece stream seq data pos) (hnxt : r.rcvNxt = UInt32.ofNat taken)
    (hnew : pos < taken + 2 ^ 31) (hold : taken < pos + 2 ^ 31) :
    (r.behind seq data).2 = [] ∨ ∃ pos', taken ≤ pos' ∧ pos' < taken + 2 ^ 31 ∧
      Piece stream (r.behind seq data).1 (r.behind seq data).2 pos' ∧
      pos' + (r.behind seq data).2.length ≤ pos + data.length := by
  rw [behind, hnxt, hpiece.1, smaller_ofNat hold hnew.le]
  split_ifs with hlt
  · have hlt := of_decide_eq_true hlt
    dsimp only
    have hadjust : (UInt32.ofNat taken - UInt32.ofNat pos).toNat = taken - pos :=
      UInt32.toNat_ofNat_sub_of_le hlt.le (by omega)
    rw [hadjust, UInt32.ofNat_sub_eq hlt.le, ← hpiece.1]
    split_ifs with hsome
    · have hdrop := hpiece.drop hsome.le
      rw [Nat.add_sub_cancel' hlt.le] at hdrop
      refine .inr ⟨taken, Nat.le_refl _, by omega, hdrop, ?_⟩
      rw [List.length_drop]
      omega
    · exact .inl rfl
  · have hge := of_decide_eq_false (Bool.not_eq_true _ |>.mp hlt)
    exact .inr ⟨pos, by omega, hnew, hpiece.1 ▸ hpiece, Nat.le_refl _⟩

theorem withinRoom_spec (hpiece : Piece stream seq data pos) (hnxt : r.rcvNxt = UInt32.ofNat taken)
    (hge : taken ≤ pos) (hend : pos + data.length < taken + 2 ^ 32) :
    (r.withinRoom seq data).2 = [] ∨ Adjusted stream taken r (r.withinRoom seq data).1 (r.withinRoom seq data).2 pos
      (pos + data.length) := by
  have hbeyond : (seq + UInt32.ofNat data.length - r.rcvNxt).toNat = pos + data.length - taken := by
    rw [hnxt, UInt32.add_ofNat_of_eq hpiece.1]
    exact UInt32.toNat_ofNat_sub_of_le (by omega) hend
  rw [withinRoom, hbeyond]
  dsimp only
  split_ifs with hover hsome
  · refine .inr ⟨hpiece.take _, hge, ?_, ?_⟩
    · rw [List.length_take]
      omega
    · rw [List.length_take]
      omega
  · exact .inl rfl
  · exact .inr ⟨hpiece, hge, by dsimp only; omega, Nat.le_refl _⟩

/-- Whatever the segment, what is left of it is new and fits. -/
theorem adjust_spec (hpiece : Piece stream seq data pos) (hnxt : r.rcvNxt = UInt32.ofNat taken)
    (hnew : pos + data.length < taken + 2 ^ 31) (hold : taken < pos + 2 ^ 31) :
    (r.adjust seq data).2 = [] ∨
      ∃ pos', Adjusted stream taken r (r.adjust seq data).1 (r.adjust seq data).2 pos' (pos + data.length) := by
  rw [adjust_eq]
  rcases behind_spec hpiece hnxt (by omega) hold with hnil | ⟨pos', hge, hnear, hpiece', hend⟩
  · left
    rw [hnil, withinRoom]
    dsimp only
    split_ifs
    · exact List.take_nil
    · rfl
    · rfl
  · refine (withinRoom_spec hpiece' hnxt hge (by omega)).imp_right fun hadj => ⟨pos', ?_⟩
    exact ⟨hadj.piece, hadj.new, hadj.fits, hadj.within.trans hend⟩

@[simp] theorem adjust_nil (r : Incoming) (seq : UInt32) : (r.adjust seq []).2 = [] := by
  have hbehind : (r.behind seq []).2 = [] := by
    rw [behind]
    dsimp only
    split_ifs
    · exact List.drop_nil
    · rfl
    · rfl
  rw [adjust_eq, hbehind, withinRoom]
  dsimp only
  split_ifs
  · exact List.take_nil
  · rfl
  · rfl

/-- A segment in sequence that fits stays as it is. -/
theorem adjust_inSequence (hseq : seq = r.rcvNxt) (hfits : data.length ≤ r.rbuf.getWriteRemaining)
    (hsmall : data.length < 2 ^ 32) : r.adjust seq data = (seq, data) := by
  have hself : smaller r.rcvNxt r.rcvNxt = false := by
    rw [← UInt32.ofNat_toNat (x := r.rcvNxt), smaller_ofNat (by omega) (by omega), decide_eq_false (Nat.lt_irrefl _)]
  have hbehind : r.behind seq data = (seq, data) := by
    rw [behind, hseq, hself]
    rfl
  have hbeyond : (seq + UInt32.ofNat data.length - r.rcvNxt).toNat = data.length := by
    rw [hseq, add_comm, add_sub_cancel_right, UInt32.toNat_ofNat_small hsmall]
  rw [adjust_eq, hbehind, withinRoom, hbeyond, if_neg (by omega)]

/-! Storing a piece. -/

/-- A segment is inserted at its position. -/
theorem insertSegment_ascending {P : Nat → RSegment → Prop} {lo : Nat} {x : RSegment} {l : List RSegment}
    (hl : Ascending P lo l) (hlo : lo ≤ pos) (hx : P pos x)
    (hsmaller : ∀ q y, lo ≤ q → P q y → smaller y.seq x.seq = decide (q < pos)) :
    Ascending P lo (insertSegment x l) := by
  induction l generalizing lo with
  | nil => exact ⟨pos, hlo, hx, trivial⟩
  | cons y l ih =>
    obtain ⟨q, hq, hy, hrest⟩ := hl
    rw [insertSegment, hsmaller q y hq hy]
    split_ifs with hlt
    · refine ⟨q, hq, hy, ih hrest (of_decide_eq_true hlt).le ?_⟩
      intro q' y' hq' hy'
      exact hsmaller q' y' (hq.trans hq') hy'
    · have hge := of_decide_eq_false (Bool.not_eq_true _ |>.mp hlt)
      exact ⟨pos, hlo, hx, q, by omega, hy, hrest⟩

/-- The incoming data but for rlist. -/
structure Front (p : Ledger) (delivered : List UInt8) (taken : Nat) (r : Incoming) : Prop where
  valid : r.rbuf.Valid
  small : r.rbuf.bufferLength ≤ maxWindow
  scale : r.rwndScale = 0
  nxt : r.rcvNxt = UInt32.ofNat taken
  octets : delivered ++ r.rbuf.contents = (p.stream.take taken).drop p.control
  bound : taken ≤ p.stream.length
  begun : p.control ≤ taken
  fin : r.rcvFin = 0 ∨ p.finished = true ∧ r.rcvFin = UInt32.ofNat p.stream.length

/-- The front of the room shows the stream, and becomes data. -/
theorem Front.consume (h : Front p delivered taken r) {lo n : Nat} {rbuf : PseudoTcpFifo} {rcvWnd : UInt32}
    (hstep : r.rbuf.consumeWriteBuffer n = some rbuf) (hreveals : Reveals r.rbuf.ahead p.stream taken lo (taken + n))
    (hlo : lo ≤ taken) (hbound : taken + n ≤ p.stream.length) :
    Front p delivered (taken + n) { r with rbuf := rbuf, rcvNxt := r.rcvNxt + UInt32.ofNat n, rcvWnd := rcvWnd } ∧
      rbuf.ahead = r.rbuf.ahead.drop n ∧ n ≤ r.rbuf.ahead.length := by
  obtain ⟨hvalid, hlong, hcontents, hahead⟩ := h.valid.consumed hstep
  obtain ⟨hn, -⟩ := PseudoTcpFifo.consumeWriteBuffer_step hstep
  refine ⟨{ h with
    valid := hvalid
    small := hlong.le.trans h.small
    nxt := UInt32.add_ofNat_of_eq h.nxt n
    octets := ?_
    bound := hbound
    begun := h.begun.trans (Nat.le_add_right _ _) }, hahead, by rw [h.valid.length_ahead]; exact hn⟩
  have hbegun := h.begun
  dsimp only
  rw [hcontents, ← List.append_assoc, h.octets, hreveals.take_eq hlo, List.take_add, List.drop_append_of_le_length]
  rw [List.length_take]
  omega

/-- What waits is taken as far as it joins. -/
theorem Front.recoverSegments (h : Front p delivered taken r) {lo : Nat} {l : List RSegment} {b : Bool}
    (hl : Ascending (Waits p.stream taken r.rbuf.ahead) lo l) (hnear : taken + r.rbuf.ahead.length + 1 < lo + 2 ^ 31)
    (hstep : r.recoverSegments l = some (r', b)) :
    ∃ taken', taken ≤ taken' ∧ Front p delivered taken' r' ∧
      Ascending (Waits p.stream taken' r'.rbuf.ahead) (taken' + 1) r'.rlist := by
  induction l generalizing r taken lo b with
  | nil =>
    obtain ⟨rfl, -⟩ := Prod.mk.inj (Option.some.inj hstep)
    exact ⟨taken, Nat.le_refl _, { h with }, trivial⟩
  | cons x l ih =>
    obtain ⟨pos, hlo, hx, hrest⟩ := hl
    have hsmall := h.small
    have hlen := h.valid.length_ahead
    have hfits := hx.fits
    rw [maxWindow] at hsmall
    rw [PseudoTcpFifo.getWriteRemaining] at hlen
    rw [Incoming.recoverSegments, h.nxt, hx.seq, UInt32.add_ofNat_of_eq rfl,
      smallerOrEqual_ofNat (by omega) (by omega), larger_ofNat (by omega) (by omega)] at hstep
    split_ifs at hstep with hle hnew
    · have hle := of_decide_eq_true hle
      have hnew := of_decide_eq_true hnew
      have hcount : (UInt32.ofNat (pos + x.len - taken)).toNat = pos + x.len - taken :=
        UInt32.toNat_ofNat_small (by omega)
      rw [UInt32.ofNat_sub_eq hnew.le] at hstep
      dsimp only at hstep
      rw [hcount, Option.bind_eq_bind] at hstep
      obtain ⟨rbuf, hconsume, hstep⟩ := Option.bind_eq_some_iff.mp hstep
      obtain ⟨⟨r'', b'⟩, hrecover, hlast⟩ := Option.bind_eq_some_iff.mp hstep
      obtain ⟨rfl, rfl⟩ := Prod.mk.inj (Option.some.inj hlast)
      have hend : taken + (pos + x.len - taken) = pos + x.len := by omega
      obtain ⟨hfront, hahead, hn⟩ := h.consume hconsume (hend.symm ▸ hx.reveals) hle (hend.symm ▸ hx.within)
      rw [h.nxt] at hfront
      have hrest' : Ascending (Waits p.stream (taken + (pos + x.len - taken)) rbuf.ahead) pos l := by
        rw [hahead]
        exact hrest.mono fun q y _ hy => hy.advance hn
      obtain ⟨taken', hle', hfront', hwaiting⟩ := ih hfront (hrest'.of_le hlo) (by dsimp only; rw [hahead, List.length_drop]; omega) hrecover
      exact ⟨taken', by omega, hfront', hwaiting⟩
    · exact ih h (hrest.of_le hlo) hnear hstep
    · have hgt := of_decide_eq_false (Bool.not_eq_true _ |>.mp hle)
      obtain ⟨rfl, rfl⟩ := Prod.mk.inj (Option.some.inj hstep)
      exact ⟨taken, Nat.le_refl _, { h with nxt := rfl }, pos, by omega, hx, hrest⟩

/-- With what waits behind it, the front is all of the incoming data. -/
theorem Front.receives (h : Front p delivered taken r)
    (hwaiting : Ascending (Waits p.stream taken r.rbuf.ahead) (taken + 1) r.rlist) : Receives p delivered taken r :=
  { h with
    bound := h.bound.trans (Nat.le_add_right _ _)
    waiting := hwaiting
    quiet := fun hlt => absurd hlt (Nat.not_lt.mpr h.begun) }

/-- A piece is written at its place in the room. -/
theorem Front.write (h : Front p delivered taken r) {end_ : Nat} (hadj : Adjusted p.stream taken r seq data pos end_) :
    Front p delivered taken { r with rbuf := (r.rbuf.writeOffset data (pos - taken)).1 } ∧
      (r.rbuf.writeOffset data (pos - taken)).1.ahead = r.rbuf.ahead.overwrite (pos - taken) data := by
  have hw := h.valid.writeOffset data (pos - taken)
  have hfits := hadj.fits
  have hnew := hadj.new
  obtain ⟨hcontents, hahead⟩ := hw.ahead h.valid (by omega)
  refine ⟨{ h with valid := hw.valid, small := hw.bufferLength.le.trans h.small, octets := ?_ }, hahead⟩
  dsimp only
  rw [hcontents]
  exact h.octets

theorem Receives.front (h : Receives p delivered taken r) (hbegun : p.control ≤ taken) (hbound : taken ≤ p.stream.length) :
    Front p delivered taken r :=
  { h with bound := hbound, begun := hbegun }

/-- What storing a piece leaves: the front has moved, behind the piece where it was in sequence. -/
def Stored (p : Ledger) (delivered : List UInt8) (taken : Nat) (r r' : Incoming) (seq : UInt32) (data : List UInt8) : Prop :=
  ∃ taken', taken ≤ taken' ∧ Receives p delivered taken' r' ∧ (seq = r.rcvNxt → taken + data.length ≤ taken') ∧
    (data ≠ [] → taken' ≤ p.stream.length)

theorem Stored.nothing (h : Receives p delivered taken r) (hnil : data = []) : Stored p delivered taken r r seq data :=
  ⟨taken, Nat.le_refl _, h, fun _ => by rw [hnil]; exact Nat.le_refl _, fun hne => absurd hnil hne⟩

/-- A piece of the stream is stored: in sequence it is taken, with what it joins, and otherwise it waits. -/
theorem Receives.store (h : Receives p delivered taken r) {end_ : Nat} (hadj : Adjusted p.stream taken r seq data pos end_)
    (hbegun : p.control ≤ taken) {bNewData recovered : Bool} (hstep : r.store seq data false = some (r', bNewData, recovered)) :
    Stored p delivered taken r r' seq data := by
  rw [Incoming.store] at hstep
  split at hstep
  · next hnil =>
    obtain ⟨rfl, -⟩ := Prod.mk.inj (Option.some.inj hstep)
    exact .nothing h hnil
  next hsome =>
  rw [if_neg Bool.false_ne_true] at hstep
  have hpiece := hadj.piece
  have hnew := hadj.new
  have hfits := hadj.fits
  have hpos := List.length_pos_of_ne_nil hsome
  have hroom := h.valid.length_ahead
  have hsmall := h.small
  rw [maxWindow] at hsmall
  rw [PseudoTcpFifo.getWriteRemaining] at hroom hfits
  have hend := hpiece.2.1
  have hoffset : (seq - r.rcvNxt).toNat = pos - taken := by
    rw [hpiece.1, h.nxt]
    exact UInt32.toNat_ofNat_sub_of_le hnew (by omega)
  rw [hoffset] at hstep
  have hfront := h.front hbegun (by omega)
  obtain ⟨hfront', hahead⟩ := hfront.write hadj
  have hover : pos - taken + data.length ≤ r.rbuf.ahead.length := by omega
  have hwaiting : Ascending (Waits p.stream taken (r.rbuf.writeOffset data (pos - taken)).1.ahead) (taken + 1) r.rlist := by
    rw [hahead]
    refine h.waiting.mono fun q x _ hx => ⟨hx.seq, hx.within, ?_, hx.reveals.overwrite hnew hover hpiece.2.2⟩
    rw [List.length_overwrite hover]
    exact hx.fits
  have hreveals := reveals_overwrite hnew hover hpiece.2.2
  rw [← hahead] at hreveals
  have hroom' : (r.rbuf.writeOffset data (pos - taken)).1.ahead.length = r.rbuf.ahead.length := by
    rw [hahead, List.length_overwrite hover]
  dsimp only at hstep
  split at hstep
  · cases hstep
  split at hstep
  · next hseq =>
    have hat : pos = taken :=
      UInt32.ofNat_inj_near (hpiece.1.symm.trans (hseq.trans h.nxt)) (by omega) (by omega)
    subst hat
    rw [Option.bind_eq_bind] at hstep
    obtain ⟨rbuf, hconsume, hstep⟩ := Option.bind_eq_some_iff.mp hstep
    obtain ⟨⟨r'', b⟩, hrecover, hlast⟩ := Option.bind_eq_some_iff.mp hstep
    obtain ⟨rfl, -⟩ := Prod.mk.inj (Option.some.inj hlast)
    obtain ⟨hfront'', hahead', hn⟩ := hfront'.consume hconsume hreveals (Nat.le_refl _) hend
    dsimp only at hahead' hn
    have hrest : Ascending (Waits p.stream (pos + data.length) rbuf.ahead) (pos + 1) r.rlist := by
      rw [hahead']
      exact hwaiting.mono fun q x _ hx => hx.advance hn
    obtain ⟨taken', hle, hfront''', hwaiting'⟩ := hfront''.recoverSegments hrest
      (by dsimp only; rw [hahead', List.length_drop]; omega) hrecover
    exact ⟨taken', by omega, hfront'''.receives hwaiting', fun _ => hle, fun _ => hfront'''.bound⟩
  · next hseq =>
    obtain ⟨rfl, -⟩ := Prod.mk.inj (Option.some.inj hstep)
    have hne : pos ≠ taken := by
      rintro rfl
      exact hseq (hpiece.1.trans h.nxt.symm)
    have hinsert := insertSegment_ascending (x := ⟨seq, data.length⟩) hwaiting (by omega : taken + 1 ≤ pos)
      ⟨hpiece.1, hend, by rw [hroom']; dsimp only; omega, hreveals⟩ fun q y hq hy => by
        have hfits' := hy.fits
        rw [hy.seq, hpiece.1]
        exact smaller_ofNat (by omega) (by omega)
    exact ⟨taken, Nat.le_refl _, Front.receives { hfront' with } hinsert, fun hseq' => absurd hseq' hseq,
      fun _ => hfront.bound⟩

theorem drop_take_nil (stream : List UInt8) {taken control : Nat} (h : taken ≤ control) :
    (stream.take taken).drop control = [] :=
  List.drop_of_length_le ((List.length_take_le ..).trans h)

/-- A piece of the connect message is only counted. -/
theorem Receives.ignore (h : Receives p delivered taken r) {end_ : Nat} (hadj : Adjusted p.stream taken r seq data pos end_)
    (hcontrol : end_ ≤ p.control) {bNewData recovered : Bool} (hstep : r.store seq data true = some (r', bNewData, recovered)) :
    Stored p delivered taken r r' seq data := by
  have hend := hadj.piece.2.1
  have hnew := hadj.new
  rw [Incoming.store] at hstep
  split at hstep
  · next hnil =>
    obtain ⟨rfl, -⟩ := Prod.mk.inj (Option.some.inj hstep)
    exact .nothing h hnil
  next hsome =>
  rw [if_pos rfl] at hstep
  obtain ⟨hlast, -⟩ := Prod.mk.inj (Option.some.inj hstep)
  split at hlast
  swap
  · next hseq =>
    subst hlast
    exact ⟨taken, Nat.le_refl _, h, fun hseq' => absurd hseq' hseq, fun _ => by omega⟩
  next hseq =>
  subst hlast
  have hpos := List.length_pos_of_ne_nil hsome
  have hwithin := hadj.within
  have hfits := hadj.fits
  have hsmall := h.small
  rw [maxWindow] at hsmall
  rw [PseudoTcpFifo.getWriteRemaining] at hfits
  have hat : pos = taken :=
    UInt32.ofNat_inj_near (hadj.piece.1.symm.trans (hseq.trans h.nxt)) (by omega) (by omega)
  have hquiet := h.quiet (by omega)
  refine ⟨taken + data.length, Nat.le_add_right _ _, { h with
    nxt := UInt32.add_ofNat_of_eq h.nxt data.length
    octets := ?_
    bound := by omega
    waiting := ?_
    quiet := fun _ => hquiet }, fun _ => Nat.le_refl _, fun _ => by omega⟩
  · rw [drop_take_nil p.stream (by omega), ← drop_take_nil p.stream (by omega : taken ≤ p.control)]
    exact h.octets
  · dsimp only
    rw [hquiet]
    trivial

/-- A FIN is taken behind all of the stream. -/
theorem Receives.takeFin (h : Receives p delivered taken r) (hfinished : p.finished = true) (hall : taken = p.stream.length) :
    Receives p delivered (taken + 1) { r with rcvNxt := r.rcvNxt + 1 } := by
  have hquiet : r.rlist = [] := by
    refine h.waiting.eq_nil fun q x hq hx => ?_
    have hend := hx.within
    omega
  refine { h with
    nxt := UInt32.add_ofNat_of_eq h.nxt 1
    octets := ?_
    bound := by rw [hall, if_pos hfinished]
    waiting := ?_
    quiet := fun _ => hquiet }
  · have hoctets := h.octets
    rw [List.take_of_length_le (by omega)] at hoctets ⊢
    exact hoctets
  · dsimp only
    rw [hquiet]
    trivial

/-- The peer queues more. -/
theorem Receives.grow {p' : Ledger} (h : Receives p delivered taken r) (hle : p.Extends p')
    (hcontrol : p.control ≤ p.stream.length) (hcontrol' : p'.control ≤ p'.stream.length) : Receives p' delivered taken r := by
  have hlen := hle.stream.length_le
  have hbound := h.bound
  have hcases : p.stream = [] ∧ taken = 0 ∨ p'.control = p.control ∧
      (taken ≤ p.stream.length ∨ p'.stream = p.stream) := by
    by_cases hfinished : p.finished = true
    · obtain ⟨-, hsame⟩ := hle.finished hfinished
      refine .inr ⟨?_, .inr hsame⟩
      by_cases hnil : p.stream = []
      · rw [hsame, hnil] at hcontrol'
        rw [hnil] at hcontrol
        rw [Nat.le_zero.mp hcontrol, Nat.le_zero.mp hcontrol']
      · exact hle.control hnil
    · rw [if_neg hfinished] at hbound
      by_cases hnil : p.stream = []
      · refine .inl ⟨hnil, ?_⟩
        rw [hnil] at hbound
        exact Nat.le_zero.mp hbound
      · exact .inr ⟨hle.control hnil, .inl hbound⟩
  refine { h with
    octets := h.octets.trans ?_
    bound := ?_
    waiting := h.waiting.mono fun q x _ hx =>
      ⟨hx.seq, hx.within.trans hlen, hx.fits, hx.reveals.grow hle.stream hx.within⟩
    quiet := ?_
    fin := ?_ }
  · rcases hcases with ⟨-, rfl⟩ | ⟨hsame, hin | hstream⟩
    · rw [List.take_zero, List.take_zero, List.drop_nil, List.drop_nil]
    · obtain ⟨rest, hrest⟩ := hle.stream
      rw [hsame, ← hrest, List.take_append_of_le_length hin]
    · rw [hsame, hstream]
  · by_cases hfinished : p.finished = true
    · obtain ⟨hfinished', hsame⟩ := hle.finished hfinished
      rw [if_pos hfinished] at hbound
      rw [if_pos hfinished', hsame]
      exact hbound
    · rw [if_neg hfinished] at hbound
      omega
  · intro hlt
    rcases hcases with ⟨hnil, rfl⟩ | ⟨hsame, -⟩
    · refine h.waiting.eq_nil fun q x hq hx => ?_
      have hend := hx.within
      rw [hnil, List.length_nil] at hend
      omega
    · exact h.quiet (hsame ▸ hlt)
  · refine h.fin.imp_right fun ⟨hfinished, hfin⟩ => ?_
    obtain ⟨hfinished', hsame⟩ := hle.finished hfinished
    exact ⟨hfinished', hsame ▸ hfin⟩

/-- What the application reads leaves the buffer. -/
theorem Receives.reads (h : Receives p delivered taken r) {len : Nat} {bytes : List UInt8}
    (hreads : PseudoTcpSocket.Reads r len r' bytes) : Receives p (delivered ++ bytes) taken r' := by
  cases hreads with
  | nothing =>
    rw [List.append_nil]
    exact h
  | read rcvWnd =>
    obtain ⟨hvalid, hlong, hbytes, hcontents⟩ := h.valid.read len
    have hahead := h.valid.ahead_read len
    refine { h with
      valid := hvalid
      small := hlong.le.trans h.small
      octets := ?_
      waiting := ?_ }
    · dsimp only
      rw [hbytes, hcontents, List.append_assoc, List.take_append_drop]
      exact h.octets
    · dsimp only
      rw [hahead]
      refine h.waiting.mono fun q x _ hx => ⟨hx.seq, hx.within, ?_, hx.reveals.extend hx.fits⟩
      have hfits := hx.fits
      rw [List.length_append]
      omega

end Incoming
end CarrierSdk
